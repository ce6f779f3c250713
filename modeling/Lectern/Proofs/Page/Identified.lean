import Lectern.Proofs.Page.Navigation
import Lectern.Proofs.Page.Pages
import Lectern.Proofs.Source.Shape

/-!
# The ids of an article

The elements on the page of an article that have an id are its bars, its body, its table of
contents, and the headings of its sections, those of the document at all depths and in its order
(`identified_articleTrees`). In a document whose sections have different numbers no two of them
have the same id (`nodup_ids`).
-/

namespace Lectern

open Text Markup

namespace Markup

/-! ## Elements with an id -/

/-- Has the element an id? -/
def hasId (m : Markup) : Bool := (m.attribute? "id").isSome

/-- The elements with an id among parts of a page. -/
def identified (parts : List Markup) : List Markup := (allElements parts).filter hasId

theorem hasId_element (tag : String) (attributes : List (String × List Char))
    (body : List Markup) :
    (element tag attributes body).hasId = (attributes.lookup "id").isSome := Option.isSome_map

theorem hasId_void (tag : String) (attributes : List (String × List Char)) :
    (void tag attributes).hasId = (attributes.lookup "id").isSome := Option.isSome_map

@[simp] theorem identified_nil : identified [] = [] := rfl

theorem identified_cons (m : Markup) (r : List Markup) :
    identified (m :: r) = m.elements.filter hasId ++ identified r := by
  rw [identified, allElements_cons, List.filter_append]
  rfl

@[simp] theorem identified_text (s : List Char) (r : List Markup) :
    identified (text s :: r) = identified r := rfl

@[simp] theorem identified_void (tag : String) (attributes : List (String × List Char))
    (r : List Markup) :
    identified (void tag attributes :: r) =
      (if (attributes.lookup "id").isSome then [void tag attributes] else []) ++ identified r := by
  rw [identified_cons, elements_void, List.filter_cons, hasId_void]
  rfl

@[simp] theorem identified_element (tag : String) (attributes : List (String × List Char))
    (body r : List Markup) :
    identified (element tag attributes body :: r) =
      (if (attributes.lookup "id").isSome then [element tag attributes body] else []) ++
        identified body ++ identified r := by
  rw [identified_cons, elements_element, List.filter_cons, hasId_element]
  split_ifs <;> rfl

@[simp] theorem identified_append (l r : List Markup) :
    identified (l ++ r) = identified l ++ identified r := by
  rw [identified, allElements_append, List.filter_append]
  rfl

theorem identified_flatMap {α : Type} (f : α → List Markup) (l : List α) :
    identified (l.flatMap f) = l.flatMap fun a => identified (f a) := by
  rw [identified, allElements_flatMap, List.filter_flatMap]
  rfl

theorem identified_flatMap_eq_nil {α : Type} {f : α → List Markup} {l : List α}
    (h : ∀ a ∈ l, identified (f a) = []) : identified (l.flatMap f) = [] := by
  rw [identified_flatMap]
  exact List.flatMap_eq_nil_iff.2 h

/-- What has a given id is among what has one. -/
theorem filter_hasAttribute_id (v : List Char) (parts : List Markup) :
    (allElements parts).filter (·.hasAttribute "id" v) =
      (identified parts).filter (·.hasAttribute "id" v) := by
  rw [identified, List.filter_filter]
  refine List.filter_congr fun m _ => ?_
  cases h : m.attribute? "id" <;> simp [hasAttribute, hasId, h]

/-- The headings with an id are among what has one. -/
theorem headings_eq (page : List Markup) :
    headings page = (identified page).filterMap heading? := by
  rw [headings, identified]
  induction allElements page with
  | nil => rfl
  | cons m r ih =>
    rw [List.filterMap_cons, List.filter_cons, ih]
    by_cases h : m.hasId
    · rw [if_pos h, List.filterMap_cons]
    · have hnone : m.heading? = none := by
        rw [heading?, Option.not_isSome_iff_eq_none.1 h]
        split_ifs <;> rfl
      rw [if_neg h, hnone]

/-- Where all values differ, an element is found by its own. -/
theorem filter_eq_singleton {α β : Type} [DecidableEq β] {f : α → β} {l : List α} {a : α}
    (h : (l.map f).Nodup) (ha : a ∈ l) : l.filter (fun b => f b = f a) = [a] := by
  induction l with
  | nil => cases ha
  | cons b r ih =>
    obtain ⟨hb, hr⟩ := List.nodup_cons.1 h
    rcases List.mem_cons.1 ha with rfl | ha
    · have hnil : r.filter (fun b => f b = f a) = [] := by
        refine List.filter_eq_nil_iff.2 fun c hc heq => hb ?_
        rw [← of_decide_eq_true heq]
        exact List.mem_map_of_mem hc
      rw [List.filter_cons, if_pos (decide_eq_true rfl), hnil]
    · have hne : f b ≠ f a := fun heq => hb (heq ▸ List.mem_map_of_mem ha)
      rw [List.filter_cons_of_neg (by simpa using hne), ih hr ha]

end Markup

variable (r : List Markup)

@[simp] theorem lookup_id (name : String) (v : List Char) (r : List (String × List Char)) :
    ((name, v) :: r).lookup "id" = if "id" = name then some v else r.lookup "id" := by
  rw [List.lookup_cons]
  by_cases h : "id" = name
  · rw [if_pos h, beq_iff_eq.2 h]
  · rw [if_neg h, beq_false_of_ne h]

@[simp] theorem lookup_id_fixed (name v : String) (r : List (String × List Char)) :
    (fixed name v :: r).lookup "id" = if "id" = name then some v.toList else r.lookup "id" :=
  lookup_id name v.toList r

@[simp] theorem identified_line (n : Nat) : identified (line n :: r) = identified r := rfl

@[simp] theorem identified_gap (n : Nat) : identified (gap n :: r) = identified r := rfl

@[simp] theorem identified_value (s : String) : identified (value s :: r) = identified r := rfl

@[simp] theorem identified_words (s : String) : identified (words s :: r) = identified r := rfl

/-! ## The headings of sections -/

/-- The heading of a section. -/
def Section.headingAt (level : Nat) (s : Section) : Markup :=
  .element (headingTag level) [("id", anchor s.number)] [value s.title]

/-- The headings of sections within others. -/
def Element.headings (elems : List Element) : List Markup :=
  (Element.allSections elems).map fun s => s.headingAt (s.number.length + 1)

/-- The headings of a section of an article and of those below it. -/
def Section.headings (s : Section) : List Markup := s.headingAt 2 :: Element.headings s.elems

theorem shown_value (tag : String) (attributes : List (String × List Char)) (s : String) :
    (element tag attributes [value s]).shown = s.toList := by
  have hsource : allSource [value s] = escapeStrict s.toList := List.append_nil _
  show decode (allSource [value s]) = s.toList
  rw [hsource, decode_escapeStrict]

theorem isHeading_headingTag (level : Nat) (attributes : List (String × List Char))
    (body : List Markup) : (element (headingTag level) attributes body).isHeading = true := by
  have hdigits : (Nat.toDigits 10 level).all Char.isDigit = true :=
    List.all_eq_true.2 fun c hc => Nat.isDigit_of_mem_toDigits (by decide) (by decide) hc
  have hne : (Nat.toDigits 10 level).isEmpty = false :=
    List.isEmpty_eq_false_iff.2 Nat.toDigits_ne_nil
  rw [isHeading, headingTag, String.toList_ofList]
  show (!(Nat.toDigits 10 level).isEmpty && (Nat.toDigits 10 level).all Char.isDigit) = true
  rw [hne, hdigits]
  rfl

theorem attribute?_headingAt (level : Nat) (s : Section) :
    (s.headingAt level).attribute? "id" = some (place s.number) :=
  congrArg some (decode_anchor s.number)

/-- The heading of a section has its place and shows its title. -/
theorem heading?_headingAt (level : Nat) (s : Section) :
    (s.headingAt level).heading? = some (place s.number, s.title.toList) := by
  have hshown : (s.headingAt level).shown = s.title.toList := shown_value ..
  have hheading : (s.headingAt level).isHeading = true := isHeading_headingTag ..
  rw [heading?, hheading, if_pos rfl, attribute?_headingAt, hshown]
  rfl

/-! ## The ids among elements -/

theorem identified_markup (i : Inline) : identified [i.markup] = [] := by
  have hspan (s : Span) : identified [s.markup] = [] := by cases s <;> simp [Span.markup]
  cases i with
  | span s => exact hspan s
  | link url label =>
    have hlabel : identified (label.map Span.markup) = [] := by
      rw [List.map_eq_flatMap]
      exact identified_flatMap_eq_nil fun s _ => hspan s
    simp [Inline.markup, hlabel]

/-- Inline markup has no ids. -/
theorem identified_styled (s : String) : identified (styled s) = [] := by
  rw [styled, List.map_eq_flatMap]
  exact identified_flatMap_eq_nil fun i _ => identified_markup i

theorem lookup_sizeAttribute {name : String} (h : "id" ≠ name) (n : Option Nat)
    (r : List (String × List Char)) : (sizeAttribute name n ++ r).lookup "id" = r.lookup "id" := by
  rcases n with _ | _ | n
  · rfl
  · rfl
  · rw [sizeAttribute, List.singleton_append, lookup_id, if_neg h]

/-- Neither excerpts nor their parts have ids. -/
theorem identified_codeTrees (play : Bool) (c : Code) : identified (c.trees play) = [] := by
  have hhidden (s : String) : identified (hiddenPart s) = [] := by
    rw [hiddenPart]
    split_ifs <;> simp
  have hlines : identified (c.lines.flatMap fun l =>
      [.element "span" [("num", Nat.toDigits 10 l.number)] [value l.text], line 0]) = [] :=
    identified_flatMap_eq_nil fun l _ => by simp
  have hpre : (if c.numbers then [fixed "class" "numbers"] else []).lookup "id" = none := by
    split_ifs <;> rfl
  have hdiv (v : List Char) : (("class", v) :: if c.edit then
      [fixed "contenteditable" "true", fixed "spellcheck" "false"] else []).lookup "id" = none := by
    split_ifs <;> rfl
  rw [Code.trees, identified_line, identified_element, hdiv, identified_append, identified_append,
    identified_element, hpre, hlines, hhidden, hhidden]
  rfl

/-- An element that is not a section has no ids. -/
theorem identified_trees (play : Bool) {e : Element} (h : e.section? = none) :
    identified (e.trees play) = [] := by
  have hsize (width height : Option Nat) :
      (sizeAttribute "height" height ++ sizeAttribute "width" width).lookup "id" = none := by
    rw [lookup_sizeAttribute (by decide), ← List.append_nil (sizeAttribute ..),
      lookup_sizeAttribute (by decide), List.lookup_nil]
  cases e with
  | sub s => cases h
  | text lines pre =>
    have hlines : identified (lines.flatMap fun l => line 2 :: styled l) = [] :=
      identified_flatMap_eq_nil fun l _ => identified_styled l
    cases pre with
    | true => simp [Element.trees]
    | false => simp [Element.trees, hlines]
  | list bullets =>
    have hbullets : identified (bullets.flatMap fun b =>
        [line 2, .element "li" [] (styled b)]) = [] :=
      identified_flatMap_eq_nil fun b _ => by simp [identified_styled]
    simp [Element.trees, hbullets]
  | code c => exact identified_codeTrees play c
  | image url width height => simp [Element.trees, hsize]
  | iframe url width height => simp [Element.trees, hsize]
  | link url label => simp [Element.trees, identified_styled]
  | caption s => simp [Element.trees, identified_styled]
  | html s => rfl

mutual

theorem identified_sub (play : Bool) : ∀ s : Section,
    identified ((Element.sub s).trees play) =
      s.headingAt (s.number.length + 1) :: Element.headings s.elems
  | ⟨number, title, elems, _, _, _⟩ => by
    rw [Element.trees, identified_append, identified_allTrees play elems]
    simp [Section.headingAt]

/-- Elements have the ids of their sections. -/
theorem identified_allTrees (play : Bool) (elems : List Element) :
    identified (Element.allTrees play elems) = Element.headings elems := by
  cases elems with
  | nil => rfl
  | cons e r =>
    rw [Element.allTrees, identified_append, identified_allTrees play r]
    cases e with
    | sub s =>
      rw [identified_sub play s, Element.headings, Element.headings, Element.headings,
        allSections_cons_sub, withBelow_eq, List.map_append, List.map_cons]
    | _ =>
      rw [identified_trees play rfl, Element.headings, Element.headings,
        allSections_cons_of_section?_eq_none rfl]
      rfl

end

/-! ## The ids of an article -/

variable (o : Options) (d : Document)

theorem identified_ifText {s : Option String} {f : String → List Markup}
    (h : ∀ s, identified (f s) = []) : identified (ifText s f) = [] := by
  cases s with
  | none => rfl
  | some s =>
    rw [ifText_some]
    split_ifs
    · rfl
    · exact h s

theorem identified_notesTrees (s : Section) : identified (notesTrees o s) = [] := by
  have hnotes : identified (s.notes.flatMap fun n => [line 10, .element "p" [] (styled n)]) = [] :=
    identified_flatMap_eq_nil fun n _ => by simp [identified_styled]
  rw [notesTrees]
  split_ifs
  · simp [hnotes]
  · rfl

theorem headings_eq_nil {elems : List Element} (h : ∀ e ∈ elems, e.section? = none) :
    Element.headings elems = [] := by
  rw [Element.headings, allSections_eq_flatMap, List.filterMap_eq_nil_iff.2 h]
  rfl

variable {d}

/-- What is said about authors has no ids if there are no sections in it. -/
theorem identified_authorsTrees (h : ∀ a ∈ d.authors, ∀ e ∈ a.elems, e.section? = none)
    (style : String) : identified (authorsTrees o d style) = [] :=
  identified_flatMap_eq_nil fun a ha => by
    simp [identified_allTrees, headings_eq_nil (h a ha)]

theorem identified_creditsTrees (h : ∀ a ∈ d.authors, ∀ e ∈ a.elems, e.section? = none) :
    identified (creditsTrees o d) = [] := by
  rw [creditsTrees]
  split_ifs
  · rfl
  · simp [identified_authorsTrees o h]

variable (d)

theorem identified_headTrees (sheet : String) (scripts : List String) :
    identified (headTrees sheet scripts) = [] := by
  have hscripts : identified (scripts.flatMap fun script =>
      [line 4, .element "script" [fixed "src" script] []]) = [] :=
    identified_flatMap_eq_nil fun script _ => by simp
  simp [headTrees, hscripts]

theorem identified_descriptionTrees : identified (descriptionTrees d) = [] := by
  have hsummary : identified (ifText d.summary fun s =>
      [line 4, .void "meta" [fixed "name" "description", ("content", escapeStrict s.toList)]]) =
        [] := identified_ifText fun s => by simp
  rw [descriptionTrees, identified_append, hsummary]
  split_ifs
  · rfl
  · simp

/-- A section of an article has the ids of the headings in it. -/
theorem identified_sectionTrees (s : Section) : identified (sectionTrees o s) = s.headings := by
  simp [sectionTrees, identified_allTrees, identified_notesTrees, Section.headings,
    Section.headingAt]

/-- The entry of a section in the table of contents. -/
def entryTrees (number : List Nat) (title : String) : List Markup :=
  [line 12, .element "li" [] [.element "a" [("href", '#' :: anchor number)] [value title]]]

/-- The list of the entries below another one, if there are any. -/
def listBelow : List Markup → List Markup
  | [] => []
  | m :: r => [line 12, .element "ul" [] (m :: r)]

theorem contents_mk (number : List Nat) (title : String) (elems : List Element)
    (notes classes styles : List String) :
    (⟨number, title, elems, notes, classes, styles⟩ : Section).contents =
      entryTrees number title ++ listBelow (Element.allContents elems) := by
  rw [Section.contents]
  cases Element.allContents elems <;> rfl

theorem identified_listBelow (l : List Markup) : identified (listBelow l) = identified l := by
  cases l with
  | nil => rfl
  | cons m r =>
    rw [listBelow, identified_line, identified_element, identified_nil, List.append_nil]
    rfl

mutual

theorem identified_contents : ∀ s : Section, identified s.contents = []
  | ⟨number, title, elems, _, _, _⟩ => by
    have hentry : identified (entryTrees number title) = [] := by simp [entryTrees]
    rw [contents_mk, identified_append, hentry, identified_listBelow,
      identified_allContents elems]
    rfl

/-- The entries of the table of contents have no ids. -/
theorem identified_allContents (elems : List Element) :
    identified (Element.allContents elems) = [] := by
  cases elems with
  | nil => rfl
  | cons e r =>
    rw [Element.allContents, identified_append, identified_allContents r]
    cases e with
    | sub s => rw [Element.contents, identified_contents s]; rfl
    | _ => rfl

end

/-- What the table of contents holds. -/
def tableBody : List Markup :=
  [line 10, .element "ul" [fixed "class" "toc"] (d.sections.flatMap Section.contents ++ [line 10]),
    line 8]

/-- The table of contents, if there are sections. -/
def tableTrees : List Markup :=
  if d.sections.isEmpty then [] else [.element "div" [fixed "id" "toc"] (tableBody d)]

theorem identified_contentsTrees : identified (contentsTrees d) = tableTrees d := by
  have hentries : identified (d.sections.flatMap Section.contents) = [] :=
    identified_flatMap_eq_nil fun s _ => identified_contents s
  rw [contentsTrees, tableTrees]
  split_ifs
  · rfl
  · simp [tableBody, hentries]

/-- The title in the bar at the top of an article. -/
def titleBar : Markup :=
  .element "div" [fixed "id" "heading"]
    (value d.title :: ifText d.subtitle fun s => [words " - ", value s])

theorem identified_topBar : identified [topBar d] = [topBar d, titleBar d] := by
  have hsubtitle : identified (ifText d.subtitle fun s => [words " - ", value s]) = [] :=
    identified_ifText fun s => rfl
  simp [topBar, titleBar, hsubtitle]

theorem identified_articleFoot : identified [articleFoot d] = [articleFoot d] := by
  have hurls : identified (d.oldUrls.flatMap fun url => [line 8,
      .element "p" [fixed "class" "old-url"] [words "Previously published at ", value url]]) =
        [] := identified_flatMap_eq_nil fun url _ => by simp
  simp [articleFoot, hurls]

variable {d}

theorem identified_articleBody (h : ∀ a ∈ d.authors, ∀ e ∈ a.elems, e.section? = none) :
    identified [articleBody o d] =
      articleBody o d :: (tableTrees d ++ d.sections.flatMap Section.headings) := by
  have hsubtitle : identified (ifText d.subtitle fun s =>
      [.void "br" [], .element "small" [] [value s]]) = [] := identified_ifText fun s => by simp
  have htime : identified (ifText d.displayTime fun s =>
      [line 8, .element "p" [fixed "class" "date"] [value s]]) = [] :=
    identified_ifText fun s => by simp
  have hsections : identified (d.sections.flatMap (sectionTrees o)) =
      d.sections.flatMap Section.headings := by
    rw [identified_flatMap, funext (identified_sectionTrees o)]
  simp [articleBody, hsubtitle, htime, hsections, identified_contentsTrees,
    identified_creditsTrees o h]

/-- The elements with an id on the page of an article: its parts, and the headings of all its
sections. -/
theorem identified_articleTrees (h : ∀ a ∈ d.authors, ∀ e ∈ a.elems, e.section? = none) :
    identified (articleTrees o d) =
      topBar d :: titleBar d :: articleBody o d ::
        (tableTrees d ++ d.sections.flatMap Section.headings ++ [articleFoot d]) := by
  have hhead : identified ([line 4, .element "title" [] [value d.title]] ++
      headTrees "static/article.css" ["static/play.js"] ++ descriptionTrees d ++ [line 2]) =
        [] := by
    simp [identified_headTrees, identified_descriptionTrees]
  have hbody : identified [line 4, topBar d, gap 4, articleBody o d, gap 4, articleFoot d, line 2] =
      identified [topBar d] ++ identified [articleBody o d] ++ identified [articleFoot d] := by
    rw [← identified_append, ← identified_append]
    rfl
  have hhtml (head : List Markup) (body : List Markup) :
      identified [line 0, .element "html" []
        [line 2, .element "head" [] head, line 2, .element "body" [] body, line 0]] =
          identified head ++ identified body := by
    simp
  rw [articleTrees, hhtml, hhead, hbody, identified_topBar, identified_articleBody o h,
    identified_articleFoot]
  simp

/-! ## The places of an article -/

/-- The headings of all sections, read in one way. -/
theorem map_headings {α : Type} {f : Markup → α} {g : Section → α}
    (h : ∀ level s, f (s.headingAt level) = g s) :
    (d.sections.flatMap Section.headings).map f = d.allSections.map g := by
  rw [Document.allSections, List.map_flatMap, List.map_flatMap]
  refine List.flatMap_congr fun s _ => ?_
  rw [Section.headings, Element.headings, withBelow_eq, List.map_cons, List.map_cons, h,
    List.map_map]
  exact congrArg _ (List.map_congr_left fun t _ => h _ t)

/-- The ids that are not places of sections. -/
def partIds : List (List Char) :=
  ["topbar".toList, "heading".toList, "page".toList, "toc".toList, "footer".toList]

theorem place_not_mem_partIds (number : List Nat) : place number ∉ partIds := by
  have hfirst : ∀ v ∈ partIds, v.head? ≠ some 'T' := by decide
  intro hmem
  exact hfirst _ hmem rfl

/-- An element with the id of a part of the page is no heading of a section. -/
theorem filter_headings {v : List Char} (hv : v ∈ partIds) :
    (d.sections.flatMap Section.headings).filter (·.hasAttribute "id" v) = [] := by
  refine List.filter_eq_nil_iff.2 fun m hm heq => ?_
  have hmem := List.mem_map_of_mem (f := (·.attribute? "id")) hm
  rw [map_headings attribute?_headingAt] at hmem
  obtain ⟨s, -, hs⟩ := List.mem_map.1 hmem
  obtain rfl := Option.some.inj (hs.trans (of_decide_eq_true heq))
  exact place_not_mem_partIds _ hv

/-- An article with sections has one table of contents, and one without has none. -/
theorem tables_articleTrees (h : ∀ a ∈ d.authors, ∀ e ∈ a.elems, e.section? = none) :
    tables (articleTrees o d) = tableTrees d := by
  have htable : (tableTrees d).filter (·.hasAttribute "id" "toc".toList) = tableTrees d := by
    rw [tableTrees]
    split_ifs <;> rfl
  have hbar : (topBar d).hasAttribute "id" "toc".toList = false := rfl
  have htitle : (titleBar d).hasAttribute "id" "toc".toList = false := rfl
  have hbody : (articleBody o d).hasAttribute "id" "toc".toList = false := rfl
  have hfoot : (articleFoot d).hasAttribute "id" "toc".toList = false := rfl
  rw [tables, filter_hasAttribute_id, identified_articleTrees o h, List.filter_cons, hbar,
    List.filter_cons, htitle, List.filter_cons, hbody, List.filter_append, List.filter_append,
    htable, filter_headings (by decide), List.filter_cons, hfoot]
  exact (List.append_nil _).trans (List.append_nil _)

/-- The headings on the page of an article with an id are those of its sections. -/
theorem headings_articleTrees (h : ∀ a ∈ d.authors, ∀ e ∈ a.elems, e.section? = none) :
    headings (articleTrees o d) =
      d.allSections.map fun s => (place s.number, s.title.toList) := by
  have htable : (tableTrees d).filterMap heading? = [] := by
    rw [tableTrees]
    split_ifs <;> rfl
  have hbar : (topBar d).heading? = none := rfl
  have htitle : (titleBar d).heading? = none := rfl
  have hbody : (articleBody o d).heading? = none := rfl
  have hfoot : (articleFoot d).heading? = none := rfl
  have hheadings : (d.sections.flatMap Section.headings).filterMap heading? =
      d.allSections.map fun s => (place s.number, s.title.toList) := by
    have hread (l : List Markup) : l.filterMap heading? = (l.map heading?).filterMap id := by
      rw [List.filterMap_map]
      rfl
    rw [hread, map_headings heading?_headingAt, List.filterMap_map]
    exact congrFun List.filterMap_eq_map _
  rw [headings_eq, identified_articleTrees o h]
  simp [hbar, htitle, hbody, hfoot, htable, hheadings]

/-- The sections of a document with different numbers have different places in its page. -/
theorem nodup_places (h : (d.allSections.map Section.number).Nodup) :
    (d.allSections.map fun s => place s.number).Nodup := by
  have hmap := h.map place_injective
  rwa [List.map_map] at hmap

/-- If the sections of an article have different numbers, no two elements on its page have the
same id. -/
theorem nodup_ids (h : ∀ a ∈ d.authors, ∀ e ∈ a.elems, e.section? = none)
    (hnumbers : (d.allSections.map Section.number).Nodup) :
    ((identified (articleTrees o d)).map (·.attribute? "id")).Nodup := by
  have hplaces : (d.allSections.map fun s => some (place s.number)).Nodup := by
    have hmap := (nodup_places hnumbers).map (Option.some_injective _)
    rwa [List.map_map] at hmap
  have hother : ∀ v ∈ partIds, some v ∉ d.allSections.map fun s => some (place s.number) := by
    intro v hv hmem
    obtain ⟨s, -, hs⟩ := List.mem_map.1 hmem
    obtain rfl := Option.some.inj hs
    exact place_not_mem_partIds _ hv
  have hbar : (topBar d).attribute? "id" = some "topbar".toList := rfl
  have htitle : (titleBar d).attribute? "id" = some "heading".toList := rfl
  have hbody : (articleBody o d).attribute? "id" = some "page".toList := rfl
  have hfoot : (articleFoot d).attribute? "id" = some "footer".toList := rfl
  rw [identified_articleTrees o h, List.map_cons, List.map_cons, List.map_cons, List.map_append,
    List.map_append, map_headings attribute?_headingAt, hbar, htitle, hbody, List.map_singleton,
    hfoot]
  have htable : ((tableTrees d).map (·.attribute? "id")).Sublist [some "toc".toList] := by
    rw [tableTrees]
    split_ifs
    · exact List.nil_sublist _
    · exact List.Sublist.refl _
  have hperm : (some "topbar".toList :: some "heading".toList :: some "page".toList ::
      ([some "toc".toList] ++ (d.allSections.map fun s => some (place s.number)) ++
        [some "footer".toList])).Perm
      (partIds.map some ++ d.allSections.map fun s => some (place s.number)) :=
    List.Perm.append_left (["topbar".toList, "heading".toList, "page".toList, "toc".toList].map some)
      List.perm_append_comm
  have hids : (partIds.map some ++ d.allSections.map fun s => some (place s.number)).Nodup := by
    refine List.nodup_append'.2 ⟨by decide, hplaces, fun id hid => ?_⟩
    obtain ⟨v, hv, rfl⟩ := List.mem_map.1 hid
    exact hother v hv
  apply List.Nodup.sublist _ (hperm.nodup_iff.2 hids)
  apply List.Sublist.cons_cons
  apply List.Sublist.cons_cons
  apply List.Sublist.cons_cons
  exact (htable.append_right _).append_right _

end Lectern
