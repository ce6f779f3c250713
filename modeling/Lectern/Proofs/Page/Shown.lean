import Lectern.Proofs.Page.Blocks
import Lectern.Proofs.Page.Rendered

/-!
# What pages show

A page is read again as what its document holds: a deck as its slides, an article as its body, each
with the blocks of the sections and the authors in their order, and nothing else between them
(`page_shows_document`).
-/

namespace Lectern

open Text Markup

/-! ## Reading pages -/

/-- A part of a slide or of the body of an article: a block, or what is said about an author. -/
inductive Part where
  | block (b : Block)
  | author (blocks : List Block)
deriving DecidableEq, Repr

namespace Markup

/-- Is it what is said about an author? -/
def isAuthor (m : Markup) : Bool :=
  m.hasTag "div" && (m.hasClass "presenter" || m.hasClass "author")

/-- The parts of a slide or an article that a part of a page is. -/
def parts (m : Markup) : List Part :=
  if m.isAuthor then [.author (allBlocks m.body)] else m.blocks.map .block

/-- The parts of a slide or an article that parts of a page are. -/
def allParts (l : List Markup) : List Part := l.flatMap parts

/-- What is in the one element with a property among parts that are nothing else, but for white
space and elements with another property. -/
def inside? (p beside : Markup → Bool) (l : List Markup) : Option (List Markup) :=
  match l.filter p with
  | [m] => if l.all fun n => p n || beside n || n.isSpace then some m.body else none
  | _ => none

/-- The body of a page. -/
def body? (page : List Markup) : Option (List Markup) :=
  (inside? (hasTag "html") (fun _ => false) page).bind (inside? (hasTag "body") (hasTag "head"))

/-- The slides of a deck. -/
def slides? (page : List Markup) : Option (List (List Part)) :=
  (body? page).bind fun body =>
    (inside? (hasTag "section") (hasAttribute "id" "help".toList) body).bind fun deck =>
      if holdsOnly "article" deck then some ((tagged "article" deck).map fun m => allParts m.body)
      else none

/-- Is it the bar above an article, or the one below it? -/
def isBar (m : Markup) : Bool :=
  m.hasAttribute "id" "topbar".toList || m.hasAttribute "id" "footer".toList

/-- The body of an article. -/
def article? (page : List Markup) : Option (List Part) :=
  (body? page).bind fun body =>
    (inside? (hasAttribute "id" "page".toList) isBar body).bind fun box =>
      (inside? (hasClass "container") (fun _ => false) box).map allParts

/-- What a page of a kind shows: the parts of each of its slides, or those of its body. -/
def shownIn? (k : Kind) (page : List Markup) : Option (List (List Part)) :=
  match k with
  | .slides => slides? page
  | .article => (article? page).map fun parts => [parts]

variable {l r : List Markup}

@[simp] theorem allParts_nil : allParts [] = [] := rfl

@[simp] theorem allParts_cons (m : Markup) (r : List Markup) :
    allParts (m :: r) = m.parts ++ allParts r := rfl

@[simp] theorem allParts_append (l r : List Markup) :
    allParts (l ++ r) = allParts l ++ allParts r := List.flatMap_append

theorem allParts_flatMap {α : Type} (f : α → List Markup) (l : List α) :
    allParts (l.flatMap f) = l.flatMap fun a => allParts (f a) := List.flatMap_assoc

theorem parts_of_not_isAuthor {m : Markup} (h : m.isAuthor = false) :
    m.parts = m.blocks.map .block := by
  rw [parts, h, if_neg Bool.false_ne_true]

theorem allParts_of_not_isAuthor (h : ∀ m ∈ l, m.isAuthor = false) :
    allParts l = (allBlocks l).map .block := by
  rw [allBlocks, List.map_flatMap]
  exact List.flatMap_congr fun m hm => parts_of_not_isAuthor (h m hm)

theorem allParts_atoms (m : Markup) : allParts m.atoms = m.parts := by
  cases m with
  | text s =>
    have hchars : ∀ m ∈ (text s).atoms, m.isAuthor = false := by
      intro m hm
      obtain ⟨c, -, rfl⟩ := List.mem_map.1 hm
      rfl
    rw [allParts_of_not_isAuthor hchars, allBlocks_atoms]
    rfl
  | element tag attributes body =>
    have hatomized : (atomized (.element tag attributes body)).parts =
        (element tag attributes body).parts := by
      have hblocks : (atomized (.element tag attributes body)).blocks =
        (element tag attributes body).blocks :=
          congrArg (fun b => [b]) (block_atomized (.element tag attributes body))
      rw [parts, isAuthor, hasTag_atomized, hasClass_atomized, hasClass_atomized, body_atomized,
        allBlocks_allAtoms, hblocks]
      rfl
    exact (List.append_nil _).trans hatomized
  | void _ _ => exact List.append_nil _

/-- The parts of a page do not depend on how its texts are cut. -/
theorem allParts_allAtoms (l : List Markup) : allParts (allAtoms l) = allParts l := by
  induction l with
  | nil => rfl
  | cons m r ih => rw [allAtoms, allParts_append, allParts_atoms, ih, allParts_cons]

@[simp] theorem parts_line (n : Nat) : (line n).parts = [] := by
  rw [parts_of_not_isAuthor rfl, blocks_line, List.map_nil]

@[simp] theorem parts_gap (n : Nat) : (gap n).parts = [] := by
  rw [parts_of_not_isAuthor rfl, blocks_gap, List.map_nil]

theorem isAuthor_of_ne {tag : String} (h : tag ≠ "div") (attributes : List (String × List Char))
    (body : List Markup) : (element tag attributes body).isAuthor = false := by
  simp [isAuthor, h]

theorem parts_of_ne {tag : String} (h : tag ≠ "div") (attributes : List (String × List Char))
    (body : List Markup) :
    (element tag attributes body).parts = [.block (element tag attributes body).block] :=
  parts_of_not_isAuthor (isAuthor_of_ne h attributes body)

end Markup

/-! ## What a document holds -/

/-- The text of a string that is there and not empty. -/
def given (s : Option String) : List (List Char) :=
  (s.toList.map String.toList).filter fun s => !s.isEmpty

/-- The parts that show the authors. -/
def Document.authorParts (d : Document) : List Part :=
  d.authors.map fun a => .author (Element.allBlocks a.elems)

/-- The block that shows the speaker notes of a section, if they are to be shown. -/
def Section.notesBlocks (o : Options) (s : Section) : List Block :=
  if o.notes && !s.notes.isEmpty then [.notes (s.notes.map fun n => styleChars n.toList)] else []

/-- The slide of a section: its title, its elements, its speaker notes and the number of the
slide. -/
def Section.slide (o : Options) (s : Section) (number : Nat) : List Part :=
  (.heading (headingTag (if s.elems.isEmpty then 2 else 3)) none s.title.toList ::
    (Element.allBlocks s.elems ++ s.notesBlocks o ++
      [.pageNumber (Nat.toDigits 10 number)])).map .block

/-- The passage of an article that is a section: its title, its elements and its speaker notes. -/
def Section.passage (o : Options) (s : Section) : List Part :=
  (.heading (headingTag 2) (some (place s.number)) s.title.toList ::
    (Element.allBlocks s.elems ++ s.notesBlocks o)).map .block

/-- The first slide: the title, the subtitle, the date and the authors. -/
def Document.firstSlide (d : Document) : List Part :=
  (.heading (headingTag 1) none d.title.toList ::
    ((given d.subtitle).map (.heading (headingTag 3) none) ++
      (given d.displayTime).map (.heading (headingTag 3) none))).map .block ++ d.authorParts

/-- The last slide, with the authors once more. -/
def Document.lastSlide (d : Document) : List Part :=
  .block (.heading (headingTag 3) none "Thank you".toList) :: d.authorParts

/-- The start of an article: the titles, the date and the table of contents. -/
def Document.opening (d : Document) : List Part :=
  (.heading (headingTag 1) none (d.title.toList ++ (given d.subtitle).flatten) ::
    ((given d.displayTime).map .date ++ if d.sections.isEmpty then [] else [.contents])).map .block

/-- The end of an article: the authors under a heading. -/
def Document.credits (d : Document) : List Part :=
  if d.authors.isEmpty then []
  else .block (.heading (headingTag 2) none "Authors".toList) :: d.authorParts

/-- What a page of a kind shows of a document: a slide for each section between the first and the
last one, or all sections one behind the other between the start and the end. -/
def Document.shown (o : Options) (k : Kind) (d : Document) : List (List Part) :=
  match k with
  | .slides => d.firstSlide :: (d.sections.zipIdx.map fun e => e.1.slide o (e.2 + 2)) ++
      [d.lastSlide]
  | .article => [d.opening ++ d.sections.flatMap (Section.passage o) ++ d.credits]

/-! ## What is read -/

theorem headingTag_ne_div (level : Nat) : headingTag level ≠ "div" := by
  intro h
  have hchars := congrArg String.toList h
  rw [headingTag, String.toList_ofList] at hchars
  exact absurd (List.cons.inj hchars).1 (by decide)

theorem not_isAuthor_pair {m : Markup} (n : Nat) (h : m.isAuthor = false) :
    ∀ a ∈ [line n, m], a.isAuthor = false :=
  List.forall_mem_cons.2 ⟨rfl, List.forall_mem_singleton.2 h⟩

mutual

theorem Element.not_isAuthor_trees (play : Bool) :
    ∀ e : Element, ∀ m ∈ e.trees play, m.isAuthor = false
  | .sub ⟨number, title, elems, _, _, _⟩, m, hm => by
    rw [Element.trees, List.mem_append] at hm
    rcases hm with hm | hm
    · exact not_isAuthor_pair 0 (isAuthor_of_ne (headingTag_ne_div _) _ _) m hm
    · exact Element.not_isAuthor_allTrees play elems m hm
  | .text _ true, m, hm | .text _ false, m, hm | .list _, m, hm | .image _ _ _, m, hm
  | .iframe _ _ _, m, hm | .link _ _, m, hm | .caption _, m, hm | .html _, m, hm =>
    not_isAuthor_pair 0 rfl m hm
  | .code c, m, hm =>
    not_isAuthor_pair 0 (by cases c.playableWhen play <;> rfl) m hm

theorem Element.not_isAuthor_allTrees (play : Bool) :
    ∀ elems : List Element, ∀ m ∈ Element.allTrees play elems, m.isAuthor = false
  | [], _, hm => absurd hm List.not_mem_nil
  | e :: r, m, hm => by
    rw [Element.allTrees, List.mem_append] at hm
    rcases hm with hm | hm
    · exact Element.not_isAuthor_trees play e m hm
    · exact Element.not_isAuthor_allTrees play r m hm

end

variable (o : Options) (d : Document)

theorem allParts_allTrees (play : Bool) {elems : List Element} (h : Element.AllNoHtml elems) :
    allParts (Element.allTrees play elems) = (Element.allBlocks elems).map .block := by
  rw [allParts_of_not_isAuthor (Element.not_isAuthor_allTrees play elems),
    Element.allBlocks_allTrees play elems h]

theorem allParts_line (n : Nat) {tag : String} (h : tag ≠ "div")
    (attributes : List (String × List Char)) (body : List Markup) :
    allParts [line n, .element tag attributes body] =
      [.block (Markup.element tag attributes body).block] := by
  rw [allParts_cons, allParts_cons, parts_line, parts_of_ne h]
  rfl

theorem allParts_heading (n level : Nat) (attributes : List (String × List Char)) (s : String) :
    allParts [line n, .element (headingTag level) attributes [value s]] =
      [.block (.heading (headingTag level) ((attributes.lookup "id").map decode) s.toList)] := by
  rw [allParts_line n (headingTag_ne_div level), block_heading, decode_allSource_value]

theorem decode_words {s : String} (h : '&' ∉ s.toList) :
    decode (allSource [words s]) = s.toList := by
  have hsource : allSource [words s] = s.toList := List.append_nil _
  rw [hsource, decode_eq_self h]

theorem allParts_words (level : Nat) {s : String} (h : '&' ∉ s.toList) :
    allParts [line 8, .element (headingTag level) [] [words s]] =
      [.block (.heading (headingTag level) none s.toList)] := by
  rw [allParts_line 8 (headingTag_ne_div level), block_heading, decode_words h]
  rfl

theorem allParts_ifText {s : Option String} {f : String → List Markup} {g : List Char → Part}
    (h : ∀ s, allParts (f s) = [g s.toList]) : allParts (ifText s f) = (given s).map g := by
  cases s with
  | none => rfl
  | some s =>
    rw [ifText_some, given, Option.toList_some, List.map_singleton, List.filter_singleton]
    cases s.toList.isEmpty
    · exact h s
    · rfl

theorem allParts_notesTrees (s : Section) :
    allParts (notesTrees o s) = (s.notesBlocks o).map .block := by
  rw [notesTrees, Section.notesBlocks]
  split_ifs
  · obtain ⟨hholds, hitems⟩ := tagged_styled "p" 10 8 s.notes
    rw [allParts_line 8 (by decide), block_notes hholds, hitems]
    rfl
  · rfl

theorem allParts_authorsTrees (h : d.NoHtml) {style : String}
    (hstyle : style = "presenter" ∨ style = "author") :
    allParts (authorsTrees o d style) = d.authorParts := by
  have hclass (body : List Markup) :
      (Markup.element "div" [fixed "class" style] body).isAuthor = true := by
    rcases hstyle with rfl | rfl <;> rfl
  have hauthor : ∀ a ∈ d.authors, allParts [line 8,
      .element "div" [fixed "class" style] (Element.allTrees o.play a.elems ++ [line 8])] =
        [.author (Element.allBlocks a.elems)] := by
    intro a ha
    rw [allParts_cons, allParts_cons, parts_line, parts, hclass, if_pos rfl, body_element,
      Markup.allBlocks_append, Element.allBlocks_allTrees o.play a.elems (h.authors a ha)]
    simp
  rw [authorsTrees, allParts_flatMap, Document.authorParts, List.map_eq_flatMap]
  exact List.flatMap_congr hauthor

/-- A slide is read as the slide of its section. -/
theorem allParts_slide {s : Section} (h : Element.AllNoHtml s.elems) (number : Nat) :
    (tagged "article" (slideTrees o s number)).map (fun m => allParts m.body) =
      [s.slide o number] := by
  have hnumber : allParts [line 8, .element "span" [fixed "class" "pagenumber"]
      [.text (Nat.toDigits 10 number)], line 6] =
        [.block (.pageNumber (Nat.toDigits 10 number))] := by
    have hdigits : decode (allSource [.text (Nat.toDigits 10 number)]) = Nat.toDigits 10 number :=
      (congrArg decode (List.append_nil _)).trans (decode_toDigits number)
    rw [allParts_cons, allParts_cons, parts_line, parts_of_ne (by decide), block_pageNumber,
      hdigits]
    simp
  have htagged (attributes : List (String × List Char)) (body : List Markup) :
      tagged "article" [line 6, .element "article" attributes body, line 6] =
        [.element "article" attributes body] := rfl
  rw [slideTrees, htagged, List.map_singleton, body_element, allParts_append, allParts_append,
    allParts_append, allParts_heading, allParts_allTrees o.play h, allParts_notesTrees, hnumber,
    Section.slide]
  simp

/-- A section of an article is read as its passage. -/
theorem allParts_sectionTrees {s : Section} (h : Element.AllNoHtml s.elems) :
    allParts (sectionTrees o s) = s.passage o := by
  rw [sectionTrees, allParts_append, allParts_append, allParts_heading, decode_id_anchor,
    allParts_allTrees o.play h, allParts_notesTrees, Section.passage]
  simp

theorem allParts_titleSlide (h : d.NoHtml) : allParts (titleSlide o d).body = d.firstSlide := by
  have hgiven (s : Option String) :
      allParts (ifText s fun s => [line 8, .element (headingTag 3) [] [value s]]) =
        (given s).map fun s => .block (.heading (headingTag 3) none s) :=
    allParts_ifText (allParts_heading 8 3 [])
  rw [titleSlide, body_element, allParts_append, allParts_append, allParts_append, allParts_append,
    allParts_heading, hgiven, hgiven, allParts_authorsTrees o d h (.inl rfl), Document.firstSlide]
  simp [Function.comp_def]

theorem allParts_thanksSlide (h : d.NoHtml) : allParts (thanksSlide o d).body = d.lastSlide := by
  rw [thanksSlide, body_element, allParts_append, allParts_append,
    allParts_words 3 (by decide), allParts_authorsTrees o d h (.inl rfl), Document.lastSlide]
  simp

/-- A deck is read as its slides. -/
theorem slides?_slidesTrees (h : d.NoHtml) :
    slides? (allAtoms (slidesTrees o d)) = some (d.shown o .slides) := by
  have hread : slides? (allAtoms (slidesTrees o d)) =
      if holdsOnly "article" (allAtoms (slideShow o d).body) then
        some ((tagged "article" (allAtoms (slideShow o d).body)).map fun m => allParts m.body)
      else none := rfl
  have hholds : holdsOnly "article" (slideShow o d).body = true := by
    rw [slideShow, body_element, holdsOnly_append, holdsOnly_append,
      holdsOnly_flatMap fun e _ => by simp [slideTrees]]
    simp [titleSlide, thanksSlide]
  have hsections : (tagged "article" (d.sections.zipIdx.flatMap fun e =>
      slideTrees o e.1 (e.2 + 2))).map (fun m => allParts m.body) =
        d.sections.zipIdx.map fun e => e.1.slide o (e.2 + 2) := by
    rw [tagged_flatMap, List.map_flatMap, List.map_eq_flatMap]
    refine List.flatMap_congr fun e he => ?_
    exact allParts_slide o (h.sections _ (List.fst_mem_of_mem_zipIdx he)) _
  have hfirst : tagged "article" [gap 6, titleSlide o d, line 6] = [titleSlide o d] := rfl
  have hlast : tagged "article" [gap 6, thanksSlide o d, gap 4] = [thanksSlide o d] := rfl
  have hslides : (tagged "article" (slideShow o d).body).map (fun m => allParts m.body) =
      d.shown o .slides := by
    rw [slideShow, body_element, tagged_append, tagged_append, List.map_append, List.map_append,
      hsections, hfirst, hlast, List.map_singleton, List.map_singleton, allParts_titleSlide o d h,
      allParts_thanksSlide o d h]
    rfl
  rw [hread, holdsOnly_allAtoms, hholds, if_pos rfl, tagged_allAtoms, List.map_map, ← hslides]
  simp only [Function.comp_def, body_atomized, allParts_allAtoms]

theorem allParts_creditsTrees (h : d.NoHtml) : allParts (creditsTrees o d) = d.credits := by
  rw [creditsTrees, Document.credits]
  split_ifs
  · rfl
  · rw [allParts_append, allParts_words 2 (by decide), allParts_authorsTrees o d h (.inr rfl)]
    rfl

theorem allParts_contentsTrees :
    allParts (contentsTrees d) = if d.sections.isEmpty then [] else [.block .contents] := by
  rw [contentsTrees]
  split_ifs
  · rfl
  · rw [allParts_cons, allParts_cons, parts_line, parts_of_not_isAuthor rfl, Markup.blocks,
      block_contents]
    rfl

/-- The start of an article is read as its titles, its date and the table of contents. -/
theorem allParts_openingTrees : allParts (openingTrees d) = d.opening := by
  have htitles : decode (allSource (value d.title ::
      ifText d.subtitle fun s => [.void "br" [], .element "small" [] [value s]])) =
        d.title.toList ++ (given d.subtitle).flatten := by
    have hsubtitle : allSource (ifText d.subtitle fun s =>
        [.void "br" [], .element "small" [] [value s]]) =
          escapeStrict (given d.subtitle).flatten := by
      cases d.subtitle with
      | none => rfl
      | some s =>
        rw [ifText_some, given, Option.toList_some, List.map_singleton, List.filter_singleton]
        cases s.toList.isEmpty
        · simp [source, value]
        · rfl
    rw [allSource_cons, hsubtitle, value, source, ← escapeStrict_append, decode_escapeStrict]
  have hdate : allParts (ifText d.displayTime fun s =>
      [line 8, .element "p" [fixed "class" "date"] [value s]]) =
        (given d.displayTime).map fun s => .block (.date s) := by
    refine allParts_ifText fun s => ?_
    rw [allParts_line 8 (by decide), block_date, decode_allSource_value]
  rw [openingTrees, allParts_append, allParts_append, allParts_line 8 (headingTag_ne_div 1),
    block_heading, htitles, hdate, allParts_contentsTrees, Document.opening]
  simp [Function.comp_def, apply_ite]

/-- An article is read as its start, its sections and its end. -/
theorem article?_articleTrees (h : d.NoHtml) :
    article? (allAtoms (articleTrees o d)) =
      some (d.opening ++ d.sections.flatMap (Section.passage o) ++ d.credits) := by
  have hsections : allParts (d.sections.flatMap (sectionTrees o)) =
      d.sections.flatMap (Section.passage o) := by
    rw [allParts_flatMap]
    exact List.flatMap_congr fun s hs => allParts_sectionTrees o (h.sections s hs)
  have hread : article? (allAtoms (articleTrees o d)) = some (allParts (allAtoms
      (openingTrees d ++ d.sections.flatMap (sectionTrees o) ++ creditsTrees o d ++ [line 6]))) :=
    rfl
  rw [hread, allParts_allAtoms, allParts_append, allParts_append, allParts_append,
    allParts_openingTrees, hsections, allParts_creditsTrees o d h]
  simp

namespace Theme

/-- A page shows all of its document, and nothing twice or in another order: a page of a document
without markup of its author's is read again as the blocks of the sections and of the authors. -/
theorem page_shows_document {d : Document} (h : d.NoHtml) (k : Kind) (o : Options) :
    ∃ t, bundled = .ok t ∧
      (d.NestedWithin deepest → ∃ page trees, t.page k d o = .ok page ∧
        readPage page = some trees ∧ shownIn? k trees = some (d.shown o k)) ∧
      (¬ d.NestedWithin deepest → t.page k d o = .error (.render .tooDeep)) := by
  refine ⟨ofBundled, bundled_eq, fun hnested => ?_, fun hnested => ?_⟩
  · refine ⟨_, _, (page_ofBundled d o k).trans (if_pos hnested),
      readPage_printAll (d.trees_proper o k h), ?_⟩
    cases k with
    | slides => exact slides?_slidesTrees o d h
    | article =>
      have hread := article?_articleTrees o d h
      rw [shownIn?, Document.trees, hread]
      rfl
  · rw [page_ofBundled, if_neg hnested]

/-- A deck by one author, with a section in another one. -/
def tour : Document where
  title := "Tour"
  authors := [⟨[.text ["A & B"] false]⟩]
  sections :=
    [⟨[1], "Sights", [.list ["old", "*new*"],
      .sub ⟨[1, 1], "<Bridge>", [.text ["", "long", "wide"] true], [], [], []⟩,
      .link "https://a.b" "more"], ["Smile."], [], []⟩]

theorem page_shows_document_tour :
    tour.NoHtml ∧ tour.NestedWithin deepest ∧ ∃ t, bundled = .ok t ∧ ∃ page trees,
      t.page .slides tour { notes := true } = .ok page ∧ readPage page = some trees ∧
      shownIn? .slides trees = some
        [[.block (.heading "h1" none "Tour".toList),
            .author [.paragraph "\n  A &amp; B\n".toList]],
          [.block (.heading "h3" none "Sights".toList),
            .block (.list ["old".toList, "<b>new</b>".toList]),
            .block (.heading "h3" (some "TOC_1.1".toList) "<Bridge>".toList),
            .block (.code [⟨false, "long\nwide".toList, []⟩]),
            .block (.link [(some "https://a.b".toList, "more".toList)]),
            .block (.notes ["Smile.".toList]), .block (.pageNumber "2".toList)],
          [.block (.heading "h3" none "Thank you".toList),
            .author [.paragraph "\n  A &amp; B\n".toList]]] := by
  have hnohtml : tour.NoHtml := by
    refine ⟨fun s hs => ?_, fun a ha => ?_⟩
    · rw [List.mem_singleton.1 hs]
      simp [Element.AllNoHtml, Element.NoHtml]
    · rw [List.mem_singleton.1 ha]
      simp [Element.AllNoHtml, Element.NoHtml]
  have hnested : tour.NestedWithin deepest := by decide
  obtain ⟨t, ht, hpage, -⟩ := page_shows_document hnohtml .slides { notes := true }
  obtain ⟨page, trees, hpage, hread, hshown⟩ := hpage hnested
  refine ⟨hnohtml, hnested, t, ht, page, trees, hpage, hread, hshown.trans (congrArg some ?_)⟩
  decide +kernel

end Theme

end Lectern
