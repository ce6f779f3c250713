import Lectern.Kind
import Lectern.Proofs.Page.Elements
import Lectern.Theme

/-!
# Pages as trees

What the page of a document shows: the slides of a deck behind a title slide, or the sections of an
article behind its title and its table of contents. `Document.trees_proper` says that the trees are
proper for any document without markup that the author has written.
-/

namespace Lectern

open Text Markup

variable (o : Options) (d : Document)

/-! ## Parts of both kinds of pages -/

/-- What is shown for a string that is there and not empty. -/
def ifText (s : Option String) (f : String → List Markup) : List Markup :=
  match s with
  | some s => if s.toList.isEmpty then [] else f s
  | none => []

theorem ifText_some (s : String) (f : String → List Markup) :
    ifText (some s) f = if s.toList.isEmpty then [] else f s := rfl

/-- The speaker notes of a section, if they are to be shown. -/
def notesTrees (s : Section) : List Markup :=
  if o.notes && !s.notes.isEmpty then
    [line 8,
      .element "aside" [fixed "class" "notes"]
        ((s.notes.flatMap fun n => [line 10, .element "p" [] (styled n)]) ++ [line 8])]
  else []

/-- What is said about the authors. -/
def authorsTrees (style : String) : List Markup :=
  d.authors.flatMap fun a =>
    [line 8,
      .element "div" [fixed "class" style] (Element.allTrees o.play a.elems ++ [line 8])]

/-- What the head of a page holds behind the title, up to what differs between documents. -/
def headTrees (sheet : String) (scripts : List String) : List Markup :=
  [line 4, .void "meta" [fixed "charset" "utf-8"],
    line 4, .void "meta" [fixed "name" "viewport",
      fixed "content" "width=device-width, initial-scale=1"],
    line 4, .void "link" [fixed "rel" "stylesheet", fixed "href" sheet]] ++
    scripts.flatMap fun script => [line 4, .element "script" [fixed "src" script] []]

/-! ## Slide decks -/

/-- The attribute for some strings, if there are any. -/
def stringsAttribute (name separator : String) (ss : List String) : List (String × List Char) :=
  if ss.isEmpty then [] else [(name, joined separator ss)]

/-- The slide of a section, with the number of its page. -/
def slideTrees (s : Section) (number : Nat) : List Markup :=
  [line 6,
    .element "article" (stringsAttribute "class" " " s.classes ++
        stringsAttribute "style" "; " s.styles)
      ([line 8, .element (headingTag (if s.elems.isEmpty then 2 else 3)) [] [value s.title]] ++
        Element.allTrees o.play s.elems ++ notesTrees o s ++
        [line 8, .element "span" [fixed "class" "pagenumber"] [.text (Nat.toDigits 10 number)],
          line 6]),
    line 6]

/-- The first slide, with the title. -/
def titleSlide : Markup :=
  .element "article" []
    ([line 8, .element (headingTag 1) [] [value d.title]] ++
      (ifText d.subtitle fun s => [line 8, .element (headingTag 3) [] [value s]]) ++
      (ifText d.displayTime fun s => [line 8, .element (headingTag 3) [] [value s]]) ++
      authorsTrees o d "presenter" ++ [line 6])

/-- The last slide. -/
def thanksSlide : Markup :=
  .element "article" []
    ([line 8, .element (headingTag 3) [] [words "Thank you"]] ++ authorsTrees o d "presenter" ++
      [line 6])

/-- The advice that is shown over the slides at first. -/
def helpBox : Markup :=
  .element "div" [fixed "id" "help"]
    [line 6, words "Use the left and right arrow keys or click the left and right",
      line 6, words "edges of the page to navigate between slides.", .void "br" [],
      line 6, words "(Press 'H' or navigate to hide this message.)", line 4]

/-- All slides. -/
def slideShow : Markup :=
  .element "section" [fixed "class" "slides layout-widescreen"]
    ([gap 6, titleSlide o d, line 6] ++
      (d.sections.zipIdx.flatMap fun e => slideTrees o e.1 (e.2 + 2)) ++
      [gap 6, thanksSlide o d, gap 4])

/-- The page of a slide deck. -/
def slidesTrees : List Markup :=
  [line 0,
    .element "html" []
      [line 2,
        .element "head" []
          ([line 4, .element "title" [] [value d.title]] ++
            headTrees "static/styles.css" ["static/slides.js", "static/play.js"] ++ [line 2]),
        gap 2,
        .element "body" [fixed "style" "display: none"]
          [gap 4, slideShow o d, gap 4, helpBox, gap 2],
        line 0]]

/-! ## Articles -/

mutual

/-- The entry of a section in the table of contents, with those of its subsections. -/
def Section.contents : Section → List Markup
  | ⟨number, title, elems, _, _, _⟩ =>
      [line 12,
        .element "li" [] [.element "a" [("href", '#' :: anchor number)] [value title]]] ++
        match Element.allContents elems with
        | [] => []
        | m :: r => [line 12, .element "ul" [] (m :: r)]

/-- The entry of an element that is a section. -/
def Element.contents : Element → List Markup
  | .sub s => s.contents
  | .text _ _ | .list _ | .code _ | .image _ _ _ | .iframe _ _ _ | .link _ _ | .caption _
  | .html _ => []

/-- The entries of the elements that are sections. -/
def Element.allContents : List Element → List Markup
  | [] => []
  | e :: r => e.contents ++ Element.allContents r

end

theorem allContents_eq_flatMap (elems : List Element) :
    Element.allContents elems = (elems.filterMap Element.section?).flatMap Section.contents := by
  induction elems with
  | nil => rfl
  | cons e r ih =>
    rw [Element.allContents, ih]
    cases e <;> rfl

theorem contents_eq (s : Section) :
    s.contents =
      [line 12,
        .element "li" [] [.element "a" [("href", '#' :: anchor s.number)] [value s.title]]] ++
        if s.subsections.isEmpty then []
        else [line 12, .element "ul" [] (s.subsections.flatMap Section.contents)] := by
  have hcontents : s.subsections.flatMap Section.contents = Element.allContents s.elems :=
    (allContents_eq_flatMap s.elems).symm
  have hempty : Element.allContents s.elems = [] ↔ s.subsections.isEmpty := by
    rw [← hcontents, List.flatMap_eq_nil_iff, List.isEmpty_iff, List.eq_nil_iff_forall_not_mem]
    have hne (t : Section) : t.contents ≠ [] := by
      cases t
      rw [Section.contents]
      exact List.append_ne_nil_of_left_ne_nil (List.cons_ne_nil _ _) _
    exact ⟨fun h t ht => hne t (h t ht), fun h t ht => absurd ht (h t)⟩
  have hentry : s.contents =
      [line 12,
        .element "li" [] [.element "a" [("href", '#' :: anchor s.number)] [value s.title]]] ++
        match Element.allContents s.elems with
        | [] => []
        | m :: r => [line 12, .element "ul" [] (m :: r)] := by
    cases s
    rw [Section.contents]
  rw [hentry, hcontents]
  cases hall : Element.allContents s.elems with
  | nil => rw [if_pos (hempty.1 hall)]
  | cons m r =>
    rw [if_neg]
    rw [← hempty, hall]
    exact List.cons_ne_nil m r

/-- The table of contents. -/
def contentsTrees : List Markup :=
  if d.sections.isEmpty then []
  else
    [line 8,
      .element "div" [fixed "id" "toc"]
        [line 10,
          .element "ul" [fixed "class" "toc"] (d.sections.flatMap Section.contents ++ [line 10]),
          line 8]]

/-- A section of an article. -/
def sectionTrees (s : Section) : List Markup :=
  [line 8, .element (headingTag 2) [("id", anchor s.number)] [value s.title]] ++
    Element.allTrees o.play s.elems ++ notesTrees o s

/-- What is said about the authors of an article, under a heading. -/
def creditsTrees : List Markup :=
  if d.authors.isEmpty then []
  else [line 8, .element (headingTag 2) [] [words "Authors"]] ++ authorsTrees o d "author"

/-- The descriptions of an article for search engines. -/
def descriptionTrees : List Markup :=
  (ifText d.summary fun s =>
      [line 4, .void "meta" [fixed "name" "description", ("content", escapeStrict s.toList)]]) ++
    if d.tags.isEmpty then []
    else [line 4, .void "meta" [fixed "name" "keywords", ("content", joined ", " d.tags)]]

/-- The bar at the top of an article. -/
def topBar : Markup :=
  .element "div" [fixed "id" "topbar"]
    [line 6,
      .element "div" [fixed "class" "container"]
        [line 8,
          .element "div" [fixed "id" "heading"]
            (value d.title :: ifText d.subtitle fun s => [words " - ", value s]),
          line 6],
      line 4]

/-- The body of an article. -/
def articleBody : Markup :=
  .element "div" [fixed "id" "page"]
    [line 6,
      .element "div" [fixed "class" "container"]
        ([line 8,
          .element (headingTag 1) [] (value d.title ::
            ifText d.subtitle fun s => [.void "br" [], .element "small" [] [value s]])] ++
          (ifText d.displayTime fun s => [line 8, .element "p" [fixed "class" "date"] [value s]]) ++
          contentsTrees d ++ d.sections.flatMap (sectionTrees o) ++ creditsTrees o d ++ [line 6]),
      line 4]

/-- The foot of an article, with the places where it has appeared before. -/
def articleFoot : Markup :=
  .element "div" [fixed "id" "footer"]
    [line 6,
      .element "div" [fixed "class" "container"]
        ((d.oldUrls.flatMap fun url =>
          [line 8,
            .element "p" [fixed "class" "old-url"] [words "Previously published at ", value url]]) ++
          [line 6]),
      line 4]

/-- The page of an article. -/
def articleTrees : List Markup :=
  [line 0,
    .element "html" []
      [line 2,
        .element "head" []
          ([line 4, .element "title" [] [value d.title]] ++
            headTrees "static/article.css" ["static/play.js"] ++ descriptionTrees d ++ [line 2]),
        line 2,
        .element "body" []
          [line 4, topBar d, gap 4, articleBody o d, gap 4, articleFoot d, line 2],
        line 0]]

/-- The page of a document of a kind, behind the document type. -/
def Document.trees (d : Document) (o : Options) (k : Kind) : List Markup :=
  match k with
  | .slides => slidesTrees o d
  | .article => articleTrees o d

/-! ## What stands around the sections -/

/-- An element without its body, with what stands in front of it and behind it. -/
structure Layer where
  front : List Markup
  tag : String
  attributes : List (String × List Char)
  behind : List Markup

/-- Parts of a page inside of elements, the outermost first. -/
def wrap : List Layer → List Markup → List Markup
  | [], parts => parts
  | a :: r, parts => a.front ++ [.element a.tag a.attributes (wrap r parts)] ++ a.behind

/-- What stands around the slides of a deck. -/
def slidesLayers : List Layer :=
  [⟨[line 0], "html", [], []⟩,
    ⟨[line 2,
      .element "head" []
        ([line 4, .element "title" [] [value d.title]] ++
          headTrees "static/styles.css" ["static/slides.js", "static/play.js"] ++ [line 2]),
      gap 2], "body", [fixed "style" "display: none"], [line 0]⟩,
    ⟨[gap 4], "section", [fixed "class" "slides layout-widescreen"], [gap 4, helpBox, gap 2]⟩]

theorem slidesTrees_eq_wrap :
    slidesTrees o d = wrap (slidesLayers d) ([gap 6, titleSlide o d, line 6] ++
      (d.sections.zipIdx.flatMap fun e => slideTrees o e.1 (e.2 + 2)) ++
      [gap 6, thanksSlide o d, gap 4]) := rfl

/-- What stands around the text of an article. -/
def articleLayers : List Layer :=
  [⟨[line 0], "html", [], []⟩,
    ⟨[line 2,
      .element "head" []
        ([line 4, .element "title" [] [value d.title]] ++
          headTrees "static/article.css" ["static/play.js"] ++ descriptionTrees d ++ [line 2]),
      line 2], "body", [], [line 0]⟩,
    ⟨[line 4, topBar d, gap 4], "div", [fixed "id" "page"], [gap 4, articleFoot d, line 2]⟩,
    ⟨[line 6], "div", [fixed "class" "container"], [line 4]⟩]

/-- The start of an article: its titles, its date and the table of contents. -/
def openingTrees : List Markup :=
  [line 8,
    .element (headingTag 1) [] (value d.title ::
      ifText d.subtitle fun s => [.void "br" [], .element "small" [] [value s]])] ++
    (ifText d.displayTime fun s => [line 8, .element "p" [fixed "class" "date"] [value s]]) ++
    contentsTrees d

theorem articleTrees_eq_wrap :
    articleTrees o d = wrap (articleLayers d) (openingTrees d ++
      d.sections.flatMap (sectionTrees o) ++ creditsTrees o d ++ [line 6]) := rfl

/-! ## Properness -/

/-- A document in which nothing is markup that the author has written. -/
structure Document.NoHtml (d : Document) : Prop where
  sections : ∀ s ∈ d.sections, Element.AllNoHtml s.elems
  authors : ∀ a ∈ d.authors, Element.AllNoHtml a.elems

variable {o d}

theorem element_proper {tag : String} {attributes : List (String × List Char)}
    {body : List Markup} (htag : tag ∈ bodyTags) (hattributes : ProperAttributes attributes)
    (hbody : AllProper body) : (Markup.element tag attributes body).Proper :=
  ⟨Or.inl htag, hattributes, hbody⟩

theorem heading_proper {level : Nat} {attributes : List (String × List Char)} {body : List Markup}
    (hlevel : 0 < level) (hattributes : ProperAttributes attributes) (hbody : AllProper body) :
    (Markup.element (headingTag level) attributes body).Proper :=
  ⟨Or.inr ⟨level, hlevel, rfl⟩, hattributes, hbody⟩

theorem ifText_proper {s : Option String} {f : String → List Markup} (h : ∀ s, AllProper (f s)) :
    AllProper (ifText s f) := by
  cases s with
  | none => exact allProper_nil
  | some s =>
    rw [ifText_some]
    split_ifs
    · exact allProper_nil
    · exact h s

theorem notesTrees_proper (o : Options) (s : Section) : AllProper (notesTrees o s) := by
  rw [notesTrees]
  split_ifs
  · have hnotes : AllProper ((s.notes.flatMap fun n => [line 10, .element "p" [] (styled n)]) ++
        [line 8]) :=
      allProper_append.2 ⟨allProper_flatMap.2 fun n _ => ⟨line_proper 10,
        element_proper (by decide) properAttributes_nil (allProper_styled n), trivial⟩,
        line_proper 8, trivial⟩
    exact ⟨line_proper 8, element_proper (by decide)
      (properAttributes_fixed (by decide) (by simp [special]) properAttributes_nil) hnotes, trivial⟩
  · exact allProper_nil

theorem authorsTrees_proper (h : d.NoHtml) {style : String} (hs : ∀ c ∈ style.toList, c ∉ special) :
    AllProper (authorsTrees o d style) :=
  allProper_flatMap.2 fun a ha => ⟨line_proper 8, element_proper (by decide)
    (properAttributes_fixed (by decide) hs properAttributes_nil)
    (allProper_append.2 ⟨Element.allTrees_proper o.play a.elems (h.authors a ha), line_proper 8,
      trivial⟩), trivial⟩

theorem headTrees_proper {sheet : String} {scripts : List String}
    (hsheet : ∀ c ∈ sheet.toList, c ∉ special)
    (hscripts : ∀ script ∈ scripts, ∀ c ∈ script.toList, c ∉ special) :
    AllProper (headTrees sheet scripts) := by
  have hcharset : (Markup.void "meta" [fixed "charset" "utf-8"]).Proper :=
    ⟨by decide, properAttributes_fixed (by decide) (by simp [special]) properAttributes_nil⟩
  have hviewport : (Markup.void "meta" [fixed "name" "viewport",
      fixed "content" "width=device-width, initial-scale=1"]).Proper :=
    ⟨by decide, properAttributes_fixed (by decide) (by simp [special])
      (properAttributes_fixed (by decide) (by simp [special]) properAttributes_nil)⟩
  have hlink : (Markup.void "link" [fixed "rel" "stylesheet", fixed "href" sheet]).Proper :=
    ⟨by decide, properAttributes_fixed (by decide) (by simp [special])
      (properAttributes_fixed (by decide) hsheet properAttributes_nil)⟩
  refine allProper_append.2 ⟨⟨line_proper 4, hcharset, line_proper 4, hviewport, line_proper 4,
    hlink, trivial⟩, allProper_flatMap.2 fun script hscript => ?_⟩
  exact ⟨line_proper 4, element_proper (by decide)
    (properAttributes_fixed (by decide) (hscripts script hscript) properAttributes_nil) trivial,
    trivial⟩

theorem title_proper (d : Document) :
    AllProper [line 4, .element "title" [] [value d.title]] :=
  ⟨line_proper 4, element_proper (by decide) properAttributes_nil ⟨value_proper _, trivial⟩,
    trivial⟩

/-! ### Slide decks -/

theorem stringsAttribute_proper {name : String} (h : name ∈ attributeNames) (separator : String)
    (ss : List String) : ProperAttributes (stringsAttribute name separator ss) := by
  rw [stringsAttribute]
  split_ifs
  · exact properAttributes_nil
  · exact properAttributes_pair h (joined_escaped _ _) properAttributes_nil

theorem slideTrees_proper {s : Section} (h : Element.AllNoHtml s.elems) (number : Nat) :
    AllProper (slideTrees o s number) := by
  have hnumber : (Markup.element "span" [fixed "class" "pagenumber"]
      [.text (Nat.toDigits 10 number)]).Proper :=
    element_proper (by decide)
      (properAttributes_fixed (by decide) (by simp [special]) properAttributes_nil)
      ⟨escaped_toDigits number, trivial⟩
  have htitle : (Markup.element (headingTag (if s.elems.isEmpty then 2 else 3)) []
      [value s.title]).Proper :=
    heading_proper (by split_ifs <;> decide) properAttributes_nil ⟨value_proper _, trivial⟩
  have hattributes : ProperAttributes (stringsAttribute "class" " " s.classes ++
      stringsAttribute "style" "; " s.styles) :=
    properAttributes_append.2 ⟨stringsAttribute_proper (by decide) _ _,
      stringsAttribute_proper (by decide) _ _⟩
  refine ⟨line_proper 6, element_proper (by decide) hattributes ?_, line_proper 6, trivial⟩
  rw [allProper_append, allProper_append, allProper_append]
  exact ⟨⟨⟨⟨line_proper 8, htitle, trivial⟩, Element.allTrees_proper o.play s.elems h⟩,
    notesTrees_proper o s⟩, line_proper 8, hnumber, line_proper 6, trivial⟩

theorem lineHeading_proper {level : Nat} (hlevel : 0 < level) (s : String) :
    AllProper [line 8, .element (headingTag level) [] [value s]] :=
  ⟨line_proper 8, heading_proper hlevel properAttributes_nil ⟨value_proper s, trivial⟩, trivial⟩

theorem titleSlide_proper (h : d.NoHtml) : (titleSlide o d).Proper := by
  refine element_proper (by decide) properAttributes_nil ?_
  rw [allProper_append, allProper_append, allProper_append, allProper_append]
  exact ⟨⟨⟨⟨lineHeading_proper (by decide) _, ifText_proper (lineHeading_proper (by decide))⟩,
    ifText_proper (lineHeading_proper (by decide))⟩, authorsTrees_proper h (by simp [special])⟩,
    line_proper 6, trivial⟩

theorem thanksSlide_proper (h : d.NoHtml) : (thanksSlide o d).Proper := by
  have hthanks : (Markup.element (headingTag 3) [] [words "Thank you"]).Proper :=
    heading_proper (by decide) properAttributes_nil ⟨words_proper (by simp [special]), trivial⟩
  refine element_proper (by decide) properAttributes_nil ?_
  rw [allProper_append, allProper_append]
  exact ⟨⟨⟨line_proper 8, hthanks, trivial⟩, authorsTrees_proper h (by simp [special])⟩,
    line_proper 6, trivial⟩

theorem helpBox_proper : helpBox.Proper :=
  element_proper (by decide)
    (properAttributes_fixed (by decide) (by simp [special]) properAttributes_nil)
    ⟨line_proper 6, words_proper (by simp [special]), line_proper 6,
      words_proper (by simp [special]), ⟨by decide, properAttributes_nil⟩, line_proper 6,
      words_proper (by simp [special]), line_proper 4, trivial⟩

theorem slideShow_proper (h : d.NoHtml) : (slideShow o d).Proper := by
  refine element_proper (by decide)
    (properAttributes_fixed (by decide) (by simp [special]) properAttributes_nil) ?_
  rw [allProper_append, allProper_append, allProper_flatMap]
  refine ⟨⟨⟨gap_proper 6, titleSlide_proper h, line_proper 6, trivial⟩, fun e he => ?_⟩,
    gap_proper 6, thanksSlide_proper h, gap_proper 4, trivial⟩
  exact slideTrees_proper (h.sections _ (List.fst_mem_of_mem_zipIdx he)) _

theorem slidesTrees_proper (h : d.NoHtml) : AllProper (slidesTrees o d) := by
  have hhead : AllProper ([line 4, .element "title" [] [value d.title]] ++
      headTrees "static/styles.css" ["static/slides.js", "static/play.js"] ++ [line 2]) := by
    rw [allProper_append, allProper_append]
    exact ⟨⟨title_proper d, headTrees_proper (by simp [special]) (by simp [special])⟩,
      line_proper 2, trivial⟩
  have hbody : AllProper [gap 4, slideShow o d, gap 4, helpBox, gap 2] :=
    ⟨gap_proper 4, slideShow_proper h, gap_proper 4, helpBox_proper, gap_proper 2, trivial⟩
  exact ⟨line_proper 0, element_proper (by decide) properAttributes_nil
    ⟨line_proper 2, element_proper (by decide) properAttributes_nil hhead, gap_proper 2,
      element_proper (by decide)
        (properAttributes_fixed (by decide) (by simp [special]) properAttributes_nil) hbody,
      line_proper 0, trivial⟩, trivial⟩

/-! ### Articles -/

mutual

theorem Section.contents_proper : ∀ s : Section, AllProper s.contents
  | ⟨number, title, elems, _, _, _⟩ => by
    have hsubs := Element.allContents_proper elems
    have hanchor : Escaped ('#' :: anchor number) := .char (by decide) (anchor_escaped number)
    have hlink : (Markup.element "a" [("href", '#' :: anchor number)] [value title]).Proper :=
      element_proper (by decide) (properAttributes_pair (by decide) hanchor properAttributes_nil)
        ⟨value_proper title, trivial⟩
    rw [Section.contents, allProper_append]
    refine ⟨⟨line_proper 12, element_proper (by decide) properAttributes_nil ⟨hlink, trivial⟩,
      trivial⟩, ?_⟩
    cases hcontents : Element.allContents elems with
    | nil => exact allProper_nil
    | cons m r =>
      rw [hcontents] at hsubs
      exact ⟨line_proper 12, element_proper (by decide) properAttributes_nil hsubs, trivial⟩

theorem Element.contents_proper : ∀ e : Element, AllProper e.contents
  | .sub s => Section.contents_proper s
  | .text _ _ | .list _ | .code _ | .image _ _ _ | .iframe _ _ _ | .link _ _ | .caption _
  | .html _ => allProper_nil

theorem Element.allContents_proper : ∀ elems : List Element, AllProper (Element.allContents elems)
  | [] => allProper_nil
  | e :: r => allProper_append.2 ⟨Element.contents_proper e, Element.allContents_proper r⟩

end

theorem contentsTrees_proper (d : Document) : AllProper (contentsTrees d) := by
  rw [contentsTrees]
  split_ifs
  · exact allProper_nil
  · have hlist : AllProper (d.sections.flatMap Section.contents ++ [line 10]) :=
      allProper_append.2 ⟨allProper_flatMap.2 fun s _ => s.contents_proper, line_proper 10, trivial⟩
    exact ⟨line_proper 8, element_proper (by decide)
      (properAttributes_fixed (by decide) (by simp [special]) properAttributes_nil)
      ⟨line_proper 10, element_proper (by decide)
        (properAttributes_fixed (by decide) (by simp [special]) properAttributes_nil) hlist,
        line_proper 8, trivial⟩, trivial⟩

theorem sectionTrees_proper {s : Section} (h : Element.AllNoHtml s.elems) :
    AllProper (sectionTrees o s) := by
  have hheading :
      (Markup.element (headingTag 2) [("id", anchor s.number)] [value s.title]).Proper :=
    heading_proper (by decide)
      (properAttributes_pair (by decide) (anchor_escaped _) properAttributes_nil)
      ⟨value_proper _, trivial⟩
  rw [sectionTrees, allProper_append, allProper_append]
  exact ⟨⟨⟨line_proper 8, hheading, trivial⟩, Element.allTrees_proper o.play s.elems h⟩,
    notesTrees_proper o s⟩

theorem creditsTrees_proper (h : d.NoHtml) : AllProper (creditsTrees o d) := by
  rw [creditsTrees]
  split_ifs
  · exact allProper_nil
  · have hheading : (Markup.element (headingTag 2) [] [words "Authors"]).Proper :=
      heading_proper (by decide) properAttributes_nil ⟨words_proper (by simp [special]), trivial⟩
    exact allProper_append.2 ⟨⟨line_proper 8, hheading, trivial⟩,
      authorsTrees_proper h (by simp [special])⟩

theorem descriptionTrees_proper (d : Document) : AllProper (descriptionTrees d) := by
  rw [descriptionTrees, allProper_append]
  refine ⟨ifText_proper fun s => ⟨line_proper 4, ⟨by decide, ?_⟩, trivial⟩, ?_⟩
  · exact properAttributes_fixed (by decide) (by simp [special])
      (properAttributes_pair (by decide) (escaped_escapeStrict _) properAttributes_nil)
  · split_ifs
    · exact allProper_nil
    · exact ⟨line_proper 4, ⟨by decide, properAttributes_fixed (by decide) (by simp [special])
        (properAttributes_pair (by decide) (joined_escaped _ _) properAttributes_nil)⟩, trivial⟩

/-- A box of an article is proper if what stands in its container is. -/
theorem box_proper {id : String} (hid : ∀ c ∈ id.toList, c ∉ special) {ts : List Markup}
    (h : AllProper ts) : (Markup.element "div" [fixed "id" id]
      [line 6, .element "div" [fixed "class" "container"] ts, line 4]).Proper :=
  element_proper (by decide) (properAttributes_fixed (by decide) hid properAttributes_nil)
    ⟨line_proper 6, element_proper (by decide)
      (properAttributes_fixed (by decide) (by simp [special]) properAttributes_nil) h,
      line_proper 4, trivial⟩

theorem topBar_proper (d : Document) : (topBar d).Proper := by
  have hheading : AllProper
      (value d.title :: ifText d.subtitle fun s => [words " - ", value s]) :=
    ⟨value_proper _, ifText_proper fun s =>
      ⟨words_proper (by simp [special]), value_proper s, trivial⟩⟩
  exact box_proper (by simp [special]) ⟨line_proper 8, element_proper (by decide)
    (properAttributes_fixed (by decide) (by simp [special]) properAttributes_nil) hheading,
    line_proper 6, trivial⟩

theorem articleBody_proper (h : d.NoHtml) : (articleBody o d).Proper := by
  have htitle : AllProper (value d.title ::
      ifText d.subtitle fun s => [.void "br" [], .element "small" [] [value s]]) :=
    ⟨value_proper _, ifText_proper fun s => ⟨⟨by decide, properAttributes_nil⟩,
      element_proper (by decide) properAttributes_nil ⟨value_proper s, trivial⟩, trivial⟩⟩
  have hdate (s : String) : AllProper [line 8, .element "p" [fixed "class" "date"] [value s]] :=
    ⟨line_proper 8, element_proper (by decide)
      (properAttributes_fixed (by decide) (by simp [special]) properAttributes_nil)
      ⟨value_proper s, trivial⟩, trivial⟩
  have hsections : AllProper (d.sections.flatMap (sectionTrees o)) :=
    allProper_flatMap.2 fun s hs => sectionTrees_proper (h.sections s hs)
  have hparts : AllProper ([line 8,
      .element (headingTag 1) [] (value d.title ::
        ifText d.subtitle fun s => [.void "br" [], .element "small" [] [value s]])] ++
      (ifText d.displayTime fun s => [line 8, .element "p" [fixed "class" "date"] [value s]]) ++
      contentsTrees d ++ d.sections.flatMap (sectionTrees o) ++ creditsTrees o d ++ [line 6]) := by
    simp only [allProper_append]
    exact ⟨⟨⟨⟨⟨⟨line_proper 8, heading_proper (by decide) properAttributes_nil htitle, trivial⟩,
      ifText_proper hdate⟩, contentsTrees_proper d⟩, hsections⟩, creditsTrees_proper h⟩,
      line_proper 6, trivial⟩
  exact box_proper (by simp [special]) hparts

theorem articleFoot_proper (d : Document) : (articleFoot d).Proper := by
  have hurls : AllProper ((d.oldUrls.flatMap fun url =>
      [line 8,
        .element "p" [fixed "class" "old-url"] [words "Previously published at ", value url]]) ++
      [line 6]) :=
    allProper_append.2 ⟨allProper_flatMap.2 fun url _ => ⟨line_proper 8, element_proper (by decide)
      (properAttributes_fixed (by decide) (by simp [special]) properAttributes_nil)
      ⟨words_proper (by simp [special]), value_proper url, trivial⟩, trivial⟩,
      line_proper 6, trivial⟩
  exact box_proper (by simp [special]) hurls

theorem articleTrees_proper (h : d.NoHtml) : AllProper (articleTrees o d) := by
  have hhead : AllProper ([line 4, .element "title" [] [value d.title]] ++
      headTrees "static/article.css" ["static/play.js"] ++ descriptionTrees d ++ [line 2]) := by
    rw [allProper_append, allProper_append, allProper_append]
    exact ⟨⟨⟨title_proper d, headTrees_proper (by simp [special]) (by simp [special])⟩,
      descriptionTrees_proper d⟩, line_proper 2, trivial⟩
  have hbody : AllProper
      [line 4, topBar d, gap 4, articleBody o d, gap 4, articleFoot d, line 2] :=
    ⟨line_proper 4, topBar_proper d, gap_proper 4, articleBody_proper h, gap_proper 4,
      articleFoot_proper d, line_proper 2, trivial⟩
  exact ⟨line_proper 0, element_proper (by decide) properAttributes_nil
    ⟨line_proper 2, element_proper (by decide) properAttributes_nil hhead, line_proper 2,
      element_proper (by decide) properAttributes_nil hbody, line_proper 0, trivial⟩, trivial⟩

/-- The page of a document is proper whatever its strings are, if the author has not written markup
himself. -/
theorem Document.trees_proper (o : Options) (k : Kind) (h : d.NoHtml) :
    AllProper (d.trees o k) := by
  cases k with
  | slides => exact slidesTrees_proper h
  | article => exact articleTrees_proper h

end Lectern
