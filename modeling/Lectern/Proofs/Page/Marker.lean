import Lectern.Proofs.Page.Rendered

/-!
# The marker of runnable excerpts

Whether excerpts can be run is told by a page only in its excerpts (`shows_trees`), and there only
by a marker in the class of the excerpt (`printAll_codeTrees`). So two pages of a document that
differ in the switch alone are the same up to the markers (`page_play`).
-/

namespace Lectern

open Markup

/-! ## The excerpts of a page -/

mutual

/-- The excerpts that are shown for an element, in their order. -/
def Element.codes : Element → List Code
  | .sub ⟨_, _, elems, _, _, _⟩ => Element.allCodes elems
  | .code c => [c]
  | .text _ _ | .list _ | .image _ _ _ | .iframe _ _ _ | .link _ _ | .caption _ | .html _ => []

/-- The excerpts that are shown for elements. -/
def Element.allCodes : List Element → List Code
  | [] => []
  | e :: r => e.codes ++ Element.allCodes r

end

/-- The excerpts of the page of a document, in their order. A deck shows its authors twice, on the
first and on the last slide. -/
def Document.codes (d : Document) (k : Kind) : List Code :=
  let authors := d.authors.flatMap fun a => Element.allCodes a.elems
  let sections := d.sections.flatMap fun s => Element.allCodes s.elems
  match k with
  | .slides => authors ++ sections ++ authors
  | .article => sections ++ authors

/-- Can the excerpt be run? Its author must ask for it, and it must be of a Go file. -/
def Code.runnable (c : Code) : Bool := c.play && c.ext = ".go"

/-! ## What depends on the switch -/

/-- A text depends on whether excerpts can be run only in the given excerpts, which it shows in
their order. -/
def Shows : List Code → (Bool → List Char) → Prop
  | [], shown => ∃ s, ∀ play, shown play = s
  | c :: cs, shown => ∃ front rest, Shows cs rest ∧
      ∀ play, shown play = front ++ printAll (c.trees play) ++ rest play

theorem shows_const (s : List Char) : Shows [] fun _ => s := ⟨s, fun _ => rfl⟩

theorem shows_code (c : Code) : Shows [c] fun play => printAll (c.trees play) :=
  ⟨[], fun _ => [], shows_const [], fun _ => (List.append_nil _).symm⟩

theorem Shows.prepend {cs : List Code} {shown : Bool → List Char} (h : Shows cs shown)
    (s : List Char) : Shows cs fun play => s ++ shown play := by
  cases cs with
  | nil =>
    obtain ⟨t, ht⟩ := h
    exact ⟨s ++ t, fun play => congrArg (s ++ ·) (ht play)⟩
  | cons c cs =>
    obtain ⟨front, rest, hrest, hshown⟩ := h
    refine ⟨s ++ front, rest, hrest, fun play => ?_⟩
    simp only [hshown, List.append_assoc]

theorem Shows.append {cs ds : List Code} {shown shown' : Bool → List Char} (h : Shows cs shown)
    (h' : Shows ds shown') : Shows (cs ++ ds) fun play => shown play ++ shown' play := by
  induction cs generalizing shown with
  | nil =>
    obtain ⟨s, hs⟩ := h
    obtain rfl : shown = fun _ => s := funext hs
    exact h'.prepend s
  | cons c cs ih =>
    obtain ⟨front, rest, hrest, hshown⟩ := h
    refine ⟨front, _, ih hrest, fun play => ?_⟩
    simp only [hshown, List.append_assoc]

theorem Shows.between {cs : List Code} {shown : Bool → List Char} (h : Shows cs shown)
    (s t : List Char) : Shows cs fun play => s ++ shown play ++ t := by
  have happend := (h.prepend s).append (shows_const t)
  rwa [List.append_nil] at happend

theorem shows_flatMap {α : Type} {cs : α → List Code} {shown : α → Bool → List Char} {l : List α}
    (h : ∀ a ∈ l, Shows (cs a) (shown a)) :
    Shows (l.flatMap cs) fun play => l.flatMap fun a => shown a play := by
  induction l with
  | nil => exact shows_const []
  | cons a l ih =>
    exact (h a (List.mem_cons_self ..)).append (ih fun b hb => h b (List.mem_cons_of_mem a hb))

/-! ## The excerpts of trees -/

/-- Trees depend on whether excerpts can be run only in the given excerpts. -/
def ShowsTrees (cs : List Code) (trees : Bool → List Markup) : Prop :=
  Shows cs fun play => printAll (trees play)

theorem showsTrees_const (trees : List Markup) : ShowsTrees [] fun _ => trees := shows_const _

theorem ShowsTrees.append {cs ds : List Code} {trees trees' : Bool → List Markup}
    (h : ShowsTrees cs trees) (h' : ShowsTrees ds trees') :
    ShowsTrees (cs ++ ds) fun play => trees play ++ trees' play := by
  simp only [ShowsTrees, printAll_append]
  exact Shows.append h h'

theorem ShowsTrees.between {cs : List Code} {trees : Bool → List Markup} (h : ShowsTrees cs trees)
    (front behind : List Markup) : ShowsTrees cs fun play => front ++ trees play ++ behind := by
  simp only [ShowsTrees, printAll_append]
  exact Shows.between h _ _

theorem ShowsTrees.element {cs : List Code} {trees : Bool → List Markup} (h : ShowsTrees cs trees)
    (tag : String) (attributes : List (String × List Char)) :
    ShowsTrees cs fun play => [.element tag attributes (trees play)] := by
  simp only [ShowsTrees, printAll_cons, printAll_nil, print, List.append_nil]
  exact Shows.between h _ _

theorem ShowsTrees.wrap {cs : List Code} {trees : Bool → List Markup} (h : ShowsTrees cs trees)
    (layers : List Layer) : ShowsTrees cs fun play => wrap layers (trees play) := by
  induction layers with
  | nil => exact h
  | cons a r ih => exact (ih.element a.tag a.attributes).between a.front a.behind

theorem showsTrees_flatMap {α : Type} {cs : α → List Code} {trees : α → Bool → List Markup}
    {l : List α} (h : ∀ a ∈ l, ShowsTrees (cs a) (trees a)) :
    ShowsTrees (l.flatMap cs) fun play => l.flatMap fun a => trees a play := by
  simp only [ShowsTrees, printAll_flatMap]
  exact shows_flatMap h

mutual

theorem Element.shows_trees : ∀ e : Element, ShowsTrees e.codes fun play => e.trees play
  | .sub ⟨number, title, elems, _, _, _⟩ =>
    (showsTrees_const [line 0, .element (headingTag (number.length + 1)) [("id", anchor number)]
      [value title]]).append (Element.shows_allTrees elems)
  | .code c => shows_code c
  | .text _ true | .text _ false | .list _ | .image _ _ _ | .iframe _ _ _ | .link _ _ | .caption _
  | .html _ => showsTrees_const _

theorem Element.shows_allTrees :
    ∀ elems : List Element, ShowsTrees (Element.allCodes elems) fun play =>
      Element.allTrees play elems
  | [] => showsTrees_const []
  | e :: r => (Element.shows_trees e).append (Element.shows_allTrees r)

end

/-! ## The excerpts of pages -/

variable (notes : Bool) (d : Document)

theorem shows_authorsTrees (style : String) :
    ShowsTrees (d.authors.flatMap fun a => Element.allCodes a.elems) fun play =>
      authorsTrees { play, notes } d style :=
  showsTrees_flatMap fun a _ =>
    (((Element.shows_allTrees a.elems).between [] [line 8]).element "div" _).between [line 8] []

theorem shows_slideTrees (s : Section) (number : Nat) :
    ShowsTrees (Element.allCodes s.elems) fun play => slideTrees { play, notes } s number := by
  have h := (((Element.shows_allTrees s.elems).between
    [line 8, .element (headingTag (if s.elems.isEmpty then 2 else 3)) [] [value s.title]]
    (notesTrees { notes } s ++
      [line 8, .element "span" [fixed "class" "pagenumber"] [.text (Nat.toDigits 10 number)],
        line 6])).element "article" (stringsAttribute "class" " " s.classes ++
          stringsAttribute "style" "; " s.styles)).between [line 6] [line 6]
  simp only [← List.append_assoc] at h
  exact h

theorem shows_titleSlide :
    ShowsTrees (d.authors.flatMap fun a => Element.allCodes a.elems) fun play =>
      [titleSlide { play, notes } d] :=
  (((shows_authorsTrees notes d "presenter").between
    ([line 8, .element (headingTag 1) [] [value d.title]] ++
      (ifText d.subtitle fun s => [line 8, .element (headingTag 3) [] [value s]]) ++
      (ifText d.displayTime fun s => [line 8, .element (headingTag 3) [] [value s]]))
    [line 6]).element "article" [])

theorem shows_thanksSlide :
    ShowsTrees (d.authors.flatMap fun a => Element.allCodes a.elems) fun play =>
      [thanksSlide { play, notes } d] :=
  ((shows_authorsTrees notes d "presenter").between
    [line 8, .element (headingTag 3) [] [words "Thank you"]] [line 6]).element "article" []

theorem shows_slidesTrees :
    ShowsTrees (d.codes .slides) fun play => slidesTrees { play, notes } d := by
  have hslides : ShowsTrees (d.sections.flatMap fun s => Element.allCodes s.elems) fun play =>
      d.sections.zipIdx.flatMap fun e => slideTrees { play, notes } e.1 (e.2 + 2) := by
    have h := showsTrees_flatMap (l := d.sections.zipIdx) fun e _ =>
      shows_slideTrees notes e.1 (e.2 + 2)
    have hcodes : d.sections.zipIdx.flatMap (fun e => Element.allCodes e.1.elems) =
        (d.sections.zipIdx.map Prod.fst).flatMap fun s => Element.allCodes s.elems := by
      rw [List.flatMap_map]
    rwa [hcodes, List.zipIdx_map_fst] at h
  have h := (((shows_titleSlide notes d).between [gap 6] [line 6]).append hslides).append
    ((shows_thanksSlide notes d).between [gap 6] [gap 4])
  exact h.wrap (slidesLayers d)

theorem shows_sectionTrees (s : Section) :
    ShowsTrees (Element.allCodes s.elems) fun play => sectionTrees { play, notes } s :=
  (Element.shows_allTrees s.elems).between
    [line 8, .element (headingTag 2) [("id", anchor s.number)] [value s.title]]
    (notesTrees { notes } s)

theorem shows_creditsTrees :
    ShowsTrees (d.authors.flatMap fun a => Element.allCodes a.elems) fun play =>
      creditsTrees { play, notes } d := by
  by_cases hnone : d.authors = []
  · simp only [creditsTrees, hnone, List.isEmpty_nil, if_true, List.flatMap_nil]
    exact showsTrees_const []
  · simp only [creditsTrees, List.isEmpty_iff, if_neg hnone]
    exact (showsTrees_const _).append (shows_authorsTrees notes d "author")

theorem shows_articleTrees :
    ShowsTrees (d.codes .article) fun play => articleTrees { play, notes } d := by
  have hsections : ShowsTrees (d.sections.flatMap fun s => Element.allCodes s.elems) fun play =>
      d.sections.flatMap (sectionTrees { play, notes }) :=
    showsTrees_flatMap fun s _ => shows_sectionTrees notes s
  have h := (hsections.append (shows_creditsTrees notes d)).between (openingTrees d) [line 6]
  simp only [← List.append_assoc] at h
  exact h.wrap (articleLayers d)

/-- The page of a document depends on whether excerpts can be run only in its excerpts. -/
theorem Document.shows_trees (k : Kind) :
    ShowsTrees (d.codes k) fun play => d.trees { play, notes } k := by
  cases k with
  | slides => exact shows_slidesTrees notes d
  | article => exact shows_articleTrees notes d

/-! ## Markers -/

/-- The marker of an excerpt that can be run. -/
def marker : List Char := " playground".toList

/-- What is shown for an excerpt, up to the end of its class. -/
def startOfCode : List Char :=
  newline 0 ++ openTag "div" ++ openAttribute "class" ++ "code".toList

/-- What is shown for an excerpt behind its class, from the quote that ends the class on. -/
def Code.restOfTrees (c : Code) : List Char := (printAll (c.trees false)).drop startOfCode.length

theorem print_element_class (tag : String) (s t : List Char)
    (attributes : List (String × List Char)) (body : List Markup) :
    (Markup.element tag (("class", s ++ t) :: attributes) body).print =
      openTag tag ++ openAttribute "class" ++ s ++ t ++
        ('"' :: (attributes.flatMap attributeText ++ '>' :: (printAll body ++ endTag tag))) := by
  simp [print, startTag, attributeText]

theorem playableWhen_true (c : Code) : c.playableWhen true = c.runnable := rfl

theorem playableWhen_false (c : Code) : c.playableWhen false = false := rfl

/-- Whether an excerpt can be run is told by the marker at the end of its class. -/
theorem printAll_codeTrees (c : Code) (play : Bool) :
    printAll (c.trees play) =
      startOfCode ++ (if c.playableWhen play then marker else []) ++ c.restOfTrees := by
  obtain ⟨attributes, body, htrees⟩ : ∃ attributes body, ∀ play, c.trees play =
      [line 0, .element "div" (("class", "code".toList ++
        if c.playableWhen play then marker else []) :: attributes) body] :=
    ⟨_, _, fun _ => rfl⟩
  have hprint : ∀ play, printAll (c.trees play) =
      startOfCode ++ (if c.playableWhen play then marker else []) ++
        ('"' :: (attributes.flatMap attributeText ++ '>' :: (printAll body ++ endTag "div"))) := by
    intro play
    rw [htrees, printAll_cons, printAll_cons, printAll_nil, print_element_class, List.append_nil,
      startOfCode, line, print]
    simp only [List.append_assoc]
  have hrest : c.restOfTrees =
      '"' :: (attributes.flatMap attributeText ++ '>' :: (printAll body ++ endTag "div")) := by
    rw [Code.restOfTrees, hprint, playableWhen_false, if_neg Bool.false_ne_true, List.append_nil,
      List.drop_left]
  rw [hprint, hrest]

/-- Texts between which the markers of excerpts stand: each marker stands at the end of the class of
its excerpt. -/
structure Marked (codes : List Code) (texts : List (List Char)) : Prop where
  length : texts.length = codes.length + 1
  around : ∀ i c, codes[i]? = some c → ∃ front behind, texts[i]? = some front ∧
    texts[i + 1]? = some behind ∧ startOfCode <:+ front ∧ c.restOfTrees <+: behind

theorem marked_nil (s : List Char) : Marked [] [s] := ⟨rfl, fun _ _ h => by simp at h⟩

theorem Marked.prepend {codes : List Code} {t : List Char} {texts : List (List Char)}
    (h : Marked codes (t :: texts)) (s : List Char) : Marked codes ((s ++ t) :: texts) := by
  refine ⟨h.length, fun i c hc => ?_⟩
  obtain ⟨front, behind, hfront, hbehind, hstart, hrest⟩ := h.around i c hc
  cases i with
  | zero =>
    obtain rfl : t = front := Option.some.inj hfront
    exact ⟨s ++ t, behind, rfl, hbehind, hstart.trans (List.suffix_append s t), hrest⟩
  | succ i => exact ⟨front, behind, hfront, hbehind, hstart, hrest⟩

theorem Marked.cons {codes : List Code} {t : List Char} {texts : List (List Char)}
    (h : Marked codes (t :: texts)) (c : Code) (s : List Char) :
    Marked (c :: codes) ((s ++ startOfCode) :: (c.restOfTrees ++ t) :: texts) := by
  have h' := h.prepend c.restOfTrees
  refine ⟨congrArg Nat.succ h'.length, fun i c' hc => ?_⟩
  cases i with
  | zero =>
    obtain rfl : c = c' := Option.some.inj hc
    exact ⟨_, _, rfl, rfl, List.suffix_append _ _, List.prefix_append _ _⟩
  | succ i =>
    rw [List.getElem?_cons_succ] at hc
    obtain ⟨front, behind, hfront, hbehind, hstart, hrest⟩ := h'.around i c' hc
    refine ⟨front, behind, ?_, ?_, hstart, hrest⟩
    · rwa [List.getElem?_cons_succ]
    · rwa [List.getElem?_cons_succ]

theorem intercalate_append_cons (sep s t : List Char) (texts : List (List Char)) :
    List.intercalate sep ((s ++ t) :: texts) = s ++ List.intercalate sep (t :: texts) := by
  cases texts with
  | nil => simp
  | cons u texts => rw [List.intercalate_cons_cons, List.intercalate_cons_cons]; simp

/-- A text that depends on whether excerpts can be run in excerpts alone has the markers of the
excerpts that can be run, and is the same otherwise. -/
theorem Shows.marked {cs : List Code} {shown : Bool → List Char} (h : Shows cs shown) :
    ∃ texts, Marked (cs.filter Code.runnable) texts ∧
      shown false = texts.flatten ∧ shown true = List.intercalate marker texts := by
  induction cs generalizing shown with
  | nil =>
    obtain ⟨s, hs⟩ := h
    exact ⟨[s], marked_nil s, by simp [hs], by simp [hs]⟩
  | cons c cs ih =>
    obtain ⟨front, rest, hrest, hshown⟩ := h
    obtain ⟨texts, hmarked, hoff, hon⟩ := ih hrest
    obtain ⟨t, texts, rfl⟩ := List.exists_cons_of_length_pos
      (show 0 < texts.length by rw [hmarked.length]; exact Nat.succ_pos _)
    have hcode := printAll_codeTrees c
    cases hc : c.runnable with
    | true =>
      refine ⟨(front ++ startOfCode) :: (c.restOfTrees ++ t) :: texts, ?_, ?_, ?_⟩
      · rw [List.filter_cons_of_pos hc]
        exact hmarked.cons c front
      · rw [hshown, hoff, hcode, playableWhen_false]
        simp
      · rw [hshown, hon, hcode, playableWhen_true, hc, List.intercalate_cons_cons,
          intercalate_append_cons]
        simp
    | false =>
      refine ⟨(front ++ (startOfCode ++ c.restOfTrees) ++ t) :: texts, ?_, ?_, ?_⟩
      · rw [List.filter_cons_of_neg (by simp [hc])]
        exact hmarked.prepend _
      · rw [hshown, hoff, hcode, playableWhen_false]
        simp
      · rw [hshown, hon, hcode, playableWhen_true, hc, intercalate_append_cons]
        simp

/-! ## Pages -/

namespace Theme

/-- Enabling running changes nothing in the page of a document but the markers: the two pages are
made of the same texts, and between these the page in which excerpts can be run has a marker for
each of its runnable excerpts, in their order, at the end of the class of the excerpt. -/
theorem page_play (d : Document) (k : Kind) (notes : Bool) :
    ∃ t, bundled = .ok t ∧
      (d.NestedWithin deepest → ∃ texts, Marked ((d.codes k).filter Code.runnable) texts ∧
        t.page k d { play := false, notes } = .ok texts.flatten ∧
        t.page k d { play := true, notes } = .ok (List.intercalate marker texts)) ∧
      (¬ d.NestedWithin deepest → ∀ play,
        t.page k d { play, notes } = .error (.render .tooDeep)) ∧
      ((∀ c ∈ d.codes k, c.runnable = false) →
        t.page k d { play := true, notes } = t.page k d { play := false, notes }) := by
  have hmarked : d.NestedWithin deepest →
      ∃ texts, Marked ((d.codes k).filter Code.runnable) texts ∧
        ofBundled.page k d { play := false, notes } = .ok texts.flatten ∧
        ofBundled.page k d { play := true, notes } = .ok (List.intercalate marker texts) := by
    intro hnested
    have hshows := (show Shows _ _ from d.shows_trees notes k).prepend doctype
    obtain ⟨texts, hmarked, hoff, hon⟩ := hshows.marked
    refine ⟨texts, hmarked, ?_, ?_⟩
    · rw [page_ofBundled, if_pos hnested, ← hoff]
    · rw [page_ofBundled, if_pos hnested, ← hon]
  have hdeep : ¬ d.NestedWithin deepest → ∀ play,
      ofBundled.page k d { play, notes } = .error (.render .tooDeep) := by
    intro hnested play
    rw [page_ofBundled, if_neg hnested]
  refine ⟨ofBundled, bundled_eq, hmarked, hdeep, fun hnone => ?_⟩
  by_cases hnested : d.NestedWithin deepest
  · obtain ⟨texts, htexts, hoff, hon⟩ := hmarked hnested
    have hfilter : (d.codes k).filter Code.runnable = [] :=
      List.filter_eq_nil_iff.2 fun c hc => by simp [hnone c hc]
    rw [hfilter] at htexts
    obtain ⟨s, rfl⟩ := List.length_eq_one_iff.1 htexts.length
    rw [hoff, hon]
    simp
  · rw [hdeep hnested, hdeep hnested]

/-- A deck with a program that can be run and one that cannot. -/
def programs : Document where
  title := "Programs"
  sections :=
    [⟨[1], "Two", [.code { fileName := "a.go", ext := ".go", play := true },
      .code { fileName := "b.go", ext := ".go" }], ["say"], [], []⟩]

theorem page_play_programs : programs.NestedWithin deepest ∧
    ∃ t, bundled = .ok t ∧ ∃ first second,
      t.page .slides programs { play := false, notes := true } = .ok (first ++ second) ∧
      t.page .slides programs { play := true, notes := true } =
        .ok (first ++ marker ++ second) ∧
      "<div class=\"code".toList <:+ first := by
  have hnested : programs.NestedWithin deepest := by decide
  obtain ⟨t, ht, hpage, -, -⟩ := page_play programs .slides true
  obtain ⟨texts, htexts, hoff, hon⟩ := hpage hnested
  have hcodes : (programs.codes .slides).filter Code.runnable =
      [{ fileName := "a.go", ext := ".go", play := true }] := by decide
  rw [hcodes] at htexts
  obtain ⟨first, second, rfl⟩ := List.length_eq_two.1 htexts.length
  obtain ⟨_, _, hfirst, -, hstart, -⟩ := htexts.around 0 _ rfl
  obtain rfl := Option.some.inj hfirst
  refine ⟨hnested, t, ht, first, second, ?_, ?_, ?_⟩
  · exact hoff.trans (congrArg Except.ok (by simp))
  · exact hon.trans (congrArg Except.ok (by simp))
  · have hdiv : "<div class=\"code".toList <:+ startOfCode := ⟨['\n'], by decide⟩
    exact hdiv.trans hstart

end Theme

end Lectern
