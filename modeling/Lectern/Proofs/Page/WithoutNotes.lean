import Lectern.Proofs.Page.Rendered

/-!
# Documents without their speaker notes

The speaker notes of a document are shown only where the notes are switched on: without them, a
document has the page that it has with the notes switched off (`page_withoutNotes`). So the notes do
not influence the page then (`Theme.page_hides_notes`).
-/

namespace Lectern

open Markup

/-! ## Dropping the notes -/

mutual

/-- The section without its speaker notes and those of the sections below it. -/
def Section.withoutNotes : Section → Section
  | ⟨number, title, elems, _, classes, styles⟩ =>
      ⟨number, title, Element.allWithoutNotes elems, [], classes, styles⟩

/-- The element without the speaker notes in it. -/
def Element.withoutNotes : Element → Element
  | .sub s => .sub s.withoutNotes
  | e => e

/-- The elements without the speaker notes in them. -/
def Element.allWithoutNotes : List Element → List Element
  | [] => []
  | e :: r => e.withoutNotes :: Element.allWithoutNotes r

end

/-- The document without speaker notes. -/
def Document.withoutNotes (d : Document) : Document :=
  { d with
    authors := d.authors.map fun a => ⟨Element.allWithoutNotes a.elems⟩
    sections := d.sections.map Section.withoutNotes }

theorem allWithoutNotes_eq_map (elems : List Element) :
    Element.allWithoutNotes elems = elems.map Element.withoutNotes := by
  induction elems with
  | nil => rfl
  | cons e r ih => rw [Element.allWithoutNotes, ih, List.map_cons]

theorem withoutNotes_of_section?_eq_none {e : Element} (h : e.section? = none) :
    e.withoutNotes = e := by
  cases e with
  | sub s => cases h
  | _ => rfl

/-! ## What is shown of elements -/

mutual

theorem Element.trees_withoutNotes (play : Bool) :
    ∀ e : Element, e.withoutNotes.trees play = e.trees play
  | .sub ⟨number, title, elems, _, _, _⟩ => by
    rw [Element.withoutNotes, Section.withoutNotes, Element.trees, Element.trees,
      Element.allTrees_withoutNotes play elems]
  | .text _ _ | .list _ | .code _ | .image _ _ _ | .iframe _ _ _ | .link _ _ | .caption _
  | .html _ => rfl

theorem Element.allTrees_withoutNotes (play : Bool) :
    ∀ elems : List Element,
      Element.allTrees play (Element.allWithoutNotes elems) = Element.allTrees play elems
  | [] => rfl
  | e :: r => by
    rw [Element.allWithoutNotes, Element.allTrees, Element.allTrees,
      Element.trees_withoutNotes play e, Element.allTrees_withoutNotes play r]

end

mutual

theorem Section.contents_withoutNotes : ∀ s : Section, s.withoutNotes.contents = s.contents
  | ⟨number, title, elems, _, _, _⟩ => by
    rw [Section.withoutNotes, Section.contents, Section.contents,
      Element.allContents_withoutNotes elems]

theorem Element.contents_withoutNotes : ∀ e : Element, e.withoutNotes.contents = e.contents
  | .sub s => s.contents_withoutNotes
  | .text _ _ | .list _ | .code _ | .image _ _ _ | .iframe _ _ _ | .link _ _ | .caption _
  | .html _ => rfl

theorem Element.allContents_withoutNotes : ∀ elems : List Element,
    Element.allContents (Element.allWithoutNotes elems) = Element.allContents elems
  | [] => rfl
  | e :: r => by
    rw [Element.allWithoutNotes, Element.allContents, Element.allContents,
      Element.contents_withoutNotes e, Element.allContents_withoutNotes r]

end

mutual

theorem Element.nesting_withoutNotes : ∀ e : Element, e.withoutNotes.nesting = e.nesting
  | .sub ⟨number, title, elems, _, _, _⟩ => by
    rw [Element.withoutNotes, Section.withoutNotes, Element.nesting, Element.nesting,
      Element.nestings_withoutNotes elems]
  | .text _ _ | .list _ | .code _ | .image _ _ _ | .iframe _ _ _ | .link _ _ | .caption _
  | .html _ => rfl

theorem Element.nestings_withoutNotes : ∀ elems : List Element,
    Element.nestings (Element.allWithoutNotes elems) = Element.nestings elems
  | [] => rfl
  | e :: r => by
    rw [Element.allWithoutNotes, Element.nestings, Element.nestings,
      Element.nesting_withoutNotes e, Element.nestings_withoutNotes r]

end

/-! ## Pages -/

variable (o : Options) (d : Document)

theorem notesTrees_off (s : Section) : notesTrees { o with notes := false } s = [] := rfl

theorem notesTrees_withoutNotes (s : Section) : notesTrees o s.withoutNotes = [] := by
  obtain ⟨_, _, _, _, _, _⟩ := s
  rw [Section.withoutNotes, notesTrees, if_neg]
  simp

theorem isEmpty_allWithoutNotes (elems : List Element) :
    (Element.allWithoutNotes elems).isEmpty = elems.isEmpty := by
  cases elems <;> rfl

theorem slideTrees_withoutNotes (s : Section) (number : Nat) :
    slideTrees o s.withoutNotes number = slideTrees { o with notes := false } s number := by
  rw [slideTrees, slideTrees, notesTrees_withoutNotes, notesTrees_off]
  obtain ⟨_, _, elems, _, _, _⟩ := s
  simp only [Section.withoutNotes, isEmpty_allWithoutNotes, Element.allTrees_withoutNotes]

theorem sectionTrees_withoutNotes (s : Section) :
    sectionTrees o s.withoutNotes = sectionTrees { o with notes := false } s := by
  rw [sectionTrees, sectionTrees, notesTrees_withoutNotes, notesTrees_off]
  obtain ⟨_, _, elems, _, _, _⟩ := s
  simp only [Section.withoutNotes, Element.allTrees_withoutNotes]

theorem authorsTrees_withoutNotes (style : String) :
    authorsTrees o d.withoutNotes style = authorsTrees { o with notes := false } d style := by
  simp only [authorsTrees, Document.withoutNotes, List.flatMap_map, Element.allTrees_withoutNotes]

theorem contentsTrees_withoutNotes : contentsTrees d.withoutNotes = contentsTrees d := by
  simp only [contentsTrees, Document.withoutNotes, List.isEmpty_map, List.flatMap_map,
    Section.contents_withoutNotes]

theorem slidesTrees_withoutNotes :
    slidesTrees o d.withoutNotes = slidesTrees { o with notes := false } d := by
  have hslides : d.withoutNotes.sections.zipIdx.flatMap
        (fun e => slideTrees o e.1 (e.2 + 2)) =
      d.sections.zipIdx.flatMap fun e => slideTrees { o with notes := false } e.1 (e.2 + 2) := by
    rw [Document.withoutNotes, List.zipIdx_map, List.flatMap_map]
    exact congrArg (d.sections.zipIdx.flatMap ·)
      (funext fun e => slideTrees_withoutNotes o e.1 (e.2 + 2))
  have hshow : slideShow o d.withoutNotes = slideShow { o with notes := false } d := by
    rw [slideShow, slideShow, hslides, titleSlide, titleSlide, thanksSlide, thanksSlide,
      authorsTrees_withoutNotes]
    rfl
  rw [slidesTrees, slidesTrees, hshow]
  rfl

theorem articleTrees_withoutNotes :
    articleTrees o d.withoutNotes = articleTrees { o with notes := false } d := by
  have hsections : d.withoutNotes.sections.flatMap (sectionTrees o) =
      d.sections.flatMap (sectionTrees { o with notes := false }) := by
    rw [Document.withoutNotes, List.flatMap_map]
    exact congrArg (d.sections.flatMap ·) (funext fun s => sectionTrees_withoutNotes o s)
  have hcredits : creditsTrees o d.withoutNotes = creditsTrees { o with notes := false } d := by
    rw [creditsTrees, creditsTrees, authorsTrees_withoutNotes, Document.withoutNotes,
      List.isEmpty_map]
  have hbody : articleBody o d.withoutNotes = articleBody { o with notes := false } d := by
    rw [articleBody, articleBody, contentsTrees_withoutNotes, hsections, hcredits]
    rfl
  rw [articleTrees, articleTrees, hbody]
  rfl

theorem nestedWithin_withoutNotes (n : Nat) :
    d.withoutNotes.NestedWithin n ↔ d.NestedWithin n := by
  have hsections (s : Section) :
      Element.nestings s.withoutNotes.elems = Element.nestings s.elems := by
    obtain ⟨_, _, elems, _, _, _⟩ := s
    exact Element.nestings_withoutNotes elems
  simp only [Document.NestedWithin, Document.withoutNotes, List.forall_mem_map, hsections,
    Element.nestings_withoutNotes]

/-- Without its speaker notes, a document has the page that it has with the notes switched off. -/
theorem page_withoutNotes (k : Kind) :
    Theme.ofBundled.page k d.withoutNotes o =
      Theme.ofBundled.page k d { o with notes := false } := by
  have htrees : d.withoutNotes.trees o k = d.trees { o with notes := false } k := by
    cases k with
    | slides => exact slidesTrees_withoutNotes o d
    | article => exact articleTrees_withoutNotes o d
  rw [Theme.page_ofBundled, Theme.page_ofBundled, htrees]
  simp only [nestedWithin_withoutNotes]

/-- Documents that differ in their speaker notes alone have the same page with the notes switched
off. -/
theorem page_eq_of_withoutNotes_eq {d d' : Document} (h : d.withoutNotes = d'.withoutNotes)
    (k : Kind) (play : Bool) :
    Theme.ofBundled.page k d { play, notes := false } =
      Theme.ofBundled.page k d' { play, notes := false } :=
  calc Theme.ofBundled.page k d { play, notes := false }
      = Theme.ofBundled.page k d.withoutNotes { play, notes := false } :=
        (page_withoutNotes { play, notes := false } d k).symm
    _ = Theme.ofBundled.page k d'.withoutNotes { play, notes := false } := by rw [h]
    _ = Theme.ofBundled.page k d' { play, notes := false } :=
        page_withoutNotes { play, notes := false } d' k

/-- The speaker notes of a document do not influence its page when they are switched off: it is the
page of the document without notes, for which the switch makes no difference. -/
theorem Theme.page_hides_notes (d : Document) (k : Kind) (play : Bool) :
    ∃ t, bundled = .ok t ∧
      t.page k d { play, notes := false } = t.page k d.withoutNotes { play, notes := false } ∧
      t.page k d { play, notes := false } = t.page k d.withoutNotes { play, notes := true } ∧
      (d.NestedWithin deepest → ∃ html, t.page k d { play, notes := false } = .ok html) := by
  refine ⟨ofBundled, bundled_eq, (page_withoutNotes { play, notes := false } d k).symm,
    (page_withoutNotes { play, notes := true } d k).symm, fun hnested => ?_⟩
  rw [page_ofBundled, if_pos hnested]
  exact ⟨_, rfl⟩

end Lectern
