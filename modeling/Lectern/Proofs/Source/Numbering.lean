import Lectern.Proofs.Document.Numbering
import Lectern.Proofs.Page.Navigation
import Lectern.Proofs.Source.Shape

/-!
# The numbers of sections that are read

The sections of a source are numbered by their positions, whatever stands between them, as they
are when a document is built section by section (`read_numbers_sections`).
-/

namespace Lectern

/-! ## Numbers as texts -/

/-- Numbers are told apart by their texts. -/
theorem nodup_formattedNumbers {l : List Section} (h : (l.map Section.number).Nodup) :
    (l.map Section.formattedNumber).Nodup := by
  have hinjective : Function.Injective fun number => String.ofList (dotted number) :=
    fun m n e => dotted_injective (String.ofList_injective e)
  have htexts := h.map hinjective
  rwa [List.map_map] at htexts

/-! ## The order in which sections are added -/

mutual

theorem map_title_section : ∀ s : Section,
    s.title :: s.additions.map Addition.title = s.withBelow.map Section.title
  | ⟨_, title, elems, _, _, _⟩ => by
    rw [Section.additions, map_title_elements 0 elems, withBelow_eq, List.map_cons]

theorem map_title_elements (next : Nat) (es : List Element) :
    (Element.additions next es).map Addition.title =
      (Element.allSections es).map Section.title := by
  cases es with
  | nil => rfl
  | cons e r =>
    cases he : e.section? with
    | none =>
      rw [additions_cons_of_section?_eq_none he, allSections_cons_of_section?_eq_none he,
        map_title_elements next r]
    | some s =>
      cases e <;> cases he
      have hbelow : (s.additions.map (.below next)).map Addition.title =
          s.additions.map Addition.title := List.map_map
      rw [Element.additions, List.map_append, List.map_cons, hbelow,
        map_title_elements (next + 1) r, allSections_cons_sub, List.map_append,
        ← map_title_section s]

end

/-- Sections are added in the order in which they are shown. -/
theorem Document.map_title_additions (d : Document) :
    d.additions.map Addition.title = d.allSections.map Section.title := by
  rw [additions, map_title_elements, allSections_eq_flatMap, filterMap_section?_map_sub]
  rfl

namespace Source

/-! ## The numbers that an outline gives -/

mutual

theorem isNumbered_renumber (number : List Nat) :
    ∀ s : Section, (renumber number s).IsNumbered number
  | ⟨_, title, elems, _, _, _⟩ => by
    rw [renumber]
    exact ⟨rfl, areNumbered_renumberFrom number 1 elems⟩

theorem areNumbered_renumberFrom (parent : List Nat) (next : Nat) (es : List Element) :
    Element.AreNumbered parent next (renumberFrom parent next es) := by
  cases es with
  | nil => trivial
  | cons e r =>
    cases e with
    | sub s =>
      rw [renumberFrom]
      exact ⟨isNumbered_renumber (parent ++ [next]) s, areNumbered_renumberFrom parent (next + 1) r⟩
    | _ =>
      rw [renumberFrom_cons_of_section?_eq_none rfl, areNumbered_cons_of_section?_eq_none rfl]
      exact areNumbered_renumberFrom parent next r

end

/-- The positions of sections do not depend on what stands between them. -/
theorem areNumbered_filterMap {parent : List Nat} {next : Nat} {es : List Element}
    (h : Element.AreNumbered parent next es) :
    Element.AreNumbered parent next ((es.filterMap Element.section?).map .sub) := by
  induction es generalizing next with
  | nil => trivial
  | cons e r ih =>
    cases he : e.section? with
    | none =>
      rw [List.filterMap_cons_none he]
      exact ih ((areNumbered_cons_of_section?_eq_none he parent next r).1 h)
    | some s =>
      cases e <;> cases he
      exact ⟨h.1, ih h.2⟩

theorem numbered_of_read {files : Files} {name : Path} {mode : Mode} {text : String} {d : Document}
    (h : read files name mode text = .ok d) : d.Numbered := by
  obtain ⟨-, items, hsections⟩ := read_parts h
  rw [Document.Numbered, hsections, outline_eq]
  exact areNumbered_filterMap (areNumbered_renumberFrom [] 1 _)

/-- In a document that is read, the number of a section is its place: its position among the
sections of the document, then at each depth its position among the subsections. So its depth is
that of its place, a subsection lies one deeper than its section, and no two sections have the same
number as a text. Adding the sections one after the other, in the order in which they are shown,
builds the same tree with the same numbers. -/
theorem read_numbers_sections {files : Files} {name : Path} {text : String} {d : Document}
    (h : read files name .full text = .ok d) :
    (∀ place s, d.at? place = some s →
      s.number = place.map (· + 1) ∧ s.depth = place.length ∧
        ∀ t ∈ s.subsections, t.depth = s.depth + 1) ∧
    (d.allSections.map Section.formattedNumber).Nodup ∧
    d.additions.map Addition.title = d.allSections.map Section.title ∧
    d.rebuilt.sections = d.sections.map Section.bare := by
  have hnumbered := numbered_of_read h
  refine ⟨fun place s hs => ?_, nodup_formattedNumbers (nodup_numbers_of_read h),
    d.map_title_additions, hnumbered.rebuilt⟩
  have hplace := hnumbered.at? hs
  refine ⟨hplace.number_eq, ?_, fun t ht => ?_⟩
  · rw [Section.depth, hplace.number_eq, List.length_map]
  · obtain ⟨i, hi⟩ := List.mem_iff_getElem?.1 ht
    have hsub := isNumbered_of_getElem? hplace.elems hi
    rw [Section.depth, Section.depth, hsub.number_eq, hplace.number_eq, List.length_append,
      List.length_singleton]

/-- A source in which a line of stars stands between two subsections. -/
def interrupted : String := "Talk\n\n* One\n\n** In it\n\n**\n\n** Also in it\n"

/-- The document of the source. -/
def interruptedTalk : Document where
  title := "Talk"
  sections := [⟨[1], "One",
    [.sub ⟨[1, 1], "In it", [], [], [], []⟩, .paragraph ["**"],
      .sub ⟨[1, 2], "Also in it", [], [], [], []⟩], [], [], []⟩]

theorem read_numbers_sections_interrupted :
    read (fun _ => .error .notFound) (.ofString "talk.slide") .full interrupted =
        .ok interruptedTalk ∧
      ∃ s, interruptedTalk.at? [0, 1] = some s ∧ s.title = "Also in it" ∧ s.number = [1, 2] ∧
        interruptedTalk.rebuilt.sections = interruptedTalk.sections.map Section.bare := by
  have hread : read (fun _ => .error .notFound) (.ofString "talk.slide") .full interrupted =
      .ok interruptedTalk := by cbv
  obtain ⟨hnumbers, -, -, hrebuilt⟩ := read_numbers_sections hread
  exact ⟨hread, ⟨[1, 2], "Also in it", [], [], [], []⟩, rfl, rfl,
    (hnumbers [0, 1] _ rfl).1, hrebuilt⟩

end Source

end Lectern
