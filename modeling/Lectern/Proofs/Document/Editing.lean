import Lectern.Proofs.Source.Numbering

/-!
# Documents that are built step by step

A document is built from a title by adding sections and elements. A step changes the section that
it is applied to at its end only (`at?_modifyAt`), and keeps the numbers of all sections their
places (`Edit.numbered_apply`). So whatever is built is numbered by its positions, and has as many
sections as were added (`Document.Built.keeps_numbering`).
-/

namespace Lectern

/-! ## Steps -/

/-- A step by which a document is built: a section of the document is added, or a section or an
element of the section at a place. -/
inductive Edit where
  | addSection (title : String)
  | addSubsection (place : List Nat) (title : String)
  | addElem (place : List Nat) (e : Element)

namespace Edit

/-- The document behind the step. -/
def apply (d : Document) : Edit → Document
  | addSection title => d.addSection title
  | addSubsection place title => d.addSubsectionAt place title
  | addElem place e => d.addElemAt place e

/-- Can the step be made? The section that it is applied to is there, and what is added as an
element is no section. -/
def Fits (d : Document) : Edit → Prop
  | addSection _ => True
  | addSubsection place _ => ∃ s, d.at? place = some s
  | addElem place e => (∃ s, d.at? place = some s) ∧ e.section? = none

/-- The place of the section that the step is applied to; no section is at that of the document. -/
def place : Edit → List Nat
  | addSection _ => []
  | addSubsection place _ => place
  | addElem place _ => place

/-- What the step adds to the section that it is applied to. -/
def element (s : Section) : Edit → Element
  | addSection title => .sub (s.nextSubsection title)
  | addSubsection _ title => .sub (s.nextSubsection title)
  | addElem _ e => e

/-- Does the step add a section? -/
def addsSection : Edit → Bool
  | addSection _ => true
  | addSubsection _ _ => true
  | addElem _ _ => false

end Edit

/-- The steps that build a document from a title, in order. -/
inductive Document.Built (title : String) : List Edit → Document → Prop
  | new : Built title [] (.new title)
  | step {edits : List Edit} {d : Document} {e : Edit} (h : Built title edits d) (he : e.Fits d) :
      Built title (edits ++ [e]) (e.apply d)

/-! ## Documents as sections -/

theorem asSection_modifyAt (f : Section → Section) (i : Nat) (place : List Nat) (d : Document) :
    (d.modifyAt f (i :: place)).asSection = d.asSection.modifyAt f (i :: place) := by
  have hmodify : d.asSection.modifyAt f (i :: place) = { d.asSection with
      elems := Element.modifySub (Section.modifyAt f place) i (d.sections.map .sub) } := rfl
  rw [hmodify, modifySub_map_sub]
  rfl

theorem subsections_asSection (d : Document) : d.asSection.subsections = d.sections :=
  filterMap_section?_map_sub d.sections

theorem Section.at?_cons_eq_some_iff {s t : Section} {i : Nat} {place : List Nat} :
    s.at? (i :: place) = some t ↔ ∃ u, s.subsections[i]? = some u ∧ u.at? place = some t := by
  rw [at?, Option.bind_eq_some_iff]

theorem Document.at?_eq_some_iff {d : Document} {place : List Nat} {s : Section} :
    d.at? place = some s ↔ place ≠ [] ∧ d.asSection.at? place = some s := by
  cases place with
  | nil => simp [at?]
  | cons i place => rw [at?, Section.at?, subsections_asSection]; simp

/-- A step adds an element to a section of the document, or to the document as a section. -/
theorem Edit.asSection_apply {d : Document} {e : Edit} (he : e.Fits d) :
    (e.apply d).asSection = d.asSection.modifyAt (fun s => s.addElem (e.element s)) e.place := by
  have hne : ∀ {place : List Nat}, (∃ s, d.at? place = some s) → ∃ i rest, place = i :: rest := by
    rintro place ⟨s, hs⟩
    exact List.exists_cons_of_ne_nil (Document.at?_eq_some_iff.1 hs).1
  cases e with
  | addSection title => exact asSection_add d ⟨[], title⟩
  | addSubsection place title =>
    obtain ⟨i, rest, rfl⟩ := hne he
    exact asSection_modifyAt (·.addSubsection title) i rest d
  | addElem place x =>
    obtain ⟨i, rest, rfl⟩ := hne he.1
    exact asSection_modifyAt (·.addElem x) i rest d

theorem modifySub_cons_of_section?_eq_none {e : Element} (h : e.section? = none)
    (f : Section → Section) (i : Nat) (r : List Element) :
    Element.modifySub f i (e :: r) = e :: Element.modifySub f i r := by
  cases e <;> cases h <;> cases i <;> rfl

/-! ## Numbers -/

theorem areNumbered_append {parent : List Nat} {next : Nat} {es fs : List Element} :
    Element.AreNumbered parent next (es ++ fs) ↔ Element.AreNumbered parent next es ∧
      Element.AreNumbered parent (next + (es.filterMap Element.section?).length) fs := by
  induction es generalizing next with
  | nil => exact ⟨fun h => ⟨trivial, h⟩, fun h => h.2⟩
  | cons e r ih =>
    cases he : e.section? with
    | none =>
      rw [List.cons_append, areNumbered_cons_of_section?_eq_none he,
        areNumbered_cons_of_section?_eq_none he, ih, List.filterMap_cons_none he]
    | some s =>
      cases e <;> cases he
      rw [List.cons_append, Element.AreNumbered, Element.AreNumbered, ih, and_assoc,
        filterMap_section?_cons_sub, List.length_cons, Nat.add_assoc, Nat.add_comm 1]

/-- An element at the end of a numbered section leaves the numbers as they are. -/
theorem Section.IsNumbered.addElem {number : List Nat} {s : Section} (h : s.IsNumbered number)
    {e : Element}
    (he : ∀ t, e = .sub t → t.IsNumbered (number ++ [s.subsections.length + 1])) :
    (s.addElem e).IsNumbered number := by
  obtain ⟨own, title, elems, notes, classes, styles⟩ := s
  refine ⟨h.1, areNumbered_append.2 ⟨h.2, ?_⟩⟩
  cases e with
  | sub t =>
    rw [Nat.add_comm]
    exact ⟨he t rfl, trivial⟩
  | _ => trivial

theorem isNumbered_nextSubsection {number : List Nat} {s : Section} (h : s.IsNumbered number)
    (title : String) :
    (s.nextSubsection title).IsNumbered (number ++ [s.subsections.length + 1]) := by
  rw [Section.nextSubsection, h.number_eq, Section.new, if_neg (by simp)]
  exact ⟨rfl, trivial⟩

theorem areNumbered_modifySub {f : Section → Section}
    (hf : ∀ number s, Section.IsNumbered number s → Section.IsNumbered number (f s))
    {parent : List Nat} {next i : Nat} {es : List Element}
    (h : Element.AreNumbered parent next es) :
    Element.AreNumbered parent next (Element.modifySub f i es) := by
  induction es generalizing next i with
  | nil => cases i <;> exact h
  | cons e r ih =>
    cases he : e.section? with
    | none =>
      rw [areNumbered_cons_of_section?_eq_none he] at h
      rw [modifySub_cons_of_section?_eq_none he, areNumbered_cons_of_section?_eq_none he]
      exact ih h
    | some s =>
      cases e <;> cases he
      cases i with
      | zero => exact ⟨hf _ s h.1, h.2⟩
      | succ i => exact ⟨h.1, ih h.2⟩

/-- A change that keeps the number of a section and those below it can be made at any place. -/
theorem Section.IsNumbered.modifyAt {f : Section → Section}
    (hf : ∀ number s, Section.IsNumbered number s → Section.IsNumbered number (f s))
    (place : List Nat) {number : List Nat} {s : Section} (h : s.IsNumbered number) :
    (s.modifyAt f place).IsNumbered number := by
  induction place generalizing number s with
  | nil => exact hf number s h
  | cons i place ih =>
    obtain ⟨own, title, elems, notes, classes, styles⟩ := s
    exact ⟨h.1, areNumbered_modifySub (fun _ _ hs => ih hs) h.2⟩

/-- A step leaves a document numbered by its positions. -/
theorem Edit.numbered_apply {d : Document} {e : Edit} (he : e.Fits d) (h : d.Numbered) :
    (e.apply d).Numbered := by
  have hadd : ∀ number s, Section.IsNumbered number s →
      Section.IsNumbered number (s.addElem (e.element s)) := by
    intro number s hs
    refine hs.addElem fun t ht => ?_
    cases e with
    | addSection title =>
      obtain rfl := Element.sub.inj ht
      exact isNumbered_nextSubsection hs title
    | addSubsection place title =>
      obtain rfl := Element.sub.inj ht
      exact isNumbered_nextSubsection hs title
    | addElem place x =>
      obtain rfl : x = .sub t := ht
      cases he.2
  have hsection : d.asSection.IsNumbered [] := ⟨rfl, h⟩
  have happlied := hsection.modifyAt hadd e.place
  rw [← Edit.asSection_apply he] at happlied
  exact happlied.2

mutual

theorem renumber_eq_self {number : List Nat} :
    ∀ s : Section, s.IsNumbered number → Source.renumber number s = s
  | ⟨_, _, elems, _, _, _⟩, h => by
    rw [Source.renumber, renumberFrom_eq_self elems h.2, h.1]

theorem renumberFrom_eq_self {parent : List Nat} {next : Nat} (es : List Element)
    (h : Element.AreNumbered parent next es) : Source.renumberFrom parent next es = es := by
  cases es with
  | nil => rfl
  | cons e r =>
    cases he : e.section? with
    | none =>
      rw [Source.renumberFrom_cons_of_section?_eq_none he, renumberFrom_eq_self r
        ((areNumbered_cons_of_section?_eq_none he parent next r).1 h)]
    | some s =>
      cases e <;> cases he
      rw [Source.renumberFrom, renumber_eq_self s h.1, renumberFrom_eq_self r h.2]

end

theorem Document.allSections_eq (d : Document) :
    d.allSections = Element.allSections (d.sections.map .sub) := by
  rw [allSections_eq_flatMap, filterMap_section?_map_sub]
  rfl

/-- The sections of a numbered document have different numbers. -/
theorem Document.Numbered.nodup {d : Document} (h : d.Numbered) :
    (d.allSections.map Section.number).Nodup := by
  have hnodup := Source.nodup_allSections [] 1 (d.sections.map .sub)
  rwa [renumberFrom_eq_self _ h, ← Document.allSections_eq] at hnodup

/-! ## Counts -/

theorem sectionCounts_append (es fs : List Element) :
    Element.sectionCounts (es ++ fs) = Element.sectionCounts es + Element.sectionCounts fs := by
  induction es with
  | nil => exact (Nat.zero_add _).symm
  | cons e r ih =>
    rw [List.cons_append, Element.sectionCounts, Element.sectionCounts, ih, Nat.add_assoc]

theorem sectionCount_eq (s : Section) : s.sectionCount = 1 + Element.sectionCounts s.elems := by
  cases s
  rfl

theorem sectionCount_addElem (s : Section) (e : Element) :
    (s.addElem e).sectionCount = s.sectionCount + e.sectionCount := by
  rw [sectionCount_eq, sectionCount_eq, Section.addElem, sectionCounts_append, Nat.add_assoc]
  rfl

theorem sectionCounts_modifySub {f : Section → Section} {i k : Nat} {es : List Element}
    {s : Section} (hs : (es.filterMap Element.section?)[i]? = some s)
    (hf : (f s).sectionCount = s.sectionCount + k) :
    Element.sectionCounts (Element.modifySub f i es) = Element.sectionCounts es + k := by
  induction es generalizing i with
  | nil => cases hs
  | cons e r ih =>
    cases he : e.section? with
    | none =>
      rw [List.filterMap_cons_none he] at hs
      rw [modifySub_cons_of_section?_eq_none he, Element.sectionCounts, Element.sectionCounts,
        ih hs, Nat.add_assoc]
    | some t =>
      cases e <;> cases he
      rw [filterMap_section?_cons_sub] at hs
      cases i with
      | zero =>
        obtain rfl := Option.some.inj hs
        rw [Element.modifySub, Element.sectionCounts, Element.sectionCounts, Element.sectionCount,
          Element.sectionCount, hf, Nat.add_right_comm]
      | succ i =>
        rw [Element.modifySub, Element.sectionCounts, Element.sectionCounts, ih hs, Nat.add_assoc]

/-- What a section gains at its place, all the sections around it gain. -/
theorem sectionCount_modifyAt {f : Section → Section} {k : Nat} {place : List Nat}
    {s t : Section} (ht : s.at? place = some t) (hf : (f t).sectionCount = t.sectionCount + k) :
    (s.modifyAt f place).sectionCount = s.sectionCount + k := by
  induction place generalizing s with
  | nil =>
    obtain rfl := Option.some.inj ht
    exact hf
  | cons i place ih =>
    obtain ⟨u, hu, ht⟩ := Section.at?_cons_eq_some_iff.1 ht
    rw [Section.modifyAt, sectionCount_eq, sectionCount_eq, sectionCounts_modifySub hu (ih ht),
      Nat.add_assoc]

theorem sectionCount_asSection (d : Document) : d.asSection.sectionCount = 1 + d.sectionCount := by
  rw [sectionCount_eq, ← length_allSections, ← Document.length_allSections,
    Document.allSections_eq]
  rfl

/-- A step adds one section, or none. -/
theorem Edit.sectionCount_apply {d : Document} {e : Edit} (he : e.Fits d) :
    (e.apply d).sectionCount = d.sectionCount + if e.addsSection then 1 else 0 := by
  have hcount : ∀ s : Section,
      (s.addElem (e.element s)).sectionCount = s.sectionCount + if e.addsSection then 1 else 0 := by
    intro s
    rw [sectionCount_addElem]
    cases e with
    | addSection title => rfl
    | addSubsection place title => rfl
    | addElem place x =>
      obtain ⟨-, hx⟩ := he
      cases x <;> cases hx <;> rfl
  obtain ⟨s, hs⟩ : ∃ s, d.asSection.at? e.place = some s := by
    cases e with
    | addSection title => exact ⟨_, rfl⟩
    | addSubsection place title => exact he.imp fun s hs => (Document.at?_eq_some_iff.1 hs).2
    | addElem place x => exact he.1.imp fun s hs => (Document.at?_eq_some_iff.1 hs).2
  have happlied := sectionCount_modifyAt (f := fun s => s.addElem (e.element s)) hs (hcount s)
  rw [← Edit.asSection_apply he, sectionCount_asSection, sectionCount_asSection] at happlied
  omega

/-! ## What a step changes -/

/-- The same element, or a section in the place of a section. -/
def Element.SameButBelow (e e' : Element) : Prop :=
  e = e' ∨ ∃ s s', e = .sub s ∧ e' = .sub s'

/-- How the section at a place changes when an element is put at the end of the one at the place
`target`: in its elements only, at the end if it is this section, inside of a subsection if it lies
around it, and else not at all. -/
structure Section.Grown (place target : List Nat) (e : Element) (s s' : Section) : Prop where
  elems_only : s' = { s with elems := s'.elems }
  at_target : place = target → s'.elems = s.elems ++ [e]
  around : place ≠ target → List.Forall₂ Element.SameButBelow s.elems s'.elems
  elsewhere : ¬ place <+: target → s' = s

theorem Section.grown_self {place target : List Nat} (h : place ≠ target) (e : Element)
    (s : Section) : s.Grown place target e s where
  elems_only := by cases s; rfl
  at_target h' := absurd h' h
  around _ := List.forall₂_same.2 fun _ _ => Or.inl rfl
  elsewhere _ := rfl

theorem Section.Grown.cons {i : Nat} {place target : List Nat} {e : Element} {s s' : Section}
    (h : s.Grown place target e s') : s.Grown (i :: place) (i :: target) e s' where
  elems_only := h.elems_only
  at_target h' := h.at_target (List.cons.inj h').2
  around h' := h.around fun heq => h' (heq ▸ rfl)
  elsewhere h' := h.elsewhere fun hprefix => h' (List.cons_prefix_cons.2 ⟨rfl, hprefix⟩)

theorem filterMap_section?_modifySub (f : Section → Section) (i : Nat) (es : List Element) :
    (Element.modifySub f i es).filterMap Element.section? =
      (es.filterMap Element.section?).modify i f := by
  induction es generalizing i with
  | nil => cases i <;> rfl
  | cons e r ih =>
    cases he : e.section? with
    | none =>
      rw [modifySub_cons_of_section?_eq_none he, List.filterMap_cons_none he,
        List.filterMap_cons_none he, ih]
    | some s =>
      cases e <;> cases he
      cases i with
      | zero => rfl
      | succ i =>
        rw [Element.modifySub, filterMap_section?_cons_sub, filterMap_section?_cons_sub, ih,
          List.modify_succ_cons]

theorem sameButBelow_modifySub (f : Section → Section) (i : Nat) (es : List Element) :
    List.Forall₂ Element.SameButBelow es (Element.modifySub f i es) := by
  induction es generalizing i with
  | nil => cases i <;> exact .nil
  | cons e r ih =>
    cases he : e.section? with
    | none =>
      rw [modifySub_cons_of_section?_eq_none he]
      exact .cons (Or.inl rfl) (ih i)
    | some s =>
      cases e <;> cases he
      cases i with
      | zero =>
        exact .cons (Or.inr ⟨s, f s, rfl, rfl⟩) (List.forall₂_same.2 fun _ _ => Or.inl rfl)
      | succ i => exact .cons (Or.inl rfl) (ih i)

/-- The sections below a section stay when an element is put at its end. -/
theorem at?_addElem {s t : Section} {i : Nat} {place : List Nat}
    (ht : s.at? (i :: place) = some t) (e : Element) :
    (s.addElem e).at? (i :: place) = some t := by
  obtain ⟨u, hu, ht⟩ := Section.at?_cons_eq_some_iff.1 ht
  refine Section.at?_cons_eq_some_iff.2 ⟨u, ?_, ht⟩
  rw [Section.subsections, Section.addElem, List.filterMap_append]
  exact List.getElem?_append_left (List.getElem?_eq_some_iff.1 hu).1 ▸ hu

/-- Every section is at its place when an element is put at the end of one of them. -/
theorem at?_modifyAt (g : Section → Element) (target : List Nat) {place : List Nat}
    {s t : Section} (ht : s.at? place = some t) :
    ∃ t', (s.modifyAt (fun s => s.addElem (g s)) target).at? place = some t' ∧
      t.Grown place target (g t) t' := by
  induction target generalizing s place with
  | nil =>
    cases place with
    | nil =>
      obtain rfl := Option.some.inj ht
      exact ⟨s.addElem (g s), rfl, rfl, fun _ => rfl, fun h => absurd rfl h,
        fun h => absurd List.prefix_rfl h⟩
    | cons j place =>
      exact ⟨t, at?_addElem ht (g s), t.grown_self (List.cons_ne_nil j place) (g t)⟩
  | cons i target ih =>
    cases place with
    | nil =>
      obtain rfl := Option.some.inj ht
      exact ⟨_, rfl, rfl, fun h => absurd h (List.cons_ne_nil i target).symm,
        fun _ => sameButBelow_modifySub _ i s.elems, fun h => absurd List.nil_prefix h⟩
    | cons j place =>
      obtain ⟨u, hu, hut⟩ := Section.at?_cons_eq_some_iff.1 ht
      have hsubsections : (s.modifyAt (fun s => s.addElem (g s)) (i :: target)).subsections =
          s.subsections.modify i (Section.modifyAt (fun s => s.addElem (g s)) target) :=
        filterMap_section?_modifySub _ i s.elems
      rw [Section.at?, hsubsections, List.getElem?_modify, hu, Option.map_eq_map, Option.map_some,
        Option.bind_some]
      by_cases hij : i = j
      · subst hij
        obtain ⟨t', ht', hgrown⟩ := ih hut
        rw [if_pos rfl]
        exact ⟨t', ht', hgrown.cons⟩
      · rw [if_neg hij]
        exact ⟨t, hut, t.grown_self (fun h => hij (List.cons.inj h).1.symm) (g t)⟩

/-- A step changes the section that it is applied to at its end, and nothing else. -/
theorem Edit.at?_apply {d : Document} {e : Edit} (he : e.Fits d) {place : List Nat} {s : Section}
    (hs : d.at? place = some s) :
    ∃ s', (e.apply d).at? place = some s' ∧ s.Grown place e.place (e.element s) s' := by
  obtain ⟨hplace, hs⟩ := Document.at?_eq_some_iff.1 hs
  obtain ⟨s', hs', hgrown⟩ := at?_modifyAt (fun s => e.element s) e.place hs
  rw [← Edit.asSection_apply he] at hs'
  exact ⟨s', Document.at?_eq_some_iff.2 ⟨hplace, hs'⟩, hgrown⟩

/-! ## The places of sections -/

mutual

theorem exists_at?_of_mem_withBelow {t : Section} :
    ∀ s : Section, t ∈ s.withBelow → ∃ place, s.at? place = some t
  | ⟨number, title, elems, notes, classes, styles⟩, h => by
    rw [withBelow_eq] at h
    rcases List.mem_cons.1 h with rfl | h
    · exact ⟨[], rfl⟩
    · obtain ⟨i, place, u, hu, ht⟩ := exists_at?_of_mem_allSections elems h
      exact ⟨i :: place, Section.at?_cons_eq_some_iff.2 ⟨u, hu, ht⟩⟩

theorem exists_at?_of_mem_allSections {t : Section} (es : List Element)
    (h : t ∈ Element.allSections es) :
    ∃ (i : Nat) (place : List Nat) (u : Section),
      (es.filterMap Element.section?)[i]? = some u ∧ u.at? place = some t := by
  cases es with
  | nil => cases h
  | cons e r =>
    cases he : e.section? with
    | none =>
      rw [allSections_cons_of_section?_eq_none he] at h
      rw [List.filterMap_cons_none he]
      exact exists_at?_of_mem_allSections r h
    | some s =>
      cases e <;> cases he
      rw [allSections_cons_sub] at h
      rcases List.mem_append.1 h with h | h
      · obtain ⟨place, ht⟩ := exists_at?_of_mem_withBelow s h
        exact ⟨0, place, s, rfl, ht⟩
      · obtain ⟨i, place, u, hu, ht⟩ := exists_at?_of_mem_allSections r h
        exact ⟨i + 1, place, u, hu, ht⟩

end

theorem mem_withBelow_of_at? {place : List Nat} {s t : Section} (h : s.at? place = some t) :
    t ∈ s.withBelow := by
  induction place generalizing s with
  | nil =>
    obtain rfl := Option.some.inj h
    rw [withBelow_eq]
    exact List.mem_cons_self ..
  | cons i place ih =>
    obtain ⟨u, hu, h⟩ := Section.at?_cons_eq_some_iff.1 h
    rw [withBelow_eq, allSections_eq_flatMap]
    exact List.mem_cons_of_mem _
      (List.mem_flatMap.2 ⟨u, List.mem_of_getElem? hu, ih h⟩)

/-- The sections of a document are those at its places. -/
theorem Document.mem_allSections_iff {d : Document} {s : Section} :
    s ∈ d.allSections ↔ ∃ place, d.at? place = some s := by
  rw [Document.allSections_eq]
  constructor
  · intro h
    obtain ⟨i, place, u, hu, hs⟩ := exists_at?_of_mem_allSections _ h
    exact ⟨i :: place, Document.at?_eq_some_iff.2
      ⟨List.cons_ne_nil i place, Section.at?_cons_eq_some_iff.2 ⟨u, hu, hs⟩⟩⟩
  · rintro ⟨place, hs⟩
    obtain ⟨hplace, hs⟩ := Document.at?_eq_some_iff.1 hs
    obtain ⟨i, rest, rfl⟩ := List.exists_cons_of_ne_nil hplace
    obtain ⟨u, hu, hs⟩ := Section.at?_cons_eq_some_iff.1 hs
    rw [subsections_asSection] at hu
    rw [allSections_eq_flatMap, filterMap_section?_map_sub]
    exact List.mem_flatMap.2 ⟨u, List.mem_of_getElem? hu, mem_withBelow_of_at? hs⟩

/-! ## Runs -/

theorem Document.Built.numbered {title : String} {edits : List Edit} {d : Document}
    (h : Built title edits d) : d.Numbered := by
  induction h with
  | new => trivial
  | step _ he ih => exact Edit.numbered_apply he ih

theorem Document.Built.sectionCount {title : String} {edits : List Edit} {d : Document}
    (h : Built title edits d) : d.sectionCount = edits.countP Edit.addsSection := by
  induction h with
  | new => rfl
  | step _ he ih =>
    rw [Edit.sectionCount_apply he, ih, List.countP_append, List.countP_singleton]

/-- A document that is built step by step, each section added to the document or to one that is
there, is numbered by the places of its sections, and their numbers are different as texts. It has
as many sections as were added, and every section counts itself and those below it. One more step
leaves every section at its place, changed in nothing but what the step puts at the end of the
section that it is applied to. -/
theorem Document.Built.keeps_numbering {title : String} {edits : List Edit} {d : Document}
    (h : Built title edits d) :
    (∀ s, s ∈ d.allSections ↔ ∃ place, d.at? place = some s) ∧
    (∀ place s, d.at? place = some s → s.number = place.map (· + 1) ∧
      s.sectionCount = 1 + (Element.allSections s.elems).length) ∧
    d.sectionCount = edits.countP Edit.addsSection ∧
    (d.allSections.map Section.formattedNumber).Nodup ∧
    ∀ e : Edit, e.Fits d → ∀ place s, d.at? place = some s →
      ∃ s', (e.apply d).at? place = some s' ∧ s.Grown place e.place (e.element s) s' := by
  refine ⟨fun s => Document.mem_allSections_iff, fun place s hs => ⟨?_, ?_⟩, h.sectionCount,
    nodup_formattedNumbers h.numbered.nodup, fun e he place s hs => Edit.at?_apply he hs⟩
  · exact (h.numbered.at? hs).number_eq
  · rw [sectionCount_eq, Lectern.length_allSections]

/-- Steps that build sections in several depths, with a paragraph between them. -/
def tourEdits : List Edit :=
  [.addSection "One", .addElem [0] (.paragraph ["Welcome."]), .addSubsection [0] "In it",
    .addSection "Two", .addSubsection [0, 0] "Below", .addSubsection [0] "Also in it"]

theorem keeps_numbering_tourEdits :
    ∃ d, Document.Built "Talk" tourEdits d ∧ d.sectionCount = 5 ∧
      ∃ s, d.at? [0, 1] = some s ∧ s.title = "Also in it" ∧ s.number = [1, 2] := by
  have hbuilt : Document.Built "Talk" tourEdits (tourEdits.foldl Edit.apply (.new "Talk")) :=
    (((((Document.Built.new.step (e := .addSection "One") trivial).step
      (e := .addElem [0] (.paragraph ["Welcome."])) ⟨⟨_, rfl⟩, rfl⟩).step
      (e := .addSubsection [0] "In it") ⟨_, rfl⟩).step
      (e := .addSection "Two") trivial).step
      (e := .addSubsection [0, 0] "Below") ⟨_, rfl⟩).step
      (e := .addSubsection [0] "Also in it") ⟨_, rfl⟩
  obtain ⟨-, hnumbers, hcount, -, -⟩ := hbuilt.keeps_numbering
  exact ⟨_, hbuilt, hcount, _, rfl, rfl, (hnumbers [0, 1] _ rfl).1⟩

end Lectern
