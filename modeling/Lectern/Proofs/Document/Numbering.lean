import Mathlib.Data.List.Basic
import Mathlib.Tactic
import Lectern.Document.Building

/-!
# Sections that are numbered by their positions

In a numbered document every section has the number of its place: its position among the sections
of the document, and at each depth its position among the subsections (`Document.Numbered.at?`).
Such a document is built again, number for number, by adding its sections in the order in which
they are shown (`Document.Numbered.rebuilt`).
-/

namespace Lectern

/-! ## Numbered sections -/

mutual

/-- The section has the number, and the sections below it are numbered by their positions. -/
def Section.IsNumbered (number : List Nat) : Section → Prop
  | ⟨own, _, elems, _, _, _⟩ => own = number ∧ Element.AreNumbered number 1 elems

/-- The sections among elements are numbered by their positions, from `next` on. -/
def Element.AreNumbered (parent : List Nat) (next : Nat) : List Element → Prop
  | [] => True
  | .sub s :: r => s.IsNumbered (parent ++ [next]) ∧ Element.AreNumbered parent (next + 1) r
  | _ :: r => Element.AreNumbered parent next r

end

/-- The sections of the document are numbered by their positions. -/
def Document.Numbered (d : Document) : Prop := Element.AreNumbered [] 1 (d.sections.map .sub)

theorem areNumbered_cons_of_section?_eq_none {e : Element} (h : e.section? = none)
    (parent : List Nat) (next : Nat) (r : List Element) :
    Element.AreNumbered parent next (e :: r) ↔ Element.AreNumbered parent next r := by
  cases e with
  | sub s => cases h
  | _ => rw [Element.AreNumbered]; exact fun s e => Element.noConfusion e

theorem Section.IsNumbered.number_eq {number : List Nat} {s : Section}
    (h : s.IsNumbered number) : s.number = number := by
  cases s
  exact h.1

theorem Section.IsNumbered.elems {number : List Nat} {s : Section} (h : s.IsNumbered number) :
    Element.AreNumbered number 1 s.elems := by
  cases s
  exact h.2

/-- A section among numbered elements has the number of its position. -/
theorem isNumbered_of_getElem? {parent : List Nat} {next i : Nat} {es : List Element} {s : Section}
    (h : Element.AreNumbered parent next es) (hs : (es.filterMap Element.section?)[i]? = some s) :
    s.IsNumbered (parent ++ [next + i]) := by
  induction es generalizing next i with
  | nil => cases hs
  | cons e r ih =>
    cases he : e.section? with
    | none =>
      rw [List.filterMap_cons_none he] at hs
      exact ih ((areNumbered_cons_of_section?_eq_none he parent next r).1 h) hs
    | some t =>
      rw [List.filterMap_cons_some he] at hs
      cases e <;> cases he
      obtain ⟨ht, hr⟩ := h
      cases i with
      | zero =>
        obtain rfl := Option.some.inj hs
        exact ht
      | succ i =>
        have hrest := ih hr hs
        rwa [Nat.add_assoc, Nat.add_comm 1 i] at hrest

theorem filterMap_section?_map_sub (l : List Section) :
    (l.map Element.sub).filterMap Element.section? = l := by
  rw [List.filterMap_map]
  exact List.filterMap_some

/-- A section below a numbered one has the number of its place there. -/
theorem Section.IsNumbered.at? {number place : List Nat} {s t : Section}
    (h : s.IsNumbered number) (ht : s.at? place = some t) :
    t.IsNumbered (number ++ place.map (· + 1)) := by
  induction place generalizing number s with
  | nil =>
    obtain rfl := Option.some.inj ht
    rwa [List.map_nil, List.append_nil]
  | cons i place ih =>
    rw [Section.at?] at ht
    obtain ⟨u, hu, ht⟩ := Option.bind_eq_some_iff.1 ht
    have hnumber := ih (isNumbered_of_getElem? h.elems hu) ht
    rwa [List.append_assoc, List.singleton_append, Nat.add_comm 1 i] at hnumber

/-- The number of a section of a numbered document is its place, counted from 1. -/
theorem Document.Numbered.at? {d : Document} {place : List Nat} {s : Section} (h : d.Numbered)
    (hs : d.at? place = some s) : s.IsNumbered (place.map (· + 1)) := by
  cases place with
  | nil => cases hs
  | cons i place =>
    rw [Document.at?] at hs
    obtain ⟨t, ht, hs⟩ := Option.bind_eq_some_iff.1 hs
    rw [← filterMap_section?_map_sub d.sections] at ht
    have hnumber := (isNumbered_of_getElem? h ht).at? hs
    rwa [List.nil_append, List.singleton_append, Nat.add_comm 1 i] at hnumber

/-! ## Building a document by adding its sections -/

/-- A section to be added: the place of the section that it is added to, which is empty for a
section of the document itself, and its title. -/
structure Addition where
  parent : List Nat
  title : String

/-- The addition below a section at an index. -/
def Addition.below (i : Nat) (a : Addition) : Addition := { a with parent := i :: a.parent }

/-- The section with one added below it. -/
def Section.add (s : Section) (a : Addition) : Section :=
  s.modifyAt (·.addSubsection a.title) a.parent

/-- The document with a section added to it. -/
def Document.add (d : Document) (a : Addition) : Document :=
  match a.parent with
  | [] => d.addSection a.title
  | i :: place => d.addSubsectionAt (i :: place) a.title

mutual

/-- The additions that give a section those below it, each in front of those below itself. -/
def Section.additions : Section → List Addition
  | ⟨_, _, elems, _, _, _⟩ => Element.additions 0 elems

/-- The additions that give a section with `next` subsections those among the elements. -/
def Element.additions (next : Nat) : List Element → List Addition
  | [] => []
  | .sub s :: r =>
      ⟨[], s.title⟩ :: s.additions.map (.below next) ++ Element.additions (next + 1) r
  | _ :: r => Element.additions next r

end

/-- The additions that build the sections of a document, in the order in which they are shown. -/
def Document.additions (d : Document) : List Addition :=
  Element.additions 0 (d.sections.map .sub)

/-- The document that is built by adding the sections of another one. -/
def Document.rebuilt (d : Document) : Document := d.additions.foldl Document.add (.new d.title)

mutual

/-- The section with nothing but its number, its title and the sections below it. -/
def Section.bare : Section → Section
  | ⟨number, title, elems, _, _, _⟩ => ⟨number, title, Element.allBare elems, [], [], []⟩

/-- The sections among elements, with nothing but their numbers, titles and sections. -/
def Element.allBare : List Element → List Element
  | [] => []
  | .sub s :: r => .sub s.bare :: Element.allBare r
  | _ :: r => Element.allBare r

end

theorem additions_cons_of_section?_eq_none {e : Element} (h : e.section? = none) (next : Nat)
    (r : List Element) : Element.additions next (e :: r) = Element.additions next r := by
  cases e with
  | sub s => cases h
  | _ => rw [Element.additions]; exact fun s e => Element.noConfusion e

theorem allBare_cons_of_section?_eq_none {e : Element} (h : e.section? = none)
    (r : List Element) : Element.allBare (e :: r) = Element.allBare r := by
  cases e with
  | sub s => cases h
  | _ => rw [Element.allBare]; exact fun s e => Element.noConfusion e

theorem allBare_map_sub (l : List Section) :
    Element.allBare (l.map .sub) = (l.map Section.bare).map .sub := by
  induction l with
  | nil => rfl
  | cons s r ih => rw [List.map_cons, Element.allBare, ih, List.map_cons, List.map_cons]

/-! ## Changing the subsections of a list -/

theorem modifySub_id (i : Nat) (es : List Element) : Element.modifySub id i es = es := by
  induction es generalizing i with
  | nil => cases i <;> rfl
  | cons e r ih =>
    cases e with
    | sub s =>
      cases i with
      | zero => rfl
      | succ i => rw [Element.modifySub, ih]
    | _ => cases i <;> rw [Element.modifySub, ih] <;> simp

/-- Two changes of a subsection are one. -/
theorem modifySub_modifySub (f g : Section → Section) (i : Nat) (es : List Element) :
    Element.modifySub g i (Element.modifySub f i es) = Element.modifySub (g ∘ f) i es := by
  induction es generalizing i with
  | nil => cases i <;> rfl
  | cons e r ih =>
    cases e with
    | sub s =>
      cases i with
      | zero => rfl
      | succ i => rw [Element.modifySub, Element.modifySub, Element.modifySub, ih]
    | _ => cases i <;> simp [Element.modifySub, ih]

/-- The change of the last subsection. -/
theorem modifySub_concat (f : Section → Section) (es : List Element) (s : Section) :
    Element.modifySub f (es.filterMap Element.section?).length (es ++ [.sub s]) =
      es ++ [.sub (f s)] := by
  induction es with
  | nil => rfl
  | cons e r ih =>
    cases e with
    | sub t =>
      rw [List.filterMap_cons_some (f := Element.section?) rfl, List.length_cons,
        List.cons_append, Element.modifySub, ih, List.cons_append]
    | _ =>
      rw [List.filterMap_cons_none (f := Element.section?) rfl, List.cons_append,
        Element.modifySub, ih, List.cons_append]
      all_goals simp

/-- Additions below a subsection change that subsection. -/
theorem foldl_add_below (i : Nat) (as : List Addition) (s : Section) :
    (as.map (.below i)).foldl Section.add s =
      { s with elems := Element.modifySub (as.foldl Section.add) i s.elems } := by
  induction as generalizing s with
  | nil =>
    have hid : Element.modifySub (([] : List Addition).foldl Section.add) i s.elems = s.elems :=
      modifySub_id i s.elems
    rw [hid]
    cases s
    rfl
  | cons a as ih =>
    have hstep : s.add (a.below i) =
        { s with elems := Element.modifySub (Section.add · a) i s.elems } := rfl
    rw [List.map_cons, List.foldl_cons, ih, hstep, modifySub_modifySub]
    rfl

/-! ## Rebuilding -/

mutual

/-- The sections below a numbered section are built by their additions. -/
theorem foldl_additions_section {number : List Nat} (hne : number ≠ []) :
    ∀ s : Section, s.IsNumbered number →
      s.additions.foldl Section.add (.new number s.title) = s.bare
  | ⟨own, title, elems, _, _, _⟩, h => by
    obtain ⟨rfl, helems⟩ := h
    have hnew : Section.new own title = ⟨own, title, [], [], [], []⟩ := by
      rw [Section.new, if_neg (by simpa using hne)]
    have hbelow := foldl_additions_elements elems (s := ⟨own, title, [], [], [], []⟩) rfl
      (k := 0) rfl helems
    rw [Section.additions, hnew, hbelow, Section.bare, List.nil_append]

/-- The sections among numbered elements are built by their additions. -/
theorem foldl_additions_elements {number : List Nat} {k : Nat} (es : List Element) {s : Section}
    (hs : s.number = number) (hk : s.subsections.length = k)
    (h : Element.AreNumbered number (k + 1) es) :
    (Element.additions k es).foldl Section.add s =
      { s with elems := s.elems ++ Element.allBare es } := by
  cases es with
  | nil =>
    rw [Element.allBare, List.append_nil]
    cases s
    rfl
  | cons e r =>
    cases he : e.section? with
    | none =>
      rw [additions_cons_of_section?_eq_none he, allBare_cons_of_section?_eq_none he]
      exact foldl_additions_elements r hs hk
        ((areNumbered_cons_of_section?_eq_none he number (k + 1) r).1 h)
    | some t =>
      cases e <;> cases he
      obtain ⟨ht, hr⟩ := h
      have hfirst : s.add ⟨[], t.title⟩ =
          { s with elems := s.elems ++ [.sub (.new (number ++ [k + 1]) t.title)] } := by
        subst hs hk
        rfl
      have hbelow : Element.modifySub (t.additions.foldl Section.add) k
          (s.elems ++ [.sub (.new (number ++ [k + 1]) t.title)]) = s.elems ++ [.sub t.bare] := by
        rw [← hk, Section.subsections, modifySub_concat, ← Section.subsections, hk,
          foldl_additions_section (by simp) t ht]
      have hcount : (s.addElem (.sub t.bare)).subsections.length = k + 1 := by
        rw [← hk, Section.subsections, Section.subsections, Section.addElem,
          List.filterMap_append, List.length_append]
        rfl
      have hrest := foldl_additions_elements r (s := s.addElem (.sub t.bare)) hs hcount hr
      rw [Section.addElem] at hrest
      rw [Element.additions, List.cons_append, List.foldl_cons, hfirst, List.foldl_append,
        foldl_add_below, hbelow, hrest, Element.allBare, List.append_assoc,
        List.singleton_append]

end

/-- The sections of a document as the subsections of one section without a number. -/
def Document.asSection (d : Document) : Section :=
  ⟨[], d.title, d.sections.map .sub, [], [], []⟩

theorem modifySub_map_sub (f : Section → Section) (i : Nat) (l : List Section) :
    Element.modifySub f i (l.map .sub) = (l.modify i f).map .sub := by
  induction l generalizing i with
  | nil => cases i <;> rfl
  | cons s r ih =>
    cases i with
    | zero => rfl
    | succ i => rw [List.map_cons, Element.modifySub, ih, List.modify_succ_cons, List.map_cons]

theorem asSection_add (d : Document) (a : Addition) : (d.add a).asSection = d.asSection.add a := by
  obtain ⟨parent, title⟩ := a
  cases parent with
  | nil =>
    have hcount : d.asSection.subsections.length = d.sections.length := by
      rw [Section.subsections, Document.asSection, filterMap_section?_map_sub]
    have hadd : d.asSection.add ⟨[], title⟩ =
        d.asSection.addElem (.sub (.new [d.asSection.subsections.length + 1] title)) := rfl
    rw [hadd, hcount, Section.addElem]
    simp only [Document.add, Document.addSection, Document.pushSection, Document.nextSection,
      Document.asSection, List.map_append, List.map_singleton]
  | cons i place =>
    have hadd : d.asSection.add ⟨i :: place, title⟩ = { d.asSection with
        elems := Element.modifySub (Section.modifyAt (·.addSubsection title) place) i
          (d.sections.map .sub) } := rfl
    rw [hadd, modifySub_map_sub]
    rfl

/-- A numbered document is built again by adding its sections one after the other: the sections
that are added get the numbers that they have. -/
theorem Document.Numbered.rebuilt {d : Document} (h : d.Numbered) :
    d.rebuilt.sections = d.sections.map Section.bare := by
  have hfold (as : List Addition) (e : Document) :
      (as.foldl Document.add e).asSection = as.foldl Section.add e.asSection := by
    induction as generalizing e with
    | nil => rfl
    | cons a as ih => rw [List.foldl_cons, ih, asSection_add, List.foldl_cons]
  have hbuilt : d.rebuilt.asSection =
      ⟨[], d.title, (d.sections.map Section.bare).map .sub, [], [], []⟩ := by
    have hadditions := foldl_additions_elements (d.sections.map .sub)
      (s := (Document.new d.title).asSection) rfl rfl h
    rw [Document.rebuilt, hfold, Document.additions]
    refine hadditions.trans ?_
    rw [allBare_map_sub]
    rfl
  have hsections := congrArg Section.subsections hbuilt
  rwa [Section.subsections, Section.subsections, Document.asSection, filterMap_section?_map_sub,
    filterMap_section?_map_sub] at hsections

end Lectern
