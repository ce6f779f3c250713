import Lectern.Document.Basic

/-!
# Building a document step by step

A section of a document is addressed by its place: its index among the sections of the document,
then at each depth its index among the subsections.
-/

namespace Lectern

/-- The list with its `i`-th subsection changed. -/
def Element.modifySub (f : Section → Section) : Nat → List Element → List Element
  | _, [] => []
  | 0, .sub s :: r => .sub (f s) :: r
  | i + 1, .sub s :: r => .sub s :: modifySub f i r
  | i, e :: r => e :: modifySub f i r

namespace Section

/-- The section at a place below this one. -/
def at? (s : Section) : List Nat → Option Section
  | [] => some s
  | i :: place => s.subsections[i]?.bind fun t => t.at? place

/-- The section with the one at a place below it changed. -/
def modifyAt (f : Section → Section) : List Nat → Section → Section
  | [], s => f s
  | i :: place, s => { s with elems := Element.modifySub (modifyAt f place) i s.elems }

end Section

namespace Document

/-- The section at a place; no section is at the empty place. -/
def at? (d : Document) : List Nat → Option Section
  | [] => none
  | i :: place => d.sections[i]?.bind fun s => s.at? place

/-- The document with the section at a place changed. -/
def modifyAt (f : Section → Section) (place : List Nat) (d : Document) : Document :=
  match place with
  | [] => d
  | i :: place => { d with sections := d.sections.modify i (Section.modifyAt f place) }

/-- The document with a new subsection of the section at a place. -/
def addSubsectionAt (d : Document) (place : List Nat) (title : String) : Document :=
  d.modifyAt (·.addSubsection title) place

/-- The document with one more element of the section at a place. -/
def addElemAt (d : Document) (place : List Nat) (e : Element) : Document :=
  d.modifyAt (·.addElem e) place

end Document

end Lectern
