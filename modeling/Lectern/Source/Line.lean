import Lectern.Text.Lines

/-!
# The lines of a source

A source is read line by line. Lines that start with `#` are comments: they are dropped at once,
but counted, so that every other line keeps its number.
-/

namespace Lectern.Source

/-- A line of a source with its number, counted from 1. -/
structure Line where
  number : Nat
  text : List Char
deriving DecidableEq, Repr

/-- Is the line a comment? -/
def isComment (text : List Char) : Bool := text.head? = some '#'

/-- Numbers lines from `first` on. -/
def numberFrom (first : Nat) : List (List Char) → List Line
  | [] => []
  | t :: r => ⟨first, t⟩ :: numberFrom (first + 1) r

/-- The lines that are no comments, with their numbers. -/
def numbered (texts : List (List Char)) : List Line :=
  (numberFrom 1 texts).filter fun l => !isComment l.text

/-- Is the line a speaker note? -/
def noteText? (text : List Char) : Option (List Char) := [':', ' '].isPrefixOf? text

@[simp] theorem numberFrom_nil (first : Nat) : numberFrom first [] = [] := rfl

end Lectern.Source
