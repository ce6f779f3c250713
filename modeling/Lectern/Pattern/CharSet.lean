import Lectern.Text.Blank
import Lectern.Text.CaseFold
import Lectern.Text.Category

/-!
# Sets of characters

The sets that a pattern can name, with a decidable membership test.
-/

namespace Lectern

open Text

/-- A set of characters. -/
inductive CharSet where
  | any
  | range (first last : Char)
  | digit
  | blank
  | word
  | category (cats : List Category)
  | union (s t : CharSet)
  | inter (s t : CharSet)
  | diff (s t : CharSet)
  | symmDiff (s t : CharSet)
  | compl (s : CharSet)
  | upToCase (s : CharSet)
deriving DecidableEq, Repr

namespace CharSet

/-- Is the character in the set? -/
def has : CharSet → Char → Bool
  | any, _ => true
  | range first last, c => first.toNat ≤ c.toNat && c.toNat ≤ last.toNat
  | digit, c => isDecimalDigit c
  | blank, c => isBlank c
  | word, c => isWordChar c
  | category cats, c => cats.contains (Text.category c)
  | union s t, c => s.has c || t.has c
  | inter s t, c => s.has c && t.has c
  | diff s t, c => s.has c && !t.has c
  | symmDiff s t, c => s.has c != t.has c
  | compl s, c => !s.has c
  | upToCase s, c => (caseVariants c.toNat).any fun p => s.has (Char.ofNat p)

/-- The empty set. -/
def none : CharSet := compl any

/-- The set of one character. -/
def single (c : Char) : CharSet := range c c

/-- The set of the characters of a string. -/
def ofString (s : String) : CharSet := s.toList.foldr (fun c r => union (single c) r) none

/-- The union of several sets. -/
def unions (sets : List CharSet) : CharSet := sets.foldr union none

/-- The ASCII decimal digits. -/
def asciiDigit : CharSet := range '0' '9'

/-- The ASCII letters. -/
def asciiLetter : CharSet := union (range 'a' 'z') (range 'A' 'Z')

/-- The ASCII letters, digits and the underscore. -/
def asciiWord : CharSet := unions [asciiLetter, asciiDigit, single '_']

/-- The ASCII blanks. -/
def asciiBlank : CharSet := union (range '\t' '\r') (single ' ')

/-- The ASCII characters. -/
def ascii : CharSet := range (Char.ofNat 0) (Char.ofNat 127)

/-- The set of ASCII characters with a class name, as in `[:alpha:]`. -/
def named? (name : String) : Option CharSet :=
  match name with
  | "alnum" => some (union asciiLetter asciiDigit)
  | "alpha" => some asciiLetter
  | "ascii" => some ascii
  | "blank" => some (union (single ' ') (single '\t'))
  | "cntrl" => some (union (range (Char.ofNat 0) (Char.ofNat 31)) (single (Char.ofNat 127)))
  | "digit" => some asciiDigit
  | "graph" => some (range '!' '~')
  | "lower" => some (range 'a' 'z')
  | "print" => some (range ' ' '~')
  | "punct" =>
      some (unions [range '!' '/', range ':' '@', range '[' (Char.ofNat 96),
        range (Char.ofNat 123) '~'])
  | "space" => some asciiBlank
  | "upper" => some (range 'A' 'Z')
  | "word" => some asciiWord
  | "xdigit" => some (unions [asciiDigit, range 'a' 'f', range 'A' 'F'])
  | _ => Option.none

end CharSet

end Lectern
