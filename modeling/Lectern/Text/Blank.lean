/-!
# White space

Blank characters, trimming, and the fields of a line. A text is handled as the list of its
characters.
-/

namespace Lectern.Text

/-- The characters with the Unicode property `White_Space`. -/
def isBlank (c : Char) : Bool :=
  (0x9 ≤ c.toNat && c.toNat ≤ 0xD) || c.toNat = 0x20 || c.toNat = 0x85 || c.toNat = 0xA0 ||
  c.toNat = 0x1680 || (0x2000 ≤ c.toNat && c.toNat ≤ 0x200A) || c.toNat = 0x2028 ||
  c.toNat = 0x2029 || c.toNat = 0x202F || c.toNat = 0x205F || c.toNat = 0x3000

/-- The ASCII blanks but the vertical tab. -/
def isAsciiBlank (c : Char) : Bool :=
  c = ' ' || c = '\t' || c = '\n' || c = '\r' || c.toNat = 0xC

/-- The list without the longest run at its end that satisfies `p`. -/
def dropEndWhile {α : Type} (p : α → Bool) : List α → List α
  | [] => []
  | c :: r =>
      match dropEndWhile p r with
      | [] => if p c then [] else [c]
      | d :: s => c :: d :: s

/-- The text without the blanks at its start. -/
def trimStart (s : List Char) : List Char := s.dropWhile isBlank

/-- The text without the blanks at its end. -/
def trimEnd (s : List Char) : List Char := dropEndWhile isBlank s

/-- The text without the blanks at both ends. -/
def trim (s : List Char) : List Char := trimEnd (trimStart s)

/-- Is every character of the line blank? -/
def isBlankLine (s : List Char) : Bool := s.all isBlank

/-- The maximal runs of characters that are not blank, in order. -/
def fields : List Char → List (List Char)
  | [] => []
  | c :: r =>
      if isBlank c then fields r
      else if r.head?.all isBlank then [c] :: fields r
      else
        match fields r with
        | [] => [[c]]
        | f :: fs => (c :: f) :: fs

/-- The first field of a text and what follows it; the field is empty if there is none. -/
def nextField (s : List Char) : List Char × List Char :=
  (trimStart s).span fun c => !isBlank c

@[simp] theorem dropEndWhile_nil {α : Type} (p : α → Bool) : dropEndWhile p ([] : List α) = [] :=
  rfl

@[simp] theorem trim_nil : trim [] = [] := rfl

@[simp] theorem fields_nil : fields [] = [] := rfl

theorem fields_cons_of_isBlank {c : Char} (h : isBlank c = true) (r : List Char) :
    fields (c :: r) = fields r := by
  simp [fields, h]

end Lectern.Text
