/-!
# Character entities

Text is put into a page with its special characters replaced by entities. Two tables are used:
`escape` for text built by the inline markup, and `escapeStrict`, which also replaces the slash,
for values that a template writes.
-/

namespace Lectern.Text

/-- The entity that stands for a special character. -/
def entity? (c : Char) : Option String :=
  if c = '&' then some "&amp;"
  else if c = '<' then some "&lt;"
  else if c = '>' then some "&gt;"
  else if c = '"' then some "&quot;"
  else if c = '\'' then some "&#x27;"
  else none

/-- A character of inline text as it stands in a page. -/
def escapeChar (c : Char) : List Char :=
  match entity? c with
  | some e => e.toList
  | none => [c]

/-- A character of a template value as it stands in a page: the slash has an entity too. -/
def escapeCharStrict (c : Char) : List Char :=
  if c = '/' then "&#x2f;".toList else escapeChar c

/-- Inline text as it stands in a page. -/
def escape (s : List Char) : List Char := s.flatMap escapeChar

/-- The text of a template value as it stands in a page. -/
def escapeStrict (s : List Char) : List Char := s.flatMap escapeCharStrict

@[simp] theorem escape_nil : escape [] = [] := rfl

@[simp] theorem escapeStrict_nil : escapeStrict [] = [] := rfl

theorem escape_cons (c : Char) (s : List Char) : escape (c :: s) = escapeChar c ++ escape s := rfl

theorem escapeStrict_cons (c : Char) (s : List Char) :
    escapeStrict (c :: s) = escapeCharStrict c ++ escapeStrict s := rfl

@[simp] theorem escape_append (s t : List Char) : escape (s ++ t) = escape s ++ escape t := by
  simp [escape]

@[simp] theorem escapeStrict_append (s t : List Char) :
    escapeStrict (s ++ t) = escapeStrict s ++ escapeStrict t := by
  simp [escapeStrict]

end Lectern.Text
