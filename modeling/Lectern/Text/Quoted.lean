import Lectern.Text.Category

/-!
# Quoted text

How a message quotes a text: in double quotes, with escapes for what would not be seen as it is.
-/

namespace Lectern.Text

/-- The escape that names a character by its code point in lower-case hexadecimal. -/
def codePointEscape (c : Char) : List Char :=
  "\\u\x7b".toList ++ Nat.toDigits 16 c.toNat ++ ['\x7d']

/-- A character inside a quoted text: quotes, backslashes and the named controls have short
escapes; combining and unprintable characters are named by their code points. -/
def quoteChar (c : Char) : List Char :=
  if c = '"' then ['\\', '"']
  else if c = '\\' then ['\\', '\\']
  else if c = '\t' then ['\\', 't']
  else if c = '\r' then ['\\', 'r']
  else if c = '\n' then ['\\', 'n']
  else if c.toNat = 0 then ['\\', '0']
  else if isGraphemeExtend c || !isPrintable c then codePointEscape c
  else [c]

/-- The text in double quotes. -/
def quote (s : List Char) : List Char :=
  '"' :: s.flatMap quoteChar ++ ['"']

/-- The string in double quotes. -/
def quoteString (s : String) : String := String.ofList (quote s.toList)

end Lectern.Text
