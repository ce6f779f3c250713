/-!
# Lines of a text

A line ends before a line feed, or before a carriage return that a line feed follows at once. What
follows the last line feed is a line only if it is not empty.
-/

namespace Lectern.Text

/-- The lines of a text, without their ends. -/
def lines : List Char → List (List Char)
  | [] => []
  | '\n' :: r => [] :: lines r
  | '\r' :: '\n' :: r => [] :: lines r
  | c :: r =>
      match lines r with
      | [] => [[c]]
      | l :: ls => (c :: l) :: ls

/-- The lines put together again, each ended by a line feed. -/
def unlines (ls : List (List Char)) : List Char := ls.flatMap fun l => l ++ ['\n']

@[simp] theorem lines_nil : lines [] = [] := rfl

@[simp] theorem lines_newline (r : List Char) : lines ('\n' :: r) = [] :: lines r := by
  simp [lines]

@[simp] theorem unlines_nil : unlines [] = [] := rfl

@[simp] theorem unlines_cons (l : List Char) (ls : List (List Char)) :
    unlines (l :: ls) = l ++ '\n' :: unlines ls := by
  simp [unlines]

theorem unlines_append (ls ms : List (List Char)) :
    unlines (ls ++ ms) = unlines ls ++ unlines ms := by
  simp [unlines]

end Lectern.Text
