import Lectern.Source.Command
import Lectern.Source.Line

/-!
# The items of a body

The lines from the first heading on are read one after the other into a flat list of items: the
headings with their depths, and the blocks with the depth of the section that they belong to. A
block may span several lines; what has been read of it is kept as an `OpenBlock`.
-/

namespace Lectern.Source

open Text

/-- A heading, or a block of the section at a depth. -/
inductive Item where
  | heading (depth : Nat) (title : List Char)
  | block (depth : Nat) (b : Block)

/-- A block of which more lines may follow, with the lines so far. -/
inductive OpenBlock where
  | none
  | paragraph (lines : List (List Char))
  | list (bullets : List (List Char))
  | preformatted (indent : List Char) (lines : List (List Char))
deriving DecidableEq, Repr

/-- The text of the lines of a preformatted block: tabs are expanded, and the blanks at its end
dropped. -/
def preformattedText (lines : List (List Char)) : List Char :=
  trimEnd (expandTabs (List.intercalate ['\n'] lines))

/-- The block as it stands when no more lines follow. -/
def OpenBlock.close : OpenBlock → List Block
  | none => []
  | paragraph lines => [.elem (.paragraph (lines.map String.ofList))]
  | list bullets => [.elem (.list (bullets.map String.ofList))]
  | preformatted _ lines => [.elem (.preformatted (String.ofList (preformattedText lines)))]

/-- The number of stars of a heading, and what follows them: nothing, or a space and the title. -/
def heading? (text : List Char) : Option (Nat × List Char) :=
  let rest := text.dropWhile (· = '*')
  if rest.length < text.length && (rest.isEmpty || rest.head? = some ' ') then
    some (text.length - rest.length, rest)
  else none

/-- A line of a paragraph: a backslash in front of a dot at its start only escapes the dot. -/
def paragraphLine (text : List Char) : List Char :=
  match text with
  | '\\' :: '.' :: r => '.' :: r
  | t => t

/-- Where the reader stands: the depth of the section being read, 0 in front of the first heading,
and the block being read. -/
structure State where
  depth : Nat := 0
  opened : OpenBlock := .none
deriving DecidableEq, Repr

/-- Reads the first line of a block that is no heading of a section. -/
def beginBlock (files : Files) (base : Path) (depth : Nat) (text : List Char) :
    Except Problem (List Item × State) :=
  let indent := text.takeWhile isBlank
  if !indent.isEmpty then
    let rest := text.dropWhile isBlank
    if rest.isEmpty then .ok ([], ⟨depth, .none⟩)
    else .ok ([], ⟨depth, .preformatted indent [rest]⟩)
  else if let some bullet := ['-', ' '].isPrefixOf? text then
    .ok ([], ⟨depth, .list [bullet]⟩)
  else if let some note := noteText? text then
    .ok ([.block depth (.note note)], ⟨depth, .none⟩)
  else if text.head? = some '.' then
    (readCommand files base text).map fun b => ([.block depth b], ⟨depth, .none⟩)
  else .ok ([], ⟨depth, .paragraph [paragraphLine text]⟩)

/-- Reads a line that starts something new in the section at a depth. A heading is one only if its
depth is at most one more than that of the section; stars without a title, not deeper than the
section, end it, and are text of the section that is left open. -/
def beginLine (files : Files) (base : Path) (depth : Nat) (text : List Char) :
    Except Problem (List Item × State) :=
  if text.isEmpty then .ok ([], ⟨depth, .none⟩)
  else
    match heading? text with
    | some (stars, ' ' :: title) =>
        if stars ≤ depth + 1 then .ok ([.heading stars (trim title)], ⟨stars, .none⟩)
        else if depth = 0 then .error (.strayLine text)
        else beginBlock files base depth text
    | some (stars, _) =>
        if depth = 0 || stars = 1 then .error (.strayLine text)
        else beginBlock files base (min depth (stars - 1)) text
    | none => if depth = 0 then .error (.strayLine text) else beginBlock files base depth text

/-- Reads a line that closes the open block and starts something new. -/
def closeAndBegin (files : Files) (base : Path) (st : State) (text : List Char) :
    Except Problem (List Item × State) :=
  (beginLine files base st.depth text).map fun (items, st') =>
    (st.opened.close.map (.block st.depth) ++ items, st')

/-- Reads a line: it goes on with the open block, or closes it and starts something new. -/
def readLine (files : Files) (base : Path) (st : State) (text : List Char) :
    Except Problem (List Item × State) :=
  match st.opened with
  | .none => closeAndBegin files base st text
  | .paragraph lines =>
      if isBlankLine text then
        .ok (st.opened.close.map (.block st.depth), ⟨st.depth, .none⟩)
      else if text.head? = some '.' then closeAndBegin files base st text
      else .ok ([], ⟨st.depth, .paragraph (lines ++ [paragraphLine text])⟩)
  | .list bullets =>
      match ['-', ' '].isPrefixOf? text with
      | some bullet => .ok ([], ⟨st.depth, .list (bullets ++ [bullet])⟩)
      | none => closeAndBegin files base st text
  | .preformatted indent lines =>
      if text.isEmpty then .ok ([], ⟨st.depth, .preformatted indent (lines ++ [[]])⟩)
      else
        match indent.isPrefixOf? text with
        | some rest => .ok ([], ⟨st.depth, .preformatted indent (lines ++ [rest])⟩)
        | none => closeAndBegin files base st text

/-- Reads lines as items, from a state on. -/
def readItems (files : Files) (base : Path) (st : State) :
    List Line → Except Located (List Item)
  | [] => .ok (st.opened.close.map (.block st.depth))
  | l :: r =>
      match readLine files base st l.text with
      | .error problem => .error ⟨l.number, problem⟩
      | .ok (items, st) => (readItems files base st r).map (items ++ ·)

end Lectern.Source
