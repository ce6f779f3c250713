import Lectern.Source.Item

/-!
# The outline of a body

The flat list of items is folded into a tree from its end: a heading takes the items behind it
that belong to its section or to a deeper one. Then the sections are numbered by their positions.
-/

namespace Lectern.Source

/-- The section of a heading, not numbered yet, with the blocks that belong to it. -/
def sectionOf (title : List Char) (blocks : List Block) : Section where
  number := []
  title := String.ofList title
  elems := blocks.filterMap fun
    | .elem e => some e
    | _ => none
  notes := blocks.filterMap fun
    | .note t => some (String.ofList t)
    | _ => none
  classes := blocks.filterMap fun
    | .background _ => some "background"
    | _ => none
  styles := blocks.filterMap fun
    | .background url => some ("background-image: url('" ++ String.ofList url ++ "')")
    | _ => none

/-- Puts an item in front of blocks that are given with the depth of the section they belong to. -/
def gather (item : Item) (behind : List (Nat × Block)) : List (Nat × Block) :=
  match item with
  | .block depth b => (depth, b) :: behind
  | .heading depth title =>
      let mine := behind.takeWhile fun x => decide (depth ≤ x.1)
      let rest := behind.dropWhile fun x => decide (depth ≤ x.1)
      (depth - 1, .elem (.sub (sectionOf title (mine.map (·.2))))) :: rest

mutual

/-- The section with a number, and its subsections numbered by their positions. -/
def renumber (number : List Nat) : Section → Section
  | ⟨_, title, elems, notes, classes, styles⟩ =>
      ⟨number, title, renumberFrom number 1 elems, notes, classes, styles⟩

/-- The elements with the sections among them numbered from `next` on. -/
def renumberFrom (parent : List Nat) (next : Nat) : List Element → List Element
  | [] => []
  | .sub s :: r => .sub (renumber (parent ++ [next]) s) :: renumberFrom parent (next + 1) r
  | .text lines pre :: r => .text lines pre :: renumberFrom parent next r
  | .list bullets :: r => .list bullets :: renumberFrom parent next r
  | .code c :: r => .code c :: renumberFrom parent next r
  | .image url w h :: r => .image url w h :: renumberFrom parent next r
  | .iframe url w h :: r => .iframe url w h :: renumberFrom parent next r
  | .link url label :: r => .link url label :: renumberFrom parent next r
  | .caption t :: r => .caption t :: renumberFrom parent next r
  | .html t :: r => .html t :: renumberFrom parent next r

end

/-- The sections of a list of items. -/
def outline (items : List Item) : List Section :=
  let blocks := (items.foldr gather []).map (·.2)
  (renumberFrom [] 1 (sectionOf [] blocks).elems).filterMap Element.section?

end Lectern.Source
