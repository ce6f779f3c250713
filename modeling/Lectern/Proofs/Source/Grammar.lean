import Mathlib.Data.List.Chain
import Lectern.Source.Basic

/-!
# The grammar of sources

The derivations of the grammar, without commands and authors: topics with a title, pieces of text
between empty lines, and topics below them. A derivation has lines, as they stand in a source, and
a document, which is what the source is about.
-/

namespace Lectern.Grammar

open Text

/-! ## Derivations -/

/-- The title of a topic: no blanks at its ends. -/
structure Title where
  text : List Char
  starts : ∀ c ∈ text.head?, isBlank c = false
  ends : ∀ c ∈ text.getLast?, isBlank c = false

/-- A line of a paragraph: not blank, and not what starts something else. -/
structure Plain where
  text : List Char
  starts : ∃ c r, text = c :: r ∧ isBlank c = false ∧ c ≠ '#' ∧ c ≠ '.'
  no_bullet : ¬ "- ".toList <+: text
  no_note : ¬ ": ".toList <+: text
  no_heading : ∀ n r, text = List.replicate (n + 1) '*' ++ r → r ≠ [] ∧ r.head? ≠ some ' '

/-- A preformatted block. Behind the first line there may be empty ones, `none`, and lines that
share its indentation, but the last one is not empty. -/
structure Preformatted where
  indent : List Char
  first : List Char
  more : List (Option (List Char))
  indented : indent ≠ []
  blank : ∀ c ∈ indent, isBlank c = true
  starts : ∃ c r, first = c :: r ∧ isBlank c = false
  ends : more.getLast? ≠ some none

/-- A piece of text of a topic. -/
inductive Piece where
  | note (text : List Char)
  | list (bullet : List Char) (more : List (List Char))
  | paragraph (first : Plain) (more : List Plain)
  | preformatted (p : Preformatted)

/-- Is the piece a preformatted block? -/
def Piece.isPreformatted : Piece → Bool
  | preformatted _ => true
  | _ => false

/-- The pieces of a topic, each with the number of empty lines behind it that are more than one. No
two preformatted blocks lie side by side. -/
structure Body where
  pieces : List (Piece × Nat)
  apart : pieces.IsChain fun p q => ¬ (p.1.isPreformatted = true ∧ q.1.isPreformatted = true)

/-- A topic: a title, pieces of text, and topics that are one deeper. -/
structure Topic where
  title : Title
  body : Body
  topics : List Topic

/-- A source: a title line and topics. -/
structure Deck where
  title : List Char
  starts : ∃ c r, title = c :: r ∧ c ≠ '#'
  topics : List Topic

/-! ## The lines of a derivation -/

/-- A line of a preformatted block behind the first one. -/
def Preformatted.line (p : Preformatted) : Option (List Char) → List Char
  | none => []
  | some text => p.indent ++ text

/-- The lines of a preformatted block. -/
def Preformatted.lines (p : Preformatted) : List (List Char) :=
  (p.indent ++ p.first) :: p.more.map p.line

/-- The lines of a piece. -/
def Piece.lines : Piece → List (List Char)
  | note text => [": ".toList ++ text]
  | list bullet more => (bullet :: more).map ("- ".toList ++ ·)
  | paragraph first more => (first :: more).map Plain.text
  | preformatted p => p.lines

/-- The lines of pieces, with the empty lines behind each of them. -/
def pieceLines (pieces : List (Piece × Nat)) : List (List Char) :=
  pieces.flatMap fun p => p.1.lines ++ List.replicate (p.2 + 1) []

mutual

/-- The lines of a topic at a depth. -/
def Topic.lines (depth : Nat) : Topic → List (List Char)
  | ⟨title, body, topics⟩ =>
      (List.replicate depth '*' ++ ' ' :: title.text) :: [] ::
        (pieceLines body.pieces ++ topicLines (depth + 1) topics)

/-- The lines of topics at a depth. -/
def topicLines (depth : Nat) : List Topic → List (List Char)
  | [] => []
  | t :: r => t.lines depth ++ topicLines depth r

end

/-- The lines of a source. -/
def Deck.lines (g : Deck) : List (List Char) := g.title :: [] :: topicLines 1 g.topics

/-! ## The document of a derivation -/

/-- What a line of a paragraph stands for: a backslash in front of a dot only escapes the dot. -/
def Plain.meaning (l : Plain) : List Char :=
  if "\\.".toList <+: l.text then l.text.drop 1 else l.text

/-- The lines of a preformatted block without its indentation. -/
def Preformatted.texts (p : Preformatted) : List (List Char) :=
  p.first :: p.more.map (·.getD [])

/-- The element of a piece that is no note. -/
def Piece.element? : Piece → Option Element
  | note _ => none
  | list bullet more => some (.list ((bullet :: more).map String.ofList))
  | paragraph first more =>
      some (.text ((first :: more).map fun l => String.ofList l.meaning) false)
  | preformatted p =>
      some (.text [String.ofList (trimEnd (expandTabs (List.intercalate ['\n'] p.texts)))] true)

/-- The text of a note. -/
def Piece.note? : Piece → Option String
  | note text => some (String.ofList text)
  | _ => none

/-- The elements of pieces. -/
def pieceElements (pieces : List (Piece × Nat)) : List Element :=
  pieces.filterMap fun p => p.1.element?

mutual

/-- The section of a topic, with its number. -/
def Topic.section (number : List Nat) : Topic → Section
  | ⟨title, body, topics⟩ =>
      { number := number
        title := String.ofList title.text
        elems := pieceElements body.pieces ++ (topicSections number 1 topics).map .sub
        notes := body.pieces.filterMap fun p => p.1.note?
        classes := []
        styles := [] }

/-- The sections of topics, numbered from `next` on behind the number of the topic above them. -/
def topicSections (parent : List Nat) (next : Nat) : List Topic → List Section
  | [] => []
  | t :: r => t.section (parent ++ [next]) :: topicSections parent (next + 1) r

end

/-- The document of a source. -/
def Deck.document (g : Deck) : Document :=
  { title := String.ofList g.title, sections := topicSections [] 1 g.topics }

end Lectern.Grammar
