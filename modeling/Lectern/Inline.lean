import Lectern.Text.Blank
import Lectern.Text.Entities
import Lectern.Text.Search

/-!
# Inline markup

A line of text may hold words in bold (`*word*`), italics (`_a_few_words_`) or code type, and links
`[[address]]` or `[[address][label]]`. `Inline.parse` reads a text as a list of inlines, and
`Inline.html` writes such a list as markup with all special characters escaped; `style` is the one
after the other.
-/

namespace Lectern

open Text

/-- A type face for a word. -/
inductive Font where
  | bold
  | italic
  | code
deriving DecidableEq, Repr

/-- The character that stands on both sides of a word in the font. -/
def Font.marker : Font → Char
  | bold => '*'
  | italic => '_'
  | code => Char.ofNat 96

/-- The name of the font's markup element. -/
def Font.tag : Font → List Char
  | bold => ['b']
  | italic => ['i']
  | code => ['c', 'o', 'd', 'e']

/-- A piece of text in one font. -/
inductive Span where
  | text (s : List Char)
  | font (f : Font) (inner : List Char)
deriving DecidableEq, Repr

/-- A piece of a line: text, or a link with its address and its label. -/
inductive Inline where
  | span (s : Span)
  | link (url : List Char) (label : List Span)
deriving DecidableEq, Repr

/-! ## Fonts -/

/-- The ASCII punctuation characters. -/
def isAsciiPunctuation (c : Char) : Bool :=
  let n := c.toNat
  (33 ≤ n && n ≤ 47) || (58 ≤ n && n ≤ 64) || (91 ≤ n && n ≤ 96) || (123 ≤ n && n ≤ 126)

/-- The inside of a word between the markers of a font, and the punctuation behind the closing
marker; none if the word is not marked so or has nothing inside. -/
def Font.unmark? (f : Font) : List Char → Option (List Char × List Char)
  | [] => none
  | c :: rest =>
      if c ≠ f.marker then none
      else
        let body := dropEndWhile (fun d => isAsciiPunctuation d && d ≠ f.marker) rest
        let inner := body.dropLast
        if body.getLast? ≠ some f.marker || inner.isEmpty then none
        else some (inner, rest.drop body.length)

/-- The text that is shown in the font: underscores inside italics stand for spaces. -/
def Font.shown (f : Font) (inner : List Char) : List Char :=
  match f with
  | italic => inner.map fun c => if c = '_' then ' ' else c
  | _ => inner

/-- The spans of one word. -/
def wordSpans (word : List Char) : List Span :=
  match [Font.bold, .italic, .code].findSome? fun f => (f.unmark? word).map (f, ·) with
  | some (f, inner, trailing) => [.font f (f.shown inner), .text trailing]
  | none => [.text word]

/-- A blank or a maximal run of characters that are not blank. -/
inductive Piece where
  | blank (c : Char)
  | word (w : List Char)
deriving DecidableEq, Repr

/-- The blanks and words of a text. -/
def pieces : List Char → List Piece
  | [] => []
  | c :: r =>
      if isBlank c then .blank c :: pieces r
      else
        match pieces r with
        | .word w :: ps => .word (c :: w) :: ps
        | ps => .word [c] :: ps

/-- The spans of a text without links. -/
def spans (s : List Char) : List Span :=
  (pieces s).flatMap fun
    | .blank c => [.text [c]]
    | .word w => wordSpans w

/-! ## Links -/

/-- Reads a link at the start of a text: its address, its label if it has one, and the rest. -/
def linkAt? : List Char → Option ((List Char × Option (List Char)) × List Char)
  | '[' :: '[' :: r =>
      let url := r.takeWhile fun c => c ≠ ']' && !isBlank c
      if url.isEmpty then none
      else
        match r.dropWhile fun c => c ≠ ']' && !isBlank c with
        | ']' :: ']' :: rest => some ((url, none), rest)
        | ']' :: '[' :: r =>
            let label := r.takeWhile (· ≠ ']')
            if label.isEmpty then none
            else
              match r.dropWhile (· ≠ ']') with
              | ']' :: ']' :: rest => some ((url, some label), rest)
              | _ => none
        | _ => none
  | _ => none

theorem length_dropWhile_le {α : Type} (p : α → Bool) (l : List α) :
    (l.dropWhile p).length ≤ l.length := by
  induction l with
  | nil => simp
  | cons a l ih =>
      rw [List.dropWhile_cons]
      split
      · exact Nat.le_succ_of_le ih
      · exact Nat.le_refl _

theorem length_lt_of_linkAt? {s rest : List Char} {link : List Char × Option (List Char)}
    (h : linkAt? s = some (link, rest)) : rest.length < s.length := by
  unfold linkAt? at h
  split at h
  · rename_i r
    simp only at h
    split at h
    · simp at h
    · have hr := length_dropWhile_le (fun c => decide (c ≠ ']') && !isBlank c) r
      split at h
      · rename_i hd
        simp only [Option.some.injEq, Prod.mk.injEq] at h
        rw [hd] at hr
        simp only [List.length_cons] at hr ⊢
        rw [← h.2]; omega
      · rename_i r' hd
        split at h
        · simp at h
        · split at h
          · rename_i hd'
            have hr' := length_dropWhile_le (fun c => decide (c ≠ ']')) r'
            simp only [Option.some.injEq, Prod.mk.injEq] at h
            rw [hd] at hr
            rw [hd'] at hr'
            simp only [List.length_cons] at hr hr' ⊢
            rw [← h.2]; omega
          · simp at h
      · simp at h
  · simp at h

/-- A run of text without links, or a link. -/
inductive Segment where
  | plain (s : List Char)
  | link (url : List Char) (label : Option (List Char))
deriving DecidableEq, Repr

/-- The links of a text, from left to right, and the text between them. -/
def segments (s : List Char) : List Segment :=
  match s with
  | [] => []
  | c :: r =>
      match _h : linkAt? (c :: r) with
      | some ((url, label), rest) => .link url label :: segments rest
      | none =>
          match segments r with
          | .plain t :: more => .plain (c :: t) :: more
          | more => .plain [c] :: more
termination_by s.length
decreasing_by
  · exact length_lt_of_linkAt? _h
  · simp

/-- The inlines of a segment; a link without a label shows its address without the scheme. -/
def Segment.inlines : Segment → List Inline
  | plain s => (spans s).map .span
  | link url (some label) => [.link url (spans label)]
  | link url none => [.link url [.text (dropScheme url)]]

namespace Inline

/-- Reads a text as inlines. -/
def parse (s : List Char) : List Inline := (segments s).flatMap Segment.inlines

end Inline

/-! ## Markup -/

/-- The markup of a span. -/
def Span.html : Span → List Char
  | text s => escape s
  | font f inner => '<' :: f.tag ++ '>' :: escape inner ++ '<' :: '/' :: f.tag ++ ['>']

/-- The markup of an inline. -/
def Inline.html : Inline → List Char
  | span s => s.html
  | link url label =>
      "<a href=\"".toList ++ escape url ++ "\" target=\"_blank\">".toList ++
        label.flatMap Span.html ++ "</a>".toList

/-- The markup of a text with inline markup. -/
def styleChars (s : List Char) : List Char := (Inline.parse s).flatMap Inline.html

/-- The markup of a string with inline markup. -/
def style (s : String) : String := String.ofList (styleChars s.toList)

@[simp] theorem pieces_nil : pieces [] = [] := rfl

@[simp] theorem spans_nil : spans [] = [] := rfl

@[simp] theorem segments_nil : segments [] = [] := by unfold segments; rfl

end Lectern
