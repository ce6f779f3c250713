import Lectern.Text.Blank

/-!
# The pieces of a written template

A written template is cut into texts, expressions between double braces, and statements between
braces with percent signs; comments between braces with number signs are dropped. A hyphen at a
mark drops the blanks on that side of it. Expressions and statements are given as tokens.
-/

namespace Lectern.Template

open Text

/-- A token of an expression or statement. -/
inductive Token where
  | ident (s : String)
  | str (s : List Char)
  | int (n : Nat)
  | sym (s : String)
deriving DecidableEq, Repr

/-- A piece of a written template. -/
inductive Piece where
  | text (s : List Char)
  | write (tokens : List Token)
  | statement (tokens : List Token)
deriving DecidableEq, Repr

/-! ## Tokens -/

/-- May the character start a name? -/
def isNameStart (c : Char) : Bool := c.isAlpha || c = '_'

/-- May the character stand inside of a name? -/
def isNameChar (c : Char) : Bool := c.isAlphanum || c = '_'

/-- The value of a hexadecimal digit. -/
def hexDigitValue? (c : Char) : Option Nat :=
  if c.isDigit then some (c.toNat - 48)
  else if 'a' ≤ c && c ≤ 'f' then some (c.toNat - 87)
  else if 'A' ≤ c && c ≤ 'F' then some (c.toNat - 55)
  else none

/-- Reads the rest of a string up to its closing quote. -/
def readString (quote : Char) : List Char → Option (List Char × List Char)
  | [] => none
  | '\\' :: 'u' :: a :: b :: c :: d :: r => do
      let n := 4096 * (← hexDigitValue? a) + 256 * (← hexDigitValue? b) +
        16 * (← hexDigitValue? c) + (← hexDigitValue? d)
      if !n.isValidChar then none
      let (s, r) ← readString quote r
      pure (Char.ofNat n :: s, r)
  | '\\' :: c :: r => do
      let d ← match c with
        | 'n' => some '\n'
        | 't' => some '\t'
        | 'r' => some '\r'
        | 'b' => some (Char.ofNat 8)
        | 'f' => some (Char.ofNat 12)
        | '\\' | '/' | '"' | '\'' => some c
        | _ => none
      let (s, r) ← readString quote r
      pure (d :: s, r)
  | c :: r =>
      if c = quote then some ([], r)
      else (readString quote r).map fun (s, r) => (c :: s, r)

/-- The signs of two characters. -/
def longSigns : List String := ["//", "**", "==", "!=", ">=", "<="]

/-- The signs of one character. -/
def shortSigns : List Char :=
  ['+', '-', '*', '/', '%', '.', ',', ':', '~', '|', '=', '>', '<', '(', ')', '[', ']',
    '\x7b', '\x7d']

/-- Reads one token. -/
def readToken (s : List Char) : Option (Token × List Char) :=
  match s with
  | [] => none
  | c :: r =>
      if isNameStart c then
        some (.ident (String.ofList (s.takeWhile isNameChar)), s.dropWhile isNameChar)
      else if c.isDigit then
        let digits := s.takeWhile fun d => d.isDigit || d = '_'
        let n := (digits.filter Char.isDigit).foldl (fun n d => 10 * n + (d.toNat - 48)) 0
        some (.int n, s.drop digits.length)
      else if c = '"' || c = '\'' then (readString c r).map fun (t, r) => (.str t, r)
      else
        match longSigns.find? fun sign => sign.toList.isPrefixOf s with
        | some sign => some (.sym sign, s.drop 2)
        | none => if shortSigns.contains c then some (.sym (String.singleton c), r) else none

/-- The mark that closes an expression or a statement, at the start of a text: whether it drops
the blanks behind it, and what follows. -/
def closingMark? (mark : List Char) (s : List Char) : Option (Bool × List Char) :=
  match s with
  | '-' :: r => (mark.isPrefixOf? r).map (true, ·)
  | '+' :: r => (mark.isPrefixOf? r).map (false, ·)
  | s => (mark.isPrefixOf? s).map (false, ·)

/-- How a token changes the number of open brackets. -/
def bracketShift (t : Token) : Int :=
  match t with
  | .sym "(" | .sym "[" | .sym "\x7b" => 1
  | .sym ")" | .sym "]" | .sym "\x7d" => -1
  | _ => 0

/-- Reads tokens up to a closing mark that stands outside of all brackets; `fuel` bounds their
number. -/
def readTokens (mark : List Char) : Nat → Int → List Char →
    Option (List Token × Bool × List Char)
  | 0, _, _ => none
  | fuel + 1, level, s =>
      let s := s.dropWhile isAsciiBlank
      match if level = 0 then closingMark? mark s else none with
      | some (drops, rest) => some ([], drops, rest)
      | none => do
          let (t, r) ← readToken s
          let (ts, drops, rest) ← readTokens mark fuel (level + bracketShift t) r
          pure (t :: ts, drops, rest)

/-! ## Pieces -/

/-- The text in front of the first opening mark, and what starts with it. -/
def splitAtMark : List Char → List Char × List Char
  | [] => ([], [])
  | '\x7b' :: c :: r =>
      if c = '\x7b' || c = '%' || c = '#' then ([], '\x7b' :: c :: r)
      else
        let (s, t) := splitAtMark (c :: r)
        ('\x7b' :: s, t)
  | c :: r =>
      let (s, t) := splitAtMark r
      (c :: s, t)

/-- The text of a comment behind its opening mark, and what follows the comment. -/
def splitComment : List Char → Option (List Char × List Char)
  | [] => none
  | '#' :: '\x7d' :: r => some ([], r)
  | c :: r => (splitComment r).map fun (s, t) => (c :: s, t)

/-- A text as a piece, without the blanks that are dropped; nothing if none is left. -/
def textPiece (dropsStart dropsEnd : Bool) (s : List Char) : List Piece :=
  let s := if dropsStart then trimStart s else s
  let s := if dropsEnd then trimEnd s else s
  if s.isEmpty then [] else [.text s]

/-- The sign behind an opening mark: whether it drops the blanks in front, and what follows. -/
def openingSign (s : List Char) : Bool × List Char :=
  match s with
  | '-' :: r => (true, r)
  | '+' :: r => (false, r)
  | s => (false, s)

/-- Cuts a template into pieces; `drops` says whether the blanks at its start are dropped, and
`fuel` bounds the number of pieces. -/
def readPieces : Nat → Bool → List Char → Option (List Piece)
  | 0, _, _ => none
  | fuel + 1, drops, s =>
      match splitAtMark s with
      | (lead, _ :: kind :: r) =>
          let (dropsLead, r) := openingSign r
          let lead := textPiece drops dropsLead lead
          if kind = '#' then do
            let (comment, r) ← splitComment r
            (lead ++ ·) <$> readPieces fuel (comment.getLast? = some '-') r
          else if kind = '%' then do
            let (tokens, drops, r) ← readTokens ['%', '\x7d'] (r.length + 1) 0 r
            (lead ++ .statement tokens :: ·) <$> readPieces fuel drops r
          else do
            let (tokens, drops, r) ← readTokens ['\x7d', '\x7d'] (r.length + 1) 0 r
            (lead ++ .write tokens :: ·) <$> readPieces fuel drops r
      | (lead, _) => some (textPiece drops false lead)

/-- A template without the line end at its end. -/
def withoutLastNewline (s : List Char) : List Char :=
  let s := if s.getLast? = some '\n' then s.dropLast else s
  if s.getLast? = some '\r' then s.dropLast else s

/-- The pieces of a written template, if all its marks are closed and its tokens known. -/
def piecesOf (s : List Char) : Option (List Piece) :=
  let s := withoutLastNewline s
  readPieces (s.length + 1) false s

end Lectern.Template
