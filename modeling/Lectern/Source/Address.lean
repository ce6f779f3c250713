import Lectern.Pattern.Reader
import Lectern.Text.Blank
import Lectern.Text.Quoted

/-!
# Addresses of lines

An address picks a range of the lines of a file: one end or two, each a line number, `$` for the
last line, or a pattern between slashes that is searched from where the end before it was found.
-/

namespace Lectern.Source

open Text

/-- Why an address picks no lines. -/
inductive AddressFault where
  | malformed (text : List Char)
  | unterminated (text : List Char)
  | badNumber (digits : List Char)
  | badPattern (pattern : List Char) (why : Pattern.Fault)
  | trailing (text : List Char)
  | reversed (text : List Char)
  | outOfRange (number size : Nat)
  | emptyFile
  | noMatch (pattern : List Char)
deriving DecidableEq, Repr

/-- The wording of a reason. Of what an engine says about a malformed pattern only the first line is
given; the lines behind it show the pattern again with the place of the mistake. -/
def AddressFault.message : AddressFault → List Char
  | malformed t => "malformed address ".toList ++ quote t
  | unterminated t => "unterminated pattern ".toList ++ quote t
  | badNumber t => "bad line number ".toList ++ quote t
  | badPattern t .malformed =>
      "bad pattern ".toList ++ quote t ++ ": regex parse error:".toList
  | badPattern t .tooLarge =>
      "bad pattern ".toList ++ quote t ++
        ": Compiled regex exceeds size limit of 10485760 bytes.".toList
  | trailing t => "unexpected ".toList ++ quote t ++ " after address".toList
  | reversed t => "address ".toList ++ quote t ++ " ends before it starts".toList
  | outOfRange n size =>
      "line ".toList ++ Nat.toDigits 10 n ++ " out of range (file has ".toList ++
        Nat.toDigits 10 size ++ " lines)".toList
  | emptyFile => "file is empty".toList
  | noMatch t => "no match for /".toList ++ t ++ ['/']

/-- One end of a range of lines. -/
inductive Bound where
  | line (number : Nat)
  | last
  | pattern (text : List Char) (p : Pattern)
deriving DecidableEq, Repr

/-- Splits a text at the first slash that no backslash escapes; `escaped` says whether the
character in front is such a backslash. -/
def splitAtSlash (escaped : Bool) : List Char → Option (List Char × List Char)
  | [] => none
  | c :: r =>
      if c = '/' && !escaped then some ([], r)
      else (splitAtSlash (c = '\\' && !escaped) r).map fun (s, t) => (c :: s, t)

/-- The pattern text with a plain slash for every escaped one. -/
def unescapeSlashes : List Char → List Char
  | '\\' :: '/' :: r => '/' :: unescapeSlashes r
  | c :: r => c :: unescapeSlashes r
  | [] => []

/-- The greatest line number that can be written. -/
def numberLimit : Nat := 0xffffffffffffffff

/-- Reads one end of an address and gives the rest of the text. -/
def readBound (s : List Char) : Except AddressFault (Bound × List Char) :=
  match s with
  | '$' :: r => .ok (.last, r)
  | '/' :: body =>
      match splitAtSlash false body with
      | none => .error (.unterminated s)
      | some (raw, r) =>
          let text := unescapeSlashes raw
          match Pattern.read text with
          | .ok p => .ok (.pattern text p, r)
          | .error why => .error (.badPattern text why)
  | s =>
      let digits := s.takeWhile Char.isDigit
      let n := digits.foldl (fun n c => 10 * n + (c.toNat - 48)) 0
      if digits.isEmpty then .error (.malformed s)
      else if numberLimit < n then .error (.badNumber digits)
      else .ok (.line n, s.dropWhile Char.isDigit)

/-- A place in a file: the index of a line and the number of characters in front of the place. -/
structure Spot where
  line : Nat
  column : Nat
deriving DecidableEq, Repr

/-- The first line from index `line` on in which the pattern is found, and the end of its match. -/
def findLine (p : Pattern) (line : Nat) : List (List Char) → Option Spot
  | [] => none
  | text :: r =>
      match p.find? text with
      | some (_, stop) => some ⟨line, stop⟩
      | none => findLine p (line + 1) r

/-- Finds one end of a range, where a pattern is searched from `start` on: in the rest of that
line first, and then in the lines after it. A later search goes on behind what is found. -/
def Bound.locate (b : Bound) (lines : List (List Char)) (start : Spot) :
    Except AddressFault Spot :=
  match b with
  | line n =>
      match lines[n - 1]? with
      | some text => if n = 0 then .error (.outOfRange n lines.length) else .ok ⟨n - 1, text.length⟩
      | none => .error (.outOfRange n lines.length)
  | last =>
      match lines.getLast? with
      | some text => .ok ⟨lines.length - 1, text.length⟩
      | none => .error .emptyFile
  | pattern text p =>
      let sameLine :=
        (lines[start.line]?.bind fun t => p.find? (t.drop start.column)).map fun (_, stop) =>
          (⟨start.line, start.column + stop⟩ : Spot)
      match sameLine <|> findLine p (start.line + 1) (lines.drop (start.line + 1)) with
      | some spot => .ok spot
      | none => .error (.noMatch text)

/-- The lines that an address picks, from the index `lo` up to but not including `hi`. -/
structure Range where
  lo : Nat
  hi : Nat
deriving DecidableEq, Repr

/-- The range of an address without blanks around it; an empty one picks all lines. -/
def resolveAddress (addr : List Char) (lines : List (List Char)) : Except AddressFault Range :=
  if addr.isEmpty then .ok ⟨0, lines.length⟩
  else do
    let (first, rest) ← readBound addr
    let start ← first.locate lines ⟨0, 0⟩
    let stop ←
      match trimStart rest with
      | [] => pure start.line
      | ',' :: r => do
          let (second, trailing) ← readBound (trimStart r)
          if !(trim trailing).isEmpty then throw (.trailing (trim trailing))
          pure (← second.locate lines start).line
      | _ => throw (.malformed addr)
    if stop < start.line then throw (.reversed addr)
    pure ⟨start.line, stop + 1⟩

end Lectern.Source
