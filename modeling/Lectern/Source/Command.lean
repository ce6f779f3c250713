import Lectern.Document.Basic
import Lectern.Source.Problem
import Lectern.Text.Search

/-!
# Commands

A line that starts with a dot is a command: it adds an excerpt of a file, a picture, a frame, a
link, a caption or raw markup, or sets the background of its section.
-/

namespace Lectern.Source

open Text

/-- What a line or a block of lines adds to its section. -/
inductive Block where
  | elem (e : Element)
  | note (text : List Char)
  | background (url : List Char)

/-! ## Excerpts -/

/-- The options of an excerpt, its file, and its address with the blanks around it. -/
structure ExcerptLine where
  edit : Bool := false
  numbers : Bool := false
  file : List Char
  address : List Char

/-- Reads the options and the file name of an excerpt behind its command; `command` is the whole
line, and `fuel` bounds the number of fields. -/
def readExcerptLine (command : List Char) : Nat → Bool → Bool → List Char →
    Except Problem ExcerptLine
  | 0, _, _, _ => .error (.missingFileName command)
  | fuel + 1, edit, numbers, s =>
      let (field, rest) := nextField s
      if field.isEmpty then .error (.missingFileName command)
      else if field = "-edit".toList then readExcerptLine command fuel true numbers rest
      else if field = "-numbers".toList then readExcerptLine command fuel edit true rest
      else if field.head? = some '-' then .error (.unknownFlag field)
      else .ok ⟨edit, numbers, field, rest⟩

/-- Is the line marked as one to be left out? -/
def isOmitted (text : List Char) : Bool := "OMIT".toList.isSuffixOf (trimEnd text)

/-- The lines of a range with their numbers, without those that are marked to be left out. -/
def excerptLines (range : Range) (lines : List (List Char)) : List CodeLine :=
  ((lines.take range.hi).zipIdx.drop range.lo).filterMap fun (text, i) =>
    if isOmitted text then none else some ⟨i + 1, String.ofList text⟩

/-- The excerpt of a file of which the range is picked. -/
def excerpt (l : ExcerptLine) (play : Bool) (range : Range) (lines : List (List Char)) : Code :=
  let fileName := String.ofList (((⟨l.file⟩ : Path).fileName?).getD l.file)
  { fileName := fileName
    ext := Code.extensionOf fileName
    play := play
    edit := l.edit
    numbers := l.numbers
    lines := excerptLines range lines
    before := if play then String.ofList (unlines (lines.take range.lo)) else ""
    after := if play then String.ofList (unlines (lines.drop range.hi)) else "" }

/-- Reads an excerpt command and the file it names, from the directory `base`. -/
def readExcerpt (files : Files) (base : Path) (text : List Char) : Except Problem Code := do
  let (command, rest) := nextField text
  let l ← readExcerptLine text (text.length + 1) false false rest
  let path := base.join ⟨l.file⟩
  match files path with
  | .error why => throw (.unreadableFile path why)
  | .ok contents =>
      let lines := Text.lines contents.toList
      match resolveAddress (trim l.address) lines with
      | .error why => throw (.badAddress l.file why)
      | .ok range => pure (excerpt l (command = ".play".toList) range lines)

/-! ## Other commands -/

/-- A width or height: `_` leaves it open, otherwise it is a number of at most 32 bits. -/
def readSize (s : List Char) : Option (Option Nat) :=
  if s = ['_'] then some none
  else
    let digits := if s.head? = some '+' then s.tail else s
    let n := digits.foldl (fun n c => 10 * n + (c.toNat - 48)) 0
    if digits.isEmpty || !digits.all Char.isDigit || 0x100000000 ≤ n then none else some (some n)

/-- Reads the arguments of a picture or a frame: its address, and its height and width if they are
given. -/
def readBox : List (List Char) → Option (String × Option Nat × Option Nat)
  | [url] => some (String.ofList url, none, none)
  | [url, height, width] => do
      let height ← readSize height
      let width ← readSize width
      pure (String.ofList url, width, height)
  | _ => none

/-- What a command line adds to its section. -/
def readCommand (files : Files) (base : Path) (text : List Char) : Except Problem Block :=
  let command := (nextField text).1
  let args := (fields text).tail
  let invalid : Except Problem Block := .error (.badInvocation text)
  match String.ofList command with
  | ".background" =>
      match args with
      | url :: _ => .ok (.background url)
      | [] => invalid
  | ".code" | ".play" => (readExcerpt files base text).map fun c => .elem (.code c)
  | ".image" =>
      match readBox args with
      | some (url, width, height) => .ok (.elem (.image url width height))
      | none => invalid
  | ".iframe" =>
      match readBox args with
      | some (url, width, height) => .ok (.elem (.iframe url width height))
      | none => invalid
  | ".link" =>
      match args with
      | [] => invalid
      | [url] => .ok (.elem (.link (String.ofList url) (String.ofList (dropScheme url))))
      | url :: label =>
          .ok (.elem (.link (String.ofList url) (String.ofList (List.intercalate [' '] label))))
  | ".caption" => .ok (.elem (.caption (String.ofList (trim (text.drop command.length)))))
  | ".html" =>
      match args with
      | [] => invalid
      | file :: _ =>
          let path := base.join ⟨file⟩
          match files path with
          | .ok contents => .ok (.elem (.html contents))
          | .error why => .error (.unreadableFile path why)
  | _ => .error (.unknownCommand text)

end Lectern.Source
