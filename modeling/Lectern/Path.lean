/-!
# Paths

A path is a text of names between slashes. Repeated slashes and names `.` mean nothing, except
that a leading slash makes the path absolute and a leading `.` names the directory it starts in.
-/

namespace Lectern

/-- A path as it is written. -/
structure Path where
  chars : List Char
deriving DecidableEq, Repr

/-- A step of a path. -/
inductive Component where
  | root
  | here
  | up
  | name (s : List Char)
deriving DecidableEq, Repr

namespace Path

/-- The path written as a string. -/
def ofString (s : String) : Path := ⟨s.toList⟩

/-- The path as it is written. -/
def toString (p : Path) : String := String.ofList p.chars

/-- Is the text a step that means nothing inside a path? -/
def isIdle (s : List Char) : Bool := s.isEmpty || s = ['.']

/-- Does the path start at the root? -/
def isAbsolute (p : Path) : Bool := p.chars.head? = some '/'

/-- The leading slash or dot of a path, and what follows it. -/
def splitLead : List Char → List Char × List Char
  | '/' :: r => (['/'], r)
  | ['.'] => (['.'], [])
  | '.' :: '/' :: r => (['.'], '/' :: r)
  | r => ([], r)

/-- The step that a text between slashes stands for. -/
def stepOf (s : List Char) : Component := if s = ['.', '.'] then .up else .name s

/-- The steps of a path. -/
def components (p : Path) : List Component :=
  let (lead, body) := splitLead p.chars
  let steps := ((body.splitOn '/').filter (!isIdle ·)).map stepOf
  match lead with
  | ['/'] => .root :: steps
  | ['.'] => .here :: steps
  | _ => steps

/-- The list without the idle texts at its end. -/
def trimIdle : List (List Char) → List (List Char)
  | [] => []
  | s :: r =>
      match trimIdle r with
      | [] => if isIdle s then [] else [s]
      | t :: u => s :: t :: u

/-- The texts between the slashes behind the lead of a path, up to its last step. -/
def parts (p : Path) : List (List Char) := trimIdle ((splitLead p.chars).2.splitOn '/')

/-- The path with a lead and the texts between the slashes behind it. -/
def build (lead : List Char) (parts : List (List Char)) : Path :=
  ⟨lead ++ List.intercalate ['/'] parts⟩

/-- The path without its last step; none for the root and the empty path. -/
def parent? (p : Path) : Option Path :=
  let lead := (splitLead p.chars).1
  match p.parts with
  | [] => if lead = ['.'] then some ⟨[]⟩ else none
  | ps => some (build lead (trimIdle ps.dropLast))

/-- The directory that holds the path's file: its parent, empty if there is none. -/
def parent (p : Path) : Path := p.parent?.getD ⟨[]⟩

/-- The last step, if it is a name. -/
def fileName? (p : Path) : Option (List Char) :=
  match p.parts.getLast? with
  | some s => if s = ['.', '.'] then none else some s
  | none => none

/-- A file name at its last dot: the stem, and the extension if there is a dot behind a non-empty
stem. -/
def splitExtension (name : List Char) : List Char × Option (List Char) :=
  let tail := (name.reverse.takeWhile (· ≠ '.')).reverse
  let stem := name.take (name.length - tail.length - 1)
  if tail.length = name.length || stem.isEmpty then (name, none) else (stem, some tail)

/-- The extension of the file name, without its dot. -/
def extension? (p : Path) : Option (List Char) :=
  match p.fileName? with
  | some name => (splitExtension name).2
  | none => none

/-- The path with `ext` in place of the extension of its file name, or behind the name if it has
none; unchanged if the path has no file name. -/
def setExtension (p : Path) (ext : List Char) : Path :=
  match p.fileName? with
  | some name =>
      let file := (splitExtension name).1 ++ '.' :: ext
      build (splitLead p.chars).1 (p.parts.dropLast ++ [file])
  | none => p

/-- The path with its extension replaced by `ext`. The old extension is cut off the text first, so
a name such as `..x` becomes `..`, which names no file and gets no extension. -/
def withExtension (p : Path) (ext : List Char) : Path :=
  match p.extension? with
  | some old => setExtension ⟨p.chars.take (p.chars.length - old.length)⟩ ext
  | none => setExtension p ext

/-- The path `q` taken from the directory `p`. -/
def join (p q : Path) : Path :=
  if q.isAbsolute then q
  else if p.chars.isEmpty || p.chars.getLast? = some '/' then ⟨p.chars ++ q.chars⟩
  else ⟨p.chars ++ '/' :: q.chars⟩

@[simp] theorem chars_ofString (s : String) : (ofString s).chars = s.toList := rfl

end Path

end Lectern
