import Lectern.Source.Header
import Lectern.Source.Outline

/-!
# Sources

A source is the text of a slide deck or an article. `Source.read` gives its document, or the
problem that stands first in it.
-/

namespace Lectern.Source

/-- How much of a source is read. -/
inductive Mode where
  | full
  | titlesOnly
deriving DecidableEq, Repr

/-- The mode with reading of the header alone switched on or off. -/
def Mode.withTitlesOnly (_ : Mode) (on : Bool) : Mode := if on then titlesOnly else full

/-- Reads the authors and sections behind the header. -/
def readBody (files : Files) (base : Path) (d : Document) (lines : List Line) :
    Except Located Document :=
  let (authors, lines) := readAuthors [] lines
  (readItems files base {} lines).map fun items =>
    { d with authors := authors, sections := outline items }

/-- Reads the lines of a source; referenced files are looked up from the directory `base`. -/
def readLines (files : Files) (base : Path) (mode : Mode) (texts : List (List Char)) :
    Except Located Document := do
  let (d, lines) ← readHeader (texts.length + 1) (numbered texts)
  match mode with
  | .titlesOnly => pure d
  | .full => readBody files base d lines

/-- Reads a source that is named by its path. -/
def read (files : Files) (name : Path) (mode : Mode) (text : String) : Except Failure Document :=
  match readLines files name.parent mode (Text.lines text.toList) with
  | .ok d => .ok d
  | .error what => .error (.atLine name what)

end Lectern.Source
