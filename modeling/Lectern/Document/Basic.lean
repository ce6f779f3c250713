import Lectern.Calendar
import Lectern.Path
import Lectern.Text.Lines

/-!
# Documents

A document has a header, authors and sections. A section holds elements in the order of its body,
and among them its subsections, so a document is a tree whose leaves are texts, lists, excerpts,
pictures and links.
-/

namespace Lectern

open Text

/-- A line of an excerpt, with its number in the file. -/
structure CodeLine where
  number : Nat
  text : String
deriving DecidableEq, Repr

/-- An excerpt of a program file. -/
structure Code where
  /-- The name of the file without its directory. -/
  fileName : String
  /-- The extension of the file with its dot, or nothing. -/
  ext : String
  /-- Did the author ask for the excerpt to be runnable? -/
  play : Bool := false
  /-- May the reader edit it? -/
  edit : Bool := false
  /-- Are the lines numbered? -/
  numbers : Bool := false
  lines : List CodeLine := []
  /-- The part of the file in front of the excerpt, kept for running it. -/
  before : String := ""
  /-- The part of the file behind the excerpt, kept for running it. -/
  after : String := ""
deriving DecidableEq, Repr

mutual

/-- A part of a document under a heading: a slide, or a section of an article. -/
structure Section where
  /-- The numbers of the section and of the sections around it, outermost first. -/
  number : List Nat
  title : String
  elems : List Element
  /-- The speaker notes. -/
  notes : List String
  /-- The style classes of the section. -/
  classes : List String
  /-- The inline styles of the section. -/
  styles : List String

/-- A part of the body of a section, or of the lines about an author. -/
inductive Element where
  | sub (s : Section)
  | text (lines : List String) (pre : Bool)
  | list (bullets : List String)
  | code (c : Code)
  | image (url : String) (width height : Option Nat)
  | iframe (url : String) (width height : Option Nat)
  | link (url label : String)
  | caption (text : String)
  | html (html : String)

end

instance : Inhabited Section := ⟨⟨[1], "", [], [], [], []⟩⟩

/-- The lines about one author. -/
structure Author where
  elems : List Element := []

/-- A slide deck or an article. -/
structure Document where
  title : String := ""
  subtitle : Option String := none
  time : Option Moment := none
  tags : List String := []
  summary : Option String := none
  oldUrls : List String := []
  authors : List Author := []
  sections : List Section := []

/-! ## Elements -/

namespace Element

/-- A paragraph. -/
def paragraph (lines : List String) : Element := text lines false

/-- A preformatted text. -/
def preformatted (s : String) : Element := text [s] true

/-- The section of an element that is one. -/
def section? : Element → Option Section
  | sub s => some s
  | _ => none

end Element

namespace Code

/-- The extension of a file name with its dot, or nothing. -/
def extensionOf (fileName : String) : String :=
  match (Path.ofString fileName).extension? with
  | some ext => String.ofList ('.' :: ext)
  | none => ""

/-- An excerpt that holds the whole text of a file. -/
def ofText (fileName text : String) : Code where
  fileName := fileName
  ext := extensionOf fileName
  lines := (Text.lines text.toList).zipIdx.map fun (l, i) => ⟨i + 1, String.ofList l⟩

/-- The one extension of files that can be run. -/
def playableExt : String := ".go"

/-- Is an excerpt runnable, given whether running is enabled, whether its author asked for it,
and the extension of its file? -/
def isPlayable (enabled requested : Bool) (ext : String) : Bool :=
  enabled && requested && ext = playableExt

/-- Is the excerpt runnable when running is enabled or not? -/
def playableWhen (enabled : Bool) (c : Code) : Bool := isPlayable enabled c.play c.ext

end Code

/-! ## Sections -/

namespace Section

/-- A section without a body; a missing number counts as `1`. -/
def new (number : List Nat) (title : String) : Section where
  number := if number.isEmpty then [1] else number
  title := title
  elems := []
  notes := []
  classes := []
  styles := []

/-- How deep the section lies, from 1 for the sections of a document. -/
def depth (s : Section) : Nat := s.number.length

/-- The numbers with dots between them. -/
def formattedNumber (s : Section) : String :=
  String.ofList (List.intercalate ['.'] (s.number.map (Nat.toDigits 10)))

/-- The subsections, in order. -/
def subsections (s : Section) : List Section := s.elems.filterMap Element.section?

/-- Has the section no body? -/
def isEmpty (s : Section) : Bool := s.elems.isEmpty

/-- The section with one more element at its end. -/
def addElem (s : Section) (e : Element) : Section := { s with elems := s.elems ++ [e] }

/-- The subsection that a title added to the section becomes. -/
def nextSubsection (s : Section) (title : String) : Section :=
  new (s.number ++ [s.subsections.length + 1]) title

/-- The section with a new subsection at its end. -/
def addSubsection (s : Section) (title : String) : Section :=
  s.addElem (.sub (s.nextSubsection title))

end Section

mutual

/-- The number of sections in a section, itself included. -/
def Section.sectionCount : Section → Nat
  | ⟨_, _, elems, _, _, _⟩ => 1 + Element.sectionCounts elems

/-- The number of sections in an element. -/
def Element.sectionCount : Element → Nat
  | .sub s => s.sectionCount
  | .text _ _ | .list _ | .code _ | .image _ _ _ | .iframe _ _ _ | .link _ _ | .caption _
  | .html _ => 0

/-- The number of sections in a list of elements. -/
def Element.sectionCounts : List Element → Nat
  | [] => 0
  | e :: r => e.sectionCount + Element.sectionCounts r

end

/-! ## Authors -/

namespace Author

/-- Is nothing said about the author? -/
def isEmpty (a : Author) : Bool := a.elems.isEmpty

/-- The author with one more element at the end. -/
def addElem (a : Author) (e : Element) : Author := { a with elems := a.elems ++ [e] }

end Author

/-! ## Documents -/

namespace Document

/-- A document with nothing but a title. -/
def new (title : String) : Document := { title := title }

/-- Has the document no sections? -/
def isEmpty (d : Document) : Bool := d.sections.isEmpty

/-- The number of sections at all depths. -/
def sectionCount (d : Document) : Nat := d.sections.foldr (·.sectionCount + ·) 0

/-- The date of the document in words, if it has one. -/
def displayTime (d : Document) : Option String := d.time.map fun m => String.ofList m.display

/-- The document with one more section at its end. -/
def pushSection (d : Document) (s : Section) : Document :=
  { d with sections := d.sections ++ [s] }

/-- The section that a title added to the document becomes. -/
def nextSection (d : Document) (title : String) : Section :=
  Section.new [d.sections.length + 1] title

/-- The document with a new section at its end. -/
def addSection (d : Document) (title : String) : Document := d.pushSection (d.nextSection title)

/-- The document with one more author at the end. -/
def pushAuthor (d : Document) (a : Author) : Document := { d with authors := d.authors ++ [a] }

@[simp] theorem isEmpty_new (title : String) : (new title).isEmpty = true := rfl

@[simp] theorem sectionCount_new (title : String) : (new title).sectionCount = 0 := rfl

end Document

end Lectern
