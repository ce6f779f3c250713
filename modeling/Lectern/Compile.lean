import Lectern.Assets
import Lectern.Source.Basic
import Lectern.Theme

/-!
# Compiling a document

A source is compiled in three steps: its document is read, the page is rendered and written, and
the assets are copied next to it. The kind of the source is checked before it is opened, and
nothing is written unless the whole page is rendered.
-/

namespace Lectern

open Disk

/-- What is to be compiled with: a base directory with templates and assets, unless the bundled
ones are used; the switches; and a document to be taken for every source, if one is given. -/
structure Compiler where
  base : Option Path := none
  options : Options := {}
  document : Option Document := none

namespace Compiler

/-- The directory of the templates, unless the bundled ones are used. -/
def templatesDir (c : Compiler) : Option Path := c.base.map fun b => b.join Theme.directory

/-- The directory of the assets, unless the bundled ones are used. -/
def assetsDir (c : Compiler) : Option Path := c.base.map fun b => b.join Assets.directory

/-- The theme. -/
def theme (c : Compiler) (d : Disk) : Except Failure Theme :=
  match c.base with
  | some base => Theme.ofBase d.readText base
  | none => Theme.bundled

end Compiler

/-- The path of the page for a source: the one that is asked for, or that of the source with the
extension `html`. -/
def outputPath (input : Path) (output : Option Path) : Path :=
  output.getD (input.withExtension "html".toList)

/-- Reads the document of a source with the given content. -/
def readContent (d : Disk) (mode : Source.Mode) (p : Path) (content : Content) :
    Except Source.Failure Document :=
  match content.text with
  | .error why => .error (.cannotRead p why)
  | .ok text => Source.read d.readText p mode text

/-- Reads the document of a source on a disk. -/
def readDocument (d : Disk) (mode : Source.Mode) (p : Path) : Except Source.Failure Document :=
  match d.openFile p with
  | .error why => .error (.cannotOpen p why)
  | .ok content => readContent d mode p content

/-- The document for a source: the given one if the source can be opened, or its own. -/
def documentFor (d : Disk) (given : Option Document) (p : Path) :
    Except Source.Failure Document :=
  match given with
  | none => readDocument d .full p
  | some doc =>
      match d.openFile p with
      | .error why => .error (.cannotOpen p why)
      | .ok _ => .ok doc

/-- The page of a source, rendered with a theme. -/
def renderPage (c : Compiler) (t : Theme) (d : Disk) (input : Path) :
    Except Failure (List Char) :=
  match Kind.ofPath input with
  | .error name => .error (.unsupportedKind name)
  | .ok k =>
      match documentFor d c.document input with
      | .error why => .error (.source why)
      | .ok doc => t.page k doc c.options

/-- The page of a source. -/
def Compiler.page (c : Compiler) (d : Disk) (input : Path) : Except Failure (List Char) := do
  renderPage c (← c.theme d) d input

/-- Makes the directory of a page and writes the page. -/
def writePage (path : Path) (html : List Char) : DiskM Failure Unit :=
  ExceptT.adapt (.outputWrite path) do
    if !path.parent.chars.isEmpty then makeDirs path.parent
    writeText path (String.ofList html)

/-- Renders the page of a source with a theme, writes it, and gives its path. -/
def renderFile (c : Compiler) (t : Theme) (input : Path) (output : Option Path) :
    DiskM Failure Path := do
  let html ← ExceptT.mk (pure (renderPage c t (← get) input))
  writePage (outputPath input output) html
  pure (outputPath input output)

/-- Compiles a source: writes its page, copies the assets next to it, and gives its path. -/
def compile (c : Compiler) (input : Path) (output : Option Path) : DiskM Failure Path := do
  let t ← ExceptT.mk (pure (c.theme (← get)))
  let page ← renderFile c t input output
  let _ ← match c.assetsDir with
    | some root => Assets.replicate root page
    | none => Assets.replicateBundled page
  pure page

end Lectern
