import Lectern.Bundled.Templates
import Lectern.Disk.Access
import Lectern.Failure
import Lectern.Kind
import Lectern.Template.Context
import Lectern.Template.Reader
import Lectern.Template.Render

/-!
# Themes

A theme is a set of templates: one for each kind of document, and a fragment that renders lists of
elements. It is read from the directory `templates` of a base directory, or made of the bundled
texts.
-/

namespace Lectern

open Template

/-- The switches of a run. -/
structure Options where
  /-- Are excerpts runnable that ask for it? -/
  play : Bool := false
  /-- Are the speaker notes shown? -/
  notes : Bool := false
deriving DecidableEq, Repr

/-- The templates of a theme. -/
structure Theme where
  action : List Template.Node
  slides : List Template.Node
  article : List Template.Node

namespace Theme

/-- The name of the fragment that renders lists of elements. -/
def actionName : String := "action.tmpl"

/-- The directory of templates below a base directory. -/
def directory : Path := .ofString "templates"

/-- Reads the template with a name from its text. -/
def readTemplate (dir : Path) (name text : String) : Except Failure (List Template.Node) :=
  match Template.read text.toList with
  | some nodes => .ok nodes
  | none => .error (.templateLoad (dir.join (.ofString name)) .malformed)

/-- Gives the text of the template with a name. -/
def textOf (files : Source.Files) (dir : Path) (name : String) : Except Failure String :=
  match files (dir.join (.ofString name)) with
  | .ok text => .ok text
  | .error why => .error (.templateLoad (dir.join (.ofString name)) (.unreadable why))

/-- Makes a theme of the templates in a directory. -/
def load (files : Source.Files) (dir : Path) : Except Failure Theme := do
  let actionText ← textOf files dir actionName
  let slidesText ← textOf files dir (Kind.templateName .slides)
  let action ← readTemplate dir actionName actionText
  let slides ← readTemplate dir (Kind.templateName .slides) slidesText
  let articleText ← textOf files dir (Kind.templateName .article)
  let article ← readTemplate dir (Kind.templateName .article) articleText
  pure ⟨action, slides, article⟩

/-- The theme below a base directory. -/
def ofBase (files : Source.Files) (base : Path) : Except Failure Theme :=
  load files (base.join directory)

/-- The bundled templates as files. -/
def bundledFiles : Source.Files := fun p =>
  if p = directory.join (.ofString actionName) then .ok Bundled.action
  else if p = directory.join (.ofString (Kind.templateName .slides)) then .ok Bundled.slides
  else if p = directory.join (.ofString (Kind.templateName .article)) then .ok Bundled.article
  else .error .notFound

/-- The theme of the bundled templates. -/
def bundled : Except Failure Theme := load bundledFiles directory

/-- The template for a kind of document. -/
def template (t : Theme) : Kind → List Template.Node
  | .slides => t.slides
  | .article => t.article

/-- The fragments that the template for a kind can include. -/
def fragments (t : Theme) (k : Kind) : Fragments := fun name =>
  if name = actionName then some t.action
  else if name = k.templateName then some (t.template k)
  else none

/-- The names that a template can use. -/
def values (d : Document) (o : Options) : List (String × Value) :=
  [("doc", d.toValue), ("date", Value.ofString? d.displayTime), ("play_enabled", .bool o.play),
    ("notes_enabled", .bool o.notes)]

/-- The page of a document. -/
def page (t : Theme) (k : Kind) (d : Document) (o : Options) : Except Failure (List Char) :=
  match Template.render (t.fragments k) (t.template k) (values d o) with
  | .ok html => .ok html
  | .error why => .error (.render why)

end Theme

end Lectern
