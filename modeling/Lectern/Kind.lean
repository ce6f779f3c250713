import Lectern.Path

/-!
# Kinds of documents

The extension of a source tells whether it is a slide deck or an article.
-/

namespace Lectern

/-- A slide deck or an article. -/
inductive Kind where
  | slides
  | article
deriving DecidableEq, Repr

namespace Kind

/-- The kinds, in the order in which they are listed. -/
def all : List Kind := [slides, article]

/-- The extension of a source of the kind, with its dot. -/
def extension : Kind → List Char
  | slides => ".slide".toList
  | article => ".article".toList

/-- The name of the template for the kind. -/
def templateName : Kind → String
  | slides => "slides.tmpl"
  | article => "article.tmpl"

/-- The kind with an extension, or the extension itself if there is none. -/
def ofExtension (ext : List Char) : Except (List Char) Kind :=
  match all.find? fun k => k.extension = ext with
  | some k => .ok k
  | none => .error ext

/-- The kind of a source at a path, or the text that tells none: its extension, or the whole path
if it has no extension. -/
def ofPath (p : Path) : Except (List Char) Kind :=
  match p.extension? with
  | some ext => ofExtension ('.' :: ext)
  | none => .error p.chars

theorem ofExtension_extension (k : Kind) : ofExtension k.extension = .ok k := by
  cases k <;> rfl

end Kind

end Lectern
