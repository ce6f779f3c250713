import Lectern.Document.Basic
import Lectern.Template.Value

/-!
# Documents as template values

A document is handed to a template as a map of its parts. The fields of a map are in the order of
their names.
-/

namespace Lectern

open Template (Value)

namespace Template.Value

/-- A string as a value. -/
def ofString (s : String) : Value := str s.toList

/-- Strings as a list. -/
def ofStrings (ss : List String) : Value := list (ss.map ofString)

/-- A natural number as a value. -/
def ofNat (n : Nat) : Value := int n

/-- A string that may be missing. -/
def ofString? : Option String → Value
  | Option.none => none
  | some s => ofString s

/-- A number that may be missing. -/
def ofNat? : Option Nat → Value
  | Option.none => none
  | some n => ofNat n

end Template.Value

open Template.Value (ofString ofStrings ofNat ofString? ofNat?)

/-- A line of an excerpt as a value. -/
def CodeLine.toValue (l : CodeLine) : Value :=
  .map [("number", ofNat l.number), ("text", ofString l.text)]

/-- An excerpt as a value. -/
def Code.toValue (c : Code) : Value :=
  .map [("edit", .bool c.edit), ("ext", ofString c.ext), ("file_name", ofString c.fileName),
    ("kind", ofString "code"), ("lines", .list (c.lines.map CodeLine.toValue)),
    ("numbers", .bool c.numbers), ("play", .bool c.play), ("prefix", ofString c.before),
    ("suffix", ofString c.after)]

/-- A picture or a frame as a value. -/
def boxValue (kind url : String) (width height : Option Nat) : Value :=
  .map [("height", ofNat? height), ("kind", ofString kind), ("url", ofString url),
    ("width", ofNat? width)]

mutual

/-- An element as a value. -/
def Element.toValue : Element → Value
  | .sub ⟨number, title, elems, notes, classes, styles⟩ =>
      .map [("classes", ofStrings classes), ("elems", .list (Element.allToValues elems)),
        ("kind", ofString "section"), ("notes", ofStrings notes),
        ("number", .list (number.map ofNat)), ("styles", ofStrings styles),
        ("title", ofString title)]
  | .text lines pre =>
      .map [("kind", ofString "text"), ("lines", ofStrings lines), ("pre", .bool pre)]
  | .list bullets => .map [("bullets", ofStrings bullets), ("kind", ofString "list")]
  | .code c => c.toValue
  | .image url width height => boxValue "image" url width height
  | .iframe url width height => boxValue "iframe" url width height
  | .link url label =>
      .map [("kind", ofString "link"), ("label", ofString label), ("url", ofString url)]
  | .caption s => .map [("kind", ofString "caption"), ("text", ofString s)]
  | .html s => .map [("html", ofString s), ("kind", ofString "html")]

/-- Elements as values. -/
def Element.allToValues : List Element → List Value
  | [] => []
  | e :: r => e.toValue :: Element.allToValues r

end

/-- A section of a document as a value. -/
def Section.toValue (s : Section) : Value :=
  .map [("classes", ofStrings s.classes), ("elems", .list (Element.allToValues s.elems)),
    ("notes", ofStrings s.notes), ("number", .list (s.number.map ofNat)),
    ("styles", ofStrings s.styles), ("title", ofString s.title)]

/-- The lines about an author as a value. -/
def Author.toValue (a : Author) : Value := .map [("elems", .list (Element.allToValues a.elems))]

/-- A document as a value. -/
def Document.toValue (d : Document) : Value :=
  .map [("authors", .list (d.authors.map Author.toValue)), ("old_url", ofStrings d.oldUrls),
    ("sections", .list (d.sections.map Section.toValue)), ("subtitle", ofString? d.subtitle),
    ("summary", ofString? d.summary), ("tags", ofStrings d.tags),
    ("time", match d.time with
      | none => Value.none
      | some m => .str m.stored),
    ("title", ofString d.title)]

end Lectern
