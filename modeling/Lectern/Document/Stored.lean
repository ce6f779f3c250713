import Lectern.Document.Basic
import Lectern.Json

/-!
# The stored form of documents

A document is stored as a JSON object with a field for each of its parts; an element carries its
kind in the field `kind`. `Document.toJson` writes the form and `Document.ofJson?` reads it: every
field is required but those that may be null, and fields of other names mean nothing.
-/

namespace Lectern

open Json (str arr obj ofStrings ofOption)

/-! ## Writing -/

/-- A natural number as a JSON value. -/
def Json.ofNat (n : Nat) : Json := .int n

/-- The stored form of a line of an excerpt. -/
def CodeLine.toJson (l : CodeLine) : Json :=
  obj [("number", .ofNat l.number), ("text", str l.text)]

/-- The stored fields of an excerpt. -/
def Code.toFields (c : Code) : List (String × Json) :=
  [("file_name", str c.fileName), ("ext", str c.ext), ("play", .bool c.play),
    ("edit", .bool c.edit), ("numbers", .bool c.numbers),
    ("lines", arr (c.lines.map CodeLine.toJson)), ("prefix", str c.before),
    ("suffix", str c.after)]

/-- The stored fields of a section, given those of its elements. -/
def sectionFields (number : List Nat) (title : String) (elems : List Json)
    (notes classes styles : List String) : List (String × Json) :=
  [("number", arr (number.map Json.ofNat)), ("title", str title), ("elems", arr elems),
    ("notes", ofStrings notes), ("classes", ofStrings classes), ("styles", ofStrings styles)]

/-- The stored form of an element of a kind. -/
def ofKind (kind : String) (fields : List (String × Json)) : Json :=
  obj (("kind", str kind) :: fields)

/-- The stored fields of a picture or a frame. -/
def boxFields (url : String) (width height : Option Nat) : List (String × Json) :=
  [("url", str url), ("width", ofOption Json.ofNat width), ("height", ofOption Json.ofNat height)]

mutual

/-- The stored form of an element. -/
def Element.toJson : Element → Json
  | .sub ⟨number, title, elems, notes, classes, styles⟩ =>
      ofKind "section" (sectionFields number title (Element.allToJson elems) notes classes styles)
  | .text lines pre => ofKind "text" [("lines", ofStrings lines), ("pre", .bool pre)]
  | .list bullets => ofKind "list" [("bullets", ofStrings bullets)]
  | .code c => ofKind "code" c.toFields
  | .image url width height => ofKind "image" (boxFields url width height)
  | .iframe url width height => ofKind "iframe" (boxFields url width height)
  | .link url label => ofKind "link" [("url", str url), ("label", str label)]
  | .caption s => ofKind "caption" [("text", str s)]
  | .html s => ofKind "html" [("html", str s)]

/-- The stored forms of elements. -/
def Element.allToJson : List Element → List Json
  | [] => []
  | e :: r => e.toJson :: Element.allToJson r

end

/-- The stored form of a section. -/
def Section.toJson (s : Section) : Json :=
  obj (sectionFields s.number s.title (Element.allToJson s.elems) s.notes s.classes s.styles)

/-- The stored form of the lines about an author. -/
def Author.toJson (a : Author) : Json := obj [("elems", arr (Element.allToJson a.elems))]

/-- The stored form of a moment. -/
def Moment.toJson (m : Moment) : Json := str (String.ofList m.stored)

/-- The stored form of a document. -/
def Document.toJson (d : Document) : Json :=
  obj [("title", str d.title), ("subtitle", ofOption str d.subtitle),
    ("time", ofOption Moment.toJson d.time), ("tags", ofStrings d.tags),
    ("summary", ofOption str d.summary), ("old_url", ofStrings d.oldUrls),
    ("authors", arr (d.authors.map Author.toJson)),
    ("sections", arr (d.sections.map Section.toJson))]

/-! ## Reading -/

/-- The bound of line and section numbers. -/
def numberBound : Nat := 0x10000000000000000

/-- The bound of widths and heights. -/
def sizeBound : Nat := 0x100000000

namespace Json

/-- The string in a field. -/
def stringAt? (j : Json) (key : String) : Option String := j.field? key >>= string?

/-- The strings in a field. -/
def stringsAt? (j : Json) (key : String) : Option (List String) := j.field? key >>= strings?

/-- The truth value in a field. -/
def boolAt? (j : Json) (key : String) : Option Bool := j.field? key >>= bool?

/-- The items in a field. -/
def itemsAt? (j : Json) (key : String) : Option (List Json) := j.field? key >>= items?

/-- What a field holds that may be null or missing. -/
def optionalAt? {α : Type} (read : Json → Option α) (j : Json) (key : String) :
    Option (Option α) :=
  optional? read (j.field? key)

mutual

/-- How deep objects and arrays lie in each other. -/
def depth : Json → Nat
  | arr items => 1 + depthItems items
  | obj fields => 1 + depthFields fields
  | null | bool _ | int _ | real _ | str _ => 0

/-- The greatest depth of a list of values. -/
def depthItems : List Json → Nat
  | [] => 0
  | j :: r => max j.depth (depthItems r)

/-- The greatest depth of the values of fields. -/
def depthFields : List (String × Json) → Nat
  | [] => 0
  | (_, j) :: r => max j.depth (depthFields r)

end

end Json

/-- The line of an excerpt with a stored form. -/
def CodeLine.ofJson? (j : Json) : Option CodeLine := do
  let number ← j.field? "number" >>= Json.natBelow? numberBound
  let text ← j.stringAt? "text"
  pure ⟨number, text⟩

/-- The excerpt with a stored form. -/
def Code.ofJson? (j : Json) : Option Code := do
  let fileName ← j.stringAt? "file_name"
  let ext ← j.stringAt? "ext"
  let play ← j.boolAt? "play"
  let edit ← j.boolAt? "edit"
  let numbers ← j.boolAt? "numbers"
  let lines ← j.itemsAt? "lines" >>= fun ls => ls.mapM CodeLine.ofJson?
  let before ← j.stringAt? "prefix"
  let after ← j.stringAt? "suffix"
  pure ⟨fileName, ext, play, edit, numbers, lines, before, after⟩

/-- The address, width and height of a picture or a frame with a stored form. -/
def boxOfJson? (j : Json) : Option (String × Option Nat × Option Nat) := do
  let url ← j.stringAt? "url"
  let width ← Json.optionalAt? (Json.natBelow? sizeBound) j "width"
  let height ← Json.optionalAt? (Json.natBelow? sizeBound) j "height"
  pure (url, width, height)

/-- The section with a stored form, given how its elements are read. -/
def Section.ofJsonWith? (element : Json → Option Element) (j : Json) : Option Section := do
  let number ← j.itemsAt? "number" >>= fun ns => ns.mapM (Json.natBelow? numberBound)
  let title ← j.stringAt? "title"
  let elems ← j.itemsAt? "elems" >>= fun es => es.mapM element
  let notes ← j.stringsAt? "notes"
  let classes ← j.stringsAt? "classes"
  let styles ← j.stringsAt? "styles"
  pure ⟨number, title, elems, notes, classes, styles⟩

/-- The element with a stored form that is at most `depth` deep. -/
def Element.ofJsonWithin? : Nat → Json → Option Element
  | 0, _ => none
  | depth + 1, j => do
      match ← j.stringAt? "kind" with
      | "section" => .sub <$> Section.ofJsonWith? (Element.ofJsonWithin? depth) j
      | "text" => do pure (.text (← j.stringsAt? "lines") (← j.boolAt? "pre"))
      | "list" => .list <$> j.stringsAt? "bullets"
      | "code" => .code <$> Code.ofJson? j
      | "image" => (fun (url, width, height) => .image url width height) <$> boxOfJson? j
      | "iframe" => (fun (url, width, height) => .iframe url width height) <$> boxOfJson? j
      | "link" => do pure (.link (← j.stringAt? "url") (← j.stringAt? "label"))
      | "caption" => .caption <$> j.stringAt? "text"
      | "html" => .html <$> j.stringAt? "html"
      | _ => none

/-- The element with a stored form. -/
def Element.ofJson? (j : Json) : Option Element := Element.ofJsonWithin? j.depth j

/-- The section with a stored form. -/
def Section.ofJson? (j : Json) : Option Section := Section.ofJsonWith? Element.ofJson? j

/-- The author with a stored form. -/
def Author.ofJson? (j : Json) : Option Author := do
  let elems ← j.itemsAt? "elems" >>= fun es => es.mapM Element.ofJson?
  pure ⟨elems⟩

/-- The moment with a stored form. -/
def Moment.ofJson? (j : Json) : Option Moment := do
  let s ← j.string?
  Moment.ofStored? s.toList

/-- The document with a stored form. -/
def Document.ofJson? (j : Json) : Option Document := do
  let title ← j.stringAt? "title"
  let subtitle ← Json.optionalAt? Json.string? j "subtitle"
  let time ← Json.optionalAt? Moment.ofJson? j "time"
  let tags ← j.stringsAt? "tags"
  let summary ← Json.optionalAt? Json.string? j "summary"
  let oldUrls ← j.stringsAt? "old_url"
  let authors ← j.itemsAt? "authors" >>= fun as_ => as_.mapM Author.ofJson?
  let sections ← j.itemsAt? "sections" >>= fun ss => ss.mapM Section.ofJson?
  pure ⟨title, subtitle, time, tags, summary, oldUrls, authors, sections⟩

end Lectern
