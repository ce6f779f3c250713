import Lectern.Document.Basic
import Lectern.Source.Line
import Lectern.Source.Problem
import Lectern.Text.Search

/-!
# The header and the authors

A source starts with its title. The lines up to the first empty one tell the rest of the header.
Then come the authors, in blocks between empty lines, up to the first heading.
-/

namespace Lectern.Source

open Text

/-! ## The header -/

/-- The tags between commas, trimmed; empty ones mean nothing. -/
def tagsOf (s : List Char) : List String :=
  (((s.splitOn ',').map trim).filter (!·.isEmpty)).map String.ofList

/-- The header with what a line of it tells. The kind of a line is told by how it starts: notes
mean nothing here, and what is no labelled line and no time is the subtitle, of which there can be
but one. -/
def headerLine (d : Document) (text : List Char) : Except Problem Document :=
  if (noteText? text).isSome then .ok d
  else if let some s := "Tags:".toList.isPrefixOf? text then
    .ok { d with tags := d.tags ++ tagsOf s }
  else if let some s := "Summary:".toList.isPrefixOf? text then
    .ok { d with summary := some (String.ofList (trim s)) }
  else if let some s := "OldURL:".toList.isPrefixOf? text then
    .ok { d with oldUrls := d.oldUrls ++ [String.ofList (trim s)] }
  else if let some m := Moment.ofHeader? text then
    .ok { d with time := some m }
  else if d.subtitle.isNone then
    .ok { d with subtitle := some (String.ofList text) }
  else .error (.headerLine text)

/-- Reads the header lines behind the title up to the first empty one, and gives the lines behind
that; `stop` is the number of the place behind the last line. -/
def readHeaderLines (stop : Nat) (d : Document) :
    List Line → Except Located (Document × List Line)
  | [] => .error ⟨stop, .unfinishedHeader⟩
  | l :: r =>
      if l.text.isEmpty then .ok (d, r)
      else
        match headerLine d l.text with
        | .ok d => readHeaderLines stop d r
        | .error problem => .error ⟨l.number, problem⟩

/-- Reads a header from its title on. -/
def readHeader (stop : Nat) : List Line → Except Located (Document × List Line)
  | [] => .error ⟨stop, .missingTitle⟩
  | l :: r =>
      if l.text.isEmpty then readHeader stop r
      else readHeaderLines stop { title := String.ofList l.text } r

/-! ## The authors -/

/-- Does the text start with a scheme and a colon, and have no blanks? -/
def looksLikeUrl (text : List Char) : Bool :=
  let scheme := text.takeWhile (· ≠ ':')
  text.contains ':' && !text.any isBlank && !scheme.isEmpty &&
    scheme.all fun c => c.isAlphanum || c = '+' || c = '-' || c = '.'

/-- What a line about an author is: an account name, a web address, a mail address, or text. -/
def authorElement (text : List Char) : Element :=
  let label := String.ofList text
  match text with
  | '@' :: handle => .link ("https://twitter.com/" ++ String.ofList handle) label
  | _ =>
      if looksLikeUrl text then .link label label
      else if text.contains '@' && !text.any isBlank then .link ("mailto:" ++ label) label
      else .paragraph [label]

/-- An author with the given lines, if there are any. -/
def authorOf (elems : List Element) : List Author := if elems.isEmpty then [] else [⟨elems⟩]

/-- Reads the authors up to the first line that starts with a star; `elems` are the lines so far
about the author being read. -/
def readAuthors (elems : List Element) : List Line → List Author × List Line
  | [] => (authorOf elems, [])
  | l :: r =>
      if l.text.head? = some '*' then (authorOf elems, l :: r)
      else if (noteText? l.text).isSome then readAuthors elems r
      else if l.text.isEmpty then
        let (authors, rest) := readAuthors [] r
        (authorOf elems ++ authors, rest)
      else readAuthors (elems ++ [authorElement l.text]) r

end Lectern.Source
