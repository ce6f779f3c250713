import Lectern.Proofs.Calendar
import Lectern.Proofs.Page.Elements
import Lectern.Proofs.Page.Querying

/-!
# Finding the way in a page

What a reader of a page can follow: links, headings with their ids, and the table of contents with
its entries, as a list and nested as its lists are. The ids of sections are told apart by their
numbers (`place_injective`).
-/

namespace Lectern

open Text Markup
open Template (Value)

/-! ## The places of sections -/

theorem foldl_joined {separator : List Char} {items : List Value} {s : List Char} (hs : s ≠ []) :
    items.foldl (fun s v => if s.isEmpty then v.text else s ++ separator ++ v.text) s =
      s ++ items.flatMap fun v => separator ++ v.text := by
  induction items generalizing s with
  | nil => simp
  | cons v r ih =>
    have hstep : (if s.isEmpty then v.text else s ++ separator ++ v.text) =
        s ++ separator ++ v.text := if_neg (by simpa using hs)
    rw [List.foldl_cons, hstep, ih (by simp [hs]), List.flatMap_cons]
    simp only [List.append_assoc]

theorem intercalate_cons (separator s : List Char) (texts : List (List Char)) :
    List.intercalate separator (s :: texts) = s ++ texts.flatMap fun t => separator ++ t := by
  induction texts generalizing s with
  | nil => simp
  | cons t r ih =>
    rw [List.intercalate_cons_cons, ih, List.flatMap_cons]
    simp only [List.append_assoc]

/-- Numbers are joined by putting the separator between their digits. -/
theorem joined_ofNat (separator : List Char) (number : List Nat) :
    Value.joined separator (number.map Value.ofNat) =
      List.intercalate separator (number.map (Nat.toDigits 10)) := by
  cases number with
  | nil => rfl
  | cons n r =>
    have htext (n : Nat) : (Value.ofNat n).text = Nat.toDigits 10 n := rfl
    have hfirst : Value.joined separator ((n :: r).map Value.ofNat) =
        (r.map Value.ofNat).foldl
          (fun s v => if s.isEmpty then v.text else s ++ separator ++ v.text)
          (Value.ofNat n).text := rfl
    rw [hfirst, htext, foldl_joined Nat.toDigits_ne_nil, List.map_cons, intercalate_cons,
      List.flatMap_map, List.flatMap_map]
    simp only [htext]

/-- A number with dots between its parts. -/
def dotted (number : List Nat) : List Char :=
  List.intercalate ['.'] (number.map (Nat.toDigits 10))

theorem dotted_ne_nil {number : List Nat} (h : number ≠ []) : dotted number ≠ [] := by
  cases number with
  | nil => exact absurd rfl h
  | cons n r =>
    rw [dotted, List.map_cons, intercalate_cons]
    exact List.append_ne_nil_of_left_ne_nil Nat.toDigits_ne_nil _

theorem splitOn_dotted {number : List Nat} (h : number ≠ []) :
    (dotted number).splitOn '.' = number.map (Nat.toDigits 10) := by
  refine List.splitOn_intercalate '.' (fun s hs => ?_) (by simpa using h)
  obtain ⟨n, -, rfl⟩ := List.mem_map.1 hs
  intro hdot
  exact absurd (Nat.isDigit_of_mem_toDigits (by decide) (by decide) hdot) (by decide)

theorem dotted_injective : Function.Injective dotted := by
  intro m n h
  by_cases hm : m = []
  · subst hm
    by_contra hn
    exact dotted_ne_nil (Ne.symm hn) h.symm
  by_cases hn : n = []
  · subst hn
    exact absurd h (dotted_ne_nil hm)
  · have hmap := congrArg (List.splitOn '.') h
    rw [splitOn_dotted hm, splitOn_dotted hn] at hmap
    exact toDigits_injective.list_map hmap

/-- The name of the place of a section in a page, as links have it. -/
def place (number : List Nat) : List Char := "TOC_".toList ++ dotted number

/-- Sections with different numbers have different places. -/
theorem place_injective : Function.Injective place :=
  fun _ _ h => dotted_injective (List.append_cancel_left h)

theorem anchor_eq (number : List Nat) : anchor number = escapeStrict (place number) := by
  have hstart : "TOC_".toList = escapeStrict "TOC_".toList := rfl
  rw [anchor, joined_ofNat, hstart, ← escapeStrict_append]
  rfl

theorem decode_anchor (number : List Nat) : decode (anchor number) = place number := by
  rw [anchor_eq, decode_escapeStrict]

/-- A link to a section leads to its place. -/
theorem decode_href (number : List Nat) : decode ('#' :: anchor number) = '#' :: place number := by
  have hescape : '#' :: escapeStrict (place number) = escapeStrict ('#' :: place number) := rfl
  rw [anchor_eq, hescape, decode_escapeStrict]

/-! ## Reading the table of contents -/

namespace Markup

/-- The links in parts of a page: where they lead, and what they show. -/
def links (parts : List Markup) : List (List Char × List Char) :=
  ((allElements parts).filter (·.hasTag "a")).filterMap fun m =>
    (m.attribute? "href").map fun href => (href, m.shown)

/-- The tables of contents of a page. -/
def tables (page : List Markup) : List Markup :=
  (allElements page).filter (·.hasAttribute "id" "toc".toList)

/-- The entries among parts of a page, with their links. -/
def listed (parts : List Markup) : List (List (List Char × List Char)) :=
  ((allElements parts).filter (·.hasTag "li")).map fun m => links m.body

/-- The entries of the table of contents of a page, with their links. -/
def entries (page : List Markup) : List (List (List Char × List Char)) :=
  (tables page).flatMap fun m => listed m.body

/-- The id of a heading that has one, and what the heading shows. -/
def heading? (m : Markup) : Option (List Char × List Char) :=
  if m.isHeading then (m.attribute? "id").map fun id => (id, m.shown) else none

/-- The headings of a page that have an id, with what they show. -/
def headings (page : List Markup) : List (List Char × List Char) :=
  (allElements page).filterMap heading?

end Markup

/-- An entry of a table of contents: its links, and the entries below it. -/
inductive TocEntry where
  | mk (links : List (List Char × List Char)) (below : List TocEntry)

namespace Markup

mutual

/-- Reads a part of a list in front of others, of which it is given the entries of the lists that
they start with, and their own entries. -/
def nestedStep : Markup → List TocEntry × List TocEntry → List TocEntry × List TocEntry
  | element tag _ body, (below, behind) =>
      if tag = "li" then ([], .mk (links body) below :: behind)
      else if tag = "ul" then ((nestedIn body).2, behind)
      else (below, behind)
  | text _, read => read
  | void _ _, read => read

/-- Reads the parts of a list: the entries of the lists that it starts with, and its own entries,
each with those in the list right behind it. -/
def nestedIn : List Markup → List TocEntry × List TocEntry
  | [] => ([], [])
  | m :: r => m.nestedStep (nestedIn r)

end

/-- The entries of the table of contents of a page, nested as its lists are. -/
def nestedEntries (page : List Markup) : List TocEntry :=
  (tables page).flatMap fun m => (nestedIn m.body).1

/-! ## Queries do not depend on how texts are cut -/

theorem links_allAtoms (l : List Markup) : links (allAtoms l) = links l := by
  rw [links, allElements_allAtoms, List.filter_map, List.filterMap_map]
  simp [links, Function.comp_def]

theorem listed_allAtoms (l : List Markup) : listed (allAtoms l) = listed l := by
  rw [listed, allElements_allAtoms, List.filter_map, List.map_map]
  simp [listed, Function.comp_def, body_atomized, links_allAtoms]

theorem tables_allAtoms (l : List Markup) : tables (allAtoms l) = (tables l).map atomized := by
  rw [tables, allElements_allAtoms, List.filter_map]
  simp [tables, Function.comp_def]

theorem entries_allAtoms (l : List Markup) : entries (allAtoms l) = entries l := by
  rw [entries, tables_allAtoms, List.flatMap_map]
  simp [entries, body_atomized, listed_allAtoms]

theorem heading?_atomized (m : Markup) : m.atomized.heading? = m.heading? := by
  simp [heading?]

theorem headings_allAtoms (l : List Markup) : headings (allAtoms l) = headings l := by
  rw [headings, allElements_allAtoms, List.filterMap_map]
  simp [headings, heading?_atomized]

theorem nestedIn_chars (s : List Char) (r : List Markup) :
    nestedIn (s.map (fun c => text [c]) ++ r) = nestedIn r := by
  induction s with
  | nil => rfl
  | cons c s ih =>
    rw [List.map_cons, List.cons_append, nestedIn, ih, nestedStep]

mutual

theorem nestedIn_atoms (m : Markup) (r : List Markup) :
    nestedIn (m.atoms ++ r) = m.nestedStep (nestedIn r) := by
  cases m with
  | text s => rw [atoms, nestedIn_chars, nestedStep]
  | element tag attributes body =>
    rw [atoms, List.singleton_append, nestedIn, nestedStep, nestedStep, links_allAtoms,
      nestedIn_allAtoms body]
  | void tag attributes => rfl

theorem nestedIn_allAtoms (l : List Markup) : nestedIn (allAtoms l) = nestedIn l := by
  cases l with
  | nil => rfl
  | cons m r => rw [allAtoms, nestedIn_atoms m, nestedIn_allAtoms r, nestedIn]

end

theorem nestedEntries_allAtoms (l : List Markup) :
    nestedEntries (allAtoms l) = nestedEntries l := by
  rw [nestedEntries, tables_allAtoms, List.flatMap_map]
  simp [nestedEntries, body_atomized, nestedIn_allAtoms]

end Markup

end Lectern
