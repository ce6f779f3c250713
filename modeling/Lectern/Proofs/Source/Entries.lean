import Mathlib.Tactic
import Lectern.Proofs.Text.Blocks
import Lectern.Source.Outline

/-!
# The entries of a document

A document is taken apart into its entries: what one line of a source can turn into. `walk` lists
the entries of the sections of a document with the channel that each belongs to: headings and
elements share one channel, in which a section comes before what it holds, and every section has
a channel for its notes and one for its styles. What a section holds shows in the channels of this
section and of those below it (`below_of_mem_walkSection`).
-/

namespace Lectern

namespace Source

open Text

/-! ## Entries -/

/-- What a line of a body turns into. -/
inductive Entry where
  | heading (title : String)
  | paragraphLine (s : String)
  | bullet (s : String)
  | preformattedLine (s : String)
  | command (e : Element)
  | note (s : String)
  | style (s : String)

/-- Where an entry shows. A section is named by the positions that lead to it: that of the
outermost section among the sections of the document, and then that of each section among the
subsections of the one around it, counted from 1. -/
inductive Channel where
  | flow
  | notes (path : List Nat)
  | styles (path : List Nat)
deriving DecidableEq

/-- The channel of an entry of the section at a path. -/
def Entry.channel (path : List Nat) : Entry → Channel
  | note _ => .notes path
  | style _ => .styles path
  | _ => .flow

/-- An entry of the section at a path, with its channel. -/
def Entry.placed (path : List Nat) (x : Entry) : Channel × Entry := (x.channel path, x)

/-- The entries of an element that is no section. -/
def elementEntries : Element → List Entry
  | .sub _ => []
  | .text lines false => lines.map .paragraphLine
  | .text lines true =>
      (lines.flatMap fun s => nonBlankLines s.toList).map fun s =>
        .preformattedLine (String.ofList s)
  | .list bullets => bullets.map .bullet
  | e => [.command e]

mutual

/-- The entries of the section at a path. -/
def walkSection (path : List Nat) : Section → List (Channel × Entry)
  | ⟨_, title, elems, notes, _, styles⟩ =>
      Entry.placed path (.heading title) ::
        (notes.map fun s => Entry.placed path (.note s)) ++
        (styles.map fun s => Entry.placed path (.style s)) ++
        walkElements path 1 elems

/-- The entries of elements of the section at a path, of which the next subsection is that at the
position `next`. -/
def walkElements (path : List Nat) (next : Nat) : List Element → List (Channel × Entry)
  | [] => []
  | .sub s :: r => walkSection (path ++ [next]) s ++ walkElements path (next + 1) r
  | e :: r => (elementEntries e).map (Entry.placed path) ++ walkElements path next r

end

/-- The entries of the sections of a document. -/
def walk (sections : List Section) : List (Channel × Entry) :=
  walkElements [] 1 (sections.map .sub)

/-- The entries of one channel, in order. -/
def inChannel (c : Channel) (l : List (Channel × Entry)) : List (Channel × Entry) :=
  l.filter fun x => x.1 = c

@[simp] theorem inChannel_nil (c : Channel) : inChannel c [] = [] := rfl

@[simp] theorem inChannel_append (c : Channel) (l m : List (Channel × Entry)) :
    inChannel c (l ++ m) = inChannel c l ++ inChannel c m := List.filter_append ..

theorem inChannel_cons (c : Channel) (x : Channel × Entry) (l : List (Channel × Entry)) :
    inChannel c (x :: l) = inChannel c [x] ++ inChannel c l := by
  rw [← inChannel_append, List.singleton_append]

theorem inChannel_eq_nil {c : Channel} {l : List (Channel × Entry)} (h : ∀ x ∈ l, x.1 ≠ c) :
    inChannel c l = [] := by
  rw [inChannel, List.filter_eq_nil_iff]
  exact fun x hx => by simpa using h x hx

/-- Entries can move to the front over entries with which they share no channel. -/
theorem inChannel_move {l m : List (Channel × Entry)} (h : ∀ x ∈ l, ∀ y ∈ m, x.1 ≠ y.1)
    (r : List (Channel × Entry)) (c : Channel) :
    inChannel c (l ++ (m ++ r)) = inChannel c m ++ inChannel c (l ++ r) := by
  rw [inChannel_append, inChannel_append, inChannel_append]
  by_cases hl : ∀ x ∈ l, x.1 ≠ c
  · rw [inChannel_eq_nil hl, List.nil_append, List.nil_append]
  · push Not at hl
    obtain ⟨x, hx, rfl⟩ := hl
    have hm : inChannel x.1 m = [] := inChannel_eq_nil fun y hy => (h x hx y hy).symm
    rw [hm, List.nil_append, List.nil_append]

/-- Lists that agree in every channel hold the same entries. -/
theorem perm_of_inChannel_eq {l m : List (Channel × Entry)}
    (h : ∀ c, inChannel c l = inChannel c m) : l.Perm m := by
  classical
  rw [List.perm_iff_count]
  intro x
  have hc : ∀ l : List (Channel × Entry), l.count x = (inChannel x.1 l).count x := fun l => by
    rw [inChannel, List.count_filter (by simp)]
  rw [hc l, hc m, h]

/-! ## Elements that are no sections -/

theorem walkElements_cons_sub (path : List Nat) (next : Nat) (s : Section) (r : List Element) :
    walkElements path next (.sub s :: r) =
      walkSection (path ++ [next]) s ++ walkElements path (next + 1) r := by
  rw [walkElements]

theorem walkElements_cons_of_section?_eq_none {e : Element} (h : e.section? = none)
    (path : List Nat) (next : Nat) (r : List Element) :
    walkElements path next (e :: r) =
      (elementEntries e).map (Entry.placed path) ++ walkElements path next r := by
  cases e with
  | sub s => simp [Element.section?] at h
  | _ => simp [walkElements]

theorem channel_of_mem_elementEntries {e : Element} {x : Entry} (h : x ∈ elementEntries e)
    (path : List Nat) : x.channel path = .flow := by
  cases e with
  | sub s => simp [elementEntries] at h
  | text lines pre =>
    cases pre <;> simp only [elementEntries, List.mem_map] at h <;>
      obtain ⟨s, -, rfl⟩ := h <;> rfl
  | list bullets =>
    simp only [elementEntries, List.mem_map] at h
    obtain ⟨s, -, rfl⟩ := h
    rfl
  | _ =>
    simp only [elementEntries, List.mem_singleton] at h
    subst h
    rfl

/-! ## Channels inside of a section -/

/-- Does the channel belong to no section, or to one at or below a path? -/
def Channel.Below (path : List Nat) : Channel → Prop
  | .flow => True
  | .notes p => path <+: p
  | .styles p => path <+: p

theorem Channel.Below.trans {p q : List Nat} (h : p <+: q) {c : Channel} (hc : c.Below q) :
    c.Below p := by
  cases c with
  | flow => trivial
  | notes r => exact h.trans hc
  | styles r => exact h.trans hc

theorem below_channel (path : List Nat) (x : Entry) : (x.channel path).Below path := by
  cases x <;> first | trivial | exact List.prefix_rfl

mutual

theorem below_of_mem_walkSection (path : List Nat) (s : Section) :
    ∀ x ∈ walkSection path s, x.1.Below path := by
  obtain ⟨number, title, elems, notes, classes, styles⟩ := s
  rw [walkSection]
  intro x hx
  simp only [List.cons_append, List.mem_cons, List.mem_append, List.mem_map] at hx
  rcases hx with rfl | (⟨s, -, rfl⟩ | ⟨s, -, rfl⟩) | hx
  · trivial
  · exact List.prefix_rfl
  · exact List.prefix_rfl
  · exact below_of_mem_walkElements path 1 elems x hx

theorem below_of_mem_walkElements (path : List Nat) (next : Nat) (es : List Element) :
    ∀ x ∈ walkElements path next es, x.1.Below path := by
  cases es with
  | nil => simp [walkElements]
  | cons e r =>
    intro x hx
    cases e with
    | sub s =>
      rw [walkElements, List.mem_append] at hx
      rcases hx with hx | hx
      · exact (below_of_mem_walkSection _ s x hx).trans (List.prefix_append ..)
      · exact below_of_mem_walkElements path (next + 1) r x hx
    | _ =>
      simp only [walkElements, List.mem_append, List.mem_map] at hx
      rcases hx with ⟨y, -, rfl⟩ | hx
      · exact below_channel path y
      · exact below_of_mem_walkElements path next r x hx

end

end Source

end Lectern
