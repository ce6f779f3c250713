import Lectern.Proofs.Source.Opening
import Lectern.Proofs.Source.Refusals

/-!
# A cursor over lines

A cursor stands between the lines of a source. It moves to the next line that is no comment, or
past the end, and it can be put back by one place; it keeps a record of its moves. A cursor that is
put back only right behind a move to a line never gives a line again once another one has been read
(`Cursor.Orderly.next`, `Cursor.Orderly.nextBack`).
-/

namespace Lectern.Source

/-- A move of a cursor: to a line, given by its number, or past the end; or back by one place. -/
inductive Move where
  | next (number : Option Nat)
  | back
deriving DecidableEq, Repr

/-- A place between the lines of a source, and the moves that led there, the last one first. -/
structure Cursor where
  texts : List (List Char)
  /-- The number of the line in front of the cursor, 0 at the start. -/
  place : Nat := 0
  moves : List Move := []

/-- The first of the lines behind a place that is no comment, and the place behind it; the end
counts as one more line. -/
def seek (place : Nat) : List (List Char) → Option (List Char) × Nat
  | [] => (none, place + 1)
  | text :: r => if isComment text then seek (place + 1) r else (some text, place + 1)

namespace Cursor

/-- The next line that is no comment, and the cursor behind it. -/
def next (c : Cursor) : Option (List Char) × Cursor :=
  let (found, place) := seek c.place (c.texts.drop c.place)
  (found, { c with place := place, moves := .next (found.map fun _ => place) :: c.moves })

/-- The cursor put back by one place. -/
def back (c : Cursor) : Cursor := { c with place := c.place - 1, moves := .back :: c.moves }

/-- The lines that are still to be read. -/
def rest (c : Cursor) : List Line := numberedFrom (c.place + 1) (c.texts.drop c.place)

/-- The number of lines that are still to be read. -/
def left (c : Cursor) : Nat := c.rest.length

/-- The number of the line that is to be read next, if there is one. -/
def upcoming (c : Cursor) : Option Nat := c.rest.head?.map (·.number)

end Cursor

/-! ## Numbered lines -/

theorem lt_number_of_mem_numberedFrom {n : Nat} {texts : List (List Char)} {l : Line}
    (h : l ∈ numberedFrom (n + 1) texts) : n < l.number := by
  obtain ⟨before, after, hsplit⟩ := List.append_of_mem h
  obtain ⟨front, -, -, -, hnumber, -⟩ := numberedFrom_eq_append hsplit
  omega

/-- The first of the numbered lines stands where its number says, with the others behind it. -/
theorem drop_of_numberedFrom {n : Nat} {texts : List (List Char)} {l : Line} {r : List Line}
    (h : numberedFrom (n + 1) texts = l :: r) :
    isComment l.text = false ∧ ∃ k behind, l.number = n + k + 1 ∧
      texts.drop k = l.text :: behind ∧ numberedFrom (l.number + 1) behind = r := by
  have hsplit : numberedFrom (n + 1) texts = [] ++ l :: r := h
  obtain ⟨front, behind, rfl, hfront, hnumber, hl⟩ := numberedFrom_eq_append hsplit
  refine ⟨hl, front.length, behind, by omega, List.drop_left, ?_⟩
  rw [numberedFrom_append, ← hfront, ← hnumber, numberedFrom_cons_line hl] at h
  exact (List.cons.inj h).2

/-! ## What a move does -/

theorem seek_of_numberedFrom_eq_nil {place : Nat} {texts : List (List Char)}
    (h : numberedFrom (place + 1) texts = []) :
    seek place texts = (none, place + texts.length + 1) := by
  induction texts generalizing place with
  | nil => rfl
  | cons text texts ih =>
    cases hcomment : isComment text with
    | true =>
      rw [numberedFrom_cons_comment hcomment] at h
      rw [seek, if_pos hcomment, ih h, List.length_cons, Nat.add_right_comm place,
        ← Nat.add_assoc place]
    | false =>
      rw [numberedFrom_cons_line hcomment] at h
      cases h

theorem seek_of_numberedFrom_eq_cons {place : Nat} {texts : List (List Char)} {l : Line}
    {r : List Line} (h : numberedFrom (place + 1) texts = l :: r) :
    seek place texts = (some l.text, l.number) := by
  induction texts generalizing place with
  | nil => cases h
  | cons text texts ih =>
    cases hcomment : isComment text with
    | true =>
      rw [numberedFrom_cons_comment hcomment] at h
      rw [seek, if_pos hcomment, ih h]
    | false =>
      rw [numberedFrom_cons_line hcomment] at h
      obtain ⟨rfl, rfl⟩ := List.cons.inj h
      rw [seek, hcomment, if_neg Bool.false_ne_true]

namespace Cursor

variable {c d : Cursor} {l : Line} {r : List Line}

theorem next_of_rest_eq_nil (h : c.rest = []) :
    c.next = (none, { c with
      place := c.place + (c.texts.length - c.place) + 1, moves := .next none :: c.moves }) := by
  rw [next, seek_of_numberedFrom_eq_nil h, List.length_drop]
  rfl

theorem next_of_rest_eq_cons (h : c.rest = l :: r) :
    c.next =
      (some l.text, { c with place := l.number, moves := .next (some l.number) :: c.moves }) := by
  rw [next, seek_of_numberedFrom_eq_cons h]
  rfl

theorem next_fst (c : Cursor) : c.next.1 = c.rest.head?.map (·.text) := by
  cases h : c.rest with
  | nil => rw [next_of_rest_eq_nil h]; rfl
  | cons l r => rw [next_of_rest_eq_cons h]; rfl

theorem moves_next (c : Cursor) : c.next.2.moves = .next c.upcoming :: c.moves := by
  rw [upcoming]
  cases h : c.rest with
  | nil => rw [next_of_rest_eq_nil h]; rfl
  | cons l r => rw [next_of_rest_eq_cons h]; rfl

theorem place_next (h : c.rest = l :: r) : c.next.2.place = l.number := by
  rw [next_of_rest_eq_cons h]

/-- The end counts as the line behind the last one. -/
theorem place_next_of_rest_eq_nil (h : c.rest = []) (hplace : c.place ≤ c.texts.length) :
    c.next.2.place = c.texts.length + 1 := by
  rw [next_of_rest_eq_nil h]
  exact congrArg (· + 1) (Nat.add_sub_of_le hplace)

theorem rest_eq_nil_of_le (h : c.texts.length ≤ c.place) : c.rest = [] := by
  rw [rest, List.drop_eq_nil_of_le h]
  rfl

/-- A move takes the next line from those that are still to be read. -/
theorem rest_next (c : Cursor) : c.next.2.rest = c.rest.tail := by
  cases h : c.rest with
  | nil =>
    rw [next_of_rest_eq_nil h]
    exact rest_eq_nil_of_le (c := { c with
      place := c.place + (c.texts.length - c.place) + 1, moves := .next none :: c.moves })
      (by dsimp only; omega)
  | cons l r =>
    obtain ⟨-, k, behind, hnumber, hdrop, hbehind⟩ := drop_of_numberedFrom h
    rw [next_of_rest_eq_cons h, rest]
    have hplace : c.texts.drop l.number = behind := by
      rw [List.drop_drop] at hdrop
      rw [hnumber, ← List.drop_drop, hdrop]
      rfl
    dsimp only
    rw [hplace, hbehind]
    rfl

/-- Put back behind a move, the cursor has the same lines in front of it as before. -/
theorem rest_next_back (c : Cursor) : c.next.2.back.rest = c.rest := by
  cases h : c.rest with
  | nil =>
    rw [next_of_rest_eq_nil h]
    exact rest_eq_nil_of_le (c := back { c with
      place := c.place + (c.texts.length - c.place) + 1, moves := .next none :: c.moves })
      (by dsimp only [back]; omega)
  | cons l r =>
    obtain ⟨hcomment, k, behind, hnumber, hdrop, hbehind⟩ := drop_of_numberedFrom h
    rw [next_of_rest_eq_cons h, rest]
    dsimp only [back]
    rw [List.drop_drop] at hdrop
    rw [hnumber, Nat.add_sub_cancel, hdrop, numberedFrom_cons_line hcomment, ← hbehind, hnumber]
    cases l
    cases hnumber
    rfl

theorem place_next_le (h : c.rest = l :: r) : c.next.2.place ≤ c.texts.length := by
  obtain ⟨-, k, behind, hnumber, hdrop, -⟩ := drop_of_numberedFrom h
  rw [place_next h, hnumber]
  by_contra hlt
  rw [List.drop_drop, List.drop_eq_nil_of_le (by omega)] at hdrop
  cases hdrop

/-- Put back behind a move, the cursor gives the same line again. -/
theorem next_next_back (c : Cursor) : c.next.2.back.next.1 = c.next.1 := by
  rw [next_fst, next_fst, rest_next_back]

theorem left_next (c : Cursor) : c.next.2.left = c.left - 1 := by
  rw [left, rest_next, List.length_tail, left]

theorem left_next_lt (h : c.rest = l :: r) : c.next.2.left < c.left := by
  rw [left_next, left, h, List.length_cons]
  exact Nat.lt_succ_self _

end Cursor

/-! ## The record of the moves -/

/-- A line comes behind another one, where the end comes behind every line and behind itself. -/
def Behind (m n : Option Nat) : Prop := ∀ j ∈ n, ∃ i ∈ m, i < j

/-- Records of moves in which a move back comes only right behind a move to a line, or to the end,
the next move then is to the same line, or to the end, and all other moves are to lines behind the
last one. -/
inductive Orderly : List Move → Prop
  | none : Orderly []
  | first (n : Option Nat) : Orderly [.next n]
  | next {m n : Option Nat} {moves : List Move} (h : Orderly (.next m :: moves))
      (hbehind : Behind m n) : Orderly (.next n :: .next m :: moves)
  | back {n : Option Nat} {moves : List Move} (h : Orderly (.next n :: moves)) :
      Orderly (.back :: .next n :: moves)
  | again {n : Option Nat} {moves : List Move} (h : Orderly (.back :: .next n :: moves)) :
      Orderly (.next n :: .back :: .next n :: moves)

namespace Cursor

variable {c d : Cursor}

/-- The lines still to be read lie behind the line of the last move, or start with it if it has been
put back. -/
structure Sound (c : Cursor) : Prop where
  orderly : Orderly c.moves
  behind : ∀ n moves, c.moves = .next n :: moves → Behind n c.upcoming
  again : ∀ n moves, c.moves = .back :: .next n :: moves → c.upcoming = n

theorem sound_start (texts : List (List Char)) : Sound { texts } := ⟨.none, nofun, nofun⟩

theorem behind_upcoming_next (c : Cursor) : Behind c.upcoming c.next.2.upcoming := by
  intro j hj
  obtain ⟨l, hl, rfl⟩ := Option.map_eq_some_iff.1 hj
  rw [rest_next] at hl
  cases hrest : c.rest with
  | nil => rw [hrest] at hl; cases hl
  | cons first r =>
    rw [hrest, List.tail_cons] at hl
    obtain ⟨-, k, behind, -, -, hbehind⟩ := drop_of_numberedFrom hrest
    refine ⟨first.number, by rw [upcoming, hrest]; rfl, ?_⟩
    exact lt_number_of_mem_numberedFrom (hbehind ▸ List.mem_of_head? hl)

theorem upcoming_next_back (c : Cursor) : c.next.2.back.upcoming = c.upcoming := by
  rw [upcoming, rest_next_back, upcoming]

theorem Sound.next (h : c.Sound) : c.next.2.Sound := by
  have horderly : Orderly (.next c.upcoming :: c.moves) := by
    have hbehind := h.behind
    have hagain := h.again
    generalize c.upcoming = n at hbehind hagain
    have horderly := h.orderly
    cases hmoves : c.moves with
    | nil => exact .first n
    | cons move moves =>
      rw [hmoves] at horderly
      cases move with
      | next m => exact .next horderly (hbehind m moves hmoves)
      | back =>
        cases horderly with
        | @back m moves horderly =>
          obtain rfl := hagain m moves hmoves
          exact .again (.back horderly)
  refine ⟨by rw [moves_next]; exact horderly, fun n moves heq => ?_, fun n moves heq => ?_⟩
  · rw [moves_next] at heq
    obtain ⟨hn, -⟩ := List.cons.inj heq
    rw [← Move.next.inj hn]
    exact c.behind_upcoming_next
  · rw [moves_next] at heq
    cases heq

/-- A cursor that is put back right behind a move gives the same line again. -/
theorem Sound.nextBack (h : c.Sound) : c.next.2.back.Sound := by
  have hmoves : c.next.2.back.moves = .back :: .next c.upcoming :: c.moves := by
    rw [back, moves_next]
  refine ⟨?_, fun n moves heq => ?_, fun n moves heq => ?_⟩
  · have horderly := h.next.orderly
    rw [moves_next] at horderly
    rw [hmoves]
    exact .back horderly
  · rw [hmoves] at heq
    cases heq
  · rw [hmoves] at heq
    obtain ⟨hn, -⟩ := List.cons.inj (List.cons.inj heq).2
    rw [upcoming_next_back, Move.next.inj hn]

/-! ## Runs of moves -/

/-- A cursor comes to another place by moves to next lines, each of them perhaps put back at
once. -/
inductive Steps (c : Cursor) : Cursor → Prop
  | refl : Steps c c
  | next {d : Cursor} (h : Steps c d) : Steps c d.next.2
  | nextBack {d : Cursor} (h : Steps c d) : Steps c d.next.2.back

theorem Steps.trans {e : Cursor} (h : c.Steps d) (h' : d.Steps e) : c.Steps e := by
  induction h' with
  | refl => exact h
  | next _ ih => exact ih.next
  | nextBack _ ih => exact ih.nextBack

theorem Steps.sound (h : c.Steps d) (hc : c.Sound) : d.Sound := by
  induction h with
  | refl => exact hc
  | next _ ih => exact ih.next
  | nextBack _ ih => exact ih.nextBack

theorem Steps.texts (h : c.Steps d) : d.texts = c.texts := by
  induction h with
  | refl => rfl
  | next _ ih => exact ih
  | nextBack _ ih => exact ih

/-- The lines still to be read are the last ones of those in front of the cursor before. -/
theorem Steps.rest_suffix (h : c.Steps d) : d.rest <:+ c.rest := by
  induction h with
  | refl => exact List.suffix_refl _
  | next _ ih =>
    rw [rest_next]
    exact (List.tail_suffix _).trans ih
  | nextBack _ ih => rwa [rest_next_back]

theorem Steps.left_le (h : c.Steps d) : d.left ≤ c.left := h.rest_suffix.length_le

end Cursor

end Lectern.Source
