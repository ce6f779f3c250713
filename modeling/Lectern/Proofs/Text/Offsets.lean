import Mathlib.Data.List.TakeWhile
import Mathlib.Tactic
import Lectern.Disk.Resolve
import Lectern.Text.Blank

/-!
# Byte offsets in texts

A text can be cut where a character starts, or at its end, at the offset of the bytes in front of
this place (`cutAt?_eq_some_iff`). Offsets that a search for a character gives are of this kind
(`cutAt?_offset`).
-/

namespace Lectern.Text

open Disk (byteLength)

/-- Cuts a text at a byte offset. There is nothing to give if the offset is behind the end of the
text or inside of a character. -/
def cutAt? (n : Nat) : List Char → Option (List Char × List Char)
  | [] => if n = 0 then some ([], []) else none
  | c :: r =>
      if n = 0 then some ([], c :: r)
      else if n < c.utf8Size then none
      else (cutAt? (n - c.utf8Size) r).map fun (a, b) => (c :: a, b)

/-- The byte offset of the first character that satisfies `p`. -/
def offset? (p : Char → Bool) : List Char → Option Nat
  | [] => none
  | c :: r => if p c then some 0 else (offset? p r).map (c.utf8Size + ·)

@[simp] theorem cutAt?_zero (s : List Char) : cutAt? 0 s = some ([], s) := by
  cases s <;> rfl

theorem cutAt?_byteLength (a b : List Char) : cutAt? (byteLength a) (a ++ b) = some (a, b) := by
  induction a with
  | nil => exact cutAt?_zero b
  | cons c a ih =>
    have hpos := c.utf8Size_pos
    have hlen : byteLength (c :: a) = c.utf8Size + byteLength a := rfl
    rw [List.cons_append, cutAt?, if_neg (by omega), if_neg (by omega), hlen,
      Nat.add_sub_cancel_left, ih]
    rfl

/-- A text is cut exactly where the characters in front have so many bytes. -/
theorem cutAt?_eq_some_iff {n : Nat} {s a b : List Char} :
    cutAt? n s = some (a, b) ↔ a ++ b = s ∧ byteLength a = n := by
  constructor
  · intro h
    induction s generalizing n a with
    | nil =>
      rw [cutAt?] at h
      split_ifs at h with hn
      obtain ⟨rfl, rfl⟩ := Prod.mk.inj (Option.some.inj h)
      exact ⟨rfl, hn.symm⟩
    | cons c r ih =>
      rw [cutAt?] at h
      split_ifs at h with hn hlt
      · obtain ⟨rfl, rfl⟩ := Prod.mk.inj (Option.some.inj h)
        exact ⟨rfl, hn.symm⟩
      · obtain ⟨⟨a, b⟩, hcut, heq⟩ := Option.map_eq_some_iff.1 h
        obtain ⟨rfl, rfl⟩ := Prod.mk.inj heq
        obtain ⟨rfl, hlen⟩ := ih hcut
        have hcons : byteLength (c :: a) = c.utf8Size + byteLength a := rfl
        exact ⟨rfl, by omega⟩
  · rintro ⟨rfl, rfl⟩
    exact cutAt?_byteLength a b

/-- A text can be cut behind its first characters that satisfy a condition. -/
theorem cutAt?_takeWhile (p : Char → Bool) (s : List Char) :
    cutAt? (byteLength (s.takeWhile p)) s = some (s.takeWhile p, s.dropWhile p) :=
  cutAt?_eq_some_iff.2 ⟨List.takeWhile_append_dropWhile, rfl⟩

/-- A text can be cut behind any number of characters. -/
theorem cutAt?_take (n : Nat) (s : List Char) :
    cutAt? (byteLength (s.take n)) s = some (s.take n, s.drop n) :=
  cutAt?_eq_some_iff.2 ⟨List.take_append_drop n s, rfl⟩

/-- Two cuts one after the other are one cut. -/
theorem cutAt?_add (a b c : List Char) :
    cutAt? (byteLength a + byteLength b) (a ++ (b ++ c)) = some (a ++ b, c) := by
  rw [← Disk.byteLength_append, ← List.append_assoc]
  exact cutAt?_byteLength (a ++ b) c

/-- The offset of the first character that satisfies a condition counts the bytes in front of it. -/
theorem offset?_eq (p : Char → Bool) (s : List Char) :
    offset? p s = if s.any p then some (byteLength (s.takeWhile (!p ·))) else none := by
  induction s with
  | nil => rfl
  | cons c r ih =>
    by_cases hc : p c = true
    · simp [offset?, hc, byteLength]
    · simp only [Bool.not_eq_true] at hc
      rw [offset?, ih]
      by_cases hr : r.any p = true <;> simp [hc, hr, byteLength]

/-- A text can be cut where the first character stands that does not satisfy a condition, or else
at its end. -/
theorem cutAt?_offset (p : Char → Bool) (s : List Char) :
    cutAt? ((offset? (!p ·) s).getD (byteLength s)) s = some (s.takeWhile p, s.dropWhile p) := by
  rw [offset?_eq]
  split_ifs with hany
  · simp only [Bool.not_not]
    exact cutAt?_takeWhile p s
  · have hall : ∀ c ∈ s, p c = true := by simpa using hany
    rw [List.takeWhile_eq_self_iff.2 hall, List.dropWhile_eq_nil_iff.2 hall]
    exact cutAt?_eq_some_iff.2 ⟨List.append_nil s, rfl⟩

theorem byteLength_eq_zero_iff {s : List Char} : byteLength s = 0 ↔ s = [] := by
  cases s with
  | nil => simp [byteLength]
  | cons c r =>
    have hpos := c.utf8Size_pos
    simp [byteLength]
    omega

end Lectern.Text
