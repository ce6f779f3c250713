import Mathlib.Data.List.TakeWhile
import Mathlib.Tactic
import Lectern.Calendar

/-!
# The stored form of moments

A moment is read back from its stored form, whatever its year, and leap seconds and fractions of
a second included (`Moment.ofStored?_stored`).
-/

namespace Lectern

open Text

/-! ## Digits -/

theorem ofDigits_toDigits (n : Nat) : ofDigits (Nat.toDigits 10 n) = n :=
  Nat.ofDigitChars_ten_toDigits

theorem toDigits_injective : Function.Injective (Nat.toDigits 10) :=
  Function.LeftInverse.injective ofDigits_toDigits

theorem isDigit_of_mem_toDigits {n : Nat} {c : Char} (h : c ∈ Nat.toDigits 10 n) :
    c.isDigit = true :=
  Nat.isDigit_of_mem_toDigits (by decide) (by decide) h

/-- Zeros in front of digits add nothing. -/
theorem ofDigits_padded (width n : Nat) : ofDigits (padded width n) = n := by
  have hzeros : ofDigits (padded width n) =
      Nat.ofDigitChars 10 (Nat.toDigits 10 n)
        (Nat.ofDigitChars 10 (List.replicate (width - (Nat.toDigits 10 n).length) '0') 0) :=
    Nat.ofDigitChars_append 0
  rw [hzeros, Nat.ofDigitChars_replicate_zero, Nat.mul_zero]
  exact Nat.ofDigitChars_ten_toDigits

theorem isDigit_of_mem_padded {width n : Nat} {c : Char} (h : c ∈ padded width n) :
    c.isDigit = true := by
  rcases List.mem_append.1 h with h | h
  · rw [List.eq_of_mem_replicate h]
    rfl
  · exact isDigit_of_mem_toDigits h

theorem padded_ne_nil (width n : Nat) : padded width n ≠ [] :=
  List.append_ne_nil_of_right_ne_nil _ Nat.toDigits_ne_nil

theorem length_padded {width n : Nat} (hwidth : 0 < width) (h : n < 10 ^ width) :
    (padded width n).length = width := by
  have hlen : (Nat.toDigits 10 n).length ≤ width :=
    (Nat.length_toDigits_le_iff (by decide) hwidth).2 h
  rw [padded, List.length_append, List.length_replicate]
  omega

/-! ## Reading numbers -/

theorem trimStart_of_isDigit {c : Char} (h : c.isDigit = true) (s : List Char) :
    trimStart (c :: s) = c :: s := by
  refine List.dropWhile_cons_of_neg ?_
  simp only [Char.isDigit, Bool.and_eq_true, decide_eq_true_eq, ge_iff_le] at h
  obtain ⟨h₁, h₂⟩ := h
  have h₁ : 48 ≤ c.toNat := h₁
  have h₂ : c.toNat ≤ 57 := h₂
  simp only [isBlank, Bool.or_eq_true, Bool.and_eq_true, decide_eq_true_eq]
  omega

/-- A text does not go on with a digit. -/
def StopsDigits (s : List Char) : Prop := ∀ c ∈ s.head?, c.isDigit = false

theorem stopsDigits_nil : StopsDigits [] := fun _ h => by cases h

theorem stopsDigits_cons {c : Char} (h : c.isDigit = false) (s : List Char) :
    StopsDigits (c :: s) := by
  rintro d ⟨⟩
  exact h

theorem StopsDigits.takeWhile_take {s : List Char} (h : StopsDigits s) (n : Nat) :
    (s.take n).takeWhile Char.isDigit = [] := by
  cases s with
  | nil => simp
  | cons c r =>
    cases n with
    | zero => rfl
    | succ n =>
      have hc : c.isDigit = false := h c rfl
      rw [List.take_succ_cons, List.takeWhile_cons_of_neg (by simp [hc])]

/-- Digits are read up to their end, or up to the greatest number of them that is allowed. -/
theorem readDigits_append {most : Nat} {digits rest : List Char}
    (hdigits : ∀ c ∈ digits, c.isDigit = true) (hne : digits ≠ []) (hlen : digits.length ≤ most)
    (hrest : digits.length = most ∨ StopsDigits rest) :
    readDigits most (digits ++ rest) = some (ofDigits digits, rest) := by
  have htake : ((digits ++ rest).take most).takeWhile Char.isDigit = digits := by
    rw [List.take_append, List.take_of_length_le hlen, List.takeWhile_append_of_pos hdigits]
    rcases hrest with hfull | hstop
    · rw [hfull, Nat.sub_self, List.take_zero, List.takeWhile_nil, List.append_nil]
    · rw [hstop.takeWhile_take, List.append_nil]
  rw [readDigits, htake, if_neg (by simpa using hne), List.drop_left]

theorem readDigits_padded (rest : List Char) {most width n : Nat}
    (hlen : (padded width n).length ≤ most)
    (hrest : (padded width n).length = most ∨ StopsDigits rest) :
    readDigits most (padded width n ++ rest) = some (n, rest) := by
  rw [readDigits_append (fun c hc => isDigit_of_mem_padded hc) (padded_ne_nil width n) hlen hrest,
    ofDigits_padded]

theorem trimStart_padded (width n : Nat) (rest : List Char) :
    trimStart (padded width n ++ rest) = padded width n ++ rest := by
  obtain ⟨c, r, hcr⟩ := List.exists_cons_of_ne_nil (padded_ne_nil width n)
  have hc : c.isDigit = true := isDigit_of_mem_padded (hcr ▸ List.mem_cons_self ..)
  rw [hcr, List.cons_append, trimStart_of_isDigit hc]

theorem readField_padded {n : Nat} (h : n < 100) (rest : List Char) :
    readField (padded 2 n ++ rest) = some (n, rest) := by
  have hlen : (padded 2 n).length = 2 := length_padded (by decide) h
  rw [readField, trimStart_padded, readDigits_padded _ hlen.le (Or.inl hlen)]

theorem trimStart_mark {c : Char} (h : isBlank c = false) (s : List Char) :
    trimStart (c :: s) = c :: s := List.dropWhile_cons_of_neg (by simp [h])

theorem readChar_self (c : Char) (s : List Char) : readChar c (c :: s) = some s := if_pos rfl

/-- Behind a sign a year may have any number of digits. -/
theorem readDigits_signed (n : Nat) {rest : List Char} (hrest : StopsDigits rest) :
    readDigits (padded 4 n ++ rest).length (padded 4 n ++ rest) = some (n, rest) :=
  readDigits_padded _ (by rw [List.length_append]; omega) (Or.inr hrest)

theorem readYear_yearText (year : Int) {rest : List Char} (hrest : StopsDigits rest) :
    readYear (yearText year ++ rest) = some (year, rest) := by
  by_cases hneg : year < 0
  · rw [yearText, if_pos hneg, List.cons_append, readYear, trimStart_mark (by decide)]
    simp only [readDigits_signed _ hrest, Option.map_some]
    rw [Int.ofNat_natAbs_of_nonpos hneg.le, neg_neg]
  by_cases hbig : 9999 < year
  · rw [yearText, if_neg hneg, if_pos hbig, List.cons_append, readYear,
      trimStart_mark (by decide)]
    simp only [readDigits_signed _ hrest, Option.map_some]
    rw [Int.natAbs_of_nonneg (by omega)]
  · have hlen : (padded 4 year.natAbs).length = 4 := length_padded (by decide) (by omega)
    have hread := readDigits_padded rest hlen.le (Or.inl hlen)
    rw [yearText, if_neg hneg, if_neg hbig, readYear, trimStart_padded]
    obtain ⟨c, r, hcr⟩ := List.exists_cons_of_ne_nil (padded_ne_nil 4 year.natAbs)
    have hc : c.isDigit = true := isDigit_of_mem_padded (hcr ▸ List.mem_cons_self ..)
    rw [hcr, List.cons_append] at hread ⊢
    split
    · rename_i hminus
      obtain ⟨rfl, -⟩ := List.cons.inj hminus
      exact absurd hc (by decide)
    · rename_i hplus
      obtain ⟨rfl, -⟩ := List.cons.inj hplus
      exact absurd hc (by decide)
    · simp only [hread, Option.map_some]
      rw [Int.natAbs_of_nonneg (by omega)]

/-! ## Fractions of a second -/

theorem readFraction_padded {width n : Nat} (hwidth : 0 < width) (hmost : width ≤ 9)
    (h : n < 10 ^ width) :
    readFraction ('.' :: padded width n) = some (n * 10 ^ (9 - width), []) := by
  have hlen : (padded width n).length = width := length_padded hwidth h
  have hdigits : ((padded width n).take 9).takeWhile Char.isDigit = padded width n := by
    rw [List.take_of_length_le (hlen.le.trans hmost)]
    exact List.takeWhile_eq_self_iff.2 fun c hc => isDigit_of_mem_padded hc
  have hread := readDigits_padded [] (hlen.le.trans hmost) (Or.inr stopsDigits_nil)
  rw [List.append_nil] at hread
  simp only [readFraction, hread, hdigits, hlen, Option.bind_eq_bind, Option.bind_some,
    Option.pure_def, List.dropWhile_nil, Nat.pow_eq]

/-- A fraction of a second is read back from the shortest of its forms. -/
theorem readFraction_fractionText {nano : Nat} (h : nano < 1000000000) :
    readFraction (fractionText nano) = some (nano, []) := by
  rw [fractionText]
  by_cases hzero : nano = 0
  · rw [if_pos hzero, hzero]
    rfl
  rw [if_neg hzero]
  by_cases hmilli : nano % 1000000 = 0
  · rw [if_pos hmilli, readFraction_padded (by decide) (by decide) (by omega),
      show 10 ^ (9 - 3) = 1000000 from rfl, Nat.div_mul_cancel (Nat.dvd_of_mod_eq_zero hmilli)]
  rw [if_neg hmilli]
  by_cases hmicro : nano % 1000 = 0
  · rw [if_pos hmicro, readFraction_padded (by decide) (by decide) (by omega),
      show 10 ^ (9 - 6) = 1000 from rfl, Nat.div_mul_cancel (Nat.dvd_of_mod_eq_zero hmicro)]
  · rw [if_neg hmicro, readFraction_padded (by decide) (by decide) h, Nat.sub_self, pow_zero,
      Nat.mul_one]

/-! ## Moments -/

theorem Moment.month_day_lt (m : Moment) : m.month < 100 ∧ m.day < 100 := by
  have hdate := m.date_ok
  simp only [isDate, Bool.and_eq_true, decide_eq_true_eq] at hdate
  obtain ⟨⟨⟨⟨-, -⟩, hmonth⟩, -⟩, hday⟩ := hdate
  have hdays : daysInMonth m.year m.month ≤ 31 := by
    unfold daysInMonth
    split_ifs <;> decide
  omega

theorem Moment.time_bounds (m : Moment) :
    m.hour < 100 ∧ m.minute < 100 ∧ m.second ≤ 59 ∧
      (m.nano < 1000000000 ∨ m.second = 59 ∧ m.nano < 2000000000) := by
  have htime := m.time_ok
  simp only [isTimeOfDay, Bool.and_eq_true, Bool.or_eq_true, decide_eq_true_eq] at htime
  omega

/-- Seconds and nanoseconds are told apart again from their stored form, in which the seconds of a
leap second are 60. -/
theorem Moment.of?_leap (m : Moment) :
    (if (if 1000000000 ≤ m.nano then m.second + 1 else m.second) = 60 then
      of? m.year m.month m.day m.hour m.minute 59
        ((if 1000000000 ≤ m.nano then m.nano - 1000000000 else m.nano) + 1000000000)
    else of? m.year m.month m.day m.hour m.minute
      (if 1000000000 ≤ m.nano then m.second + 1 else m.second)
      (if 1000000000 ≤ m.nano then m.nano - 1000000000 else m.nano)) = some m := by
  obtain ⟨-, -, hsecond, hnano⟩ := m.time_bounds
  have hself := m.of?_self
  by_cases hleap : 1000000000 ≤ m.nano
  · have h59 : m.second = 59 := by omega
    rw [h59] at hself
    rw [if_pos hleap, if_pos hleap, h59, if_pos rfl, Nat.sub_add_cancel hleap, hself]
  · rw [if_neg hleap, if_neg hleap, if_neg (by omega), hself]

/-- A number of two digits behind a mark is read. -/
theorem bind_readField {α : Type} {c : Char} (hc : isBlank c = false) {n : Nat} (hn : n < 100)
    (rest : List Char) (f : Nat × List Char → Option α) :
    ((readChar c (trimStart (c :: (padded 2 n ++ rest)))).bind fun s => (readField s).bind f) =
      f (n, rest) := by
  rw [trimStart_mark hc, readChar_self, Option.bind_some, readField_padded hn, Option.bind_some]

/-- The numbers of a moment are read in turn, each behind its mark. -/
theorem Moment.ofStored?_text (year : Int) {month day hour minute second nano : Nat}
    (hmonth : month < 100) (hday : day < 100) (hhour : hour < 100) (hminute : minute < 100)
    (hsecond : second < 100) (hnano : nano < 1000000000) :
    ofStored? (yearText year ++ '-' :: (padded 2 month ++ '-' :: (padded 2 day ++
        'T' :: (padded 2 hour ++ ':' :: (padded 2 minute ++
          ':' :: (padded 2 second ++ fractionText nano)))))) =
      if second = 60 then of? year month day hour minute 59 (nano + 1000000000)
      else of? year month day hour minute second nano := by
  have hyear := readYear_yearText year (stopsDigits_cons (c := '-') (by decide)
    (padded 2 month ++ '-' :: (padded 2 day ++ 'T' :: (padded 2 hour ++ ':' :: (padded 2 minute ++
      ':' :: (padded 2 second ++ fractionText nano))))))
  rw [ofStored?, hyear, Option.bind_eq_bind, Option.bind_some]
  apply (bind_readField (by decide) hmonth _ _).trans
  apply (bind_readField (by decide) hday _ _).trans
  apply (bind_readField (by decide) hhour _ _).trans
  apply (bind_readField (by decide) hminute _ _).trans
  apply (bind_readField (by decide) hsecond _ _).trans
  show (readFraction (fractionText nano)).bind _ = _
  rw [readFraction_fractionText hnano]
  rfl

/-- A moment is read back from its stored form. -/
theorem Moment.ofStored?_stored (m : Moment) : ofStored? m.stored = some m := by
  obtain ⟨hmonth, hday⟩ := m.month_day_lt
  obtain ⟨hhour, hminute, hsecond, hnano⟩ := m.time_bounds
  have hsecond' : (if 1000000000 ≤ m.nano then m.second + 1 else m.second) < 100 := by
    split_ifs <;> omega
  have hnano' : (if 1000000000 ≤ m.nano then m.nano - 1000000000 else m.nano) < 1000000000 := by
    split_ifs <;> omega
  have hread := ofStored?_text m.year hmonth hday hhour hminute hsecond' hnano'
  rw [m.of?_leap] at hread
  rw [stored]
  simp only [List.append_assoc, List.cons_append]
  exact hread

end Lectern
