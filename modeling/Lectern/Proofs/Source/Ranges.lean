import Mathlib
import Lectern.Proofs.Source.Addresses

/-!
# Ranges up to a pattern

An address whose second end is a pattern picks the lines from its first end to the next match of the
pattern. What counts as the next match is told in two ways. `MatchedFrom` says that a line matches
as a whole, in the line of the first end from there on. `ResumedFrom` says the same but for a match
that starts right at the first end: there the rest of the line is taken as a text of its own, so that
what stands in front of it counts for nothing. Addresses follow `ResumedFrom`
(`resolveAddress_to_pattern`), which is `MatchedFrom` for patterns that look at no character in
front of them.
-/

namespace Lectern.Source

open Text

/-- The pattern matches a part of the line with an index; in the line of the spot this part does not
start in front of the spot. -/
def MatchedFrom (q : Pattern) (lines : List (List Char)) (spot : Spot) (j : Nat) : Prop :=
  ∃ t ∈ lines[j]?, ∃ k m, q.Matches t k m ∧ (j = spot.line → spot.column ≤ k)

/-- The pattern matches a part of the line with an index that in the line of the spot starts behind
the spot, or it matches at the start of what follows the spot, taken as a text of its own. -/
def ResumedFrom (q : Pattern) (lines : List (List Char)) (spot : Spot) (j : Nat) : Prop :=
  ∃ t ∈ lines[j]?, (∃ k m, q.Matches t k m ∧ (j = spot.line → spot.column < k)) ∨
    (j = spot.line ∧ ∃ m, q.Matches (t.drop spot.column) 0 m)

/-- The range from the first line in which the pattern `p` matches to the first line from there on
that `counts` when a search goes on at the end of the leftmost match of `p`. -/
def PatternRange (p : Pattern) (counts : Spot → Nat → Prop) (lines : List (List Char))
    (range : Range) : Prop :=
  ∃ i t k m j, IsLeast {i | ∃ t ∈ lines[i]?, ∃ k m, p.Matches t k m} i ∧ lines[i]? = some t ∧
    p.find? t = some (k, m) ∧ IsLeast {j | i ≤ j ∧ counts ⟨i, m⟩ j} j ∧ range = ⟨i, j + 1⟩

/-- The range from a line given by its number to the first line from there on that `counts` when a
search goes on at the end of the line. -/
def NumberRange (n : Nat) (counts : Spot → Nat → Prop) (lines : List (List Char))
    (range : Range) : Prop :=
  ∃ t j, 0 < n ∧ lines[n - 1]? = some t ∧
    IsLeast {j | n - 1 ≤ j ∧ counts ⟨n - 1, t.length⟩ j} j ∧ range = ⟨n - 1, j + 1⟩

variable {p q : Pattern} {lines : List (List Char)} {start spot : Spot}

/-! ## What a search takes for a match -/

theorem resumedFrom_iff {j : Nat} (hstart : start.Within lines) :
    ResumedFrom q lines start j ↔ ∃ t ∈ searched lines start j, (q.find? t).isSome = true := by
  by_cases hj : j = start.line
  · subst hj
    rw [searched_self]
    constructor
    · rintro ⟨t, ht, ⟨k, m, hmatch, hk⟩ | ⟨-, m, hmatch⟩⟩
      · refine ⟨t.drop start.column, by rw [ht]; rfl, Pattern.isSome_find?_iff.2 ?_⟩
        have hk := hk rfl
        have hle := hmatch.bounds.1
        exact ⟨k - start.column, m - start.column,
          hmatch.drop (by omega) (by omega) (Or.inl (by omega))⟩
      · exact ⟨t.drop start.column, by rw [ht]; rfl, Pattern.isSome_find?_iff.2 ⟨0, m, hmatch⟩⟩
    · rintro ⟨u, hu, hsome⟩
      obtain ⟨t, ht, rfl⟩ := Option.map_eq_some_iff.1 hu
      obtain ⟨k, m, hmatch⟩ := Pattern.isSome_find?_iff.1 hsome
      rcases Nat.eq_zero_or_pos k with rfl | hk
      · exact ⟨t, ht, Or.inr ⟨rfl, m, hmatch⟩⟩
      · exact ⟨t, ht, Or.inl ⟨_, _, hmatch.of_drop (hstart t ht) (Or.inl hk), fun _ => by omega⟩⟩
  · rw [searched_of_ne hj]
    constructor
    · rintro ⟨t, ht, ⟨k, m, hmatch, -⟩ | ⟨heq, -⟩⟩
      · exact ⟨t, ht, Pattern.isSome_find?_iff.2 ⟨k, m, hmatch⟩⟩
      · exact absurd heq hj
    · rintro ⟨t, ht, hsome⟩
      obtain ⟨k, m, hmatch⟩ := Pattern.isSome_find?_iff.1 hsome
      exact ⟨t, ht, Or.inl ⟨k, m, hmatch, fun heq => absurd heq hj⟩⟩

/-- A search finds the first line that counts for it. -/
theorem isLeast_of_finds (hstart : start.Within lines)
    (h : Finds q lines start spot) :
    IsLeast {j | start.line ≤ j ∧ ResumedFrom q lines start j} spot.line := by
  obtain ⟨t, ht, k, m, hm, -⟩ := h.found
  refine ⟨⟨h.line_le, (resumedFrom_iff hstart).2 ⟨t, ht, by rw [hm]; rfl⟩⟩, ?_⟩
  rintro j ⟨hle, hj⟩
  by_contra hlt
  obtain ⟨u, hu, hsome⟩ := (resumedFrom_iff hstart).1 hj
  rw [h.first j hle (Nat.lt_of_not_le hlt) u hu] at hsome
  cases hsome

theorem exists_finds_of_isLeast (hstart : start.Within lines)
    {j : Nat} (h : IsLeast {j | start.line ≤ j ∧ ResumedFrom q lines start j} j) :
    ∃ spot, spot.line = j ∧ Finds q lines start spot := by
  obtain ⟨⟨hle, hj⟩, hfirst⟩ := h
  obtain ⟨t, ht, hsome⟩ := (resumedFrom_iff hstart).1 hj
  obtain ⟨⟨k, m⟩, hm⟩ := Option.isSome_iff_exists.1 hsome
  refine ⟨⟨j, (if j = start.line then start.column else 0) + m⟩, rfl, hle, ⟨t, ht, k, m, hm, rfl⟩,
    fun i hi hlt u hu => ?_⟩
  by_contra hne
  have hcounts := (resumedFrom_iff hstart).2 ⟨u, hu, Option.isSome_iff_ne_none.2 hne⟩
  exact absurd (hfirst ⟨hi, hcounts⟩) (Nat.not_le.2 hlt)

/-- For a pattern that looks at no character in front of it the rest of a line is like the line. -/
theorem resumedFrom_iff_matchedFrom (hq : q.looksBehind = false)
    (hstart : start.Within lines) (j : Nat) :
    ResumedFrom q lines start j ↔ MatchedFrom q lines start j := by
  constructor
  · rintro ⟨t, ht, ⟨k, m, hmatch, hk⟩ | ⟨rfl, m, hmatch⟩⟩
    · exact ⟨t, ht, k, m, hmatch, fun heq => (hk heq).le⟩
    · exact ⟨t, ht, _, _, hmatch.of_drop (hstart t ht) (Or.inr hq), fun _ => Nat.le_add_right ..⟩
  · rintro ⟨t, ht, k, m, hmatch, hk⟩
    by_cases hcut : j = start.line ∧ k = start.column
    · obtain ⟨rfl, rfl⟩ := hcut
      have hle := hmatch.bounds.1
      exact ⟨t, ht, Or.inr ⟨rfl, m - start.column, hmatch.drop rfl (by omega) (Or.inr hq)⟩⟩
    · exact ⟨t, ht, Or.inl ⟨k, m, hmatch, fun heq =>
        lt_of_le_of_ne (hk heq) fun hne => hcut ⟨heq, hne.symm⟩⟩⟩

/-- A search from the start of a file finds the leftmost match in the first line that holds one. -/
theorem finds_start_iff :
    Finds p lines ⟨0, 0⟩ spot ↔
      IsLeast {i | ∃ t ∈ lines[i]?, ∃ k m, p.Matches t k m} spot.line ∧
        ∃ t k, lines[spot.line]? = some t ∧ p.find? t = some (k, spot.column) := by
  have hsearched (k : Nat) : searched lines ⟨0, 0⟩ k = lines[k]? := by
    simp [searched]
  constructor
  · intro h
    obtain ⟨t, ht, k, m, hm, hcolumn⟩ := h.found
    rw [hsearched] at ht
    have hcolumn : spot.column = m := by simpa using hcolumn
    refine ⟨⟨⟨t, ht, k, m, (Pattern.find?_eq_some hm).1⟩, ?_⟩, t, k, ht, hcolumn ▸ hm⟩
    rintro i ⟨u, hu, k, m, hmatch⟩
    by_contra hlt
    have hnone := h.first i (Nat.zero_le i) (Nat.lt_of_not_le hlt) u (by rwa [hsearched])
    have hsome := Pattern.isSome_find?_iff.2 ⟨k, m, hmatch⟩
    rw [hnone] at hsome
    cases hsome
  · rintro ⟨⟨-, hfirst⟩, t, k, ht, hm⟩
    refine ⟨Nat.zero_le _, ⟨t, by rwa [hsearched], k, spot.column, hm, by simp⟩,
      fun i _ hlt u hu => ?_⟩
    rw [hsearched] at hu
    by_contra hne
    obtain ⟨k, m, hmatch⟩ := Pattern.isSome_find?_iff.1 (Option.isSome_iff_ne_none.2 hne)
    exact absurd (hfirst ⟨u, hu, k, m, hmatch⟩) (Nat.not_le.2 hlt)

/-! ## Ranges -/

variable {text text' w w' : List Char} {n : Nat}

theorem resolveAddress_patterns (hp : (Bound.pattern text p).WrittenAs w)
    (hq : (Bound.pattern text' q).WrittenAs w') {range : Range} :
    resolveAddress (w ++ ',' :: w') lines = .ok range ↔
      PatternRange p (ResumedFrom q lines) lines range := by
  refine (resolveAddress_range_eq_ok_iff hp hq isBlankLine_nil isBlankLine_nil).trans ⟨?_, ?_⟩
  · rintro ⟨start, stop, hstart, hstop, -, rfl⟩
    have hwithin := (Bound.within_of_locate (within_start lines) hstart).1
    rw [locate_pattern_eq_ok_iff] at hstart hstop
    obtain ⟨hleast, t, k, ht, hm⟩ := finds_start_iff.1 hstart
    exact ⟨start.line, t, k, start.column, stop.line, hleast, ht, hm,
      isLeast_of_finds hwithin hstop, rfl⟩
  · rintro ⟨i, t, k, m, j, hleast, ht, hm, hnext, rfl⟩
    have hstart : (Bound.pattern text p).locate lines ⟨0, 0⟩ = .ok ⟨i, m⟩ :=
      locate_pattern_eq_ok_iff.2 (finds_start_iff.2 ⟨hleast, t, k, ht, hm⟩)
    have hwithin := (Bound.within_of_locate (within_start lines) hstart).1
    obtain ⟨stop, rfl, hstop⟩ := exists_finds_of_isLeast hwithin hnext
    exact ⟨⟨i, m⟩, stop, hstart, locate_pattern_eq_ok_iff.2 hstop, hstop.line_le, rfl⟩

theorem resolveAddress_number (hn : n ≤ numberLimit)
    (hq : (Bound.pattern text' q).WrittenAs w') {range : Range} :
    resolveAddress (Nat.toDigits 10 n ++ ',' :: w') lines = .ok range ↔
      NumberRange n (ResumedFrom q lines) lines range := by
  refine (resolveAddress_range_eq_ok_iff (written_toDigits hn) hq isBlankLine_nil
    isBlankLine_nil).trans ⟨?_, ?_⟩
  · rintro ⟨start, stop, hstart, hstop, -, rfl⟩
    have hwithin := (Bound.within_of_locate (within_start lines) hstart).1
    rw [locate_pattern_eq_ok_iff] at hstop
    obtain ⟨t, hn, ht, rfl⟩ := locate_line_eq_ok_iff.1 hstart
    exact ⟨t, stop.line, hn, ht, isLeast_of_finds hwithin hstop, rfl⟩
  · rintro ⟨t, j, hn, ht, hnext, rfl⟩
    have hstart : (Bound.line n).locate lines ⟨0, 0⟩ = .ok ⟨n - 1, t.length⟩ :=
      locate_line_eq_ok_iff.2 ⟨t, hn, ht, rfl⟩
    have hwithin := (Bound.within_of_locate (within_start lines) hstart).1
    obtain ⟨stop, rfl, hstop⟩ := exists_finds_of_isLeast hwithin hnext
    exact ⟨⟨n - 1, t.length⟩, stop, hstart, locate_pattern_eq_ok_iff.2 hstop, hstop.line_le, rfl⟩

/-- What counts for a search matters only at spots in the file. -/
theorem patternRange_congr {counts counts' : Spot → Nat → Prop} {range : Range}
    (h : ∀ spot, spot.Within lines → ∀ j, counts spot j ↔ counts' spot j) :
    PatternRange p counts lines range ↔ PatternRange p counts' lines range := by
  refine exists_congr fun i => exists_congr fun t => exists_congr fun k => exists_congr fun m =>
    exists_congr fun j => and_congr_right fun _ => and_congr_right fun ht =>
      and_congr_right fun hm => and_congr_left fun _ => ?_
  have hspot : (⟨i, m⟩ : Spot).Within lines :=
    (within_of_getElem? ht (Pattern.find?_eq_some hm).1.bounds.2).1
  simp only [h _ hspot]

theorem numberRange_congr {counts counts' : Spot → Nat → Prop} {range : Range}
    (h : ∀ spot, spot.Within lines → ∀ j, counts spot j ↔ counts' spot j) :
    NumberRange n counts lines range ↔ NumberRange n counts' lines range := by
  refine exists_congr fun t => exists_congr fun j => and_congr_right fun _ =>
    and_congr_right fun ht => and_congr_left fun _ => ?_
  have hspot : (⟨n - 1, t.length⟩ : Spot).Within lines := (within_of_getElem? ht le_rfl).1
  simp only [h _ hspot]

/-- An address from a match or a line to a pattern picks the lines up to the first one that the
search for the pattern takes for a match, and fails if there is none. The search takes what is left
of the line that it starts in as a text of its own, so that its matches are those of the whole line
if the pattern looks at no character in front of it. -/
theorem resolveAddress_to_pattern (hp : (Bound.pattern text p).WrittenAs w)
    (hq : (Bound.pattern text' q).WrittenAs w') (hn : n ≤ numberLimit)
    (lines : List (List Char)) (range : Range) :
    (resolveAddress (w ++ ',' :: w') lines = .ok range ↔
        PatternRange p (ResumedFrom q lines) lines range) ∧
      (resolveAddress (Nat.toDigits 10 n ++ ',' :: w') lines = .ok range ↔
        NumberRange n (ResumedFrom q lines) lines range) ∧
      (q.looksBehind = false →
        (PatternRange p (ResumedFrom q lines) lines range ↔
          PatternRange p (MatchedFrom q lines) lines range) ∧
        (NumberRange n (ResumedFrom q lines) lines range ↔
          NumberRange n (MatchedFrom q lines) lines range)) := by
  refine ⟨resolveAddress_patterns hp hq, resolveAddress_number hn hq, fun hbehind => ?_⟩
  have hcounts : ∀ spot, spot.Within lines → ∀ j,
      ResumedFrom q lines spot j ↔ MatchedFrom q lines spot j :=
    fun spot hspot => resumedFrom_iff_matchedFrom hbehind hspot
  exact ⟨patternRange_congr hcounts, numberRange_congr hcounts⟩

/-- The pattern `a`. -/
def letterA : Pattern := .chars (.single 'a')

/-- The pattern `a$`. -/
def lastLetterA : Pattern := .seq letterA (.anchor .textEnd)

/-- Lines of which the first one holds the letter, and only the last one ends in it. -/
def letterLines : List (List Char) := ["a b".toList, "b".toList, "ba".toList]

theorem resolveAddress_to_pattern_letterLines :
    (Bound.pattern ['a'] letterA).WrittenAs ['/', 'a', '/'] ∧
      (Bound.pattern ['a', '$'] lastLetterA).WrittenAs ['/', 'a', '$', '/'] ∧
      1 ≤ numberLimit ∧ lastLetterA.looksBehind = false ∧
      PatternRange letterA (MatchedFrom lastLetterA letterLines) letterLines ⟨0, 3⟩ ∧
      NumberRange 1 (MatchedFrom lastLetterA letterLines) letterLines ⟨0, 3⟩ := by
  have hp : (Bound.pattern ['a'] letterA).WrittenAs ['/', 'a', '/'] :=
    @Bound.WrittenAs.pattern ['a'] letterA rfl rfl
  have hq : (Bound.pattern ['a', '$'] lastLetterA).WrittenAs ['/', 'a', '$', '/'] :=
    @Bound.WrittenAs.pattern ['a', '$'] lastLetterA rfl rfl
  have hn : 1 ≤ numberLimit := by decide
  obtain ⟨hpatterns, hnumber, hwhole⟩ :=
    resolveAddress_to_pattern hp hq hn letterLines ⟨0, 3⟩
  obtain ⟨hpattern', hnumber'⟩ := hwhole rfl
  exact ⟨hp, hq, hn, rfl, hpattern'.1 (hpatterns.1 (by cbv)), hnumber'.1 (hnumber.1 (by cbv))⟩

/-- The pattern `^$`. -/
def emptyLine : Pattern := .seq (.anchor .textStart) (.anchor .textEnd)

/-- The pattern `}`. -/
def brace : Pattern := .chars (.single '}')

/-- The pattern `^}`. -/
def braceAtStart : Pattern := .seq (.anchor .textStart) brace

/-- A pattern that asks for the start of the text matches only there. -/
theorem start_eq_zero_of_matches {t : List Char} {k m : Nat}
    (h : (Pattern.seq (.anchor .textStart) q).Matches t k m) : k = 0 := by
  obtain ⟨i, hi⟩ : ∃ i, (Pattern.anchor .textStart).Matches t k i := by
    cases h with
    | seq hstart _ => exact ⟨_, hstart⟩
  cases hi with
  | anchor hk ha =>
    cases k with
    | zero => rfl
    | succ k =>
      have hnone : t[k]? = none := Option.isNone_iff_eq_none.1 ha
      have hlen := List.getElem?_eq_none_iff.1 hnone
      omega

/-- Behind the start of its line, a search for a pattern that asks for the start of a text counts
the lines after it. -/
theorem matchedFrom_textStart_iff (hcolumn : 0 < spot.column) {j : Nat} :
    MatchedFrom (.seq (.anchor .textStart) q) lines spot j ↔
      j ≠ spot.line ∧ ∃ t ∈ lines[j]?,
        ((Pattern.seq (.anchor .textStart) q).find? t).isSome = true := by
  constructor
  · rintro ⟨t, ht, k, m, hmatch, hk⟩
    have hzero := start_eq_zero_of_matches hmatch
    exact ⟨fun hj => absurd (hk hj) (by omega), t, ht, Pattern.isSome_find?_iff.2 ⟨k, m, hmatch⟩⟩
  · rintro ⟨hj, t, ht, hsome⟩
    obtain ⟨k, m, hmatch⟩ := Pattern.isSome_find?_iff.1 hsome
    exact ⟨t, ht, k, m, hmatch, fun heq => absurd heq hj⟩

/-- Two lines with words and an empty one. -/
def wordLines : List (List Char) := [['o', 'n', 'e'], ['t', 'w', 'o'], []]

/-- A line of two braces and a line of one. -/
def braceLines : List (List Char) := [['}', '}'], ['}']]

theorem numberRange_wordLines :
    NumberRange 1 (MatchedFrom emptyLine wordLines) wordLines ⟨0, 3⟩ := by
  refine ⟨['o', 'n', 'e'], 2, Nat.one_pos, rfl, ⟨⟨Nat.zero_le _, ?_⟩, ?_⟩, rfl⟩
  · exact (matchedFrom_textStart_iff (by decide)).2 ⟨by decide, [], rfl, rfl⟩
  · rintro j ⟨-, hj⟩
    obtain ⟨hne, t, ht, hsome⟩ := (matchedFrom_textStart_iff (by decide)).1 hj
    by_contra hlt
    obtain rfl : j = 1 := by
      have hne : j ≠ 0 := hne
      omega
    obtain rfl := Option.some.inj ht
    cases hsome

theorem patternRange_braceLines :
    PatternRange brace (MatchedFrom braceAtStart braceLines) braceLines ⟨0, 2⟩ := by
  have hfind : brace.find? ['}', '}'] = some (0, 1) := by rfl
  refine ⟨0, ['}', '}'], 0, 1, 1, ⟨?_, fun _ _ => Nat.zero_le _⟩, rfl, hfind,
    ⟨⟨Nat.zero_le _, ?_⟩, ?_⟩, rfl⟩
  · exact ⟨_, rfl, 0, 1, (Pattern.find?_eq_some hfind).1⟩
  · exact (matchedFrom_textStart_iff (by decide)).2 ⟨by decide, ['}'], rfl, rfl⟩
  · rintro j ⟨-, hj⟩
    exact Nat.pos_of_ne_zero ((matchedFrom_textStart_iff (by decide)).1 hj).1

/-- A range up to the next empty line ends at the line that it starts with, because nothing is left
of this line, and a range up to a brace at the start of a line ends at a brace in the middle of
one. -/
theorem resolveAddress_ends_inside :
    ((Bound.pattern ['^', '$'] emptyLine).WrittenAs ['/', '^', '$', '/'] ∧
        resolveAddress ['1', ',', '/', '^', '$', '/'] wordLines = .ok ⟨0, 1⟩ ∧
        NumberRange 1 (MatchedFrom emptyLine wordLines) wordLines ⟨0, 3⟩ ∧
        ¬ NumberRange 1 (MatchedFrom emptyLine wordLines) wordLines ⟨0, 1⟩) ∧
      ((Bound.pattern ['}'] brace).WrittenAs ['/', '}', '/'] ∧
        (Bound.pattern ['^', '}'] braceAtStart).WrittenAs ['/', '^', '}', '/'] ∧
        resolveAddress ['/', '}', '/', ',', '/', '^', '}', '/'] braceLines = .ok ⟨0, 1⟩ ∧
        PatternRange brace (MatchedFrom braceAtStart braceLines) braceLines ⟨0, 2⟩ ∧
        ¬ PatternRange brace (MatchedFrom braceAtStart braceLines) braceLines ⟨0, 1⟩) := by
  refine ⟨⟨@Bound.WrittenAs.pattern ['^', '$'] emptyLine rfl rfl, by cbv,
    numberRange_wordLines, ?_⟩, @Bound.WrittenAs.pattern ['}'] brace rfl rfl,
    @Bound.WrittenAs.pattern ['^', '}'] braceAtStart rfl rfl, by cbv, patternRange_braceLines, ?_⟩
  · rintro ⟨t, j, -, ht, ⟨⟨-, hj⟩, -⟩, hrange⟩
    obtain rfl := Option.some.inj ht
    obtain rfl : j = 0 := by simpa using hrange
    exact ((matchedFrom_textStart_iff (by decide)).1 hj).1 rfl
  · rintro ⟨i, t, k, m, j, -, ht, hm, ⟨⟨-, hj⟩, -⟩, hrange⟩
    obtain ⟨rfl, rfl⟩ : 0 = i ∧ j = 0 := by simpa using hrange
    obtain rfl := Option.some.inj ht
    obtain rfl : 1 = m := congrArg Prod.snd (Option.some.inj hm)
    exact ((matchedFrom_textStart_iff (by decide)).1 hj).1 rfl

end Lectern.Source
