import Mathlib.Order.Bounds.Defs
import Lectern.Proofs.Calendar
import Lectern.Proofs.Pattern.Matching
import Lectern.Proofs.Results
import Lectern.Proofs.Text.Blocks
import Lectern.Source.Address

/-!
# Addresses and the lines that they pick

The ends of an address are written as decimal digits, as `$`, or as a pattern between slashes
(`Bound.WrittenAs`), and an address is one end or two with a comma between them. A search for an end
is a search for the first line that holds a match.
-/

namespace Lectern.Source

open Text

/-! ## Written ends -/

/-- Does every slash of the text stand behind a backslash that escapes it, and is no backslash at
its end left to escape what follows? -/
def slashesEscaped (escaped : Bool) : List Char → Bool
  | [] => !escaped
  | c :: r => (c ≠ '/' || escaped) && slashesEscaped (c = '\\' && !escaped) r

/-- The text of an end of an address: decimal digits, `$`, or a pattern between slashes. -/
inductive Bound.WrittenAs : Bound → List Char → Prop
  | line {digits : List Char} (hne : digits ≠ []) (hdigits : ∀ c ∈ digits, c.isDigit = true)
      (hlimit : ofDigits digits ≤ numberLimit) : WrittenAs (.line (ofDigits digits)) digits
  | last : WrittenAs .last ['$']
  | pattern {raw : List Char} {p : Pattern} (hraw : slashesEscaped false raw = true)
      (hread : Pattern.read (unescapeSlashes raw) = .ok p) :
      WrittenAs (.pattern (unescapeSlashes raw) p) ('/' :: raw ++ ['/'])

theorem splitAtSlash_append {escaped : Bool} {raw : List Char}
    (h : slashesEscaped escaped raw = true) (rest : List Char) :
    splitAtSlash escaped (raw ++ '/' :: rest) = some (raw, rest) := by
  induction raw generalizing escaped with
  | nil =>
    have hescaped : escaped = false := by simpa [slashesEscaped] using h
    rw [List.nil_append, splitAtSlash, if_pos (by simp [hescaped])]
  | cons c r ih =>
    rw [slashesEscaped, Bool.and_eq_true] at h
    obtain ⟨hc, hr⟩ := h
    have hslash : ¬ (c = '/' && !escaped) = true := by simpa [or_iff_not_imp_left] using hc
    rw [List.cons_append, splitAtSlash, if_neg hslash, ih hr]
    rfl

variable {b b' : Bound} {w w' rest : List Char}

theorem readBound_digits {digits : List Char} (hne : digits ≠ [])
    (hdigits : ∀ c ∈ digits, c.isDigit = true) (hrest : StopsDigits rest) :
    readBound (digits ++ rest) =
      if numberLimit < ofDigits digits then .error (.badNumber digits)
      else .ok (.line (ofDigits digits), rest) := by
  obtain ⟨htake, hdrop⟩ := span_append hdigits hrest
  obtain ⟨c, r, rfl⟩ := List.exists_cons_of_ne_nil hne
  have hc : c.isDigit = true := hdigits c (List.mem_cons_self ..)
  have hdollar : c ≠ '$' := by rintro rfl; cases hc
  have hslash : c ≠ '/' := by rintro rfl; cases hc
  rw [List.cons_append] at htake hdrop ⊢
  unfold readBound
  split
  · rename_i heq
    exact absurd (List.cons.inj heq).1 hdollar
  · rename_i heq
    exact absurd (List.cons.inj heq).1 hslash
  · rw [htake, hdrop]
    rfl

/-- The text of an end is read as this end, whatever follows, unless digits go on. -/
theorem readBound_written (h : b.WrittenAs w) (hrest : StopsDigits rest) :
    readBound (w ++ rest) = .ok (b, rest) := by
  cases h with
  | line hne hdigits hlimit => rw [readBound_digits hne hdigits hrest, if_neg (by omega)]
  | last => rfl
  | pattern hraw hread =>
    rw [List.append_assoc, List.singleton_append, List.cons_append, readBound,
      splitAtSlash_append hraw]
    simp only [hread]

/-- No blank stands in front of an end. -/
theorem trimStart_written (h : b.WrittenAs w) (rest : List Char) :
    trimStart (w ++ rest) = w ++ rest := by
  cases h with
  | line hne hdigits _ =>
    obtain ⟨c, r, rfl⟩ := List.exists_cons_of_ne_nil hne
    exact trimStart_of_isDigit (hdigits c (List.mem_cons_self ..)) (r ++ rest)
  | last => rfl
  | pattern _ _ => rfl

theorem written_toDigits {n : Nat} (h : n ≤ numberLimit) :
    (Bound.line n).WrittenAs (Nat.toDigits 10 n) := by
  have hlimit : ofDigits (Nat.toDigits 10 n) ≤ numberLimit := by rwa [ofDigits_toDigits]
  have hwritten :=
    Bound.WrittenAs.line Nat.toDigits_ne_nil (fun _ hc => isDigit_of_mem_toDigits hc) hlimit
  rwa [ofDigits_toDigits] at hwritten

/-! ## Addresses -/

variable {lines : List (List Char)}

/-- The line of the second end of an address, where `rest` follows the first end, which is found at
`start`. -/
def stopLine (addr : List Char) (lines : List (List Char)) (start : Spot) (rest : List Char) :
    Except AddressFault Nat :=
  match trimStart rest with
  | [] => .ok start.line
  | ',' :: r =>
      (readBound (trimStart r)).bind fun read =>
        if !(trim read.2).isEmpty then .error (.trailing (trim read.2))
        else (read.1.locate lines start).map Spot.line
  | _ => .error (.malformed addr)

/-- The first end of an address is found first, then the second one from there on, and the second
one does not stand in front. -/
theorem resolveAddress_of_ne_nil {addr : List Char} (haddr : addr ≠ []) :
    resolveAddress addr lines =
      (readBound addr).bind fun read =>
        (read.1.locate lines ⟨0, 0⟩).bind fun start =>
          (stopLine addr lines start read.2).bind fun stop =>
            if stop < start.line then .error (.reversed addr) else .ok ⟨start.line, stop + 1⟩ := by
  rw [resolveAddress, if_neg (by simpa using haddr)]
  cases readBound addr with
  | error why => rfl
  | ok read =>
    obtain ⟨first, rest⟩ := read
    dsimp only [bind, Except.bind, stopLine]
    cases first.locate lines ⟨0, 0⟩ with
    | error why => rfl
    | ok start =>
      generalize trimStart rest = s
      rcases s with _ | ⟨c, r⟩
      · rfl
      by_cases hc : c = ','
      · subst hc
        simp only
        cases readBound (trimStart r) with
        | error why => rfl
        | ok read =>
          dsimp only
          split_ifs
          · rfl
          · cases read.1.locate lines start <;> rfl
      · simp only [List.cons.injEq, hc, false_and, imp_self, implies_true]
        rfl

theorem trimStart_append {gap : List Char} (h : isBlankLine gap = true) (s : List Char) :
    trimStart (gap ++ s) = trimStart s :=
  List.dropWhile_append_of_pos (List.all_eq_true.1 h)

/-- Blanks do not go on with digits. -/
theorem stopsDigits_blank_append {gap s : List Char} (h : isBlankLine gap = true)
    (hs : StopsDigits s) : StopsDigits (gap ++ s) := by
  cases gap with
  | nil => exact hs
  | cons c r =>
    refine stopsDigits_cons ?_ (r ++ s)
    rw [← Bool.not_eq_true]
    intro hdigit
    have hkept := trimStart_of_isDigit hdigit []
    rw [isBlankLine_cons, Bool.and_eq_true] at h
    rw [trimStart, List.dropWhile_cons_of_pos h.1] at hkept
    cases hkept

/-- What follows a comma is the second end. -/
theorem stopLine_comma {gap gap' : List Char} (hgap : isBlankLine gap = true)
    (hgap' : isBlankLine gap' = true) (addr s : List Char) (start : Spot) :
    stopLine addr lines start (gap ++ ',' :: (gap' ++ s)) =
      (readBound (trimStart s)).bind fun read =>
        if !(trim read.2).isEmpty then .error (.trailing (trim read.2))
        else (read.1.locate lines start).map Spot.line := by
  have hcomma : trimStart (gap ++ ',' :: (gap' ++ s)) = ',' :: (gap' ++ s) :=
    trimStart_append hgap _
  simp only [stopLine, hcomma]
  rw [trimStart_append hgap']

/-- An address with two ends picks the lines from the first one to the second one, which is looked
for from there on. -/
theorem resolveAddress_range (h : b.WrittenAs w) (h' : b'.WrittenAs w') {gap gap' : List Char}
    (hgap : isBlankLine gap = true) (hgap' : isBlankLine gap' = true) :
    resolveAddress (w ++ (gap ++ ',' :: (gap' ++ w'))) lines =
      (b.locate lines ⟨0, 0⟩).bind fun start =>
        (b'.locate lines start).bind fun stop =>
          if stop.line < start.line then .error (.reversed (w ++ (gap ++ ',' :: (gap' ++ w'))))
          else .ok ⟨start.line, stop.line + 1⟩ := by
  have hread := readBound_written h
    (stopsDigits_blank_append hgap (stopsDigits_cons (c := ',') rfl (gap' ++ w')))
  have hread' : readBound (trimStart w') = .ok (b', []) := by
    have hread' := readBound_written h' stopsDigits_nil
    have htrim := trimStart_written h' []
    rw [List.append_nil] at hread' htrim
    rw [htrim, hread']
  have htrailing : ¬ (!(trim []).isEmpty) = true := by decide
  rw [resolveAddress_of_ne_nil (by simp), hread]
  dsimp only [Except.bind]
  congr 1
  funext start
  rw [stopLine_comma hgap hgap', hread']
  dsimp only [Except.bind]
  rw [if_neg htrailing]
  cases b'.locate lines start <;> rfl

theorem resolveAddress_range_eq_ok_iff (h : b.WrittenAs w) (h' : b'.WrittenAs w')
    {gap gap' : List Char} (hgap : isBlankLine gap = true) (hgap' : isBlankLine gap' = true)
    {range : Range} :
    resolveAddress (w ++ (gap ++ ',' :: (gap' ++ w'))) lines = .ok range ↔
      ∃ start stop, b.locate lines ⟨0, 0⟩ = .ok start ∧ b'.locate lines start = .ok stop ∧
        start.line ≤ stop.line ∧ range = ⟨start.line, stop.line + 1⟩ := by
  rw [resolveAddress_range h h' hgap hgap']
  simp only [bind_eq_ok_iff]
  constructor
  · rintro ⟨start, hstart, stop, hstop, hok⟩
    split_ifs at hok with hlt
    exact ⟨start, stop, hstart, hstop, Nat.le_of_not_lt hlt, (Except.ok.inj hok).symm⟩
  · rintro ⟨start, stop, hstart, hstop, hle, rfl⟩
    exact ⟨start, hstart, stop, hstop, if_neg (Nat.not_lt.2 hle)⟩

/-! ## Searching the lines of a file -/

variable {p q : Pattern} {text : List Char} {start spot : Spot}

/-- What is searched of a line when a search goes on at a spot: the rest of the line of the spot,
and all of the other lines. -/
def searched (lines : List (List Char)) (start : Spot) (k : Nat) : Option (List Char) :=
  (lines[k]?).map fun t => if k = start.line then t.drop start.column else t

/-- The first match from a spot on ends at another spot. -/
structure Finds (p : Pattern) (lines : List (List Char)) (start spot : Spot) : Prop where
  line_le : start.line ≤ spot.line
  found : ∃ t ∈ searched lines start spot.line, ∃ from_ upTo, p.find? t = some (from_, upTo) ∧
    spot.column = (if spot.line = start.line then start.column else 0) + upTo
  first : ∀ k, start.line ≤ k → k < spot.line → ∀ t ∈ searched lines start k, p.find? t = none

theorem searched_self (lines : List (List Char)) (start : Spot) :
    searched lines start start.line = (lines[start.line]?).map (·.drop start.column) := by
  simp only [searched, if_true]

theorem searched_of_ne {k : Nat} (h : k ≠ start.line) : searched lines start k = lines[k]? := by
  simp only [searched, if_neg h, Option.map_id']

theorem findLine_eq_some_iff {k : Nat} :
    findLine p k lines = some spot ↔
      ∃ n, spot.line = k + n ∧ (∃ t ∈ lines[n]?, ∃ i, p.find? t = some (i, spot.column)) ∧
        ∀ m < n, ∀ t ∈ lines[m]?, p.find? t = none := by
  induction lines generalizing k with
  | nil => simp [findLine]
  | cons l r ih =>
    rw [findLine]
    cases hl : p.find? l with
    | some m =>
      obtain ⟨i, j⟩ := m
      constructor
      · intro h
        obtain rfl := Option.some.inj h
        exact ⟨0, rfl, ⟨l, rfl, i, hl⟩, fun m hm => absurd hm (Nat.not_lt_zero m)⟩
      · rintro ⟨n, hline, ⟨t, ht, i', hi'⟩, hfirst⟩
        obtain rfl : n = 0 := by
          by_contra hn
          have hnone := hfirst 0 (Nat.pos_of_ne_zero hn) l rfl
          rw [hl] at hnone
          cases hnone
        obtain rfl : l = t := Option.some.inj ht
        rw [hl] at hi'
        obtain ⟨-, hj⟩ := Prod.mk.inj (Option.some.inj hi')
        rw [hj, ← Nat.add_zero k, ← hline]
    | none =>
      refine ih.trans ⟨?_, ?_⟩
      · rintro ⟨n, hline, hfound, hfirst⟩
        refine ⟨n + 1, by omega, hfound, fun m hm t ht => ?_⟩
        cases m with
        | zero =>
          obtain rfl : l = t := Option.some.inj ht
          exact hl
        | succ m => exact hfirst m (Nat.lt_of_succ_lt_succ hm) t ht
      · rintro ⟨n, hline, hfound, hfirst⟩
        cases n with
        | zero =>
          obtain ⟨t, ht, i, hi⟩ := hfound
          obtain rfl : l = t := Option.some.inj ht
          rw [hl] at hi
          cases hi
        | succ n =>
          exact ⟨n, by omega, hfound, fun m hm t ht =>
            hfirst (m + 1) (Nat.succ_lt_succ hm) t ht⟩

theorem locate_pattern (text : List Char) (p : Pattern) (lines : List (List Char)) (start : Spot) :
    (Bound.pattern text p).locate lines start =
      match (((searched lines start start.line).bind p.find?).map fun m =>
          (⟨start.line, start.column + m.2⟩ : Spot)).or
        (findLine p (start.line + 1) (lines.drop (start.line + 1))) with
      | some spot => .ok spot
      | none => .error (.noMatch text) := by
  rw [Bound.locate, searched_self]
  cases lines[start.line]? with
  | none => rfl
  | some t =>
    dsimp only [Option.bind_some, Option.map_some]
    cases p.find? (t.drop start.column) <;> rfl

/-- A match in the rest of the line of the start is the first one. -/
theorem finds_iff_of_here {t : List Char} {i j : Nat} (ht : t ∈ searched lines start start.line)
    (hm : p.find? t = some (i, j)) :
    Finds p lines start spot ↔ spot = ⟨start.line, start.column + j⟩ := by
  constructor
  · rintro ⟨hle, ⟨u, hu, i', j', hm', hcolumn⟩, hfirst⟩
    have hline : spot.line = start.line := by
      by_contra hne
      have hnone := hfirst _ le_rfl (by omega) t ht
      rw [hm] at hnone
      cases hnone
    rw [hline] at hu
    obtain rfl : t = u := Option.some.inj (ht.symm.trans hu)
    obtain ⟨rfl, rfl⟩ := Prod.mk.inj (Option.some.inj (hm.symm.trans hm'))
    rw [if_pos hline] at hcolumn
    rw [← hline, ← hcolumn]
  · rintro rfl
    exact ⟨le_rfl, ⟨t, ht, i, j, hm, by rw [if_pos rfl]⟩,
      fun k hle hlt => absurd hlt (Nat.not_lt.2 hle)⟩

/-- Without a match in the rest of its line the lines behind it are searched. -/
theorem finds_iff_of_not_here (hnone : ∀ t ∈ searched lines start start.line, p.find? t = none) :
    Finds p lines start spot ↔
      findLine p (start.line + 1) (lines.drop (start.line + 1)) = some spot := by
  have hlater (n : Nat) : (lines.drop (start.line + 1))[n]? =
      searched lines start (start.line + 1 + n) := by
    rw [List.getElem?_drop, searched_of_ne (by omega)]
  rw [findLine_eq_some_iff]
  constructor
  · rintro ⟨hle, ⟨t, ht, i, j, hm, hcolumn⟩, hfirst⟩
    have hline : spot.line ≠ start.line := by
      intro heq
      rw [heq] at ht
      rw [hnone t ht] at hm
      cases hm
    obtain ⟨n, hn⟩ := Nat.exists_eq_add_of_le (Nat.succ_le_of_lt (lt_of_le_of_ne hle hline.symm))
    rw [if_neg hline, Nat.zero_add] at hcolumn
    refine ⟨n, hn, ⟨t, ?_, i, hcolumn ▸ hm⟩, fun m hlt => ?_⟩
    · rw [hlater]
      exact hn ▸ ht
    · rw [hlater]
      exact hfirst _ (by omega) (by omega)
  · rintro ⟨n, hline, ⟨t, ht, i, hi⟩, hfirst⟩
    rw [hlater, ← hline] at ht
    refine ⟨by omega, ⟨t, ht, i, spot.column, hi, by rw [if_neg (by omega), Nat.zero_add]⟩,
      fun k hle hlt => ?_⟩
    rcases hle.eq_or_lt with rfl | hlt'
    · exact hnone
    · obtain ⟨m, rfl⟩ := Nat.exists_eq_add_of_le (Nat.succ_le_of_lt hlt')
      rw [← hlater]
      exact hfirst m (by omega)

/-- A search for a pattern finds the first match from its start on. -/
theorem locate_pattern_eq_ok_iff :
    (Bound.pattern text p).locate lines start = .ok spot ↔ Finds p lines start spot := by
  rw [locate_pattern]
  cases hhere : (searched lines start start.line).bind p.find? with
  | some m =>
    obtain ⟨t, ht, hm⟩ := Option.bind_eq_some_iff.1 hhere
    rw [finds_iff_of_here ht hm, eq_comm (a := spot)]
    exact ⟨Except.ok.inj, congrArg Except.ok⟩
  | none =>
    rw [finds_iff_of_not_here fun t ht => Option.bind_eq_none_iff.1 hhere t ht, Option.map_none,
      Option.none_or]
    cases findLine p (start.line + 1) (lines.drop (start.line + 1)) <;> simp

theorem locate_line_eq_ok_iff {n : Nat} :
    (Bound.line n).locate lines start = .ok spot ↔
      ∃ t, 0 < n ∧ lines[n - 1]? = some t ∧ spot = ⟨n - 1, t.length⟩ := by
  rw [Bound.locate]
  cases lines[n - 1]? with
  | none => simp
  | some t =>
    by_cases hn : n = 0
    · simp [hn]
    · simp [hn, Nat.pos_of_ne_zero hn, eq_comm]

theorem locate_last_eq_ok_iff :
    Bound.last.locate lines start = .ok spot ↔
      ∃ t, lines[lines.length - 1]? = some t ∧ spot = ⟨lines.length - 1, t.length⟩ := by
  rw [Bound.locate, List.getLast?_eq_getElem?]
  cases lines[lines.length - 1]? with
  | none => simp
  | some t => simp [eq_comm]

/-! ## Spots in a file -/

/-- A spot does not lie behind the end of its line, if there is this line. -/
def Spot.Within (spot : Spot) (lines : List (List Char)) : Prop :=
  ∀ t ∈ lines[spot.line]?, spot.column ≤ t.length

theorem within_start (lines : List (List Char)) : (⟨0, 0⟩ : Spot).Within lines :=
  fun _ _ => Nat.zero_le _

theorem within_of_getElem? {t : List Char} (ht : lines[spot.line]? = some t)
    (h : spot.column ≤ t.length) : spot.Within lines ∧ spot.line < lines.length := by
  refine ⟨fun u hu => ?_, (List.getElem?_eq_some_iff.1 ht).1⟩
  obtain rfl : t = u := Option.some.inj (ht.symm.trans hu)
  exact h

/-- What is found lies in a line of the file. -/
theorem Bound.within_of_locate (hstart : start.Within lines) (h : b.locate lines start = .ok spot) :
    spot.Within lines ∧ spot.line < lines.length := by
  cases b with
  | line n =>
    obtain ⟨t, -, ht, rfl⟩ := locate_line_eq_ok_iff.1 h
    exact within_of_getElem? ht le_rfl
  | last =>
    obtain ⟨t, ht, rfl⟩ := locate_last_eq_ok_iff.1 h
    exact within_of_getElem? ht le_rfl
  | pattern text p =>
    obtain ⟨-, ⟨u, hu, i, j, hm, hcolumn⟩, -⟩ := locate_pattern_eq_ok_iff.1 h
    obtain ⟨t, ht, rfl⟩ := Option.map_eq_some_iff.1 hu
    have hj := (Pattern.find?_eq_some hm).1.bounds.2
    refine within_of_getElem? ht ?_
    by_cases hline : spot.line = start.line
    · have hle := hstart t (hline ▸ ht)
      rw [if_pos hline] at hcolumn hj
      rw [List.length_drop] at hj
      omega
    · rw [if_neg hline] at hcolumn hj
      omega

/-! ## Picked ranges -/

/-- The range of an address goes from the line of its first end to that of its second one. -/
theorem resolveAddress_eq_ok_iff {addr : List Char} (haddr : addr ≠ []) {range : Range} :
    resolveAddress addr lines = .ok range ↔
      ∃ b rest start stop, readBound addr = .ok (b, rest) ∧ b.locate lines ⟨0, 0⟩ = .ok start ∧
        stopLine addr lines start rest = .ok stop ∧ start.line ≤ stop ∧
        range = ⟨start.line, stop + 1⟩ := by
  rw [resolveAddress_of_ne_nil haddr]
  simp only [bind_eq_ok_iff, Prod.exists]
  constructor
  · rintro ⟨b, rest, hread, start, hstart, stop, hstop, hok⟩
    split_ifs at hok with hlt
    exact ⟨b, rest, start, stop, hread, hstart, hstop, Nat.le_of_not_lt hlt,
      (Except.ok.inj hok).symm⟩
  · rintro ⟨b, rest, start, stop, hread, hstart, hstop, hle, rfl⟩
    exact ⟨b, rest, hread, start, hstart, stop, hstop, if_neg (Nat.not_lt.2 hle)⟩

theorem stopLine_lt {addr rest : List Char} {start : Spot} {stop : Nat}
    (hstart : start.Within lines ∧ start.line < lines.length)
    (h : stopLine addr lines start rest = .ok stop) : stop < lines.length := by
  unfold stopLine at h
  split at h
  · obtain rfl := Except.ok.inj h
    exact hstart.2
  · obtain ⟨⟨second, trailing⟩, -, h⟩ := bind_eq_ok_iff.1 h
    split_ifs at h
    cases hlocate : second.locate lines start with
    | error why => rw [hlocate] at h; cases h
    | ok spot =>
      rw [hlocate] at h
      obtain rfl := Except.ok.inj h
      exact (Bound.within_of_locate hstart.1 hlocate).2
  · cases h

/-- A range lies in the file, and only an empty address can pick no line. -/
theorem resolveAddress_bounds {addr : List Char} {range : Range}
    (h : resolveAddress addr lines = .ok range) :
    range.lo ≤ range.hi ∧ range.hi ≤ lines.length ∧ (addr ≠ [] → range.lo < range.hi) := by
  by_cases haddr : addr = []
  · subst haddr
    obtain rfl := Except.ok.inj h
    exact ⟨Nat.zero_le _, le_rfl, fun hne => absurd rfl hne⟩
  · obtain ⟨b, rest, start, stop, -, hstart, hstop, hle, rfl⟩ :=
      (resolveAddress_eq_ok_iff haddr).1 h
    have hlt := stopLine_lt (Bound.within_of_locate (within_start lines) hstart) hstop
    exact ⟨Nat.le_succ_of_le hle, hlt, fun _ => Nat.lt_succ_of_le hle⟩

/-! ## Ends that no line answers to -/

/-- The text starts with an end of an address that the file does not have: a number that is not one
of a line, or `$` where there is no line. -/
inductive StartsMissing (lines : List (List Char)) : List Char → Prop
  | number {digits rest : List Char} (hne : digits ≠ [])
      (hdigits : ∀ c ∈ digits, c.isDigit = true) (hrest : StopsDigits rest)
      (hout : ¬ (1 ≤ ofDigits digits ∧ ofDigits digits ≤ lines.length)) :
      StartsMissing lines (digits ++ rest)
  | last (hlines : lines = []) (rest : List Char) : StartsMissing lines ('$' :: rest)

/-- An address one of whose ends the file does not have, or whose second end stands in front of its
first one. -/
inductive PicksNothing (lines : List (List Char)) : List Char → Prop
  | first {s : List Char} (h : StartsMissing lines s) : PicksNothing lines s
  | second {b : Bound} {w gap gap' s : List Char} (h : b.WrittenAs w)
      (hgap : isBlankLine gap = true) (hgap' : isBlankLine gap' = true)
      (hs : StartsMissing lines s) : PicksNothing lines (w ++ (gap ++ ',' :: (gap' ++ s)))
  | reversed {b b' : Bound} {w w' gap gap' : List Char} {start stop : Spot} (h : b.WrittenAs w)
      (h' : b'.WrittenAs w') (hgap : isBlankLine gap = true) (hgap' : isBlankLine gap' = true)
      (hstart : b.locate lines ⟨0, 0⟩ = .ok start) (hstop : b'.locate lines start = .ok stop)
      (hlt : stop.line < start.line) :
      PicksNothing lines (w ++ (gap ++ ',' :: (gap' ++ w')))

theorem StartsMissing.ne_nil {s : List Char} (h : StartsMissing lines s) : s ≠ [] := by
  cases h with
  | number hne _ _ _ => simp [hne]
  | last _ rest => simp

theorem StartsMissing.trimStart {s : List Char} (h : StartsMissing lines s) :
    Text.trimStart s = s := by
  cases h with
  | number hne hdigits _ _ =>
    obtain ⟨c, r, rfl⟩ := List.exists_cons_of_ne_nil hne
    exact trimStart_of_isDigit (hdigits c (List.mem_cons_self ..)) _
  | last _ rest => rfl

/-- A missing end is not found, wherever the search starts. -/
theorem StartsMissing.locate_ne_ok {s rest : List Char} (h : StartsMissing lines s)
    (hread : readBound s = .ok (b, rest)) (start spot : Spot) :
    b.locate lines start ≠ .ok spot := by
  intro hlocate
  cases h with
  | number hne hdigits hrest hout =>
    rw [readBound_digits hne hdigits hrest] at hread
    split_ifs at hread
    obtain ⟨rfl, -⟩ := Prod.mk.inj (Except.ok.inj hread)
    obtain ⟨t, hpos, ht, -⟩ := locate_line_eq_ok_iff.1 hlocate
    have hlt := (List.getElem?_eq_some_iff.1 ht).1
    omega
  | last hlines rest =>
    obtain ⟨rfl, -⟩ := Prod.mk.inj (Except.ok.inj hread)
    obtain ⟨t, ht, -⟩ := locate_last_eq_ok_iff.1 hlocate
    rw [hlines] at ht
    cases ht

/-- An address of this kind picks no range. -/
theorem PicksNothing.ne_ok {addr : List Char} (h : PicksNothing lines addr) (range : Range) :
    resolveAddress addr lines ≠ .ok range := by
  intro hok
  cases h with
  | first hs =>
    obtain ⟨b, rest, start, stop, hread, hstart, -⟩ := (resolveAddress_eq_ok_iff hs.ne_nil).1 hok
    exact hs.locate_ne_ok hread _ _ hstart
  | second hb hgap hgap' hs =>
    rename_i b w gap gap' s
    obtain ⟨b₁, rest, start, stop, hread, hstart, hstop, -⟩ :=
      (resolveAddress_eq_ok_iff (by simp)).1 hok
    rw [readBound_written hb (stopsDigits_blank_append hgap (stopsDigits_cons rfl _))] at hread
    obtain ⟨rfl, rfl⟩ := Prod.mk.inj (Except.ok.inj hread)
    rw [stopLine_comma hgap hgap', hs.trimStart] at hstop
    obtain ⟨⟨second, trailing⟩, hread', hstop⟩ := bind_eq_ok_iff.1 hstop
    split_ifs at hstop
    cases hlocate : second.locate lines start with
    | error why => rw [hlocate] at hstop; cases hstop
    | ok spot => exact hs.locate_ne_ok hread' _ _ hlocate
  | reversed hb hb' hgap hgap' hstart hstop hlt =>
    obtain ⟨start, stop, hstart', hstop', hle, -⟩ :=
      (resolveAddress_range_eq_ok_iff hb hb' hgap hgap').1 hok
    rw [hstart] at hstart'
    obtain rfl := Except.ok.inj hstart'
    rw [hstop] at hstop'
    obtain rfl := Except.ok.inj hstop'
    omega

end Lectern.Source
