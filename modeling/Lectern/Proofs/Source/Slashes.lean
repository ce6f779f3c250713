import Mathlib
import Lectern.Proofs.Source.Slices

/-!
# Slashes in patterns

A pattern stands between slashes, so every slash of its own is written with a backslash in front
(`escapeSlashes`). The end of the pattern is found by a scan that remembers whether the last
character was a backslash that escapes (`escapedBehind`); it is the first slash behind an even run
of backslashes (`slashesEscaped_iff`). `readBound_between_slashes` says that the scan and the
replacement that takes the backslashes out again agree, whatever runs of backslashes the pattern
has.
-/

namespace Lectern.Source

/-! ## Runs of backslashes -/

/-- The number of backslashes that a text ends with. -/
def backslashRun (s : List Char) : Nat := (s.reverse.takeWhile (· = '\\')).length

/-- Every slash of the text stands behind a run of backslashes of such a length. -/
def SlashesBehind (P : Nat → Prop) (s : List Char) : Prop :=
  ∀ front behind, s = front ++ '/' :: behind → P (backslashRun front)

/-- The pattern text with a backslash in front of every slash. -/
def escapeSlashes (s : List Char) : List Char :=
  s.flatMap fun c => if c = '/' then ['\\', '/'] else [c]

/-- The text without the character in front of every slash. -/
def dropBeforeSlashes : List Char → List Char
  | [] => []
  | c :: r => if r.head? = some '/' then dropBeforeSlashes r else c :: dropBeforeSlashes r

/-- Is the character behind the text escaped, if the first one is or not? -/
def escapedBehind (escaped : Bool) (s : List Char) : Bool :=
  s.foldl (fun escaped c => c = '\\' && !escaped) escaped

variable {s front behind body p rest : List Char} {c : Char} {escaped : Bool}

theorem backslashRun_concat (s : List Char) (c : Char) :
    backslashRun (s ++ [c]) = if c = '\\' then backslashRun s + 1 else 0 := by
  rw [backslashRun, List.reverse_append, List.reverse_singleton, List.singleton_append,
    List.takeWhile_cons]
  by_cases hc : c = '\\'
  · rw [if_pos (decide_eq_true hc), if_pos hc, List.length_cons, backslashRun]
  · rw [if_neg (by simpa using hc), if_neg hc, List.length_nil]

/-- A character is escaped just if an odd run of backslashes stands in front of it. -/
theorem escapedBehind_false (s : List Char) :
    escapedBehind false s = true ↔ Odd (backslashRun s) := by
  induction s using List.reverseRecOn with
  | nil => exact iff_of_false Bool.false_ne_true (by decide)
  | append_singleton s c ih =>
    have hstep : escapedBehind false (s ++ [c]) = (c = '\\' && !escapedBehind false s) :=
      List.foldl_concat ..
    rw [hstep, backslashRun_concat]
    by_cases hc : c = '\\'
    · rw [if_pos hc, Nat.odd_add_one, ← ih, decide_eq_true hc]
      simp
    · rw [if_neg hc, decide_eq_false hc]
      exact iff_of_false Bool.false_ne_true (by decide)

theorem escapedBehind_eq_false_iff (s : List Char) :
    escapedBehind false s = false ↔ Even (backslashRun s) := by
  rw [← Bool.not_eq_true, escapedBehind_false, Nat.not_odd_iff_even]

theorem slashesBehind_iff {P : Nat → Prop} :
    SlashesBehind P s ↔ ∀ i < s.length, s[i]? = some '/' → P (backslashRun (s.take i)) := by
  constructor
  · intro h i hi hslash
    have hsplit := List.take_append_drop i s
    rw [List.drop_eq_getElem_cons hi, (List.getElem?_eq_some_iff.1 hslash).2] at hsplit
    exact h _ _ hsplit.symm
  · rintro h front behind rfl
    have hfront := h front.length (by simp) (by simp)
    rwa [List.take_left] at hfront

instance (P : Nat → Prop) [DecidablePred P] (s : List Char) : Decidable (SlashesBehind P s) :=
  decidable_of_iff _ slashesBehind_iff.symm

theorem getLast?_of_odd (h : Odd (backslashRun s)) : s.getLast? = some '\\' := by
  rcases List.eq_nil_or_concat' s with rfl | ⟨s, c, rfl⟩
  · exact absurd h (by decide)
  · rw [backslashRun_concat] at h
    split_ifs at h with hc
    · rw [List.getLast?_concat, hc]
    · exact absurd h (by decide)

/-! ## The end of a pattern -/

/-- What stands in front of the slashes of a text is empty or starts as the text does. -/
theorem forall_front_cons (P : List Char → Prop) :
    (∀ front behind, c :: s = front ++ '/' :: behind → P front) ↔
      (c = '/' → P []) ∧ ∀ front behind, s = front ++ '/' :: behind → P (c :: front) := by
  constructor
  · intro h
    refine ⟨?_, fun front behind hs => h (c :: front) behind (by rw [hs, List.cons_append])⟩
    rintro rfl
    exact h [] s rfl
  · rintro ⟨hnil, hcons⟩ front behind hs
    cases front with
    | nil => exact hnil (List.cons.inj hs).1
    | cons a front =>
      rw [List.cons_append, List.cons.injEq] at hs
      obtain ⟨rfl, hs⟩ := hs
      exact hcons front behind hs

theorem slashesEscaped_iff :
    slashesEscaped escaped s = true ↔
      (∀ front behind, s = front ++ '/' :: behind → escapedBehind escaped front = true) ∧
        escapedBehind escaped s = false := by
  induction s generalizing escaped with
  | nil => simp [slashesEscaped, escapedBehind]
  | cons c s ih =>
    rw [slashesEscaped, Bool.and_eq_true, ih, forall_front_cons, and_assoc]
    refine and_congr ?_ Iff.rfl
    rw [Bool.or_eq_true, decide_eq_true_iff, ← imp_iff_not_or]
    rfl

theorem slashesEscaped_of_splitAtSlash {raw : List Char}
    (h : splitAtSlash escaped s = some (raw, rest)) : slashesEscaped escaped raw = true := by
  induction s generalizing escaped raw with
  | nil => cases h
  | cons c s ih =>
    rw [splitAtSlash] at h
    split_ifs at h with hslash
    · obtain ⟨rfl, -⟩ := Prod.mk.inj (Option.some.inj h)
      rw [Bool.and_eq_true] at hslash
      exact hslash.2
    · obtain ⟨⟨raw, rest⟩, hs, heq⟩ := Option.map_eq_some_iff.1 h
      obtain ⟨rfl, rfl⟩ := Prod.mk.inj heq
      rw [slashesEscaped, ih hs, Bool.and_true]
      by_cases hc : c = '/'
      · simpa [hc] using hslash
      · rw [decide_eq_true hc, Bool.true_or]

/-! ## Escaping and back -/

theorem escapeSlashes_cons_slash (s : List Char) :
    escapeSlashes ('/' :: s) = '\\' :: '/' :: escapeSlashes s := rfl

theorem escapeSlashes_cons (hc : c ≠ '/') (s : List Char) :
    escapeSlashes (c :: s) = c :: escapeSlashes s := by
  rw [escapeSlashes, List.flatMap_cons, if_neg hc]
  rfl

theorem head?_escapeSlashes (s : List Char) : (escapeSlashes s).head? ≠ some '/' := by
  cases s with
  | nil => simp [escapeSlashes]
  | cons c s =>
    by_cases hc : c = '/'
    · rw [hc, escapeSlashes_cons_slash]
      simp
    · rw [escapeSlashes_cons hc]
      simpa using hc

theorem slashesEscaped_escapeSlashes
    (hslashes : ∀ front behind, p = front ++ '/' :: behind → escapedBehind escaped front = false)
    (hend : escapedBehind escaped p = false) : slashesEscaped escaped (escapeSlashes p) = true := by
  induction p generalizing escaped with
  | nil =>
    have hescaped : escaped = false := hend
    rw [hescaped]
    rfl
  | cons c p ih =>
    obtain ⟨hfirst, hrest⟩ := (forall_front_cons _).1 hslashes
    have hp := ih hrest hend
    by_cases hc : c = '/'
    · subst hc
      have hescaped : escaped = false := hfirst rfl
      subst hescaped
      exact hp
    · rw [escapeSlashes_cons hc, slashesEscaped, decide_eq_true hc, Bool.true_or, Bool.true_and]
      exact hp

theorem unescapeSlashes_escapeSlashes (p : List Char) :
    unescapeSlashes (escapeSlashes p) = p := by
  induction p with
  | nil => rfl
  | cons c p ih =>
    by_cases hc : c = '/'
    · rw [hc, escapeSlashes_cons_slash, unescapeSlashes, ih]
    · rw [escapeSlashes_cons hc, unescapeSlashes, ih]
      rintro r rfl hr
      exact head?_escapeSlashes p (by rw [hr]; rfl)

/-- The backslashes that are taken out are put in again, if one stands in front of every slash. -/
theorem escapeSlashes_unescapeSlashes
    (h : ∀ front behind, body = front ++ '/' :: behind → front.getLast? = some '\\') :
    escapeSlashes (unescapeSlashes body) = body := by
  fun_induction unescapeSlashes body with
  | case1 r ih =>
    rw [escapeSlashes_cons_slash, ih]
    intro front behind hr
    have hlast := h ('\\' :: '/' :: front) behind (by rw [hr]; rfl)
    cases front with
    | nil => exact absurd hlast (by decide)
    | cons a front => exact hlast
  | case2 c r hpair ih =>
    obtain ⟨hfirst, hrest⟩ := (forall_front_cons (·.getLast? = some '\\')).1 h
    have hc : c ≠ '/' := fun e => absurd (hfirst e) (by decide)
    rw [escapeSlashes_cons hc, ih]
    intro front behind hr
    have hlast := hrest front behind hr
    cases front with
    | nil =>
      -- the character in front of a first slash is its backslash
      obtain rfl : c = '\\' := Option.some.inj hlast
      exact absurd hr (hpair behind rfl)
    | cons a front => exact hlast
  | case3 => rfl

theorem dropBeforeSlashes_escapeSlashes (p : List Char) :
    dropBeforeSlashes (escapeSlashes p) = p := by
  induction p with
  | nil => rfl
  | cons c p ih =>
    by_cases hc : c = '/'
    · rw [hc, escapeSlashes_cons_slash, dropBeforeSlashes, if_pos List.head?_cons,
        dropBeforeSlashes, if_neg (head?_escapeSlashes p), ih]
    · rw [escapeSlashes_cons hc, dropBeforeSlashes, if_neg (head?_escapeSlashes p), ih]

/-! ## Reading patterns between slashes -/

/-- What stands between slashes is read as a pattern without its escapes, or refused as that. -/
theorem readBound_slash {raw : List Char} (hraw : slashesEscaped false raw = true)
    (rest : List Char) :
    readBound ('/' :: raw ++ '/' :: rest) =
      match Pattern.read (unescapeSlashes raw) with
      | .ok q => .ok (.pattern (unescapeSlashes raw) q, rest)
      | .error why => .error (.badPattern (unescapeSlashes raw) why) := by
  rewrite [List.cons_append, readBound, splitAtSlash_append hraw]
  rfl

/-- A pattern that is read stands between slashes, each of its own behind a backslash. -/
theorem exists_raw_of_readBound {q : Pattern}
    (h : readBound ('/' :: s) = .ok (.pattern p q, rest)) :
    ∃ raw, s = raw ++ '/' :: rest ∧ slashesEscaped false raw = true ∧ unescapeSlashes raw = p ∧
      Pattern.read p = .ok q := by
  rw [readBound] at h
  cases hsplit : splitAtSlash false s with
  | none => rw [hsplit] at h; cases h
  | some parts =>
    obtain ⟨raw, rest'⟩ := parts
    rw [hsplit] at h
    dsimp only at h
    cases hread : Pattern.read (unescapeSlashes raw) with
    | error why => rw [hread] at h; cases h
    | ok q' =>
      rw [hread] at h
      obtain ⟨hbound, rfl⟩ := Prod.mk.inj (Except.ok.inj h)
      obtain ⟨rfl, rfl⟩ := Bound.pattern.inj hbound
      exact ⟨raw, Sliced.append_of_splitAtSlash hsplit, slashesEscaped_of_splitAtSlash hsplit,
        rfl, hread⟩

/-- A pattern without a slash behind an odd run of backslashes, and without such a run at its end,
can be written between slashes with one more backslash in front of each of its own: this very
pattern is read, with what follows, or refused because it is none. Whatever is read between slashes
is written that way. -/
theorem readBound_between_slashes :
    (∀ p rest, SlashesBehind Even p → Even (backslashRun p) →
      readBound ('/' :: escapeSlashes p ++ '/' :: rest) =
        match Pattern.read p with
        | .ok q => .ok (.pattern p q, rest)
        | .error why => .error (.badPattern p why)) ∧
    ∀ s p q rest, readBound ('/' :: s) = .ok (.pattern p q, rest) →
      ∃ body, '/' :: s = '/' :: body ++ '/' :: rest ∧ SlashesBehind Odd body ∧
        dropBeforeSlashes body = p ∧ body = escapeSlashes p ∧ Pattern.read p = .ok q := by
  constructor
  · intro p rest hslashes hend
    have hraw : slashesEscaped false (escapeSlashes p) = true :=
      slashesEscaped_escapeSlashes
        (fun front behind hp => (escapedBehind_eq_false_iff front).2 (hslashes front behind hp))
        ((escapedBehind_eq_false_iff p).2 hend)
    have hread := readBound_slash hraw rest
    rwa [unescapeSlashes_escapeSlashes] at hread
  · intro s p q rest h
    obtain ⟨raw, rfl, hraw, rfl, hread⟩ := exists_raw_of_readBound h
    have hodd : SlashesBehind Odd raw := fun front behind hs =>
      (escapedBehind_false front).1 ((slashesEscaped_iff.1 hraw).1 front behind hs)
    have hescape : escapeSlashes (unescapeSlashes raw) = raw :=
      escapeSlashes_unescapeSlashes fun front behind hs => getLast?_of_odd (hodd front behind hs)
    have hdrop := dropBeforeSlashes_escapeSlashes (unescapeSlashes raw)
    rw [hescape] at hdrop
    exact ⟨raw, rfl, hodd, hdrop, hescape.symm, hread⟩

/-- A pattern with a slash behind two backslashes, and with two backslashes at its end. -/
def markedPattern : List Char := "a\\\\/b\\\\".toList

theorem readBound_between_slashes_marked :
    SlashesBehind Even markedPattern ∧ Even (backslashRun markedPattern) ∧
    ∃ q, Pattern.read markedPattern = .ok q ∧
      readBound "/a\\\\\\/b\\\\/,3".toList = .ok (.pattern markedPattern q, ",3".toList) ∧
      ∃ body, "/a\\\\\\/b\\\\/,3".toList = '/' :: body ++ '/' :: ",3".toList ∧
        SlashesBehind Odd body ∧ dropBeforeSlashes body = markedPattern ∧
        body = escapeSlashes markedPattern := by
  have hslashes : SlashesBehind Even markedPattern := by decide
  have hend : Even (backslashRun markedPattern) := by decide
  have hwritten : "/a\\\\\\/b\\\\/,3".toList =
      '/' :: escapeSlashes markedPattern ++ '/' :: ",3".toList := by decide
  obtain ⟨q, hq⟩ : ∃ q, Pattern.read markedPattern = .ok q := ⟨_, by cbv⟩
  have hread := readBound_between_slashes.1 markedPattern ",3".toList hslashes hend
  rw [hq, ← hwritten] at hread
  obtain ⟨body, hs, hodd, hdrop, hescape, -⟩ := readBound_between_slashes.2 _ _ _ _ hread
  exact ⟨hslashes, hend, q, hq, hread, body, hs, hodd, hdrop, hescape⟩

end Lectern.Source
