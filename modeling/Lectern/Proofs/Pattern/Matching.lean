import Mathlib.Data.List.TakeWhile
import Mathlib.Tactic
import Lectern.Pattern.Basic

/-!
# What a pattern matches

`Pattern.Matches s p i j` says that the pattern matches the characters of the text `s` between the
positions `i` and `j`, constructor by constructor and without an order of preference. The search
finds a match exactly if there is one (`isSome_find?_iff`), and what it finds is a match that no
other one starts before (`find?_eq_some`). A match is the same in the rest of a text as in the whole
text, unless it starts where the text is cut and the pattern looks at the character in front of that
place (`Matches.of_drop`, `Matches.drop`).
-/

namespace Lectern

/-- Does the condition depend on the character in front of the place? -/
def Anchor.looksBehind : Anchor → Bool
  | textEnd | lineEnd | wordEndHalf _ => false
  | _ => true

theorem Anchor.holds_of_looksBehind {a : Anchor} (h : a.looksBehind = false)
    (before before' after : Option Char) : a.holds before after = a.holds before' after := by
  cases a <;> first | rfl | cases h

namespace Pattern

/-- The character in front of a position of a text. -/
def charBefore (s : List Char) : Nat → Option Char
  | 0 => none
  | i + 1 => s[i]?

/-- The pattern matches the text from one position up to another one. -/
inductive Matches (s : List Char) : Pattern → Nat → Nat → Prop
  | empty {i : Nat} (hi : i ≤ s.length) : Matches s empty i i
  | chars {set : CharSet} {c : Char} {i : Nat} (hc : s[i]? = some c) (hset : set.has c = true) :
      Matches s (chars set) i (i + 1)
  | anchor {a : Anchor} {i : Nat} (hi : i ≤ s.length)
      (ha : a.holds (charBefore s i) s[i]? = true) : Matches s (anchor a) i i
  | seq {p q : Pattern} {i j k : Nat} (hp : Matches s p i j) (hq : Matches s q j k) :
      Matches s (seq p q) i k
  | left {p q : Pattern} {i j : Nat} (hp : Matches s p i j) : Matches s (alt p q) i j
  | right {p q : Pattern} {i j : Nat} (hq : Matches s q i j) : Matches s (alt p q) i j
  | rounds {greedy : Bool} {p : Pattern} {i j k : Nat} (hp : Matches s p i j)
      (hmore : Matches s (more greedy p) j k) : Matches s (rounds greedy p) i k
  | done {greedy : Bool} {p : Pattern} {i : Nat} (hi : i ≤ s.length) :
      Matches s (more greedy p) i i
  | again {greedy : Bool} {p : Pattern} {i j k : Nat} (hp : Matches s p i j)
      (hmore : Matches s (more greedy p) j k) : Matches s (more greedy p) i k

variable {s : List Char} {p q : Pattern} {i j k : Nat}

/-- A match lies in the text. -/
theorem Matches.bounds (h : Matches s p i j) : i ≤ j ∧ j ≤ s.length := by
  induction h with
  | empty hi => exact ⟨le_rfl, hi⟩
  | chars hc _ => exact ⟨Nat.le_succ _, (List.getElem?_eq_some_iff.1 hc).1⟩
  | anchor hi _ => exact ⟨le_rfl, hi⟩
  | seq _ _ ihp ihq => exact ⟨ihp.1.trans ihq.1, ihq.2⟩
  | left _ ih => exact ih
  | right _ ih => exact ih
  | rounds _ _ ihp ihmore => exact ⟨ihp.1.trans ihmore.1, ihmore.2⟩
  | done hi => exact ⟨le_rfl, hi⟩
  | again _ _ ihp ihmore => exact ⟨ihp.1.trans ihmore.1, ihmore.2⟩

theorem matches_andThen_iff :
    Matches s (andThen p q) i k ↔ ∃ j, Matches s p i j ∧ Matches s q j k := by
  have hseq : Matches s (seq p q) i k ↔ ∃ j, Matches s p i j ∧ Matches s q j k :=
    ⟨fun | .seq hp hq => ⟨_, hp, hq⟩, fun ⟨_, hp, hq⟩ => .seq hp hq⟩
  cases p with
  | empty =>
    rw [andThen]
    constructor
    · intro h
      exact ⟨i, .empty (h.bounds.1.trans h.bounds.2), h⟩
    · rintro ⟨j, hp, hq⟩
      cases hp
      exact hq
  | _ => exact hseq

/-! ## How a match begins -/

/-- A step leads from one position to another one: it accepts where it stands, or it takes the next
character and what it leaves matches from there on. -/
def Step.Leads (s : List Char) (i k : Nat) : Step → Prop
  | .accept => i = k
  | .take set next => ∃ c, s[i]? = some c ∧ set.has c = true ∧ Matches s next (i + 1) k

/-- What is left of a step is followed by another pattern. -/
theorem leads_take_andThen_iff {set : CharSet} :
    (Step.take set (andThen p q)).Leads s i k ↔
      ∃ j, (Step.take set p).Leads s i j ∧ Matches s q j k := by
  simp only [Step.Leads, matches_andThen_iff]
  constructor
  · rintro ⟨c, hc, hset, j, hp, hq⟩
    exact ⟨j, ⟨c, hc, hset, hp⟩, hq⟩
  · rintro ⟨j, ⟨c, hc, hset, hp⟩, hq⟩
    exact ⟨c, hc, hset, j, hp, hq⟩

variable {before after : Option Char} {greedy : Bool} {x : Step}

theorem mem_steps_seq_iff :
    x ∈ (seq p q).steps before after ↔
      (.accept ∈ p.steps before after ∧ x ∈ q.steps before after) ∨
        ∃ set next, .take set next ∈ p.steps before after ∧ x = .take set (andThen next q) := by
  rw [steps, List.mem_flatMap]
  constructor
  · rintro ⟨y, hy, hx⟩
    rw [List.mem_eraseDups] at hy
    cases y with
    | accept => exact Or.inl ⟨hy, hx⟩
    | take set next => exact Or.inr ⟨set, next, hy, List.mem_singleton.1 hx⟩
  · rintro (⟨hacc, hx⟩ | ⟨set, next, htake, rfl⟩)
    · exact ⟨.accept, List.mem_eraseDups.2 hacc, hx⟩
    · exact ⟨.take set next, List.mem_eraseDups.2 htake, List.mem_singleton_self _⟩

theorem mem_steps_rounds_iff :
    x ∈ (rounds greedy p).steps before after ↔
      (.accept ∈ p.steps before after ∧ x = .accept) ∨
        ∃ set next, .take set next ∈ p.steps before after ∧
          x = .take set (andThen next (more greedy p)) := by
  rw [steps, List.mem_map]
  constructor
  · rintro ⟨y, hy, rfl⟩
    cases y with
    | accept => exact Or.inl ⟨hy, rfl⟩
    | take set next => exact Or.inr ⟨set, next, hy, rfl⟩
  · rintro (⟨hacc, rfl⟩ | ⟨set, next, htake, rfl⟩)
    · exact ⟨.accept, hacc, rfl⟩
    · exact ⟨.take set next, htake, rfl⟩

theorem mem_steps_more_iff :
    x ∈ (more greedy p).steps before after ↔
      x = .accept ∨ ∃ set next, .take set next ∈ p.steps before after ∧
        x = .take set (andThen next (more greedy p)) := by
  have hagain : (x ∈ (p.steps before after).filterMap fun
      | .accept => none
      | .take s p' => some (.take s (andThen p' (more greedy p)))) ↔
      ∃ set next, .take set next ∈ p.steps before after ∧
        x = .take set (andThen next (more greedy p)) := by
    rw [List.mem_filterMap]
    constructor
    · rintro ⟨y, hy, hx⟩
      cases y with
      | accept => cases hx
      | take set next => exact ⟨set, next, hy, (Option.some.inj hx).symm⟩
    · rintro ⟨set, next, htake, rfl⟩
      exact ⟨.take set next, htake, rfl⟩
  rw [← hagain, steps]
  cases greedy
  · exact List.mem_cons
  · exact (List.mem_append.trans (or_congr_right List.mem_singleton)).trans or_comm

/-- A step of a pattern leads to the end of a match only. -/
theorem matches_of_leads (hi : i ≤ s.length) (hx : x ∈ p.steps (charBefore s i) s[i]?)
    (h : x.Leads s i k) : Matches s p i k := by
  induction p generalizing x k with
  | empty =>
    obtain rfl := List.mem_singleton.1 hx
    obtain rfl : i = k := h
    exact .empty hi
  | chars set =>
    obtain rfl := List.mem_singleton.1 hx
    obtain ⟨c, hc, hset, hempty⟩ := h
    cases hempty
    exact .chars hc hset
  | anchor a =>
    rw [steps] at hx
    split_ifs at hx with ha
    · obtain rfl := List.mem_singleton.1 hx
      obtain rfl : i = k := h
      exact .anchor hi ha
    · cases hx
  | seq p q ihp ihq =>
    rcases mem_steps_seq_iff.1 hx with ⟨hacc, hx⟩ | ⟨set, next, htake, rfl⟩
    · exact .seq (ihp hacc rfl) (ihq hx h)
    · obtain ⟨j, hp, hq⟩ := leads_take_andThen_iff.1 h
      exact .seq (ihp htake hp) hq
  | alt p q ihp ihq =>
    rcases List.mem_append.1 hx with hx | hx
    · exact .left (ihp hx h)
    · exact .right (ihq hx h)
  | rounds greedy p ih =>
    rcases mem_steps_rounds_iff.1 hx with ⟨hacc, rfl⟩ | ⟨set, next, htake, rfl⟩
    · obtain rfl : i = k := h
      exact .rounds (ih hacc rfl) (.done hi)
    · obtain ⟨j, hp, hmore⟩ := leads_take_andThen_iff.1 h
      exact .rounds (ih htake hp) hmore
  | more greedy p ih =>
    rcases mem_steps_more_iff.1 hx with rfl | ⟨set, next, htake, rfl⟩
    · obtain rfl : i = k := h
      exact .done hi
    · obtain ⟨j, hp, hmore⟩ := leads_take_andThen_iff.1 h
      exact .again (ih htake hp) hmore

/-- Every match begins with a step of its pattern. A round that takes nothing is left out: what
comes after it begins with a step of the repetition itself. -/
theorem Matches.exists_leads (h : Matches s p i k) :
    ∃ x ∈ p.steps (charBefore s i) s[i]?, x.Leads s i k := by
  induction h with
  | empty _ => exact ⟨.accept, List.mem_singleton_self _, rfl⟩
  | chars hc hset =>
    exact ⟨_, List.mem_singleton_self _, _, hc, hset,
      .empty (Nat.succ_le_of_lt (List.getElem?_eq_some_iff.1 hc).1)⟩
  | anchor _ ha =>
    refine ⟨.accept, ?_, rfl⟩
    rw [steps, if_pos ha]
    exact List.mem_singleton_self _
  | seq hp hq ihp ihq =>
    obtain ⟨x, hx, hlead⟩ := ihp
    cases x with
    | accept =>
      obtain rfl := hlead
      obtain ⟨y, hy, hlead⟩ := ihq
      exact ⟨y, mem_steps_seq_iff.2 (Or.inl ⟨hx, hy⟩), hlead⟩
    | take set next =>
      exact ⟨_, mem_steps_seq_iff.2 (Or.inr ⟨set, next, hx, rfl⟩),
        leads_take_andThen_iff.2 ⟨_, hlead, hq⟩⟩
  | left _ ih =>
    obtain ⟨x, hx, hlead⟩ := ih
    exact ⟨x, List.mem_append_left _ hx, hlead⟩
  | right _ ih =>
    obtain ⟨x, hx, hlead⟩ := ih
    exact ⟨x, List.mem_append_right _ hx, hlead⟩
  | rounds hp hmore ihp ihmore =>
    obtain ⟨x, hx, hlead⟩ := ihp
    cases x with
    | accept =>
      obtain rfl := hlead
      obtain ⟨y, hy, hlead⟩ := ihmore
      rcases mem_steps_more_iff.1 hy with rfl | hagain
      · exact ⟨.accept, mem_steps_rounds_iff.2 (Or.inl ⟨hx, rfl⟩), hlead⟩
      · exact ⟨y, mem_steps_rounds_iff.2 (Or.inr hagain), hlead⟩
    | take set next =>
      exact ⟨_, mem_steps_rounds_iff.2 (Or.inr ⟨set, next, hx, rfl⟩),
        leads_take_andThen_iff.2 ⟨_, hlead, hmore⟩⟩
  | done _ => exact ⟨.accept, mem_steps_more_iff.2 (Or.inl rfl), rfl⟩
  | again hp hmore ihp ihmore =>
    obtain ⟨x, hx, hlead⟩ := ihp
    cases x with
    | accept =>
      obtain rfl := hlead
      exact ihmore
    | take set next =>
      exact ⟨_, mem_steps_more_iff.2 (Or.inr ⟨set, next, hx, rfl⟩),
        leads_take_andThen_iff.2 ⟨_, hlead, hmore⟩⟩

theorem matches_of_mem_steps {live : List Pattern} (hi : i ≤ s.length)
    (hx : x ∈ live.flatMap (steps (charBefore s i) s[i]?)) (h : x.Leads s i k) :
    ∃ p ∈ live, Matches s p i k := by
  obtain ⟨p, hp, hx⟩ := List.mem_flatMap.1 hx
  exact ⟨p, hp, matches_of_leads hi hx h⟩

theorem Matches.exists_mem_steps {live : List Pattern} (h : Matches s p i k) (hp : p ∈ live) :
    ∃ x ∈ live.flatMap (steps (charBefore s i) s[i]?), x.Leads s i k := by
  obtain ⟨x, hx, hlead⟩ := h.exists_leads
  exact ⟨x, List.mem_flatMap.2 ⟨p, hp, hx⟩, hlead⟩

/-! ## The search from one position -/

/-- What a step leaves behind a character, if it takes the character. -/
def Step.behind? (c : Char) : Step → Option Pattern
  | .accept => none
  | .take set next => if set.has c then some next else none

/-- What is left behind a character of steps that stand in front of the first one that accepts. -/
def leftBehind (c : Char) (all : List Step) : List Pattern :=
  (all.takeWhile (· ≠ .accept)).filterMap (Step.behind? c)

/-- The end that counts once the steps at a position are known. -/
def endAt (pos : Nat) (all : List Step) (best : Option Nat) : Option Nat :=
  if all.contains .accept then some pos else best

variable {live : List Pattern} {best : Option Nat} {all : List Step} {c : Char} {rest : List Char}

theorem endAt_of_mem (h : .accept ∈ all) (pos : Nat) (best : Option Nat) :
    endAt pos all best = some pos :=
  if_pos (List.contains_iff_mem.2 h)

theorem endAt_of_not_mem (h : .accept ∉ all) (pos : Nat) (best : Option Nat) :
    endAt pos all best = best :=
  if_neg fun hacc => h (List.contains_iff_mem.1 hacc)

theorem exists_take_of_mem_leftBehind (h : q ∈ leftBehind c all) :
    ∃ set, .take set q ∈ all ∧ set.has c = true := by
  obtain ⟨x, hx, hq⟩ := List.mem_filterMap.1 h
  cases x with
  | accept => cases hq
  | take set next =>
    rw [Step.behind?] at hq
    split_ifs at hq with hset
    obtain rfl := Option.some.inj hq
    exact ⟨set, (List.takeWhile_sublist _).subset hx, hset⟩

theorem mem_leftBehind {set : CharSet} (hacc : .accept ∉ all) (h : .take set q ∈ all)
    (hset : set.has c = true) : q ∈ leftBehind c all := by
  have hall : all.takeWhile (· ≠ .accept) = all :=
    List.takeWhile_eq_self_iff.2 fun y hy => decide_eq_true fun e => hacc (e ▸ hy)
  rw [leftBehind, hall]
  exact List.mem_filterMap.2 ⟨_, h, if_pos hset⟩

theorem matchFrom_nil (before : Option Char) (live : List Pattern) (pos : Nat)
    (best : Option Nat) :
    matchFrom before live [] pos best = endAt pos (live.flatMap (steps before none)) best := rfl

theorem matchFrom_cons (before : Option Char) (live : List Pattern) (c : Char) (r : List Char)
    (pos : Nat) (best : Option Nat) :
    matchFrom before live (c :: r) pos best =
      if (leftBehind c (live.flatMap (steps before (some c)))).isEmpty then
        endAt pos (live.flatMap (steps before (some c))) best
      else
        matchFrom (some c) (leftBehind c (live.flatMap (steps before (some c)))).eraseDups r
          (pos + 1) (endAt pos (live.flatMap (steps before (some c))) best) := by
  have hbehind : Step.behind? c = fun
      | .accept => none
      | .take set p => if set.has c then some p else none := by
    funext x
    cases x <;> rfl
  rw [matchFrom, leftBehind, hbehind]
  rfl

/-- What the first element of the rest of a list is, and what follows it. -/
theorem drop_eq_cons {α : Type} {l r : List α} {a : α} (h : l.drop i = a :: r) :
    l[i]? = some a ∧ i < l.length ∧ l.drop (i + 1) = r := by
  have hc : l[i]? = some a := by rw [← List.head?_drop, h, List.head?_cons]
  exact ⟨hc, (List.getElem?_eq_some_iff.1 hc).1, by rw [← List.tail_drop, h, List.tail_cons]⟩

theorem exists_matches_of_endAt (hi : i ≤ s.length)
    (h : endAt i (live.flatMap (steps (charBefore s i) s[i]?)) best = some k) :
    (∃ p ∈ live, Matches s p i k) ∨ best = some k := by
  by_cases hacc : .accept ∈ live.flatMap (steps (charBefore s i) s[i]?)
  · rw [endAt_of_mem hacc] at h
    exact Or.inl (matches_of_mem_steps hi hacc (Option.some.inj h))
  · rw [endAt_of_not_mem hacc] at h
    exact Or.inr h

/-- The search from a position on finds only ends of matches that start there. -/
theorem matchFrom_eq_some (hi : i ≤ s.length) (hrest : s.drop i = rest)
    (h : matchFrom (charBefore s i) live rest i best = some k) :
    (∃ p ∈ live, Matches s p i k) ∨ best = some k := by
  induction rest generalizing i live best with
  | nil =>
    have hend : s[i]? = none := by rw [← List.head?_drop, hrest, List.head?_nil]
    rw [matchFrom_nil, ← hend] at h
    exact exists_matches_of_endAt hi h
  | cons c r ih =>
    obtain ⟨hc, hlt, hdrop⟩ := drop_eq_cons hrest
    rw [matchFrom_cons, ← hc] at h
    split_ifs at h with hnone
    · exact exists_matches_of_endAt hi h
    · rcases ih hlt hdrop h with ⟨q, hq, hmatch⟩ | hbest
      · obtain ⟨set, hx, hset⟩ := exists_take_of_mem_leftBehind (List.mem_eraseDups.1 hq)
        exact Or.inl (matches_of_mem_steps hi hx ⟨c, hc, hset, hmatch⟩)
      · exact exists_matches_of_endAt hi hbest

/-- An end that is found is given up only for another one. -/
theorem isSome_matchFrom_of_best (hbest : best.isSome = true) (before : Option Char)
    (live : List Pattern) (rest : List Char) (pos : Nat) :
    (matchFrom before live rest pos best).isSome = true := by
  have hend (all : List Step) (pos : Nat) {best : Option Nat} (hbest : best.isSome = true) :
      (endAt pos all best).isSome = true := by
    rw [endAt]
    split_ifs
    · rfl
    · exact hbest
  induction rest generalizing before live pos best with
  | nil => exact hend _ _ hbest
  | cons c r ih =>
    rw [matchFrom_cons]
    split_ifs
    · exact hend _ _ hbest
    · exact ih (hend _ _ hbest) ..

/-- The search from a position on finds a match if one starts there. -/
theorem isSome_matchFrom (hrest : s.drop i = rest) (hp : p ∈ live) (h : Matches s p i k) :
    (matchFrom (charBefore s i) live rest i best).isSome = true := by
  induction rest generalizing i live best p with
  | nil =>
    have hend : s[i]? = none := by rw [← List.head?_drop, hrest, List.head?_nil]
    obtain ⟨x, hx, hlead⟩ := h.exists_mem_steps hp
    cases x with
    | accept =>
      rw [matchFrom_nil, ← hend, endAt_of_mem hx]
      rfl
    | take set next =>
      obtain ⟨c, hc, -⟩ := hlead
      rw [hend] at hc
      cases hc
  | cons c r ih =>
    obtain ⟨hc, -, hdrop⟩ := drop_eq_cons hrest
    rw [matchFrom_cons, ← hc]
    by_cases hacc : .accept ∈ live.flatMap (steps (charBefore s i) s[i]?)
    · rw [endAt_of_mem hacc]
      split_ifs
      · rfl
      · exact isSome_matchFrom_of_best rfl ..
    · obtain ⟨x, hx, hlead⟩ := h.exists_mem_steps hp
      cases x with
      | accept => exact absurd hx hacc
      | take set next =>
        obtain ⟨d, hd, hset, hmatch⟩ := hlead
        obtain rfl : c = d := Option.some.inj (hc.symm.trans hd)
        have hnext := mem_leftBehind hacc hx hset
        rw [if_neg (by simpa using List.ne_nil_of_mem hnext)]
        exact ih hdrop (List.mem_eraseDups.2 hnext) hmatch

/-! ## The leftmost match -/

theorem findFrom_nil (p : Pattern) (before : Option Char) (pos : Nat) :
    p.findFrom before pos [] = (matchFrom before [p] [] pos none).map (pos, ·) := by
  rw [findFrom]
  split <;> rename_i h <;> rw [h] <;> rfl

theorem findFrom_cons (p : Pattern) (before : Option Char) (pos : Nat) (c : Char) (r : List Char) :
    p.findFrom before pos (c :: r) =
      ((matchFrom before [p] (c :: r) pos none).map (pos, ·)).or
        (p.findFrom (some c) (pos + 1) r) := by
  rw [findFrom]
  split <;> rename_i h <;> rw [h] <;> rfl

theorem matches_of_matchFrom (hi : i ≤ s.length) (hrest : s.drop i = rest)
    (h : matchFrom (charBefore s i) [p] rest i none = some k) : Matches s p i k := by
  obtain ⟨q, hq, hmatch⟩ := (matchFrom_eq_some hi hrest h).resolve_right nofun
  obtain rfl := List.mem_singleton.1 hq
  exact hmatch

theorem not_matches_of_matchFrom (hrest : s.drop i = rest)
    (h : matchFrom (charBefore s i) [p] rest i none = none) (k : Nat) : ¬ Matches s p i k := by
  intro hmatch
  have hsome : (matchFrom (charBefore s i) [p] rest i none).isSome = true :=
    isSome_matchFrom hrest (List.mem_singleton_self p) hmatch
  rw [h] at hsome
  cases hsome

/-- What is found in the rest of a text is a match that no other one from there on starts
before. -/
theorem findFrom_eq_some (hi : i ≤ s.length) (hrest : s.drop i = rest) {start stop : Nat}
    (h : p.findFrom (charBefore s i) i rest = some (start, stop)) :
    Matches s p start stop ∧ ∀ j k, i ≤ j → Matches s p j k → start ≤ j := by
  induction rest generalizing i with
  | nil =>
    rw [findFrom_nil, Option.map_eq_some_iff] at h
    obtain ⟨k, hk, heq⟩ := h
    obtain ⟨rfl, rfl⟩ := Prod.mk.inj heq
    exact ⟨matches_of_matchFrom hi hrest hk, fun j k hij _ => hij⟩
  | cons c r ih =>
    rw [findFrom_cons, Option.or_eq_some_iff, Option.map_eq_some_iff, Option.map_eq_none_iff] at h
    rcases h with ⟨k, hk, heq⟩ | ⟨hnone, hlater⟩
    · obtain ⟨rfl, rfl⟩ := Prod.mk.inj heq
      exact ⟨matches_of_matchFrom hi hrest hk, fun j k hij _ => hij⟩
    · obtain ⟨hc, hlt, hdrop⟩ := drop_eq_cons hrest
      rw [← hc] at hlater
      obtain ⟨hmatch, hfirst⟩ := ih hlt hdrop hlater
      refine ⟨hmatch, fun j k hij hj => ?_⟩
      rcases hij.eq_or_lt with rfl | hij
      · exact absurd hj (not_matches_of_matchFrom hrest hnone k)
      · exact hfirst j k hij hj

/-- If nothing is found in the rest of a text, no match starts there. -/
theorem not_matches_of_findFrom (hrest : s.drop i = rest)
    (h : p.findFrom (charBefore s i) i rest = none) (hij : i ≤ j) : ¬ Matches s p j k := by
  induction rest generalizing i with
  | nil =>
    intro hmatch
    rw [findFrom_nil, Option.map_eq_none_iff] at h
    have hlen : s.length ≤ i := List.drop_eq_nil_iff.1 hrest
    obtain rfl : i = j := le_antisymm hij (hmatch.bounds.1.trans (hmatch.bounds.2.trans hlen))
    exact not_matches_of_matchFrom hrest h k hmatch
  | cons c r ih =>
    rw [findFrom_cons, Option.or_eq_none_iff, Option.map_eq_none_iff] at h
    obtain ⟨hc, -, hdrop⟩ := drop_eq_cons hrest
    rw [← hc] at h
    rcases hij.eq_or_lt with rfl | hij
    · exact not_matches_of_matchFrom hrest h.1 k
    · exact ih hdrop h.2 hij

/-- What is found in a text is a match that no other one starts before. -/
theorem find?_eq_some {start stop : Nat} (h : p.find? s = some (start, stop)) :
    Matches s p start stop ∧ ∀ j k, Matches s p j k → start ≤ j := by
  obtain ⟨hmatch, hfirst⟩ := findFrom_eq_some (i := 0) (Nat.zero_le _) List.drop_zero h
  exact ⟨hmatch, fun j k => hfirst j k (Nat.zero_le j)⟩

/-- Something is found in a text exactly if the pattern matches a part of it. -/
theorem isSome_find?_iff : (p.find? s).isSome = true ↔ ∃ j k, Matches s p j k := by
  constructor
  · intro h
    obtain ⟨⟨start, stop⟩, hm⟩ := Option.isSome_iff_exists.1 h
    exact ⟨start, stop, (find?_eq_some hm).1⟩
  · rintro ⟨j, k, hmatch⟩
    rw [Option.isSome_iff_ne_none]
    exact fun hnone => not_matches_of_findFrom (i := 0) List.drop_zero hnone (Nat.zero_le j) hmatch

/-! ## Matches in the rest of a text -/

/-- Does a part of the pattern look at the character in front of it? -/
def looksBehind : Pattern → Bool
  | empty | chars _ => false
  | anchor a => a.looksBehind
  | seq p q | alt p q => p.looksBehind || q.looksBehind
  | rounds _ p | more _ p => p.looksBehind

/-- The character in front of a place is the same in the rest of a text, unless the text is cut
there. -/
theorem charBefore_drop {n : Nat} (hi : 0 < i) :
    charBefore (s.drop n) i = charBefore s (n + i) := by
  obtain ⟨i, rfl⟩ := Nat.exists_eq_add_of_le' hi
  exact List.getElem?_drop

theorem holds_drop {a : Anchor} {n : Nat} (h : 0 < i ∨ a.looksBehind = false) :
    a.holds (charBefore (s.drop n) i) (s.drop n)[i]? =
      a.holds (charBefore s (n + i)) s[n + i]? := by
  rw [List.getElem?_drop]
  rcases h with hi | ha
  · rw [charBefore_drop hi]
  · exact Anchor.holds_of_looksBehind ha ..

theorem Matches.of_drop {n : Nat} (hn : n ≤ s.length) (hmatch : Matches (s.drop n) p i k)
    (h : 0 < i ∨ p.looksBehind = false) : Matches s p (n + i) (n + k) := by
  have hlen : ∀ {i}, i ≤ (s.drop n).length → n + i ≤ s.length := by
    intro i hi
    rw [List.length_drop] at hi
    omega
  induction hmatch with
  | empty hi => exact .empty (hlen hi)
  | chars hc hset => exact .chars (List.getElem?_drop.symm.trans hc) hset
  | anchor hi ha => exact .anchor (hlen hi) ((holds_drop h).symm.trans ha)
  | seq hp _ ihp ihq =>
    simp only [looksBehind, Bool.or_eq_false_iff] at h
    exact .seq (ihp (h.imp_right And.left)) (ihq (h.imp hp.bounds.1.trans_lt' And.right))
  | left _ ih =>
    simp only [looksBehind, Bool.or_eq_false_iff] at h
    exact .left (ih (h.imp_right And.left))
  | right _ ih =>
    simp only [looksBehind, Bool.or_eq_false_iff] at h
    exact .right (ih (h.imp_right And.right))
  | rounds hp _ ihp ihmore =>
    exact .rounds (ihp h) (ihmore (h.imp_left hp.bounds.1.trans_lt'))
  | done hi => exact .done (hlen hi)
  | again hp _ ihp ihmore =>
    exact .again (ihp h) (ihmore (h.imp_left hp.bounds.1.trans_lt'))

theorem Matches.drop {n a b : Nat} (hmatch : Matches s p a b) (ha : a = n + i) (hb : b = n + k)
    (h : 0 < i ∨ p.looksBehind = false) : Matches (s.drop n) p i k := by
  have hlen : ∀ {i}, n + i ≤ s.length → i ≤ (s.drop n).length := by
    intro i hi
    rw [List.length_drop]
    omega
  -- Two parts of a match do not meet in front of the cut.
  have hmid : ∀ {i j}, n + i ≤ j → ∃ m, j = n + m := fun h =>
    Nat.exists_eq_add_of_le ((Nat.le_add_right ..).trans h)
  induction hmatch generalizing i k with
  | empty hi =>
    obtain rfl : i = k := by omega
    exact .empty (hlen (ha ▸ hi))
  | chars hc hset =>
    obtain rfl : k = i + 1 := by omega
    exact .chars (List.getElem?_drop.trans (ha ▸ hc)) hset
  | anchor hi hholds =>
    obtain rfl : i = k := by omega
    subst ha
    exact .anchor (hlen hi) ((holds_drop h).trans hholds)
  | seq hp _ ihp ihq =>
    have hle := hp.bounds.1
    obtain ⟨j, rfl⟩ := hmid (ha ▸ hle)
    simp only [looksBehind, Bool.or_eq_false_iff] at h
    exact .seq (ihp ha rfl (h.imp_right And.left))
      (ihq rfl hb (h.imp (fun hi => by omega) And.right))
  | left _ ih =>
    simp only [looksBehind, Bool.or_eq_false_iff] at h
    exact .left (ih ha hb (h.imp_right And.left))
  | right _ ih =>
    simp only [looksBehind, Bool.or_eq_false_iff] at h
    exact .right (ih ha hb (h.imp_right And.right))
  | rounds hp _ ihp ihmore =>
    have hle := hp.bounds.1
    obtain ⟨j, rfl⟩ := hmid (ha ▸ hle)
    exact .rounds (ihp ha rfl h) (ihmore rfl hb (h.imp_left fun hi => by omega))
  | done hi =>
    obtain rfl : i = k := by omega
    exact .done (hlen (ha ▸ hi))
  | again hp _ ihp ihmore =>
    have hle := hp.bounds.1
    obtain ⟨j, rfl⟩ := hmid (ha ▸ hle)
    exact .again (ihp ha rfl h) (ihmore rfl hb (h.imp_left fun hi => by omega))

end Pattern

end Lectern
