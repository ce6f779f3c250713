import Mathlib
import Lectern.Path

/-!
# The parts of paths

A path is its lead and the texts between the slashes behind it. What is idle at the end of these
texts does not count: the others are the parts of the path (`Laid.parts_build`). The parent of a
path has all parts but the last one (`parts_of_parent?`), and another extension changes the last
part only (`parts_withExtension`).
-/

namespace Lectern

namespace Path

variable {p q : Path} {lead s : List Char} {texts init : List (List Char)}

/-! ## Texts between slashes -/

theorem not_mem_of_mem_splitOn {c : Char} (s : List Char) : ∀ t ∈ s.splitOn c, c ∉ t := by
  induction s with
  | nil => simp
  | cons a s ih =>
    rw [List.splitOn_cons_eq_if_modifyHead]
    split_ifs with ha
    · simpa using ih
    · have ha : c ≠ a := fun e => ha (by simp [e])
      obtain ⟨l, ls, hl⟩ := List.exists_cons_of_ne_nil (List.splitOn_ne_nil c s)
      rw [hl] at ih ⊢
      simp only [List.modifyHead_cons, List.mem_cons, forall_eq_or_imp] at ih ⊢
      exact ⟨fun h => h.elim ha ih.1, ih.2⟩

theorem intercalate_append (c : Char) {texts : List (List Char)} (h : texts ≠ [])
    (more : List (List Char)) :
    List.intercalate [c] (texts ++ more) = List.intercalate [c] texts ++ more.flatMap (c :: ·) := by
  induction texts with
  | nil => exact absurd rfl h
  | cons s r ih =>
    cases r with
    | nil =>
      clear ih h
      induction more generalizing s with
      | nil => simp
      | cons t more ih =>
        have ih := ih t
        rw [List.singleton_append, List.intercalate_singleton] at ih ⊢
        rw [List.intercalate_cons_cons, ih]
        simp
    | cons t r =>
      have ih := ih (List.cons_ne_nil t r)
      rw [List.cons_append] at ih
      rw [List.cons_append, List.cons_append, List.intercalate_cons_cons, ih,
        List.intercalate_cons_cons]
      simp only [List.append_assoc]

theorem prefix_intercalate (c : Char) {texts texts' : List (List Char)} (h : texts <+: texts') :
    List.intercalate [c] texts <+: List.intercalate [c] texts' := by
  obtain ⟨more, rfl⟩ := h
  by_cases hnil : texts = []
  · rw [hnil]
    exact List.nil_prefix
  · rw [intercalate_append c hnil]
    exact List.prefix_append _ _

/-! ## Idle texts at the end -/

theorem trimIdle_concat (texts : List (List Char)) (s : List Char) :
    trimIdle (texts ++ [s]) = if isIdle s then trimIdle texts else texts ++ [s] := by
  induction texts with
  | nil => rfl
  | cons t r ih =>
    rw [List.cons_append, trimIdle, ih]
    by_cases hs : isIdle s
    · rw [if_pos hs, if_pos hs, trimIdle]
    · rw [if_neg hs, if_neg hs]
      cases r <;> rfl

theorem trimIdle_eq_rdropWhile (texts : List (List Char)) :
    trimIdle texts = texts.rdropWhile isIdle := by
  induction texts using List.reverseRecOn with
  | nil => rfl
  | append_singleton texts s ih => rw [trimIdle_concat, List.rdropWhile_concat, ih]

theorem trimIdle_trimIdle (texts : List (List Char)) :
    trimIdle (trimIdle texts) = trimIdle texts := by
  simp only [trimIdle_eq_rdropWhile]
  exact List.rdropWhile_idempotent ..

theorem prefix_trimIdle (texts : List (List Char)) : trimIdle texts <+: texts := by
  rw [trimIdle_eq_rdropWhile]
  exact List.rdropWhile_prefix ..

theorem exists_trimIdle_append (texts : List (List Char)) :
    ∃ idle, texts = trimIdle texts ++ idle ∧ ∀ s ∈ idle, isIdle s = true := by
  induction texts using List.reverseRecOn with
  | nil => exact ⟨[], rfl, by simp⟩
  | append_singleton texts s ih =>
    rw [trimIdle_concat]
    by_cases hs : isIdle s
    · obtain ⟨idle, htexts, hidle⟩ := ih
      refine ⟨idle ++ [s], ?_, List.forall_mem_append.2 ⟨hidle, by simpa using hs⟩⟩
      rw [if_pos hs, ← List.append_assoc, ← htexts]
    · exact ⟨[], by rw [if_neg hs, List.append_nil], by simp⟩

theorem trimIdle_append (texts : List (List Char)) {idle : List (List Char)}
    (h : ∀ s ∈ idle, isIdle s = true) : trimIdle (texts ++ idle) = trimIdle texts := by
  induction idle using List.reverseRecOn with
  | nil => rw [List.append_nil]
  | append_singleton idle s ih =>
    obtain ⟨hidle, hs⟩ := List.forall_mem_append.1 h
    rw [← List.append_assoc, trimIdle_concat, if_pos (by simpa using hs), ih hidle]

theorem isIdle_of_trimIdle_eq (h : trimIdle texts = init ++ [s]) : isIdle s = false := by
  have hlast := congrArg trimIdle h
  rw [trimIdle_trimIdle, h, trimIdle_concat] at hlast
  by_contra hidle
  rw [if_pos (by simpa using hidle)] at hlast
  have hlength := (prefix_trimIdle init).length_le
  rw [← hlast, List.length_append, List.length_singleton] at hlength
  omega

theorem filter_trimIdle (texts : List (List Char)) :
    (trimIdle texts).filter (!isIdle ·) = texts.filter (!isIdle ·) := by
  obtain ⟨idle, htexts, hidle⟩ := exists_trimIdle_append texts
  have hnone : idle.filter (!isIdle ·) = [] :=
    List.filter_eq_nil_iff.2 fun s hs => by simp [hidle s hs]
  conv_rhs => rw [htexts, List.filter_append, hnone, List.append_nil]

/-- The start of what stands behind the last part of a path is idle as well. -/
theorem exists_take_idle {idle : List (List Char)} (h : ∀ s ∈ idle, isIdle s = true) (n : Nat) :
    ∃ idle' : List (List Char),
      (idle.flatMap ('/' :: ·)).take n = idle'.flatMap ('/' :: ·) ∧
        ∀ s ∈ idle', isIdle s = true := by
  induction idle generalizing n with
  | nil => exact ⟨[], by simp, by simp⟩
  | cons s r ih =>
    obtain ⟨hs, hr⟩ := List.forall_mem_cons.1 h
    cases n with
    | zero => exact ⟨[], by simp, by simp⟩
    | succ n =>
      obtain ⟨idle', htake, hidle⟩ := ih hr (n - s.length)
      have hstart : isIdle (s.take n) = true := by
        have hs : s = [] ∨ s = ['.'] := by simpa [isIdle] using hs
        rcases hs with rfl | rfl
        · simp [isIdle]
        · cases n <;> simp [isIdle]
      refine ⟨s.take n :: idle', ?_, List.forall_mem_cons.2 ⟨hstart, hidle⟩⟩
      rw [List.flatMap_cons, List.cons_append, List.take_succ_cons, List.take_append, htake,
        List.flatMap_cons, List.cons_append]

/-! ## Leads -/

/-- A path starts at the root, at the directory it is taken from, or with a name. -/
theorem splitLead_cases (s : List Char) :
    (∃ r, s = '/' :: r ∧ splitLead s = (['/'], r)) ∨
      (s = ['.'] ∧ splitLead s = (['.'], [])) ∨
      (∃ r, s = '.' :: '/' :: r ∧ splitLead s = (['.'], '/' :: r)) ∨
      ((∀ r, s ≠ '/' :: r) ∧ s ≠ ['.'] ∧ (∀ r, s ≠ '.' :: '/' :: r) ∧ splitLead s = ([], s)) := by
  unfold splitLead
  split
  · exact Or.inl ⟨_, rfl, rfl⟩
  · exact Or.inr (Or.inl ⟨rfl, rfl⟩)
  · exact Or.inr (Or.inr (Or.inl ⟨_, rfl, rfl⟩))
  · rename_i hroot hdot hhere
    exact Or.inr (Or.inr (Or.inr ⟨hroot, hdot, hhere, rfl⟩))

theorem splitLead_append (s : List Char) : (splitLead s).1 ++ (splitLead s).2 = s := by
  rcases splitLead_cases s with ⟨r, hs, hl⟩ | ⟨hs, hl⟩ | ⟨r, hs, hl⟩ | ⟨-, -, -, hl⟩
  · rw [hl, hs]; rfl
  · rw [hl, hs]; rfl
  · rw [hl, hs]; rfl
  · rw [hl]; rfl

theorem isAbsolute_iff : p.isAbsolute = true ↔ (splitLead p.chars).1 = ['/'] := by
  rw [isAbsolute, decide_eq_true_eq]
  rcases splitLead_cases p.chars with ⟨r, hs, hl⟩ | ⟨hs, hl⟩ | ⟨r, hs, hl⟩ | ⟨hroot, -, -, hl⟩
  · simp [hs, splitLead]
  · simp [hs, splitLead]
  · simp [hs, splitLead]
  · refine iff_of_false (fun h => ?_) (by simp [hl])
    obtain ⟨r, hr⟩ := List.head?_eq_some_iff.1 h
    exact hroot r hr

/-- Can the texts stand between the slashes behind a lead? -/
structure Laid (lead : List Char) (texts : List (List Char)) : Prop where
  no_slash : ∀ s ∈ texts, '/' ∉ s
  lead : lead = ['/'] ∨ (lead = ['.'] ∧ (texts = [] ∨ ∃ s r, texts = [] :: s :: r)) ∨
    (lead = [] ∧ ∀ s ∈ texts.head?, isIdle s = false)

/-- The lead of a path that is built is told from the text behind it. -/
theorem Laid.splitLead_build (h : Laid lead texts) :
    splitLead (build lead texts).chars = (lead, List.intercalate ['/'] texts) := by
  obtain ⟨hslash, rfl | ⟨rfl, rfl | ⟨s, r, rfl⟩⟩ | ⟨rfl, hhead⟩⟩ := h
  · rfl
  · rfl
  · rw [build, List.intercalate_cons_cons]
    rfl
  · cases texts with
    | nil => rfl
    | cons s r =>
      have hs := hhead s rfl
      obtain ⟨c, t, rfl⟩ : ∃ c t, s = c :: t := List.exists_cons_of_ne_nil (by
        rintro rfl
        cases hs)
      have hc : c ≠ '/' := fun e => hslash (c :: t) (List.mem_cons_self ..) (by simp [e])
      obtain ⟨u, hu⟩ : ∃ u, List.intercalate ['/'] ((c :: t) :: r) = c :: (t ++ u) := by
        cases r with
        | nil => exact ⟨[], by simp⟩
        | cons v r => exact ⟨'/' :: List.intercalate ['/'] (v :: r), by
            rw [List.intercalate_cons_cons]; simp⟩
      -- a text that starts with a dot goes on with something that is no slash
      have hdot : c = '.' → ∃ a v, t ++ u = a :: v ∧ a ≠ '/' := by
        rintro rfl
        cases t with
        | nil => cases hs
        | cons a t =>
          exact ⟨a, t ++ u, rfl, fun e => hslash _ (List.mem_cons_self ..) (by simp [e])⟩
      rw [build, hu, List.nil_append]
      unfold splitLead
      split
      · rename_i heq
        exact absurd (List.cons.inj heq).1 hc
      · rename_i heq
        obtain ⟨a, v, hv, -⟩ := hdot (List.cons.inj heq).1
        rw [(List.cons.inj heq).2] at hv
        cases hv
      · rename_i heq
        obtain ⟨a, v, hv, ha⟩ := hdot (List.cons.inj heq).1
        rw [(List.cons.inj heq).2] at hv
        exact absurd (List.cons.inj hv).1.symm ha
      · rfl

/-- A path has the parts that it is built from, but for what is idle at their end. -/
theorem Laid.parts_build (h : Laid lead texts) : (build lead texts).parts = trimIdle texts := by
  rw [parts, h.splitLead_build]
  cases texts with
  | nil => rfl
  | cons s r => rw [List.splitOn_intercalate '/' h.no_slash (List.cons_ne_nil _ _)]

theorem Laid.isAbsolute_build (h : Laid lead texts) :
    (build lead texts).isAbsolute = true ↔ lead = ['/'] := by
  rw [isAbsolute_iff, h.splitLead_build]

/-- The texts of a path stand behind its lead, if there are any. -/
theorem laid_splitLead (hne : p.parts ≠ []) :
    Laid (splitLead p.chars).1 ((splitLead p.chars).2.splitOn '/') := by
  refine ⟨not_mem_of_mem_splitOn _, ?_⟩
  rcases splitLead_cases p.chars with ⟨r, -, hl⟩ | ⟨-, hl⟩ | ⟨r, -, hl⟩ | ⟨hroot, hdot, hhere, hl⟩
  · exact Or.inl (by rw [hl])
  · rw [parts, hl] at hne
    exact absurd rfl hne
  · obtain ⟨s, u, hu⟩ := List.exists_cons_of_ne_nil (List.splitOn_ne_nil '/' r)
    refine Or.inr (Or.inl ⟨by rw [hl], Or.inr ⟨s, u, ?_⟩⟩)
    rw [hl, List.splitOn_cons_eq_if_modifyHead, if_pos (beq_self_eq_true _), hu]
  · refine Or.inr (Or.inr ⟨by rw [hl], fun s hs => ?_⟩)
    rw [hl] at hs
    obtain ⟨r, hr⟩ := List.head?_eq_some_iff.1 hs
    have hchars : List.intercalate ['/'] (p.chars.splitOn '/') = p.chars :=
      List.intercalate_splitOn '/'
    rw [hr] at hchars
    by_contra hidle
    have hidle : s = [] ∨ s = ['.'] := by simpa [isIdle, or_iff_not_imp_left] using hidle
    cases r with
    | nil =>
      rw [List.intercalate_singleton] at hchars
      rcases hidle with rfl | rfl
      · rw [parts, hl, hr] at hne
        exact hne rfl
      · exact hdot hchars.symm
    | cons t r =>
      rw [List.intercalate_cons_cons] at hchars
      rcases hidle with rfl | rfl
      · exact hroot _ hchars.symm
      · exact hhere _ hchars.symm

theorem not_mem_of_isIdle (h : isIdle s = true) : '/' ∉ s := by
  have hs : s = [] ∨ s = ['.'] := by simpa [isIdle] using h
  rcases hs with rfl | rfl
  · simp
  · simp

/-- The texts of a path up to one that is not idle stand behind its lead. -/
theorem Laid.of_start (h : Laid lead texts) (hpre : init <+: texts)
    (htrim : trimIdle init = init) : Laid lead init := by
  have hhead : ∀ s ∈ init.head?, s ∈ texts.head? := by
    intro s hs
    obtain ⟨r, rfl⟩ := List.head?_eq_some_iff.1 hs
    obtain ⟨t, rfl⟩ := hpre
    rfl
  refine ⟨fun s hs => h.no_slash s (hpre.subset hs), ?_⟩
  rcases h.lead with hlead | ⟨hlead, htexts⟩ | ⟨hlead, hl⟩
  · exact Or.inl hlead
  · refine Or.inr (Or.inl ⟨hlead, ?_⟩)
    cases init with
    | nil => exact Or.inl rfl
    | cons s r =>
      have hs := hhead s rfl
      rcases htexts with rfl | ⟨t, u, rfl⟩
      · cases hs
      · obtain rfl := Option.some.inj hs
        cases r with
        | nil => cases htrim
        | cons v r => exact Or.inr ⟨v, r, rfl⟩
  · exact Or.inr (Or.inr ⟨hlead, fun s hs => hl s (hhead s hs)⟩)

/-- Another text can stand in place of the last one, and idle ones behind it. -/
theorem Laid.replace_last {s' : List Char} {idle : List (List Char)} (h : Laid lead (init ++ [s]))
    (hs : isIdle s' = false) (hslash : '/' ∉ s') (hidle : ∀ t ∈ idle, isIdle t = true) :
    Laid lead (init ++ s' :: idle) := by
  have hinit := (List.forall_mem_append.1 h.no_slash).1
  refine ⟨List.forall_mem_append.2 ⟨hinit, List.forall_mem_cons.2 ⟨hslash, fun t ht =>
    not_mem_of_isIdle (hidle t ht)⟩⟩, ?_⟩
  rcases h.lead with hlead | ⟨hlead, htexts⟩ | ⟨hlead, hl⟩
  · exact Or.inl hlead
  · refine Or.inr (Or.inl ⟨hlead, Or.inr ?_⟩)
    rcases htexts with htexts | ⟨t, u, htexts⟩
    · simp at htexts
    · cases init with
      | nil => simp at htexts
      | cons v r =>
        obtain ⟨rfl, -⟩ := List.cons.inj htexts
        cases r with
        | nil => exact ⟨s', idle, rfl⟩
        | cons w r => exact ⟨w, r ++ s' :: idle, rfl⟩
  · refine Or.inr (Or.inr ⟨hlead, fun t ht => ?_⟩)
    cases init with
    | nil =>
      obtain rfl := Option.some.inj ht
      exact hs
    | cons v r => exact hl t ht

/-- The parts of a path stand behind its lead. -/
theorem laid_parts (hne : p.parts ≠ []) : Laid (splitLead p.chars).1 p.parts :=
  (laid_splitLead hne).of_start (prefix_trimIdle _) (trimIdle_trimIdle _)

/-- A path as its lead, its parts, and what is idle behind them. -/
theorem exists_chars_eq (hne : p.parts ≠ []) :
    ∃ idle : List (List Char), (∀ s ∈ idle, isIdle s = true) ∧
      p.chars = (splitLead p.chars).1 ++ List.intercalate ['/'] p.parts ++
        idle.flatMap ('/' :: ·) := by
  obtain ⟨idle, htexts, hidle⟩ := exists_trimIdle_append ((splitLead p.chars).2.splitOn '/')
  refine ⟨idle, hidle, ?_⟩
  have hbody : List.intercalate ['/'] ((splitLead p.chars).2.splitOn '/') =
      (splitLead p.chars).2 := List.intercalate_splitOn '/'
  rw [htexts, show trimIdle _ = p.parts from rfl, intercalate_append '/' hne] at hbody
  rw [List.append_assoc, hbody, splitLead_append]

/-! ## Parents and file names -/

/-- A parent has the parts of the path but the last one, and what is idle at their end. -/
theorem parts_of_parent? (h : p.parent? = some q) :
    (p.parts = [] ∧ q = ⟨[]⟩ ∧ p.isAbsolute = false) ∨
      ∃ init s, p.parts = init ++ [s] ∧ isIdle s = false ∧ q.isAbsolute = p.isAbsolute ∧
        q.parts = trimIdle init := by
  rw [parent?] at h
  split at h
  · rename_i hparts
    split_ifs at h with hdot
    refine Or.inl ⟨hparts, (Option.some.inj h).symm, ?_⟩
    rw [← Bool.not_eq_true, isAbsolute_iff, hdot]
    decide
  · rename_i hne
    have hlaid := laid_parts hne
    obtain ⟨init, s, hparts⟩ := (List.eq_nil_or_concat' p.parts).resolve_left hne
    obtain rfl := Option.some.inj h
    rw [hparts] at hlaid ⊢
    rw [List.dropLast_concat]
    have hinit : Laid (splitLead p.chars).1 (trimIdle init) :=
      hlaid.of_start ((prefix_trimIdle init).trans (List.prefix_append _ _)) (trimIdle_trimIdle _)
    refine Or.inr ⟨init, s, rfl, isIdle_of_trimIdle_eq hparts, ?_, ?_⟩
    · rw [Bool.eq_iff_iff, hinit.isAbsolute_build, isAbsolute_iff]
    · rw [hinit.parts_build, trimIdle_trimIdle]

/-- A parent is written as the start of the path. -/
theorem prefix_chars_parent? (h : p.parent? = some q) : q.chars <+: p.chars := by
  rw [parent?] at h
  split at h
  · split_ifs at h
    obtain rfl := Option.some.inj h
    exact List.nil_prefix
  · rename_i hne
    obtain ⟨idle, -, hchars⟩ := exists_chars_eq hne
    have hparts : trimIdle p.parts.dropLast <+: p.parts :=
      (prefix_trimIdle _).trans (List.dropLast_prefix _)
    have hq : q.chars = (splitLead p.chars).1 ++
        List.intercalate ['/'] (trimIdle p.parts.dropLast) :=
      congrArg chars (Option.some.inj h).symm
    rw [hq]
    exact ((List.prefix_append_right_inj _).2 (prefix_intercalate '/' hparts)).trans
      ⟨_, hchars.symm⟩

/-- The file name is the last part, if that is a name. -/
theorem fileName?_eq_some_iff :
    p.fileName? = some s ↔ (∃ init, p.parts = init ++ [s]) ∧ s ≠ ['.', '.'] := by
  rw [fileName?, ← List.getLast?_eq_some_iff]
  cases p.parts.getLast? with
  | none => simp
  | some t =>
    by_cases ht : t = ['.', '.']
    · simp only [if_pos ht, Option.some.injEq]
      exact iff_of_false nofun fun ⟨hts, hs⟩ => hs (hts.symm.trans ht)
    · simp only [if_neg ht, Option.some.injEq]
      exact ⟨fun hts => ⟨hts, hts ▸ ht⟩, And.left⟩

/-! ## Moves -/

/-- The steps of a path that lead away from where it starts. -/
def moves (p : Path) : List Component := p.components.filter (· ≠ .here)

theorem stepOf_ne_here (s : List Char) : stepOf s ≠ .here := by
  rw [stepOf]
  split_ifs <;> simp

/-- The moves of a path are those of its parts. -/
theorem moves_eq (p : Path) :
    p.moves = (if p.isAbsolute then [.root] else []) ++
      (p.parts.filter (!isIdle ·)).map stepOf := by
  have hsteps : ∀ texts : List (List Char),
      ((texts.filter (!isIdle ·)).map stepOf).filter (· ≠ .here) =
        (texts.filter (!isIdle ·)).map stepOf := fun texts =>
    List.filter_eq_self.2 fun c hc => by
      obtain ⟨s, -, rfl⟩ := List.mem_map.1 hc
      simpa using stepOf_ne_here s
  rw [parts, filter_trimIdle, moves, components]
  rcases splitLead_cases p.chars with ⟨r, -, hl⟩ | ⟨-, hl⟩ | ⟨r, -, hl⟩ | ⟨-, -, -, hl⟩
  · rw [if_pos (isAbsolute_iff.2 (by rw [hl])), hl, List.singleton_append]
    exact congrArg (Component.root :: ·) (hsteps _)
  all_goals
    rw [if_neg (by simp [isAbsolute_iff, hl]), hl, List.nil_append]
    exact hsteps _

/-- A parent lacks the last move of the path. -/
theorem moves_parent? (h : p.parent? = some q) : q.moves = p.moves.dropLast := by
  rcases parts_of_parent? h with ⟨hparts, rfl, hroot⟩ | ⟨init, s, hparts, hs, hroot, hq⟩
  · rw [moves_eq p, hparts, hroot]
    rfl
  · rw [moves_eq, moves_eq, hq, hroot, hparts, filter_trimIdle, List.filter_append,
      List.filter_singleton, hs, List.map_append, ← List.append_assoc]
    exact (List.dropLast_concat).symm

/-- The last move of a path is its last part. -/
theorem moves_of_parts (hparts : p.parts = init ++ [s]) :
    p.moves = ((if p.isAbsolute then [.root] else []) ++
      (init.filter (!isIdle ·)).map stepOf) ++ [stepOf s] := by
  have hs : isIdle s = false := isIdle_of_trimIdle_eq hparts
  rw [moves_eq, hparts, List.filter_append, List.filter_singleton, hs, List.map_append,
    List.append_assoc]
  rfl

theorem stepOf_eq_name_iff {t : List Char} : stepOf s = .name t ↔ s = t ∧ s ≠ ['.', '.'] := by
  rw [stepOf]
  split_ifs with hup
  · simp [hup]
  · simp [hup]

/-- The file name is the last move, if that is a name. -/
theorem moves_fileName? (h : p.fileName? = some s) : p.moves = p.moves.dropLast ++ [.name s] := by
  obtain ⟨⟨init, hparts⟩, hup⟩ := fileName?_eq_some_iff.1 h
  rw [moves_of_parts hparts, List.dropLast_concat, stepOf_eq_name_iff.2 ⟨rfl, hup⟩]

theorem moves_parent (h : p.fileName? = some s) : p.parent.moves = p.moves.dropLast := by
  rw [parent]
  cases hparent : p.parent? with
  | some q => exact moves_parent? hparent
  | none =>
    obtain ⟨⟨init, hparts⟩, -⟩ := fileName?_eq_some_iff.1 h
    rw [parent?, hparts] at hparent
    cases init <;> cases hparent

theorem fileName?_of_moves (h : p.moves.getLast? = some (.name s)) : p.fileName? = some s := by
  rcases List.eq_nil_or_concat' p.parts with hparts | ⟨init, t, hparts⟩
  · rw [moves_eq, hparts] at h
    split_ifs at h <;> simp at h
  · rw [moves_of_parts hparts, List.getLast?_concat, Option.some.injEq, stepOf_eq_name_iff] at h
    exact fileName?_eq_some_iff.2 ⟨⟨init, h.1 ▸ hparts⟩, h.1 ▸ h.2⟩

/-! ## Extensions -/

/-- A name is cut at its last dot, unless it starts with that. -/
theorem splitExtension_append (stem : List Char) {ext : List Char} (hext : '.' ∉ ext) :
    splitExtension (stem ++ '.' :: ext) =
      if stem = [] then ('.' :: ext, none) else (stem, some ext) := by
  have htail : ((stem ++ '.' :: ext).reverse.takeWhile (· ≠ '.')).reverse = ext := by
    rw [List.reverse_append, List.reverse_cons, List.append_assoc, List.takeWhile_append_of_pos]
    · simp
    · intro c hc
      have hc := List.mem_reverse.1 hc
      have hdot : c ≠ '.' := fun e => hext (by rwa [e] at hc)
      simpa using hdot
  have htake : (stem ++ '.' :: ext).take ((stem ++ '.' :: ext).length - ext.length - 1) = stem := by
    rw [List.length_append, List.length_cons,
      show stem.length + (ext.length + 1) - ext.length - 1 = stem.length by omega,
      List.take_left]
  rw [splitExtension, htail, htake]
  by_cases hstem : stem = []
  · simp [hstem]
  · have hlength : ext.length ≠ (stem ++ '.' :: ext).length := by
      rw [List.length_append, List.length_cons]
      omega
    rw [if_neg (by rw [decide_eq_false hlength]; simpa using hstem), if_neg hstem]

theorem eq_of_splitExtension {name stem ext : List Char}
    (h : splitExtension name = (stem, some ext)) :
    name = stem ++ '.' :: ext ∧ stem ≠ [] ∧ '.' ∉ ext := by
  by_cases hdot : '.' ∈ name
  · obtain ⟨tail, front, hname, htail⟩ :=
      List.eq_append_cons_of_mem (List.mem_reverse.2 hdot)
    have hname : name = front.reverse ++ '.' :: tail.reverse := by
      rw [← List.reverse_reverse name, hname]
      simp
    have htail : '.' ∉ tail.reverse := fun e => htail (List.mem_reverse.1 e)
    rw [hname, splitExtension_append _ htail] at h
    split_ifs at h with hfront
    · cases (Prod.mk.inj h).2
    · obtain ⟨hstem, hext⟩ := Prod.mk.inj h
      rw [← hstem, ← Option.some.inj hext]
      exact ⟨hname, hfront, htail⟩
  · have htail : name.reverse.takeWhile (· ≠ '.') = name.reverse := by
      rw [List.takeWhile_eq_self_iff]
      intro c hc
      have hc := List.mem_reverse.1 hc
      have hne : c ≠ '.' := fun e => hdot (by rwa [e] at hc)
      simpa using hne
    rw [splitExtension, htail] at h
    simp at h

theorem extension?_eq_some {ext : List Char} (h : p.extension? = some ext) :
    ∃ init stem, p.parts = init ++ [stem ++ '.' :: ext] ∧ stem ≠ [] ∧ '.' ∉ ext := by
  rw [extension?] at h
  split at h
  · rename_i name hname
    obtain ⟨⟨init, hparts⟩, -⟩ := fileName?_eq_some_iff.1 hname
    obtain ⟨stem, hstem⟩ : ∃ stem, stem = (splitExtension name).1 := ⟨_, rfl⟩
    obtain ⟨hname, hne, hext⟩ := eq_of_splitExtension (Prod.ext hstem.symm h)
    exact ⟨init, stem, hname ▸ hparts, hne, hext⟩
  · cases h

theorem isIdle_append_dot {stem ext : List Char} (h : stem ≠ []) :
    isIdle (stem ++ '.' :: ext) = false := by
  obtain ⟨c, stem, rfl⟩ := List.exists_cons_of_ne_nil h
  simp [isIdle]

/-- The text of a path is what stands in front of its last part, the last part, and what is idle. -/
theorem exists_chars_around (h : p.parts = init ++ [s]) :
    ∃ (front : List Char) (idle : List (List Char)), (∀ t ∈ idle, isIdle t = true) ∧
      p.chars = front ++ s ++ idle.flatMap ('/' :: ·) ∧
      ∀ t more, front ++ t ++ more.flatMap ('/' :: ·) =
        (build (splitLead p.chars).1 (init ++ t :: more)).chars := by
  obtain ⟨idle, hidle, hchars⟩ := exists_chars_eq (by simp [h] : p.parts ≠ [])
  have hfront : ∃ front, ∀ t, List.intercalate ['/'] (init ++ [t]) = front ++ t := by
    cases init with
    | nil => exact ⟨[], fun t => by simp⟩
    | cons u r =>
      refine ⟨List.intercalate ['/'] (u :: r) ++ ['/'], fun t => ?_⟩
      rw [intercalate_append '/' (List.cons_ne_nil u r)]
      simp
  obtain ⟨front, hfront⟩ := hfront
  refine ⟨(splitLead p.chars).1 ++ front, idle, hidle, ?_, fun t more => ?_⟩
  · rw [h, hfront, ← List.append_assoc] at hchars
    exact hchars
  · rw [build, List.append_cons, intercalate_append '/' (by simp), hfront]
    simp only [List.append_assoc]

/-- Cutting as many characters off a path as its extension has leaves a part of this, and maybe idle
text that stood behind it. -/
theorem exists_take_extension {stem old : List Char} (h : p.parts = init ++ [stem ++ '.' :: old]) :
    ∃ (k : Nat) (idle : List (List Char)), (∀ t ∈ idle, isIdle t = true) ∧
      (⟨p.chars.take (p.chars.length - old.length)⟩ : Path) =
        build (splitLead p.chars).1 (init ++ (stem ++ '.' :: old.take k) :: idle) := by
  obtain ⟨front, idle, hidle, hchars, hbuild⟩ := exists_chars_around h
  obtain ⟨k, hk⟩ : ∃ k, k = (idle.flatMap ('/' :: ·)).length := ⟨_, rfl⟩
  obtain ⟨idle', htake, hidle'⟩ := exists_take_idle hidle (k - old.length)
  have hlength : p.chars.length - old.length = (front ++ stem ++ ['.']).length + k := by
    rw [hchars, hk]
    simp only [List.length_append, List.length_cons, List.length_nil]
    omega
  have happend : p.chars = (front ++ stem ++ ['.']) ++ (old ++ idle.flatMap ('/' :: ·)) := by
    rw [hchars]
    simp
  have hcut : p.chars.take (p.chars.length - old.length) =
      front ++ (stem ++ '.' :: old.take k) ++ idle'.flatMap ('/' :: ·) := by
    rw [hlength, happend, List.take_length_add_append, List.take_append, htake]
    simp
  exact ⟨k, idle', hidle', by rw [hcut, hbuild]⟩

section

variable {lead stem old ext : List Char} {idle : List (List Char)}

/-- The extension of the last part can be replaced. -/
theorem Laid.replace_extension (h : Laid lead (init ++ [stem ++ '.' :: old])) (hstem : stem ≠ [])
    (hext : '/' ∉ ext) (hidle : ∀ t ∈ idle, isIdle t = true) :
    Laid lead (init ++ (stem ++ '.' :: ext) :: idle) := by
  have hslash : '/' ∉ stem ++ '.' :: old := h.no_slash _ (by simp)
  have hslash : '/' ∉ stem ∧ '/' ∉ old := by simpa using hslash
  exact h.replace_last (isIdle_append_dot hstem) (by simpa [hslash.1] using hext) hidle

theorem Laid.parts_replace_extension (h : Laid lead (init ++ [stem ++ '.' :: old]))
    (hstem : stem ≠ []) (hext : '/' ∉ ext) (hidle : ∀ t ∈ idle, isIdle t = true) :
    (build lead (init ++ (stem ++ '.' :: ext) :: idle)).parts = init ++ [stem ++ '.' :: ext] := by
  rw [(h.replace_extension hstem hext hidle).parts_build, List.append_cons,
    trimIdle_append _ hidle, trimIdle_concat, if_neg (by simp [isIdle_append_dot hstem])]

/-- The only name with a dot behind its first character that stands for the directory above is the
one of two dots. -/
theorem stem_eq_dot (hstem : stem ≠ []) (h : stem ++ '.' :: ext = ['.', '.']) : stem = ['.'] := by
  obtain ⟨c, stem, rfl⟩ := List.exists_cons_of_ne_nil hstem
  rw [List.cons_append, List.cons.injEq, List.append_eq_singleton_iff] at h
  obtain ⟨rfl, ⟨rfl, -⟩ | ⟨-, hnil⟩⟩ := h
  · rfl
  · cases hnil

/-- A path with another extension has the same parts, but the last one has the new extension in
place of the old one. Only a name such as `..x` is left without a file name. -/
theorem parts_withExtension (h : p.extension? = some old) (hext : '/' ∉ ext) :
    ∃ init stem, p.parts = init ++ [stem ++ '.' :: old] ∧ stem ≠ [] ∧ '.' ∉ old ∧
      (((p.withExtension ext).isAbsolute = p.isAbsolute ∧
          (p.withExtension ext).parts = init ++ [stem ++ '.' :: ext]) ∨
        stem = ['.'] ∧ (p.withExtension ext).fileName? = none) := by
  obtain ⟨init, stem, hparts, hstem, hold⟩ := extension?_eq_some h
  refine ⟨init, stem, hparts, hstem, hold, ?_⟩
  have hlaid := laid_parts (by simp [hparts] : p.parts ≠ [])
  rw [hparts] at hlaid
  have hslash : '/' ∉ old := by
    have hlast := hlaid.no_slash (stem ++ '.' :: old) (by simp)
    exact fun hmem => hlast (by simp [hmem])
  -- what is cut off is as long as the extension, but may be idle text behind it
  obtain ⟨k, idle, hidle, hcut⟩ := exists_take_extension hparts
  have hkept : '/' ∉ old.take k := fun hmem => hslash (List.mem_of_mem_take hmem)
  have hcutParts := hlaid.parts_replace_extension hstem hkept hidle
  obtain ⟨cut, hbuild⟩ : ∃ cut, cut = build (splitLead p.chars).1
    (init ++ (stem ++ '.' :: old.take k) :: idle) := ⟨_, rfl⟩
  rw [← hbuild] at hcut hcutParts
  rw [withExtension, h]
  simp only [hcut]
  by_cases hup : stem ++ '.' :: old.take k = ['.', '.']
  · have hnone : cut.fileName? = none := by
      rw [fileName?, hcutParts, List.getLast?_concat]
      exact if_pos hup
    exact Or.inr ⟨stem_eq_dot hstem hup, by rwa [setExtension, hnone]⟩
  · have hname : cut.fileName? = some (stem ++ '.' :: old.take k) :=
      fileName?_eq_some_iff.2 ⟨⟨init, hcutParts⟩, hup⟩
    have hset : cut.setExtension ext =
        build (splitLead p.chars).1 (init ++ [stem ++ '.' :: ext]) := by
      rw [setExtension, hname, hcutParts, List.dropLast_concat, hbuild,
        (hlaid.replace_extension hstem hkept hidle).splitLead_build]
      simp only [splitExtension_append stem fun e => hold (List.mem_of_mem_take e), if_neg hstem]
    have hnew : ∀ t ∈ ([] : List (List Char)), isIdle t = true := by simp
    refine Or.inl ⟨?_, ?_⟩
    · rw [hset, Bool.eq_iff_iff, (hlaid.replace_extension hstem hext hnew).isAbsolute_build,
        isAbsolute_iff]
    · rw [hset, hlaid.parts_replace_extension hstem hext hnew]

end

end Path

end Lectern
