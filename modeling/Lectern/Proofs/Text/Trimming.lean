import Lectern.Proofs.Text.Blocks

/-!
# Trimmed texts and words

A trimmed text neither starts nor ends with a blank, so trimming it again changes nothing
(`trim_trim`). The fields of a line are words, which have characters but no blanks
(`isWord_of_mem_fields`).
-/

namespace Lectern.Text

/-! ## Trimming -/

/-- The last character of a text that is trimmed at its end is not blank. -/
theorem isBlank_getLast?_trimEnd (s : List Char) :
    ∀ c ∈ (trimEnd s).getLast?, isBlank c = false := by
  induction s with
  | nil => simp [trimEnd]
  | cons c s ih =>
    rw [trimEnd] at ih ⊢
    rw [dropEndWhile]
    cases h : dropEndWhile isBlank s with
    | nil =>
      dsimp only
      split_ifs with hc
      · simp
      · simpa using hc
    | cons d t =>
      rw [h] at ih
      dsimp only
      rwa [List.getLast?_cons_cons]

theorem trimEnd_cons {c : Char} (hc : isBlank c = false) (s : List Char) :
    trimEnd (c :: s) = c :: trimEnd s := by
  rw [trimEnd, trimEnd, dropEndWhile]
  cases dropEndWhile isBlank s with
  | nil => exact if_neg (by simp [hc])
  | cons d t => rfl

theorem trimEnd_eq_self {s : List Char} (h : ∀ c ∈ s.getLast?, isBlank c = false) :
    trimEnd s = s := by
  rcases List.eq_nil_or_concat s with rfl | ⟨r, c, rfl⟩
  · rfl
  · rw [List.concat_eq_append] at h ⊢
    have hc : isBlank c = false := h c List.getLast?_concat
    have hlast : trimEnd [c] = [c] := trimEnd_cons hc []
    rw [trimEnd_append, hlast, if_neg (by simp [hc])]

theorem trimEnd_trimEnd (s : List Char) : trimEnd (trimEnd s) = trimEnd s :=
  trimEnd_eq_self (isBlank_getLast?_trimEnd s)

theorem isBlank_head?_trimStart (s : List Char) :
    ∀ c ∈ (trimStart s).head?, isBlank c = false := by
  intro c hc
  have hnot := List.head?_dropWhile_not isBlank s
  rw [Option.mem_def, trimStart] at hc
  rw [hc] at hnot
  simpa using hnot

/-- Trimming twice is trimming once. -/
theorem trim_trim (s : List Char) : trim (trim s) = trim s := by
  have hhead := isBlank_head?_trimStart s
  unfold trim
  cases hs : trimStart s with
  | nil => rfl
  | cons c r =>
    have hc : isBlank c = false := hhead c (by rw [hs]; rfl)
    have hstart : trimStart (c :: trimEnd r) = c :: trimEnd r :=
      List.dropWhile_cons_of_neg (by simp [hc])
    rw [trimEnd_cons hc, hstart, trimEnd_cons hc, trimEnd_trimEnd]

theorem mem_of_mem_trim {c : Char} {s : List Char} (h : c ∈ trim s) : c ∈ s :=
  (List.dropWhile_suffix isBlank).subset (mem_of_mem_trimEnd h)

/-! ## Words -/

/-- A word: characters that are not blank. -/
def IsWord (s : List Char) : Prop := s ≠ [] ∧ ∀ c ∈ s, isBlank c = false

theorem isWord_of_mem_fields (s : List Char) : ∀ f ∈ fields s, IsWord f := by
  fun_induction fields s with
  | case1 => simp
  | case2 c r hc ih => exact ih
  | case3 c r hc hr ih => exact List.forall_mem_cons.2 ⟨⟨by simp, by simpa using hc⟩, ih⟩
  | case4 c r hc hr hnil ih => simpa [IsWord] using hc
  | case5 c r hc hr f fs hfs ih =>
    rw [hfs] at ih
    obtain ⟨hf, hfs⟩ := List.forall_mem_cons.1 ih
    exact List.forall_mem_cons.2
      ⟨⟨by simp, List.forall_mem_cons.2 ⟨by simpa using hc, hf.2⟩⟩, hfs⟩

/-! ## Tabs -/

theorem expandTabs_cons {c : Char} (hc : c ≠ '\t') (s : List Char) :
    expandTabs (c :: s) = c :: expandTabs s := by
  rw [expandTabs, List.flatMap_cons, if_neg hc]
  rfl

theorem tab_not_mem_expandTabs (s : List Char) : '\t' ∉ expandTabs s := by
  intro h
  obtain ⟨c, -, hmem⟩ := List.mem_flatMap.1 h
  split_ifs at hmem with hc
  · simp at hmem
  · exact hc (List.mem_singleton.1 hmem).symm

end Lectern.Text
