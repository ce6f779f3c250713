import Mathlib.Data.List.TakeWhile
import Mathlib.Tactic
import Lectern.Text.Blank
import Lectern.Text.Lines
import Lectern.Text.Search

/-!
# Trimming and cutting texts of several lines

What trimming does to lines that are put together with line feeds, and which of them are not blank
when the text is cut into lines again (`nonBlankLines_trimEnd_intercalate`). A line that was cut
from a text holds no line feed (`newline_not_mem_of_mem_lines`).
-/

namespace Lectern.Text

/-! ## Lines hold no line feed -/

theorem newline_not_mem_of_mem_lines (s : List Char) : ∀ l ∈ lines s, '\n' ∉ l := by
  fun_induction lines s with
  | case1 => simp
  | case2 r ih => simpa using ih
  | case3 r ih => simpa using ih
  | case4 c r h h' heq ih =>
    have hc : c ≠ '\n' := fun e => h e
    simpa using Ne.symm hc
  | case5 c r h h' l ls heq ih =>
    have hc : c ≠ '\n' := fun e => h e
    rw [heq] at ih
    simp only [List.mem_cons, forall_eq_or_imp] at ih ⊢
    exact ⟨by simp [Ne.symm hc, ih.1], ih.2⟩

/-! ## Runs at the start of a text -/

/-- A run of elements with a property ends where an element does not have it. -/
theorem span_append {α : Type} {p : α → Bool} {run rest : List α} (hrun : ∀ a ∈ run, p a = true)
    (hrest : ∀ a ∈ rest.head?, p a = false) :
    (run ++ rest).takeWhile p = run ∧ (run ++ rest).dropWhile p = rest := by
  have hstop : rest.takeWhile p = [] ∧ rest.dropWhile p = rest := by
    cases rest with
    | nil => exact ⟨rfl, rfl⟩
    | cons a r =>
      have ha : ¬ p a = true := by simp [hrest a rfl]
      exact ⟨List.takeWhile_cons_of_neg ha, List.dropWhile_cons_of_neg ha⟩
  rw [List.takeWhile_append_of_pos hrun, List.dropWhile_append_of_pos hrun, hstop.1, hstop.2,
    List.append_nil]
  exact ⟨rfl, rfl⟩

/-! ## Blank texts -/

@[simp] theorem isBlankLine_nil : isBlankLine [] = true := rfl

@[simp] theorem isBlankLine_cons (c : Char) (s : List Char) :
    isBlankLine (c :: s) = (isBlank c && isBlankLine s) := rfl

@[simp] theorem isBlankLine_append (s t : List Char) :
    isBlankLine (s ++ t) = (isBlankLine s && isBlankLine t) := List.all_append

theorem isBlankLine_takeWhile (s : List Char) : isBlankLine (s.takeWhile isBlank) = true := by
  exact List.all_takeWhile

theorem isBlankLine_expandTabs (s : List Char) :
    isBlankLine (expandTabs s) = isBlankLine s := by
  induction s with
  | nil => rfl
  | cons c s ih =>
    have hstep : expandTabs (c :: s) = (if c = '\t' then [' ', ' ', ' ', ' '] else [c]) ++
        expandTabs s := rfl
    rw [hstep, isBlankLine_append, ih, isBlankLine_cons]
    split_ifs with h
    · subst h; rfl
    · simp

/-! ## Dropping a run at the end -/

theorem dropEndWhile_eq_nil_iff {α : Type} {p : α → Bool} {l : List α} :
    dropEndWhile p l = [] ↔ l.all p = true := by
  induction l with
  | nil => simp
  | cons a l ih =>
    unfold dropEndWhile
    split
    · rename_i h
      rw [List.all_cons, ih.1 h, Bool.and_true]
      split_ifs with ha <;> simp [ha]
    · rename_i d s h
      have hl : ¬ l.all p = true := fun e => by simp [ih.2 e] at h
      simp [hl]

theorem dropEndWhile_append {α : Type} (p : α → Bool) (l m : List α) :
    dropEndWhile p (l ++ m) =
      if m.all p = true then dropEndWhile p l else l ++ dropEndWhile p m := by
  induction l with
  | nil =>
    split_ifs with h
    · exact dropEndWhile_eq_nil_iff.2 h
    · rfl
  | cons a l ih =>
    rw [List.cons_append, dropEndWhile, ih]
    by_cases h : m.all p = true
    · rw [if_pos h, if_pos h, dropEndWhile]
    · have hm : dropEndWhile p m ≠ [] := fun e => h (dropEndWhile_eq_nil_iff.1 e)
      obtain ⟨d, s, hd⟩ := List.exists_cons_of_ne_nil (List.append_ne_nil_of_right_ne_nil l hm)
      rw [if_neg h, if_neg h, hd, List.cons_append, hd]

/-- What is dropped at the end satisfies the condition. -/
theorem exists_dropEndWhile_append {α : Type} (p : α → Bool) (l : List α) :
    ∃ t, t.all p = true ∧ dropEndWhile p l ++ t = l := by
  induction l with
  | nil => exact ⟨[], rfl, rfl⟩
  | cons a l ih =>
    obtain ⟨t, ht, hl⟩ := ih
    unfold dropEndWhile
    split
    · rename_i h
      rw [h, List.nil_append] at hl
      subst hl
      split_ifs with ha
      · exact ⟨a :: t, by rw [List.all_cons, ha, ht]; rfl, rfl⟩
      · exact ⟨t, ht, rfl⟩
    · rename_i d s h
      exact ⟨t, ht, by rw [← hl, h]; rfl⟩

theorem trimEnd_append (s t : List Char) :
    trimEnd (s ++ t) = if isBlankLine t = true then trimEnd s else s ++ trimEnd t :=
  dropEndWhile_append isBlank s t

theorem isBlankLine_trimEnd (s : List Char) : isBlankLine (trimEnd s) = isBlankLine s := by
  obtain ⟨t, ht, hs⟩ := exists_dropEndWhile_append isBlank s
  have ht : isBlankLine t = true := ht
  conv_rhs => rw [← hs, isBlankLine_append, ht, Bool.and_true]
  rfl

theorem mem_of_mem_trimEnd {c : Char} {s : List Char} (h : c ∈ trimEnd s) : c ∈ s := by
  obtain ⟨t, -, hs⟩ := exists_dropEndWhile_append isBlank s
  rw [← hs]
  exact List.mem_append_left t h

/-! ## The lines of a block that are not blank -/

/-- The lines of a text, cut at its line feeds, that are not blank. -/
def nonBlankLines (s : List Char) : List (List Char) :=
  (s.splitOn '\n').filter (!isBlankLine ·)

/-- The list with the blanks at the end of its last text dropped. -/
def trimLast : List (List Char) → List (List Char)
  | [] => []
  | [s] => [trimEnd s]
  | s :: t :: r => s :: trimLast (t :: r)

@[simp] theorem trimLast_nil : trimLast [] = [] := rfl

@[simp] theorem trimLast_singleton (s : List Char) : trimLast [s] = [trimEnd s] := rfl

theorem trimLast_cons {s : List Char} {r : List (List Char)} (h : r ≠ []) :
    trimLast (s :: r) = s :: trimLast r := by
  cases r with
  | nil => exact absurd rfl h
  | cons t r => rfl

@[simp] theorem length_trimLast (l : List (List Char)) : (trimLast l).length = l.length := by
  induction l with
  | nil => rfl
  | cons s r ih =>
    by_cases h : r = []
    · subst h; rfl
    · rw [trimLast_cons h, List.length_cons, ih, List.length_cons]

theorem splitOn_of_newline_not_mem {s : List Char} (h : '\n' ∉ s) : s.splitOn '\n' = [s] :=
  List.splitOnP_eq_singleton fun c hc => by
    simpa using show c ≠ '\n' from fun e => h (e ▸ hc)

theorem splitOn_append_newline {s : List Char} (h : '\n' ∉ s) (t : List Char) :
    (s ++ '\n' :: t).splitOn '\n' = s :: t.splitOn '\n' := by
  have key := List.splitOnP_append_cons (p := (· == '\n')) s t (beq_self_eq_true '\n')
  have hs : s.splitOnP (· == '\n') = [s] := splitOn_of_newline_not_mem h
  rw [hs] at key
  exact key

theorem nonBlankLines_of_newline_not_mem {s : List Char} (h : '\n' ∉ s) :
    nonBlankLines s = [s].filter (!isBlankLine ·) := by
  rw [nonBlankLines, splitOn_of_newline_not_mem h]

theorem nonBlankLines_append_newline {s : List Char} (h : '\n' ∉ s) (t : List Char) :
    nonBlankLines (s ++ '\n' :: t) = [s].filter (!isBlankLine ·) ++ nonBlankLines t := by
  rw [nonBlankLines, splitOn_append_newline h, ← List.singleton_append, List.filter_append]
  rfl

theorem isBlankLine_intercalate (l : List (List Char)) :
    isBlankLine (List.intercalate ['\n'] l) = l.all isBlankLine := by
  induction l with
  | nil => rfl
  | cons s r ih =>
    cases r with
    | nil => simp
    | cons t r =>
      rw [List.intercalate_cons_cons, isBlankLine_append, isBlankLine_append, ih,
        List.all_cons (l := t :: r), show isBlankLine ['\n'] = true from rfl, Bool.and_true]

/-- Trimming lines that are put together trims the last one that is not blank, and loses only
blank ones. -/
theorem nonBlankLines_trimEnd_intercalate {l : List (List Char)} (h : ∀ s ∈ l, '\n' ∉ s) :
    nonBlankLines (trimEnd (List.intercalate ['\n'] l)) =
      trimLast (l.filter (!isBlankLine ·)) := by
  induction l with
  | nil => rfl
  | cons s r ih =>
    have hs : '\n' ∉ s := h s (List.mem_cons_self ..)
    have ih := ih fun t ht => h t (List.mem_cons_of_mem s ht)
    have hone : nonBlankLines (trimEnd s) = trimLast ([s].filter (!isBlankLine ·)) := by
      rw [nonBlankLines_of_newline_not_mem fun e => hs (mem_of_mem_trimEnd e)]
      by_cases hb : isBlankLine s = true <;> simp [isBlankLine_trimEnd, hb]
    cases r with
    | nil => simpa using hone
    | cons t r =>
      rw [List.intercalate_cons_cons, List.append_assoc, List.singleton_append, trimEnd_append,
        isBlankLine_cons, isBlankLine_intercalate, show isBlank '\n' = true from rfl,
        Bool.true_and, ← List.singleton_append (l := t :: r), List.filter_append]
      split_ifs with hr
      · have hnone : (t :: r).filter (!isBlankLine ·) = [] := by
          rw [List.filter_eq_nil_iff]
          exact fun u hu => by simpa using List.all_eq_true.1 hr u hu
        rw [hnone, List.append_nil, hone]
      · have hne : (t :: r).filter (!isBlankLine ·) ≠ [] := by
          rw [Ne, List.filter_eq_nil_iff]
          intro hall
          exact hr (List.all_eq_true.2 fun u hu => by simpa using hall u hu)
        rw [show '\n' :: List.intercalate ['\n'] (t :: r) =
            ['\n'] ++ List.intercalate ['\n'] (t :: r) from rfl, trimEnd_append,
          isBlankLine_intercalate, if_neg hr, List.singleton_append,
          nonBlankLines_append_newline hs, ih]
        by_cases hb : isBlankLine s = true
        · simp [hb]
        · simp [hb, trimLast_cons hne]

/-! ## Expanding tabs -/

theorem newline_not_mem_expandTabs {s : List Char} (h : '\n' ∉ s) : '\n' ∉ expandTabs s := by
  intro hn
  obtain ⟨c, hc, hm⟩ := List.mem_flatMap.1 hn
  split_ifs at hm with ht
  · simp at hm
  · exact h (List.mem_singleton.1 hm ▸ hc)

theorem expandTabs_intercalate (l : List (List Char)) :
    expandTabs (List.intercalate ['\n'] l) = List.intercalate ['\n'] (l.map expandTabs) := by
  induction l with
  | nil => rfl
  | cons s r ih =>
    cases r with
    | nil => simp
    | cons t r =>
      rw [List.intercalate_cons_cons, expandTabs_append, expandTabs_append, ih]
      simp only [List.map_cons, List.intercalate_cons_cons]
      rfl

end Lectern.Text
