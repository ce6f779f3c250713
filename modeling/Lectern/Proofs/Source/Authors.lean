import Lectern.Proofs.Source.Opening

/-!
# The authors of a source

The lines behind a header tell the authors, up to the first line that starts with a star: each run
of lines between empty ones is an author, and each of its lines an element (`read_authors_eq`).
-/

namespace Lectern.Source

open Text

/-! ## Runs of lines -/

/-- The longest runs of lines that are not empty. -/
def runs (texts : List (List Char)) : List (List (List Char)) := (texts.splitOn []).filter (· ≠ [])

theorem runs_of_nil_not_mem {texts : List (List Char)} (h : [] ∉ texts) :
    runs texts = if texts = [] then [] else [texts] := by
  have hsplit : texts.splitOn [] = [texts] := List.splitOnP_eq_singleton fun t ht => by
    simpa using show t ≠ [] from fun e => h (e ▸ ht)
  rw [runs, hsplit]
  by_cases hnil : texts = [] <;> simp [hnil]

/-- An empty line ends a run. -/
theorem runs_append_nil_cons (texts behind : List (List Char)) :
    runs (texts ++ [] :: behind) = runs texts ++ runs behind := by
  rw [runs, List.splitOn_append_cons_self, List.filter_append]
  rfl

theorem nil_not_mem_runs (texts : List (List Char)) : [] ∉ runs texts := by
  simp [runs]

/-- The lines of the runs are those that are not empty, in their order. -/
theorem flatten_runs (texts : List (List Char)) : (runs texts).flatten = texts.filter (· ≠ []) := by
  have hflatten : (runs texts).flatten = (texts.splitOn []).flatten := by
    simpa [runs] using List.flatten_filter_ne_nil (L := texts.splitOn [])
  rw [hflatten]
  clear hflatten
  induction texts with
  | nil => rfl
  | cons t r ih =>
    rw [List.splitOn_cons_eq_if_modifyHead]
    by_cases ht : t = []
    · rw [if_pos (by simpa using ht), List.flatten_cons, List.nil_append, ih,
        List.filter_cons_of_neg (by simpa using ht)]
    · obtain ⟨l, ls, hl⟩ := List.exists_cons_of_ne_nil (List.splitOn_ne_nil [] r)
      rw [if_neg (by simpa using ht), List.filter_cons_of_pos (by simpa using ht), ← ih, hl]
      rfl

/-! ## Lines about authors -/

/-- The lines about authors among the lines behind a header: those up to the first star that are
neither comments nor notes. -/
def authorTexts (behind : List (List Char)) : List (List Char) :=
  (behind.takeWhile (·.head? ≠ some '*')).filter fun t => !isComment t && (noteText? t).isNone

/-- The author that lines tell. -/
def authorOfTexts (texts : List (List Char)) : Author := ⟨texts.map authorElement⟩

theorem authorTexts_cons_star {t : List Char} (h : t.head? = some '*') (r : List (List Char)) :
    authorTexts (t :: r) = [] := by
  rw [authorTexts, List.takeWhile_cons_of_neg (by simpa using h), List.filter_nil]

theorem authorTexts_cons {t : List Char} (h : t.head? ≠ some '*') (r : List (List Char)) :
    authorTexts (t :: r) =
      if isComment t = true ∨ (noteText? t).isSome = true then authorTexts r
      else t :: authorTexts r := by
  rw [authorTexts, List.takeWhile_cons_of_pos (by simpa using h), List.filter_cons]
  cases isComment t <;> cases noteText? t <;> rfl

theorem authorOf_map {texts : List (List Char)} (h : [] ∉ texts) :
    authorOf (texts.map authorElement) = (runs texts).map authorOfTexts := by
  rw [authorOf, runs_of_nil_not_mem h]
  by_cases hnil : texts = []
  · simp [hnil]
  · rw [if_neg (by simpa using hnil), if_neg hnil]
    rfl

/-- The authors are the runs of the lines about them; `texts` are the lines of the author that is
being read. -/
theorem readAuthors_numberedFrom {texts : List (List Char)} (h : [] ∉ texts) (first : Nat)
    (behind : List (List Char)) :
    (readAuthors (texts.map authorElement) (numberedFrom first behind)).1 =
      (runs (texts ++ authorTexts behind)).map authorOfTexts := by
  induction behind generalizing texts first with
  | nil =>
    show authorOf (texts.map authorElement) = _
    rw [authorOf_map h, authorTexts, List.takeWhile_nil, List.filter_nil, List.append_nil]
  | cons t r ih =>
    cases hcomment : isComment t with
    | true =>
      have hstar : t.head? ≠ some '*' := by
        intro hstar
        simp [isComment, hstar] at hcomment
      rw [numberedFrom_cons_comment hcomment, ih h, authorTexts_cons hstar,
        if_pos (.inl hcomment)]
    | false =>
      rw [numberedFrom_cons_line hcomment, readAuthors]
      by_cases hstar : t.head? = some '*'
      · rw [if_pos hstar, authorTexts_cons_star hstar, List.append_nil]
        exact authorOf_map h
      rw [if_neg hstar, authorTexts_cons hstar]
      by_cases hnote : (noteText? t).isSome = true
      · rw [if_pos hnote, if_pos (.inr hnote), ih h]
      have hkeep : ¬ (isComment t = true ∨ (noteText? t).isSome = true) := by
        simp [hcomment, hnote]
      rw [if_neg hnote, if_neg hkeep]
      by_cases hempty : t = []
      · have hrest := ih List.not_mem_nil (first + 1)
        rw [List.nil_append] at hrest
        rw [hempty, runs_append_nil_cons, List.map_append, ← authorOf_map h, ← hrest]
        rfl
      · have htexts : [] ∉ texts ++ [t] := by simpa [h] using Ne.symm hempty
        have hrest := ih htexts (first + 1)
        rw [List.map_append, List.append_assoc] at hrest
        rw [if_neg (by simpa using hempty)]
        exact hrest

/-- The authors of a document that is read are told by the lines behind its header. -/
theorem read_authors_eq {files : Files} {name : Path} {text : String} {d : Document} {o : Opening}
    {behind : List (List Char)} (h : read files name .full text = .ok d)
    (hlines : lines text.toList = o.lines ++ behind) :
    d.authors = (runs (authorTexts behind)).map authorOfTexts := by
  have hread := readLines_of_read h
  rw [hlines, readLines_opening] at hread
  cases htold : o.told with
  | error what => rw [htold] at hread; cases hread
  | ok d₀ =>
    rw [htold] at hread
    obtain ⟨items, -, rfl⟩ := readBody_eq_ok_iff.1 hread
    have hnone : ([] : List Char) ∉ ([] : List (List Char)) := List.not_mem_nil
    exact readAuthors_numberedFrom hnone _ _

end Lectern.Source
