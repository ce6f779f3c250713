import Lectern.Proofs.Inline.Links
import Lectern.Proofs.Page.Querying

/-!
# Words in fonts

A word is in a font if it stands between two markers of the font, with nothing but punctuation
behind the second one. A text without links is read as it stands but for these markers and the
underscores inside of italics (`readsAs_iff`).
-/

namespace Lectern

open Text

/-! ## Marked words -/

/-- The word has a marker of the font on both sides of what is inside, and punctuation behind it. -/
structure Font.Marks (f : Font) (w inner trailing : List Char) : Prop where
  word_eq : w = f.marker :: (inner ++ f.marker :: trailing)
  inner_ne_nil : inner ≠ []
  punctuation : ∀ c ∈ trailing, isAsciiPunctuation c = true ∧ c ≠ f.marker

/-- A word is read without its markers if it has them, and as it is otherwise. -/
inductive WordReadsAs : List Char → List Char → Prop
  | marked {f : Font} {w inner trailing : List Char} (h : f.Marks w inner trailing) :
      WordReadsAs w (f.shown inner ++ trailing)
  | unmarked {w : List Char} (h : ∀ f inner trailing, ¬ Font.Marks f w inner trailing) :
      WordReadsAs w w

/-- A text without links is read blank by blank and word by word. -/
inductive ReadsAs : List Char → List Char → Prop
  | nil : ReadsAs [] []
  | blank {c : Char} {s u : List Char} (hc : isBlank c = true) (h : ReadsAs s u) :
      ReadsAs (c :: s) (c :: u)
  | word {w v s u : List Char} (hne : w ≠ []) (hw : ∀ c ∈ w, isBlank c = false)
      (hs : ∀ c ∈ s.head?, isBlank c = true) (hv : WordReadsAs w v) (h : ReadsAs s u) :
      ReadsAs (w ++ s) (v ++ u)

variable {f : Font} {w inner trailing s u v : List Char}

/-- May the character stand behind the closing marker? -/
def Font.trails (f : Font) (c : Char) : Bool := isAsciiPunctuation c && c ≠ f.marker

theorem Font.unmark?_marker_cons (f : Font) (rest : List Char) :
    f.unmark? (f.marker :: rest) =
      if (dropEndWhile f.trails rest).getLast? ≠ some f.marker ||
          (dropEndWhile f.trails rest).dropLast.isEmpty then none
      else some ((dropEndWhile f.trails rest).dropLast,
        rest.drop (dropEndWhile f.trails rest).length) :=
  if_neg (not_not.2 rfl)

theorem Font.dropEndWhile_trails (f : Font) (inner : List Char)
    (h : ∀ c ∈ trailing, isAsciiPunctuation c = true ∧ c ≠ f.marker) :
    dropEndWhile f.trails (inner ++ f.marker :: trailing) = inner ++ [f.marker] := by
  have htrailing : trailing.all f.trails = true := by simpa [Font.trails] using h
  have hmarker : dropEndWhile f.trails [f.marker] = [f.marker] := by
    simp [dropEndWhile, Font.trails]
  rw [List.append_cons, dropEndWhile_append, if_pos htrailing, dropEndWhile_append,
    if_neg (by simp [Font.trails]), hmarker]

/-- The word that a font marks is read as its inside and the punctuation behind it. -/
theorem Font.unmark?_eq_some_iff :
    f.unmark? w = some (inner, trailing) ↔ f.Marks w inner trailing := by
  constructor
  · intro h
    obtain ⟨rest, rfl⟩ : ∃ rest, w = f.marker :: rest := by
      cases w with
      | nil => cases h
      | cons c rest =>
        rw [Font.unmark?] at h
        split_ifs at h with hc
        exact ⟨rest, by rw [not_not.1 hc]⟩
    rw [Font.unmark?_marker_cons] at h
    split_ifs at h with hnone
    obtain ⟨rfl, rfl⟩ := Prod.mk.inj (Option.some.inj h)
    rw [Bool.or_eq_true, not_or, decide_eq_true_iff, not_not, List.isEmpty_iff] at hnone
    obtain ⟨hlast, hinner⟩ := hnone
    obtain ⟨trailing, htrailing, hrest⟩ := exists_dropEndWhile_append f.trails rest
    have hbody := List.dropLast_append_getLast? _ hlast
    have hdrop : rest.drop (dropEndWhile f.trails rest).length = trailing :=
      (congrArg (List.drop _) hrest).symm.trans List.drop_left
    refine ⟨?_, hinner, ?_⟩
    · rw [hdrop, List.append_cons, hbody, hrest]
    · rw [hdrop]
      simpa [Font.trails] using htrailing
  · rintro ⟨rfl, hinner, hpunctuation⟩
    rw [Font.unmark?_marker_cons, f.dropEndWhile_trails inner hpunctuation]
    simp [hinner]

theorem Font.marker_injective {f g : Font} (h : f.marker = g.marker) : f = g := by
  revert h
  cases f <;> cases g <;> decide

/-- A word is marked in one way at most. -/
theorem Font.Marks.unique {g : Font} {inner' trailing' : List Char}
    (h : f.Marks w inner trailing) (h' : g.Marks w inner' trailing') :
    f = g ∧ inner = inner' ∧ trailing = trailing' := by
  have hfg : f = g := by
    have heq := h.word_eq.symm.trans h'.word_eq
    exact Font.marker_injective (List.cons.inj heq).1
  subst hfg
  have heq := (Font.unmark?_eq_some_iff.2 h).symm.trans (Font.unmark?_eq_some_iff.2 h')
  exact ⟨rfl, Prod.mk.inj (Option.some.inj heq)⟩

theorem wordSpans_of_marks (h : f.Marks w inner trailing) :
    wordSpans w = [.font f (f.shown inner), .text trailing] := by
  have hsome : (f.unmark? w).map (f, ·) = some (f, inner, trailing) := by
    rw [Font.unmark?_eq_some_iff.2 h]
    rfl
  have hnone : ∀ g, g ≠ f → (g.unmark? w).map (g, ·) = none := by
    intro g hg
    rw [Option.map_eq_none_iff, Option.eq_none_iff_forall_ne_some]
    exact fun found hfound => hg (Font.Marks.unique (Font.unmark?_eq_some_iff.1 hfound) h).1
  have hfind : [Font.bold, .italic, .code].findSome? (fun f => (f.unmark? w).map (f, ·)) =
      some (f, inner, trailing) := by
    cases f <;> simp [hsome, hnone]
  rw [wordSpans, hfind]

theorem wordSpans_of_not_marks (h : ∀ f inner trailing, ¬ Font.Marks f w inner trailing) :
    wordSpans w = [.text w] := by
  have hfind : [Font.bold, .italic, .code].findSome? (fun f => (f.unmark? w).map (f, ·)) =
      none := by
    rw [List.findSome?_eq_none_iff]
    intro f _
    rw [Option.map_eq_none_iff, Option.eq_none_iff_forall_ne_some]
    exact fun found hfound => h f _ _ (Font.unmark?_eq_some_iff.1 hfound)
  rw [wordSpans, hfind]

/-! ## The words of a text -/

theorem pieces_blank {c : Char} (hc : isBlank c = true) (s : List Char) :
    pieces (c :: s) = .blank c :: pieces s := by
  rw [pieces, if_pos hc]

theorem pieces_word (hne : w ≠ []) (hw : ∀ c ∈ w, isBlank c = false)
    (hs : ∀ c ∈ s.head?, isBlank c = true) : pieces (w ++ s) = .word w :: pieces s := by
  induction w with
  | nil => exact absurd rfl hne
  | cons c w ih =>
    have hc : ¬ isBlank c = true := by simp [hw c (List.mem_cons_self ..)]
    rw [List.cons_append, pieces, if_neg hc]
    by_cases hnil : w = []
    · subst hnil
      rw [List.nil_append]
      cases s with
      | nil => rfl
      | cons d r => rw [pieces_blank (hs d rfl)]
    · rw [ih hnil fun d hd => hw d (List.mem_cons_of_mem c hd)]

/-- What a span shows. -/
def Span.content : Span → List Char
  | text s => s
  | font _ inner => inner

theorem WordReadsAs.content_eq (h : WordReadsAs w v) : (wordSpans w).flatMap Span.content = v := by
  cases h with
  | marked h =>
    rw [wordSpans_of_marks h]
    simp [Span.content]
  | unmarked h =>
    rw [wordSpans_of_not_marks h]
    simp [Span.content]

theorem exists_wordReadsAs (w : List Char) : ∃ v, WordReadsAs w v := by
  by_cases h : ∃ f inner trailing, Font.Marks f w inner trailing
  · obtain ⟨f, inner, trailing, h⟩ := h
    exact ⟨_, .marked h⟩
  · push Not at h
    exact ⟨w, .unmarked h⟩

theorem ReadsAs.content_eq (h : ReadsAs s u) : (spans s).flatMap Span.content = u := by
  induction h with
  | nil => rfl
  | blank hc _ ih =>
    rw [spans, pieces_blank hc, List.flatMap_cons, ← spans, List.flatMap_append, ih]
    rfl
  | word hne hw hs hv _ ih =>
    rw [spans, pieces_word hne hw hs, List.flatMap_cons, ← spans, List.flatMap_append, ih,
      hv.content_eq]

theorem exists_readsAs : ∀ s : List Char, ∃ u, ReadsAs s u
  | [] => ⟨[], .nil⟩
  | c :: r => by
    by_cases hc : isBlank c = true
    · obtain ⟨u, hu⟩ := exists_readsAs r
      exact ⟨c :: u, .blank hc hu⟩
    · -- The word goes on up to the next blank, and the text behind it is shorter.
      have hlen : (r.dropWhile (!isBlank ·)).length < (c :: r).length :=
        Nat.lt_succ_of_le (length_dropWhile_le _ r)
      obtain ⟨u, hu⟩ := exists_readsAs (r.dropWhile (!isBlank ·))
      obtain ⟨v, hv⟩ := exists_wordReadsAs (c :: r.takeWhile (!isBlank ·))
      have hreads := ReadsAs.word (List.cons_ne_nil _ _) ?_ ?_ hv hu
      · rw [List.cons_append, List.takeWhile_append_dropWhile] at hreads
        exact ⟨v ++ u, hreads⟩
      · intro d hd
        rcases List.mem_cons.1 hd with rfl | hd
        · simpa using hc
        · simpa using List.mem_takeWhile_imp hd
      · intro d hd
        have hstop := List.head?_dropWhile_not (!isBlank ·) r
        rw [Option.mem_def.1 hd] at hstop
        simpa using hstop
termination_by s => s.length
decreasing_by
  · simp
  · exact hlen

/-- A text is read as what its spans hold. -/
theorem readsAs_iff : ReadsAs s u ↔ u = (spans s).flatMap Span.content := by
  constructor
  · exact fun h => h.content_eq.symm
  · rintro rfl
    obtain ⟨u, hu⟩ := exists_readsAs s
    rwa [hu.content_eq]

end Lectern
