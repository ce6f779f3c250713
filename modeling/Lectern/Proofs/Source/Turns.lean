import Lectern.Proofs.Source.Stretches

/-!
# The turns of the loops

The loops that skip empty lines, collect the lines of a block, and read the header and the authors:
what one turn does, and from it what the loop reads. Where the lines of a block end, a loop stands
behind a line that it has read and not used (`Collecting`); it is put back, or is a blank line and
tells nothing. How deep the calls for sections can go is bounded by the lines and by the stars of
their headings (`Cursor.reach`).
-/

namespace Lectern.Source

open Text

/-! ## How deep the calls can go -/

/-- The number of stars of a line, if it is a heading. -/
def level (text : List Char) : Nat := ((heading? text).map (·.1)).getD 0

/-- The most stars of a heading among the lines. -/
def steepest (lines : List Line) : Nat := lines.foldr (fun l n => max (level l.text) n) 0

theorem level_le_steepest {l : Line} {lines : List Line} (h : l ∈ lines) :
    level l.text ≤ steepest lines := by
  induction lines with
  | nil => cases h
  | cons l' r ih =>
    rcases List.mem_cons.1 h with rfl | h
    · exact le_max_left _ _
    · exact (ih h).trans (le_max_right _ _)

theorem steepest_le_of_suffix {lines lines' : List Line} (h : lines' <:+ lines) :
    steepest lines' ≤ steepest lines := by
  obtain ⟨front, rfl⟩ := h
  induction front with
  | nil => exact le_rfl
  | cons l front ih => exact ih.trans (le_max_right _ _)

/-- How many calls for sections can be open below a section at a depth: each of them reads a line of
its own, which is a heading one level below the one before. -/
def Cursor.reach (c : Cursor) (d : Nat) : Nat := min c.left (steepest c.rest - d)

theorem Cursor.Steps.reach_le {c c' : Cursor} (h : c.Steps c') (d : Nat) : c'.reach d ≤ c.reach d :=
  min_le_min h.left_le (Nat.sub_le_sub_right (steepest_le_of_suffix h.rest_suffix) d)

/-- Behind a heading right below a section one call less can be open. -/
theorem Cursor.reach_next_lt {c : Cursor} {l : Line} {r : List Line} {d : Nat} {title : List Char}
    (h : c.rest = l :: r) (hl : l.text = Descent.stars (d + 1) ++ ' ' :: title) :
    c.next.2.reach (d + 1) < c.reach d := by
  have hleft := c.left_next_lt h
  have hlevel : level l.text = d + 1 := by
    rw [level, hl, Descent.stars, heading?_replicate (Nat.le_add_left 1 d)]
    rfl
  have hsteep : d + 1 ≤ steepest c.rest := by
    rw [← hlevel]
    exact level_le_steepest (h ▸ List.mem_cons_self ..)
  have hsuffix : steepest c.next.2.rest ≤ steepest c.rest :=
    steepest_le_of_suffix (by rw [c.rest_next]; exact List.tail_suffix _)
  unfold Cursor.reach
  omega

namespace Descent

variable {files : Files} {base : Path}

/-! ## Reading lines -/

theorem ends_nonEmptyTurn (u : Unit) (c : Reader) :
    Ends (nonEmptyTurn u) c (Turned c.left
      (fun _ c' => (∃ l r, c.rest = l :: r ∧ l.text.isEmpty = true) ∧ c' = c.to c.toCursor.next.2)
      (fun r c' => r = .ok c.toCursor.next.1 ∧ c' = c.to c.toCursor.next.2 ∧
        ∀ l ∈ c.rest.head?, ¬ l.text.isEmpty = true)) := by
  refine (returns_next c).ends_bind ?_
  cases hrest : c.rest with
  | nil =>
    rw [Cursor.next_of_rest_eq_nil hrest]
    exact ends_pure (.done ⟨rfl, rfl, fun l hl => by cases hl⟩)
  | cons l r =>
    have hleft := Cursor.left_next_lt hrest
    rw [Cursor.next_of_rest_eq_cons hrest] at hleft ⊢
    dsimp only
    split_ifs with hempty
    · exact ends_pure (.again ⟨⟨l, r, rfl, hempty⟩, rfl⟩ hleft)
    · exact ends_pure (.done ⟨rfl, rfl, fun l' hl' => by
        obtain rfl := Option.some.inj hl'
        exact hempty⟩)

/-- A cursor is moved behind the empty lines in front of it. -/
structure Skipped (c d : Cursor) : Prop where
  steps : c.Steps d
  rest : d.rest = c.rest.dropWhile fun l => l.text.isEmpty
  place_le : c.place ≤ c.texts.length → d.place ≤ c.texts.length

/-- The next line that is not empty is the first one behind the empty ones. -/
theorem returns_nextNonEmpty (c : Reader) :
    ∃ d : Cursor, Skipped c.toCursor d ∧
      Returns nextNonEmpty c (.ok d.next.1) (c.to d.next.2) := by
  have hends : Ends nextNonEmpty c fun r c' => ∃ d : Cursor, Skipped c.toCursor d ∧
      r = .ok d.next.1 ∧ c' = c.to d.next.2 := by
    refine (loops_loop nonEmptyTurn).ends (I := fun _ c' => ∃ d : Cursor, c.Steps d ∧
      d.rest.dropWhile (fun l => l.text.isEmpty) = c.rest.dropWhile (fun l => l.text.isEmpty) ∧
        (c.place ≤ c.texts.length → d.place ≤ c.texts.length) ∧ c' = c.to d) ?_
      ⟨c.toCursor, .refl, rfl, id, rfl⟩
    rintro u _ ⟨d, hsteps, hrest, hplace, rfl⟩
    refine (ends_nonEmptyTurn u (c.to d)).mono fun r c' hturned => hturned.mono le_rfl ?_ ?_
    · rintro _ ⟨⟨l, r, hd, hempty⟩, rfl⟩
      have hd : d.rest = l :: r := hd
      refine ⟨d.next.2, hsteps.next, ?_, fun _ => ?_, rfl⟩
      · rw [d.rest_next, ← hrest, hd, List.dropWhile_cons, if_pos hempty, List.tail_cons]
      · rw [← hsteps.texts]
        exact Cursor.place_next_le hd
    · rintro _ ⟨rfl, rfl, hempty⟩
      refine ⟨d, ⟨hsteps, ?_, hplace⟩, rfl, rfl⟩
      have hempty : ∀ l ∈ d.rest.head?, ¬ l.text.isEmpty = true := hempty
      rw [← hrest]
      cases hd : d.rest with
      | nil => rfl
      | cons l r => rw [List.dropWhile_cons, if_neg (hempty l (by rw [hd]; rfl))]
  obtain ⟨_, _, hreturns, d, hskipped, rfl, rfl⟩ := hends
  exact ⟨d, hskipped, hreturns⟩

theorem Skipped.ne_nil {c d : Cursor} (h : Skipped c d) {l : Line} {r : List Line}
    (hd : d.rest = l :: r) : l.text ≠ [] := by
  have hhead := List.head?_dropWhile_not (fun l : Line => l.text.isEmpty) c.rest
  rw [← h.rest, hd] at hhead
  simpa using hhead

/-! ## Collecting the lines of a block -/

/-- Where a loop stands that collects what lines say: what it has from the lines between two places,
and the line behind the second one, which it has read. -/
structure Collecting (said? : List Char → Option (List Char)) (k j : Cursor)
    (s : List (List Char) × List Char) : Prop where
  steps : k.Steps j
  line : j.next.1 = some s.2
  told : s.1 ++ collected said? j.rest = collected said? k.rest
  behind : uncollected said? j.rest = uncollected said? k.rest

variable {said? : List Char → Option (List Char)} {k j : Cursor} {l : Line} {r : List Line}
  {s : List (List Char) × List Char} {said : List Char}

theorem collecting_first (said? : List Char → Option (List Char)) {first : List Char}
    (h : k.next.1 = some first) : Collecting said? k k ([], first) :=
  ⟨.refl, h, List.nil_append _, rfl⟩

theorem exists_rest_of_next (h : j.next.1 = some said) :
    ∃ l r, j.rest = l :: r ∧ l.text = said := by
  rw [j.next_fst] at h
  obtain ⟨l, hl, rfl⟩ := Option.map_eq_some_iff.1 h
  obtain ⟨r, hr⟩ := List.head?_eq_some_iff.1 hl
  exact ⟨l, r, hr, rfl⟩

/-- A line that says nothing ends the block. -/
theorem Collecting.stop (h : Collecting said? k j s) (hsaid : said? s.2 = none) :
    s.1 = collected said? k.rest ∧ j.rest = uncollected said? k.rest := by
  obtain ⟨l, r, hrest, hl⟩ := exists_rest_of_next h.line
  rw [← hl] at hsaid
  have htold := h.told
  have hbehind := h.behind
  rw [hrest, collected_cons_of_none hsaid, List.append_nil] at htold
  rw [hrest, uncollected_cons_of_none hsaid] at hbehind
  exact ⟨htold, hrest.trans hbehind⟩

/-- What is left to collect behind a line that says something. -/
theorem Collecting.goOn (h : Collecting said? k j s) (hsaid : said? s.2 = some said) :
    k.Steps j.next.2 ∧
      (s.1 ++ [said]) ++ collected said? j.next.2.rest = collected said? k.rest ∧
        uncollected said? j.next.2.rest = uncollected said? k.rest := by
  obtain ⟨l, r, hrest, hl⟩ := exists_rest_of_next h.line
  rw [← hl] at hsaid
  refine ⟨h.steps.next, ?_, ?_⟩
  · rw [← h.told, j.rest_next, hrest, collected_cons_of_some hsaid, List.append_assoc,
      List.singleton_append, List.tail_cons]
  · rw [← h.behind, j.rest_next, hrest, uncollected_cons_of_some hsaid, List.tail_cons]

/-- The last line of a source that says something ends the block too. -/
theorem Collecting.last (h : Collecting said? k j s) (hsaid : said? s.2 = some said)
    (hrest : j.next.2.rest = []) :
    k.Steps j.next.2 ∧ s.1 ++ [said] = collected said? k.rest ∧
      j.next.2.rest = uncollected said? k.rest := by
  obtain ⟨hsteps, htold, hbehind⟩ := h.goOn hsaid
  rw [hrest] at htold hbehind
  exact ⟨hsteps, (List.append_nil _).symm.trans htold, hrest.trans hbehind⟩

theorem ends_collectTurn (said? : List Char → Option (List Char))
    (s : List (List Char) × List Char) (c : Reader) :
    Ends (collectTurn said? s) c (Turned c.left
      (fun s' c' => ∃ said text, said? s.2 = some said ∧ c.toCursor.next.1 = some text ∧
        s' = (s.1 ++ [said], text) ∧ c' = c.to c.toCursor.next.2)
      (fun r c' => (said? s.2 = none ∧ r = .ok s.1 ∧ c' = c) ∨
        ∃ said, said? s.2 = some said ∧ c.rest = [] ∧ r = .ok (s.1 ++ [said]) ∧
          c' = c.to c.toCursor.next.2)) := by
  unfold collectTurn
  cases hsaid : said? s.2 with
  | none => exact ends_pure (.done (Or.inl ⟨rfl, rfl, rfl⟩))
  | some said =>
    refine (returns_next c).ends_bind ?_
    cases hrest : c.rest with
    | nil =>
      rw [Cursor.next_of_rest_eq_nil hrest]
      exact ends_pure (.done (Or.inr ⟨said, rfl, rfl, rfl, rfl⟩))
    | cons l r =>
      have hleft := Cursor.left_next_lt hrest
      rw [Cursor.next_of_rest_eq_cons hrest] at hleft ⊢
      exact ends_pure (.again ⟨said, l.text, rfl, rfl, rfl, rfl⟩ hleft)

theorem returns_collect (said? : List Char → Option (List Char)) (c : Reader) {first : List Char}
    (hk : k.next.1 = some first) :
    ∃ j, k.Steps j ∧ j.rest = uncollected said? k.rest ∧
      Returns (loop (collectTurn said?) ([], first)) (c.to k.next.2)
        (.ok (collected said? k.rest)) (c.to j.next.2) := by
  have hends : Ends (loop (collectTurn said?) ([], first)) (c.to k.next.2) fun r c' =>
      ∃ j, k.Steps j ∧ j.rest = uncollected said? k.rest ∧
        r = .ok (collected said? k.rest) ∧ c' = c.to j.next.2 := by
    refine (loops_loop (collectTurn said?)).ends
      (I := fun s c' => ∃ j, Collecting said? k j s ∧ c' = c.to j.next.2) ?_
      ⟨k, collecting_first said? hk, rfl⟩
    rintro s _ ⟨j, hj, rfl⟩
    refine (ends_collectTurn said? s _).mono fun r c' hturned => hturned.mono le_rfl ?_ ?_
    · rintro _ ⟨said, text, hsaid, hnext, rfl, rfl⟩
      obtain ⟨hsteps, htold, hbehind⟩ := hj.goOn hsaid
      exact ⟨j.next.2, ⟨hsteps, hnext, htold, hbehind⟩, rfl⟩
    · rintro _ (⟨hsaid, rfl, rfl⟩ | ⟨said, hsaid, hrest, rfl, rfl⟩)
      · obtain ⟨htold, hrest⟩ := hj.stop hsaid
        exact ⟨j, hj.steps, hrest, by rw [htold], rfl⟩
      · obtain ⟨hsteps, htold, hrest'⟩ := hj.last hsaid hrest
        exact ⟨j.next.2, hsteps, hrest', by rw [htold], rfl⟩
  obtain ⟨_, _, hreturns, j, hsteps, hrest, rfl, rfl⟩ := hends
  exact ⟨j, hsteps, hrest, hreturns⟩

/-! ## Blocks -/

/-- A list ends in front of the first line that is none of its bullets. -/
theorem returns_list (c : Reader) {first : List Char} (hk : k.next.1 = some first) :
    ∃ j, k.Steps j ∧ j.rest = uncollected bullet? k.rest ∧
      Returns (list first) (c.to k.next.2)
        (.ok (.list ((collected bullet? k.rest).map String.ofList))) (c.to j) := by
  obtain ⟨j, hsteps, hrest, hreturns⟩ := returns_collect bullet? c hk
  exact ⟨j.next.2.back, hsteps.nextBack, j.rest_next_back.trans hrest,
    hreturns.bind ((returns_back _).bind (returns_pure _ _))⟩

theorem returns_preformatted_blank {first : List Char} (h : isBlankLine first = true) (c : Reader) :
    Returns (preformatted first) c (.ok []) c := by
  rw [preformatted, if_pos h]
  exact returns_pure _ _

/-- A preformatted block ends in front of the first line that is not indented as its first one. -/
theorem returns_preformatted (c : Reader) {first : List Char} (hk : k.next.1 = some first)
    (h : ¬ isBlankLine first = true) :
    ∃ j, k.Steps j ∧ j.rest = uncollected (unindent? (first.takeWhile isBlank)) k.rest ∧
      Returns (preformatted first) (c.to k.next.2)
        (.ok [.preformatted (String.ofList (preformattedText
          (collected (unindent? (first.takeWhile isBlank)) k.rest)))]) (c.to j) := by
  obtain ⟨j, hsteps, hrest, hreturns⟩ :=
    returns_collect (unindent? (first.takeWhile isBlank)) c hk
  rw [preformatted, if_neg h]
  exact ⟨j.next.2.back, hsteps.nextBack, j.rest_next_back.trans hrest,
    hreturns.bind ((returns_back _).bind (returns_pure _ _))⟩

theorem ends_paragraphTurn (s : List (List Char) × List Char) (c : Reader) :
    Ends (paragraphTurn s) c (Turned c.left
      (fun s' c' => ∃ said text, paragraph? s.2 = some said ∧ c.toCursor.next.1 = some text ∧
        s' = (s.1 ++ [said], text) ∧ c' = c.to c.toCursor.next.2)
      (fun r c' => (paragraph? s.2 = none ∧ r = .ok s.1 ∧
          (isBlankLine s.2 = true ∧ c' = c ∨ c' = c.to c.toCursor.back)) ∨
        ∃ said, paragraph? s.2 = some said ∧ c.rest = [] ∧ r = .ok (s.1 ++ [said]) ∧
          c' = c.to c.toCursor.next.2)) := by
  unfold paragraphTurn
  by_cases hblank : isBlankLine s.2 = true
  · rw [if_pos hblank, paragraph?, hblank]
    exact ends_pure (.done (Or.inl ⟨rfl, rfl, Or.inl ⟨rfl, rfl⟩⟩))
  rw [if_neg hblank]
  by_cases hdot : s.2.head? = some '.'
  · have hsaid : paragraph? s.2 = none := if_pos (by simp [hdot])
    rw [if_pos hdot, hsaid]
    exact (returns_back c).ends_bind (ends_pure (.done (Or.inl ⟨rfl, rfl, Or.inr rfl⟩)))
  · have hsaid : paragraph? s.2 = some (paragraphLine s.2) := if_neg (by simp [hblank, hdot])
    rw [if_neg hdot, hsaid]
    refine (returns_next c).ends_bind ?_
    cases hrest : c.rest with
    | nil =>
      rw [Cursor.next_of_rest_eq_nil hrest]
      exact ends_pure (.done (Or.inr ⟨_, rfl, rfl, rfl, rfl⟩))
    | cons l r =>
      have hleft := Cursor.left_next_lt hrest
      rw [Cursor.next_of_rest_eq_cons hrest] at hleft ⊢
      exact ends_pure (.again ⟨_, l.text, rfl, rfl, rfl, rfl⟩ hleft)

/-- A paragraph ends in front of the first blank line or command, or behind that line if it is
blank. -/
theorem returns_paragraph (c : Reader) {first : List Char} (hk : k.next.1 = some first) :
    ∃ j, k.Steps j ∧
      (j.rest = uncollected paragraph? k.rest ∨
        ∃ l, uncollected paragraph? k.rest = l :: j.rest ∧ isBlankLine l.text = true) ∧
      Returns (paragraph first) (c.to k.next.2)
        (.ok (if (collected paragraph? k.rest).isEmpty then []
          else [.paragraph ((collected paragraph? k.rest).map String.ofList)])) (c.to j) := by
  have hends : Ends (loop paragraphTurn ([], first)) (c.to k.next.2) fun r c' =>
      ∃ j, k.Steps j ∧
        (j.rest = uncollected paragraph? k.rest ∨
          ∃ l, uncollected paragraph? k.rest = l :: j.rest ∧ isBlankLine l.text = true) ∧
        r = .ok (collected paragraph? k.rest) ∧ c' = c.to j := by
    refine (loops_loop paragraphTurn).ends
      (I := fun s c' => ∃ j, Collecting paragraph? k j s ∧ c' = c.to j.next.2) ?_
      ⟨k, collecting_first paragraph? hk, rfl⟩
    rintro s _ ⟨j, hj, rfl⟩
    refine (ends_paragraphTurn s _).mono fun r c' hturned => hturned.mono le_rfl ?_ ?_
    · rintro _ ⟨said, text, hsaid, hnext, rfl, rfl⟩
      obtain ⟨hsteps, htold, hbehind⟩ := hj.goOn hsaid
      exact ⟨j.next.2, ⟨hsteps, hnext, htold, hbehind⟩, rfl⟩
    · rintro _ (⟨hsaid, rfl, ⟨hblank, rfl⟩ | rfl⟩ | ⟨said, hsaid, hrest, rfl, rfl⟩)
      · obtain ⟨htold, hrest⟩ := hj.stop hsaid
        obtain ⟨l, r, hl, htext⟩ := exists_rest_of_next hj.line
        refine ⟨j.next.2, hj.steps.next, Or.inr ⟨l, ?_, by rw [htext, hblank]⟩, by rw [htold], rfl⟩
        rw [← hrest, j.rest_next, hl, List.tail_cons]
      · obtain ⟨htold, hrest⟩ := hj.stop hsaid
        exact ⟨j.next.2.back, hj.steps.nextBack, Or.inl (j.rest_next_back.trans hrest),
          by rw [htold], rfl⟩
      · obtain ⟨hsteps, htold, hbehind⟩ := hj.last hsaid hrest
        have hrest : j.next.2.rest = [] := hrest
        refine ⟨j.next.2.next.2, hsteps.next, Or.inl ?_, by rw [htold], rfl⟩
        rw [j.next.2.rest_next, ← hbehind, hrest, List.tail_nil]
  obtain ⟨_, _, hreturns, j, hsteps, hrest, rfl, rfl⟩ := hends
  exact ⟨j, hsteps, hrest, hreturns.bind (returns_pure _ _)⟩

/-! ## The header and the authors -/

theorem ends_headerTurn (d : Document) (c : Reader) :
    Ends (headerTurn d) c (Turned c.left
      (fun d' c' => c.toCursor.next.2.place ≤ c.texts.length ∧ c' = c.to c.toCursor.next.2 ∧
        ∀ stop, readHeaderLines stop d c.rest = readHeaderLines stop d' c'.rest)
      (fun r c' => c' = c.to c.toCursor.next.2 ∧ (c.place ≤ c.texts.length →
        r.map (fun d' => (d', c'.rest)) = readHeaderLines (c.texts.length + 1) d c.rest))) := by
  refine (returns_next c).ends_bind ?_
  have hnext : c.toCursor.next.2.rest = c.rest.tail := c.toCursor.rest_next
  cases hrest : c.rest with
  | nil =>
    have hplace := c.toCursor.place_next_of_rest_eq_nil hrest
    rw [c.toCursor.next_fst, hrest]
    refine (returns_stop _ _).ends (.failed ⟨rfl, fun hle => ?_⟩)
    rw [readHeaderLines, ← hplace hle]
    rfl
  | cons l r =>
    have hleft := Cursor.left_next_lt hrest
    have hplace := Cursor.place_next hrest
    rw [hrest, List.tail_cons] at hnext
    rw [c.toCursor.next_fst, hrest]
    dsimp only [List.head?_cons, Option.map_some]
    split_ifs with hempty
    · refine ends_pure (.done ⟨rfl, fun _ => ?_⟩)
      rw [readHeaderLines, if_pos hempty, ← hnext]
      rfl
    · cases hline : headerLine d l.text with
      | ok d' =>
        refine ends_pure (.again ⟨Cursor.place_next_le hrest, rfl, fun stop => ?_⟩ hleft)
        rw [readHeaderLines, if_neg hempty, hline, ← hnext]
        rfl
      | error problem =>
        refine (returns_stop _ _).ends (.failed ⟨rfl, fun _ => ?_⟩)
        rw [readHeaderLines, if_neg hempty, hline, ← hplace]
        rfl

theorem readHeader_dropWhile_isEmpty (stop : Nat) (lines : List Line) :
    readHeader stop (lines.dropWhile fun l => l.text.isEmpty) = readHeader stop lines := by
  induction lines with
  | nil => rfl
  | cons l r ih =>
    by_cases hl : l.text.isEmpty = true
    · rw [List.dropWhile_cons, if_pos hl, ih, readHeader, if_pos hl]
    · rw [List.dropWhile_cons, if_neg hl]

/-- The header is read as by `readHeader`. -/
theorem ends_header {c : Reader} (hplace : c.place ≤ c.texts.length) :
    Ends header c fun r c' => ∃ j, c.Steps j ∧ c' = c.to j ∧
      r.map (fun d => (d, j.rest)) = readHeader (c.texts.length + 1) c.rest := by
  obtain ⟨k, hskipped, hreturns⟩ := returns_nextNonEmpty c
  have hread : readHeader (c.texts.length + 1) c.rest = readHeader (c.texts.length + 1) k.rest := by
    rw [hskipped.rest, readHeader_dropWhile_isEmpty]
  have htexts : k.texts = c.texts := hskipped.steps.texts
  refine hreturns.ends_bind ?_
  rw [k.next_fst, hread]
  cases hrest : k.rest with
  | nil =>
    have hstop := Cursor.place_next_of_rest_eq_nil hrest (htexts ▸ hskipped.place_le hplace)
    refine (returns_stop _ _).ends ⟨_, hskipped.steps.next, rfl, ?_⟩
    rw [readHeader, ← htexts, ← hstop]
    rfl
  | cons l r =>
    have hne : ¬ l.text.isEmpty = true := by simpa using hskipped.ne_nil hrest
    have hplace' : k.next.2.place ≤ c.texts.length := htexts ▸ Cursor.place_next_le hrest
    have hbehind : k.next.2.rest = r := by rw [k.rest_next, hrest, List.tail_cons]
    rw [readHeader, if_neg hne, ← hbehind]
    refine (loops_loop headerTurn).ends (I := fun d c' => ∃ j, c.Steps j ∧ c' = c.to j ∧
      j.place ≤ c.texts.length ∧ readHeaderLines (c.texts.length + 1) d j.rest =
        readHeaderLines (c.texts.length + 1) { title := String.ofList l.text } k.next.2.rest) ?_
      ⟨k.next.2, hskipped.steps.next, rfl, hplace', rfl⟩
    rintro d _ ⟨j, hsteps, rfl, hle, hlines⟩
    refine (ends_headerTurn d (c.to j)).mono fun r c' hturned => hturned.mono le_rfl ?_ ?_
    · rintro d' ⟨hle', rfl, hd'⟩
      exact ⟨j.next.2, hsteps.next, rfl, hsteps.texts ▸ hle', by rw [← hlines]; exact (hd' _).symm⟩
    · rintro res ⟨rfl, hres⟩
      have hres := hres (hsteps.texts.symm ▸ hle)
      exact ⟨j.next.2, hsteps.next, rfl, by rw [← hlines, ← hsteps.texts]; exact hres⟩

theorem ends_authorsTurn (s : List Author × List Element) (c : Reader) :
    Ends (authorsTurn s) c (Turned c.left
      (fun s' c' => c' = c.to c.toCursor.next.2 ∧
        s.1 ++ (readAuthors s.2 c.rest).1 = s'.1 ++ (readAuthors s'.2 c'.rest).1 ∧
        (readAuthors s.2 c.rest).2 = (readAuthors s'.2 c'.rest).2)
      (fun r c' => r = .ok (s.1 ++ (readAuthors s.2 c.rest).1) ∧
        ∃ j, c.Steps j ∧ c' = c.to j ∧ j.rest = (readAuthors s.2 c.rest).2)) := by
  refine (returns_next c).ends_bind ?_
  have hnext : c.toCursor.next.2.rest = c.rest.tail := c.toCursor.rest_next
  have hback : c.toCursor.next.2.back.rest = c.rest := c.toCursor.rest_next_back
  rw [c.toCursor.next_fst]
  cases hrest : c.rest with
  | nil =>
    rw [hrest] at hnext
    exact ends_pure (.done ⟨rfl, _, .next .refl, rfl, hnext⟩)
  | cons l r =>
    have hleft := Cursor.left_next_lt hrest
    rw [hrest, List.tail_cons] at hnext
    rw [hrest] at hback
    dsimp only [List.head?_cons, Option.map_some]
    rw [readAuthors]
    split_ifs with hstar hnote hempty
    · refine (returns_back _).ends_bind (ends_pure (.done ⟨rfl, _, .nextBack .refl, rfl, hback⟩))
    · refine ends_pure (.again ⟨rfl, ?_⟩ hleft)
      rw [← hnext]
      exact ⟨rfl, rfl⟩
    · refine ends_pure (.again ⟨rfl, ?_⟩ hleft)
      rw [← hnext]
      exact ⟨(List.append_assoc _ _ _).symm, rfl⟩
    · refine ends_pure (.again ⟨rfl, ?_⟩ hleft)
      rw [← hnext]
      exact ⟨rfl, rfl⟩

/-- The authors are read as by `readAuthors`. -/
theorem returns_authors (c : Reader) :
    ∃ j, c.Steps j ∧ j.rest = (readAuthors [] c.rest).2 ∧
      Returns authors c (.ok (readAuthors [] c.rest).1) (c.to j) := by
  have hends : Ends authors c fun r c' => r = .ok (readAuthors [] c.rest).1 ∧
      ∃ j, c.Steps j ∧ c' = c.to j ∧ j.rest = (readAuthors [] c.rest).2 := by
    refine (loops_loop authorsTurn).ends (I := fun s c' => ∃ j, c.Steps j ∧ c' = c.to j ∧
      s.1 ++ (readAuthors s.2 j.rest).1 = (readAuthors [] c.rest).1 ∧
      (readAuthors s.2 j.rest).2 = (readAuthors [] c.rest).2) ?_ ⟨_, .refl, rfl, rfl, rfl⟩
    rintro s _ ⟨j, hsteps, rfl, hauthors, hbehind⟩
    refine (ends_authorsTurn s (c.to j)).mono fun r c' hturned => hturned.mono le_rfl ?_ ?_
    · rintro s' ⟨rfl, hauthors', hbehind'⟩
      exact ⟨j.next.2, hsteps.next, rfl, hauthors'.symm.trans hauthors, hbehind'.symm.trans hbehind⟩
    · rintro _ ⟨rfl, k, hsteps', rfl, hrest⟩
      exact ⟨congrArg Except.ok hauthors, k, hsteps.trans hsteps', rfl, hrest.trans hbehind⟩
  obtain ⟨_, _, hreturns, rfl, j, hsteps, rfl, hrest⟩ := hends
  exact ⟨j, hsteps, hrest, hreturns⟩

end Descent

end Lectern.Source
