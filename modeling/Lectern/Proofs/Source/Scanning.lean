import Lectern.Proofs.Source.Passages

/-!
# Reading lines from a state on

`scan` reads lines from the state of the reader and tells where it stands behind them, so that the
lines of a body can be read part by part. A block is told when the line behind it closes it;
`Yields` counts it where its lines are, whatever may come behind. At the end of a block
(`State.AtBreak`) the next line starts something new, whatever was read before.
-/

namespace Lectern.Source

open Text

variable {files : Files} {base : Path} {st st' st'' : State}

/-! ## The reader behind lines -/

/-- Reads lines from a state on: the items that they close, and the state behind them. -/
def scan (files : Files) (base : Path) (st : State) :
    List (List Char) → Except Problem (List Item × State)
  | [] => .ok ([], st)
  | text :: r =>
      match readLine files base st text with
      | .error problem => .error problem
      | .ok (items, st) => (scan files base st r).map fun p => (items ++ p.1, p.2)

@[simp] theorem scan_nil : scan files base st [] = .ok ([], st) := rfl

theorem scan_cons_of_ok {text : List Char} {items : List Item}
    (h : readLine files base st text = .ok (items, st')) (r : List (List Char)) :
    scan files base st (text :: r) =
      (scan files base st' r).map fun p => (items ++ p.1, p.2) := by
  rw [scan, h]

theorem scan_cons_of_error {text : List Char} {problem : Problem}
    (h : readLine files base st text = .error problem) (r : List (List Char)) :
    scan files base st (text :: r) = .error problem := by
  rw [scan, h]

theorem scan_append_of_ok {xs : List (List Char)} {items : List Item}
    (h : scan files base st xs = .ok (items, st')) (ys : List (List Char)) :
    scan files base st (xs ++ ys) =
      (scan files base st' ys).map fun p => (items ++ p.1, p.2) := by
  induction xs generalizing st items with
  | nil =>
    obtain ⟨rfl, rfl⟩ := Prod.mk.inj (Except.ok.inj h)
    rw [List.nil_append]
    cases scan files base st ys <;> rfl
  | cons x xs ih =>
    cases hx : readLine files base st x with
    | error problem => rw [scan_cons_of_error hx] at h; cases h
    | ok p =>
      obtain ⟨begun, st₁⟩ := p
      rw [scan_cons_of_ok hx] at h
      obtain ⟨⟨more, st₂⟩, hmore, heq⟩ := map_eq_ok h
      obtain ⟨rfl, rfl⟩ := Prod.mk.inj heq
      rw [List.cons_append, scan_cons_of_ok hx, ih hmore]
      cases scan files base st₂ ys with
      | error problem => rfl
      | ok q => simp [Except.map, List.append_assoc]

theorem scan_append_of_error {xs : List (List Char)} {problem : Problem}
    (h : scan files base st xs = .error problem) (ys : List (List Char)) :
    scan files base st (xs ++ ys) = .error problem := by
  induction xs generalizing st with
  | nil => cases h
  | cons x xs ih =>
    cases hx : readLine files base st x with
    | error problem =>
      rw [scan_cons_of_error hx] at h
      rw [List.cons_append, scan_cons_of_error hx, h]
    | ok p =>
      obtain ⟨begun, st₁⟩ := p
      rw [scan_cons_of_ok hx] at h
      rw [List.cons_append, scan_cons_of_ok hx]
      cases hxs : scan files base st₁ xs with
      | error problem' =>
        rw [hxs] at h
        obtain rfl : problem' = problem := Except.error.inj h
        rw [ih hxs]
        rfl
      | ok q => rw [hxs] at h; cases h

/-! ## Items of parts of a body -/

/-- The items of a body are those of the blocks that are closed in it and of the one left open. -/
theorem readItems_eq_ok_iff {lines : List Line} {items : List Item} :
    readItems files base st lines = .ok items ↔
      ∃ closed st', scan files base st (lines.map (·.text)) = .ok (closed, st') ∧
        items = closed ++ st'.pending := by
  induction lines generalizing st items with
  | nil =>
    constructor
    · intro h
      exact ⟨[], st, rfl, (Except.ok.inj h).symm⟩
    · rintro ⟨closed, st', h, rfl⟩
      obtain ⟨rfl, rfl⟩ := Prod.mk.inj (Except.ok.inj h)
      rfl
  | cons l r ih =>
    rw [List.map_cons, readItems]
    cases hl : readLine files base st l.text with
    | error problem =>
      rw [scan_cons_of_error hl]
      simp
    | ok p =>
      obtain ⟨begun, st₁⟩ := p
      rw [scan_cons_of_ok hl]
      constructor
      · intro h
        obtain ⟨more, hmore, rfl⟩ := map_eq_ok h
        obtain ⟨closed, st', hscan, rfl⟩ := ih.1 hmore
        exact ⟨begun ++ closed, st', by rw [hscan]; rfl, (List.append_assoc ..).symm⟩
      · rintro ⟨closed, st', hscan, rfl⟩
        obtain ⟨⟨more, st₂⟩, hmore, heq⟩ := map_eq_ok hscan
        obtain ⟨rfl, rfl⟩ := Prod.mk.inj heq
        have hrest := ih.2 ⟨more, st₂, hmore, rfl⟩
        simp only [hrest, Except.map, List.append_assoc]

/-- Lines that are read from one state to another, and the items of their blocks. The block that is
open at the start counts as one of the lines in front, the one that is open at the end as one of
these lines. -/
def Yields (files : Files) (base : Path) (st : State) (texts : List (List Char))
    (items : List Item) (st' : State) : Prop :=
  ∃ closed, scan files base st texts = .ok (closed, st') ∧
    closed ++ st'.pending = st.pending ++ items

theorem Yields.nil : Yields files base st [] [] st := ⟨[], rfl, (List.append_nil _).symm⟩

theorem Yields.of_readLine {text : List Char} {closed items : List Item}
    (h : readLine files base st text = .ok (closed, st'))
    (hitems : closed ++ st'.pending = st.pending ++ items) :
    Yields files base st [text] items st' :=
  ⟨closed, by rw [scan_cons_of_ok h, scan_nil, Except.map, List.append_nil], hitems⟩

theorem Yields.append {xs ys : List (List Char)} {items items' : List Item}
    (h : Yields files base st xs items st') (h' : Yields files base st' ys items' st'') :
    Yields files base st (xs ++ ys) (items ++ items') st'' := by
  obtain ⟨closed, hscan, hitems⟩ := h
  obtain ⟨closed', hscan', hitems'⟩ := h'
  refine ⟨closed ++ closed', by rw [scan_append_of_ok hscan, hscan', Except.map], ?_⟩
  rw [List.append_assoc, hitems', ← List.append_assoc, hitems, List.append_assoc]

/-- Lines that are read from a state without an open block are read as their items. -/
theorem Yields.readItems {lines : List Line} {items : List Item}
    (h : Yields files base st (lines.map (·.text)) items st') (hst : st.pending = []) :
    readItems files base st lines = .ok items := by
  obtain ⟨closed, hscan, hitems⟩ := h
  rw [hst, List.nil_append] at hitems
  exact readItems_eq_ok_iff.2 ⟨closed, st', hscan, hitems.symm⟩

theorem yields_of_readItems {lines : List Line} {items : List Item}
    (h : readItems files base st lines = .ok items) (hst : st.pending = []) :
    ∃ st', Yields files base st (lines.map (·.text)) items st' := by
  obtain ⟨closed, st', hscan, rfl⟩ := readItems_eq_ok_iff.1 h
  exact ⟨st', closed, hscan, by rw [hst, List.nil_append]⟩

/-! ## The ends of blocks -/

/-- Is the open block a preformatted one? -/
def OpenBlock.isPreformatted : OpenBlock → Bool
  | preformatted _ _ => true
  | none | paragraph _ | list _ => false

/-- The indentation of an open preformatted block starts with a blank. -/
def State.Indented (st : State) : Prop :=
  ∀ indent lines, st.opened = .preformatted indent lines → ∃ c r, indent = c :: r ∧ isBlank c = true

theorem State.indented_of_not_preformatted (h : st.opened.isPreformatted = false) :
    st.Indented := by
  intro indent lines e
  rw [e] at h
  cases h

theorem BeginsBlock.indented {d e : Nat} {text : List Char} {items : List Item} {o : OpenBlock}
    (h : BeginsBlock files base d text items o) : State.Indented ⟨e, o⟩ := by
  cases h with
  | @preformatted indent c r hne hindent hc =>
    rintro _ _ ⟨⟩
    obtain ⟨b, i, rfl⟩ := List.exists_cons_of_ne_nil hne
    exact ⟨b, i, rfl, List.all_eq_true.1 hindent b (List.mem_cons_self ..)⟩
  | _ => exact State.indented_of_not_preformatted rfl

theorem BeginsLine.indented {d : Nat} {text : List Char} {items : List Item}
    (h : BeginsLine files base d text items st) : st.Indented := by
  cases h with
  | empty => exact State.indented_of_not_preformatted rfl
  | heading hn hdepth title => exact State.indented_of_not_preformatted rfl
  | block hne he hdepth h => exact h.indented

theorem OpenBlock.Extends.indented {d : Nat} {text : List Char} {o o' : OpenBlock}
    (h : o.Extends text o') (ho : State.Indented ⟨d, o⟩) : State.Indented ⟨d, o'⟩ := by
  cases h with
  | empty htext =>
    rintro _ _ ⟨⟩
    exact ho _ _ rfl
  | preformatted hne htext =>
    rintro _ _ ⟨⟩
    exact ho _ _ rfl
  | _ => exact State.indented_of_not_preformatted rfl

theorem ReadsLine.indented (hst : st.Indented) {text : List Char} {items : List Item}
    (h : ReadsLine files base st text items st') : st'.Indented := by
  cases h with
  | goesOn h => exact h.indented hst
  | ends hopened hblank => exact State.indented_of_not_preformatted rfl
  | begins h => exact h.indented

theorem scan_indented (hst : st.Indented) {texts : List (List Char)} {items : List Item}
    (h : scan files base st texts = .ok (items, st')) : st'.Indented := by
  induction texts generalizing st items with
  | nil =>
    obtain ⟨-, rfl⟩ := Prod.mk.inj (Except.ok.inj h)
    exact hst
  | cons text r ih =>
    cases hline : readLine files base st text with
    | error problem => rw [scan_cons_of_error hline] at h; cases h
    | ok p =>
      obtain ⟨begun, st₁⟩ := p
      rw [scan_cons_of_ok hline] at h
      obtain ⟨⟨more, st₂⟩, hmore, heq⟩ := map_eq_ok h
      obtain ⟨-, rfl⟩ := Prod.mk.inj heq
      exact ih ((readLine_cases hline).indented hst) hmore

/-- A block has ended, or is a preformatted one, which ends at the next line that is not
indented. -/
def State.AtBreak (st : State) : Prop :=
  st.opened = .none ∨
    ∃ c indent lines, st.opened = .preformatted (c :: indent) lines ∧ isBlank c = true

theorem State.AtBreak.indented (h : st.AtBreak) : st.Indented := by
  rcases h with h | ⟨c, indent, lines, h, hc⟩
  · exact State.indented_of_not_preformatted (by rw [h]; rfl)
  · intro indent' lines' e
    obtain ⟨rfl, -⟩ := OpenBlock.preformatted.inj (h.symm.trans e)
    exact ⟨c, indent, rfl, hc⟩

/-- At the end of a block a line that is not indented starts something new. -/
theorem readLine_of_atBreak (h : st.AtBreak) {c : Char} (hc : isBlank c = false) (r : List Char) :
    readLine files base st (c :: r) = closeAndBegin files base st (c :: r) := by
  rcases h with h | ⟨b, indent, lines, h, hb⟩
  · rw [readLine, h]
  · have hne : (b == c) = false := by
      rw [beq_eq_false_iff_ne]
      rintro rfl
      rw [hb] at hc
      cases hc
    rw [readLine, h]
    simp [List.isPrefixOf?, hne]

theorem intercalate_append_nil {l : List (List Char)} (h : l ≠ []) :
    List.intercalate ['\n'] (l ++ [[]]) = List.intercalate ['\n'] l ++ ['\n'] := by
  induction l with
  | nil => exact absurd rfl h
  | cons s r ih =>
    cases r with
    | nil => simp
    | cons t r =>
      rw [List.cons_append, List.cons_append, List.intercalate_cons_cons, ← List.cons_append,
        ih (List.cons_ne_nil t r), List.intercalate_cons_cons, List.append_assoc, List.append_assoc,
        List.append_assoc]

/-- An empty line adds nothing to a preformatted text. -/
theorem preformattedText_append_nil (lines : List (List Char)) :
    preformattedText (lines ++ [[]]) = preformattedText lines := by
  by_cases h : lines = []
  · subst h
    rfl
  · have hline : isBlankLine (expandTabs ['\n']) = true := rfl
    rw [preformattedText, preformattedText, intercalate_append_nil h, expandTabs_append,
      trimEnd_append, if_pos hline]

variable (files base) in
/-- An empty line ends a block and adds nothing. -/
theorem yields_empty (h : st.Indented) :
    ∃ st', Yields files base st [[]] [] st' ∧ st'.depth = st.depth ∧ st'.AtBreak ∧
      (st.opened.isPreformatted = false → st'.opened = .none) := by
  obtain ⟨d, opened⟩ := st
  cases opened with
  | preformatted indent lines =>
    obtain ⟨c, r, rfl, hc⟩ := h indent lines rfl
    refine ⟨⟨d, .preformatted (c :: r) (lines ++ [[]])⟩, Yields.of_readLine rfl ?_, rfl,
      Or.inr ⟨c, r, _, rfl, hc⟩, fun hne => by cases hne⟩
    rw [List.nil_append, List.append_nil, State.pending, State.pending, OpenBlock.close,
      OpenBlock.close, preformattedText_append_nil]
  | _ =>
    refine ⟨⟨d, .none⟩, Yields.of_readLine rfl ?_, rfl, Or.inl rfl, fun _ => rfl⟩
    simp [State.pending, OpenBlock.close]

/-! ## Lines that start something -/

theorem heading?_eq_none_of_head {c : Char} (hc : c ≠ '*') (r : List Char) :
    heading? (c :: r) = none := by
  cases h : heading? (c :: r) with
  | none => rfl
  | some p =>
    obtain ⟨n, rest⟩ := p
    obtain ⟨htext, hn⟩ := heading?_eq_some h
    obtain ⟨k, hk⟩ := Nat.exists_eq_add_of_le' hn
    rw [hk, List.replicate_succ, List.cons_append] at htext
    exact absurd (List.cons.inj htext).1 hc

/-- A line that is no heading starts a block behind the end of another one. -/
theorem readLine_block {items : List Item} {st' : State} {text : List Char}
    (hread : readLine files base st text = closeAndBegin files base st text)
    (hne : text ≠ []) (hheading : heading? text = none) (hdepth : 1 ≤ st.depth)
    (hbegin : beginBlock files base st.depth text = .ok (items, st')) :
    readLine files base st text = .ok (st.pending ++ items, st') := by
  have hline : beginLine files base st.depth text = beginBlock files base st.depth text := by
    rw [beginLine, if_neg (by simpa using hne), hheading]
    exact if_neg (Nat.one_le_iff_ne_zero.1 hdepth)
  rw [hread, closeAndBegin, hline, hbegin]
  rfl

/-- A speaker note, in whatever block it stands but a paragraph. -/
theorem readLine_note (hst : st.Indented) (hopened : ∀ lines, st.opened ≠ .paragraph lines)
    (note : List Char) :
    readLine files base st (": ".toList ++ note) =
      if st.depth = 0 then .error (.strayLine (": ".toList ++ note))
      else .ok (st.pending ++ [.block st.depth (.note note)], ⟨st.depth, .none⟩) := by
  have hread : readLine files base st (": ".toList ++ note) =
      closeAndBegin files base st (": ".toList ++ note) := by
    obtain ⟨d, opened⟩ := st
    cases opened with
    | none => rfl
    | paragraph lines => exact absurd rfl (hopened lines)
    | list bullets => rfl
    | preformatted indent lines =>
      obtain ⟨c, r, rfl, hc⟩ := hst indent lines rfl
      exact readLine_of_atBreak (Or.inr ⟨c, r, lines, rfl, hc⟩) rfl _
  have hheading : heading? (": ".toList ++ note) = none :=
    heading?_eq_none_of_head (by decide) _
  split_ifs with hdepth
  · have hbegin : beginLine files base st.depth (": ".toList ++ note) =
        .error (.strayLine (": ".toList ++ note)) := by
      rw [beginLine, hheading, hdepth]
      rfl
    rw [hread, closeAndBegin, hbegin]
    rfl
  · have hbegin : beginBlock files base st.depth (": ".toList ++ note) =
        .ok ([.block st.depth (.note note)], ⟨st.depth, .none⟩) := by
      simp [beginBlock, noteText?, List.isPrefixOf?, isBlank]
    exact readLine_block hread (List.cons_ne_nil _ _) hheading (Nat.one_le_iff_ne_zero.2 hdepth)
      hbegin

theorem heading?_replicate {n : Nat} (hn : 1 ≤ n) (title : List Char) :
    heading? (List.replicate n '*' ++ ' ' :: title) = some (n, ' ' :: title) := by
  have hrest : (List.replicate n '*' ++ ' ' :: title).dropWhile (· = '*') = ' ' :: title := by
    rw [List.dropWhile_append_of_pos fun c hc => by simpa using List.eq_of_mem_replicate hc]
    rfl
  have hlen : (' ' :: title).length < (List.replicate n '*' ++ ' ' :: title).length := by
    rw [List.length_append, List.length_replicate]
    omega
  have hstars : (List.replicate n '*' ++ ' ' :: title).length - (' ' :: title).length = n := by
    rw [List.length_append, List.length_replicate]
    omega
  simp only [heading?, hrest, hstars, hlen]
  rfl

/-- Behind the end of a block a heading starts its section, unless it is too deep. -/
theorem readLine_heading (h : st.AtBreak) {n : Nat} (hn : 1 ≤ n) (hdepth : n ≤ st.depth + 1)
    (title : List Char) :
    readLine files base st (List.replicate n '*' ++ ' ' :: title) =
      .ok (st.pending ++ [.heading n (trim title)], ⟨n, .none⟩) := by
  obtain ⟨k, rfl⟩ := Nat.exists_eq_add_of_le' hn
  have hbegin : beginLine files base st.depth (List.replicate (k + 1) '*' ++ ' ' :: title) =
      .ok ([.heading (k + 1) (trim title)], ⟨k + 1, .none⟩) := by
    have hne : (List.replicate (k + 1) '*' ++ ' ' :: title).isEmpty = false := rfl
    rw [beginLine, hne, if_neg Bool.false_ne_true, heading?_replicate hn]
    exact if_pos hdepth
  rw [List.replicate_succ, List.cons_append, readLine_of_atBreak h rfl, ← List.cons_append,
    ← List.replicate_succ, closeAndBegin, hbegin]
  rfl

variable (files base) in
theorem yields_heading (h : st.AtBreak) {n : Nat} (hn : 1 ≤ n) (hdepth : n ≤ st.depth + 1)
    (title : List Char) :
    Yields files base st [List.replicate n '*' ++ ' ' :: title] [.heading n (trim title)]
      ⟨n, .none⟩ :=
  Yields.of_readLine (readLine_heading h hn hdepth title) (List.append_nil _)

/-- Lines from a heading on are read alike behind every block that has ended. -/
theorem Yields.behind {s : State} (hs : s.AtBreak) {n : Nat} (hn : 1 ≤ n)
    (hdepth : n ≤ s.depth + 1) {title : List Char} {r : List (List Char)} {items : List Item}
    (h : Yields files base s ((List.replicate n '*' ++ ' ' :: title) :: r) items st')
    (hst : st.AtBreak) (hdepth' : n ≤ st.depth + 1) :
    Yields files base st ((List.replicate n '*' ++ ' ' :: title) :: r) items st' := by
  obtain ⟨closed, hscan, hitems⟩ := h
  rw [scan_cons_of_ok (readLine_heading hs hn hdepth title)] at hscan
  obtain ⟨⟨more, st₁⟩, hmore, heq⟩ := map_eq_ok hscan
  obtain ⟨rfl, rfl⟩ := Prod.mk.inj heq
  rw [List.append_assoc, List.append_assoc] at hitems
  obtain rfl : items = [.heading n (trim title)] ++ (more ++ st₁.pending) :=
    (List.append_cancel_left hitems).symm
  exact (yields_heading files base hst hn hdepth' title).append ⟨more, hmore, rfl⟩

end Lectern.Source
