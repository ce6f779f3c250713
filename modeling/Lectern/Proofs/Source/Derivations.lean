import Lectern.Proofs.Source.Grammar
import Lectern.Proofs.Source.Joining

/-!
# Derivations are read back

The lines of a derivation are read as its document (`read_eq_document`). Every piece is read from
the end of a block to the end of a block (`yields_piece`), and so are the pieces of a topic and the
topics below it (`yields_topic`); the outline of what they yield has the shape of the derivation
(`gathered_topic`).
-/

namespace Lectern.Grammar

open Text Source

variable {files : Files} {base : Path} {st : State}

/-! ## Lines that start a piece -/

theorem heading?_plain (l : Plain) : heading? l.text = none := by
  cases h : heading? l.text with
  | none => rfl
  | some p =>
    obtain ⟨n, rest⟩ := p
    obtain ⟨htext, hn⟩ := heading?_eq_some h
    obtain ⟨k, rfl⟩ := Nat.exists_eq_add_of_le' hn
    obtain ⟨hne, hspace⟩ := l.no_heading k rest htext
    simp only [heading?] at h
    split_ifs at h with hif
    obtain ⟨-, rfl⟩ := Prod.mk.inj (Option.some.inj h)
    simp only [Bool.and_eq_true, Bool.or_eq_true, List.isEmpty_iff, decide_eq_true_eq] at hif
    exact absurd hif.2 (not_or.2 ⟨hne, hspace⟩)

theorem beginBlock_bullet (d : Nat) (text : List Char) :
    beginBlock files base d ("- ".toList ++ text) = .ok ([], ⟨d, .list [text]⟩) := by
  simp [beginBlock, List.isPrefixOf?, isBlank]

theorem paragraphLine_plain (l : Plain) : paragraphLine l.text = l.meaning := by
  unfold paragraphLine Plain.meaning
  split
  · rename_i r heq
    rw [heq]
    exact (if_pos ⟨r, rfl⟩).symm
  · rename_i hne
    refine (if_neg ?_).symm
    rintro ⟨r, hr⟩
    exact hne r hr.symm

theorem beginBlock_plain (d : Nat) (l : Plain) :
    beginBlock files base d l.text = .ok ([], ⟨d, .paragraph [l.meaning]⟩) := by
  obtain ⟨c, r, htext, hblank, -, hdot⟩ := l.starts
  have hindent : l.text.takeWhile isBlank = [] := by
    rw [htext, List.takeWhile_cons_of_neg (by simp [hblank])]
  have hcommand : l.text.head? ≠ some '.' := by
    rw [htext]
    exact fun e => hdot (Option.some.inj e)
  have hbullet : ['-', ' '].isPrefixOf? l.text = none := isPrefixOf?_eq_none l.no_bullet
  have hnote : noteText? l.text = none := isPrefixOf?_eq_none l.no_note
  simp [beginBlock, hindent, hbullet, hnote, hcommand, paragraphLine_plain]

theorem beginBlock_preformatted (d : Nat) (p : Preformatted) :
    beginBlock files base d (p.indent ++ p.first) =
      .ok ([], ⟨d, .preformatted p.indent [p.first]⟩) := by
  obtain ⟨c, r, hfirst, hc⟩ := p.starts
  have hneg : ¬ isBlank c = true := by simp [hc]
  have htake : (p.indent ++ p.first).takeWhile isBlank = p.indent := by
    rw [List.takeWhile_append_of_pos p.blank, hfirst, List.takeWhile_cons_of_neg hneg,
      List.append_nil]
  have hdrop : (p.indent ++ p.first).dropWhile isBlank = p.first := by
    rw [List.dropWhile_append_of_pos p.blank, hfirst, List.dropWhile_cons_of_neg hneg]
  have hfirst' : p.first ≠ [] := by
    rw [hfirst]
    exact List.cons_ne_nil c r
  simp [beginBlock, htake, hdrop, p.indented, hfirst']

/-! ## Pieces -/

/-- Lines that go on with an open block. -/
theorem scan_open {α : Type} (opened : List (List Char) → OpenBlock) (line text : α → List Char)
    {d : Nat} {xs : List α} (h : ∀ x ∈ xs, ∀ texts,
      readLine files base ⟨d, opened texts⟩ (line x) = .ok ([], ⟨d, opened (texts ++ [text x])⟩))
    (texts : List (List Char)) :
    scan files base ⟨d, opened texts⟩ (xs.map line) =
      .ok ([], ⟨d, opened (texts ++ xs.map text)⟩) := by
  induction xs generalizing texts with
  | nil => rw [List.map_nil, List.map_nil, List.append_nil, scan_nil]
  | cons x r ih =>
    rw [List.map_cons, scan_cons_of_ok (h x (List.mem_cons_self ..) texts),
      ih fun y hy => h y (List.mem_cons_of_mem x hy)]
    rw [List.map_cons, Except.map, List.append_assoc, List.nil_append, List.singleton_append]

/-- A line that opens a block, and lines that go on with it. -/
theorem yields_open {st' st'' : State} {first : List Char} {more : List (List Char)}
    (hfirst : readLine files base st first = .ok (st.pending, st'))
    (hmore : scan files base st' more = .ok ([], st'')) :
    Yields files base st (first :: more) st''.pending st'' :=
  ⟨st.pending, by rw [scan_cons_of_ok hfirst, hmore, Except.map, List.append_nil], rfl⟩

/-- The block of a piece. -/
def Piece.block : Piece → Block
  | note text => .note text
  | list bullet more => .elem (.list ((bullet :: more).map String.ofList))
  | paragraph first more =>
      .elem (.text ((first :: more).map fun l => String.ofList l.meaning) false)
  | preformatted p =>
      .elem (.text [String.ofList (trimEnd (expandTabs (List.intercalate ['\n'] p.texts)))] true)

theorem yields_note (text : List Char) (hbreak : st.AtBreak) (hdepth : 1 ≤ st.depth) :
    Yields files base st (Piece.note text).lines [.block st.depth (Piece.note text).block]
      ⟨st.depth, .none⟩ := by
  have hopened : ∀ lines, st.opened ≠ .paragraph lines := by
    intro lines e
    rcases hbreak with h | ⟨_, _, _, h, -⟩ <;> rw [h] at e <;> cases e
  have hline : readLine files base st (": ".toList ++ text) =
      .ok (st.pending ++ [.block st.depth (.note text)], ⟨st.depth, .none⟩) :=
    (readLine_note hbreak.indented hopened text).trans (if_neg (Nat.one_le_iff_ne_zero.1 hdepth))
  exact Yields.of_readLine hline (List.append_nil _)

theorem yields_list (bullet : List Char) (more : List (List Char)) (hbreak : st.AtBreak)
    (hdepth : 1 ≤ st.depth) :
    Yields files base st (Piece.list bullet more).lines
      [.block st.depth (Piece.list bullet more).block] ⟨st.depth, .list (bullet :: more)⟩ := by
  have hread : readLine files base st ("- ".toList ++ bullet) =
      closeAndBegin files base st ("- ".toList ++ bullet) := readLine_of_atBreak hbreak rfl _
  have hfirst := readLine_block hread (List.cons_ne_nil _ _)
    (heading?_eq_none_of_head (by decide) _) hdepth (beginBlock_bullet _ _)
  have hmore : scan files base ⟨st.depth, .list [bullet]⟩ (more.map ("- ".toList ++ ·)) =
      .ok ([], ⟨st.depth, .list ([bullet] ++ more.map id)⟩) :=
    scan_open .list _ id (fun text _ texts => by simp [readLine, List.isPrefixOf?]) [bullet]
  rw [List.append_nil] at hfirst
  rw [List.map_id] at hmore
  exact yields_open hfirst hmore

theorem yields_paragraph (first : Plain) (more : List Plain) (hbreak : st.AtBreak)
    (hdepth : 1 ≤ st.depth) :
    Yields files base st (Piece.paragraph first more).lines
      [.block st.depth (Piece.paragraph first more).block]
      ⟨st.depth, .paragraph ((first :: more).map Plain.meaning)⟩ := by
  have hread : readLine files base st first.text = closeAndBegin files base st first.text := by
    obtain ⟨c, r, htext, hblank, -⟩ := first.starts
    rw [htext]
    exact readLine_of_atBreak hbreak hblank r
  have hne : first.text ≠ [] := by
    obtain ⟨c, r, htext, -⟩ := first.starts
    rw [htext]
    exact List.cons_ne_nil c r
  have hfirst := readLine_block hread hne (heading?_plain first) hdepth (beginBlock_plain _ _)
  have hline (l : Plain) (texts : List (List Char)) :
      readLine files base ⟨st.depth, .paragraph texts⟩ l.text =
        .ok ([], ⟨st.depth, .paragraph (texts ++ [l.meaning])⟩) := by
    obtain ⟨c, r, htext, hblank, -, hdot⟩ := l.starts
    rw [← paragraphLine_plain]
    simp [readLine, htext, hblank, hdot]
  have hmore := scan_open .paragraph Plain.text Plain.meaning
    (fun l (_ : l ∈ more) texts => hline l texts) [first.meaning]
  rw [List.append_nil] at hfirst
  have hblock : (Piece.paragraph first more).block =
      .elem (.paragraph (((first :: more).map Plain.meaning).map String.ofList)) := by
    rw [List.map_map]
    rfl
  rw [hblock]
  exact yields_open hfirst hmore

theorem yields_preformatted (p : Preformatted) (hopened : st.opened = .none)
    (hdepth : 1 ≤ st.depth) :
    Yields files base st (Piece.preformatted p).lines
      [.block st.depth (Piece.preformatted p).block]
      ⟨st.depth, .preformatted p.indent p.texts⟩ := by
  obtain ⟨c, r, hindent⟩ := List.exists_cons_of_ne_nil p.indented
  have hc : c ≠ '*' := by
    have hblank : isBlank c = true := p.blank c (hindent ▸ List.mem_cons_self ..)
    rintro rfl
    cases hblank
  have hread : readLine files base st (p.indent ++ p.first) =
      closeAndBegin files base st (p.indent ++ p.first) := by rw [readLine, hopened]
  have hheading : heading? (p.indent ++ p.first) = none := by
    rw [hindent]
    exact heading?_eq_none_of_head hc _
  have hfirst := readLine_block hread (List.append_ne_nil_of_left_ne_nil p.indented _) hheading
    hdepth (beginBlock_preformatted _ p)
  have hline (x : Option (List Char)) (texts : List (List Char)) :
      readLine files base ⟨st.depth, .preformatted p.indent texts⟩ (p.line x) =
        .ok ([], ⟨st.depth, .preformatted p.indent (texts ++ [x.getD []])⟩) := by
    cases x with
    | none => rfl
    | some text => simp [readLine, Preformatted.line, p.indented, isPrefixOf?_append]
  have hmore := scan_open (.preformatted p.indent) p.line (·.getD [])
    (fun x (_ : x ∈ p.more) texts => hline x texts) [p.first]
  rw [List.append_nil] at hfirst
  exact yields_open hfirst hmore

variable (files base) in
/-- Empty lines end a block and add nothing. -/
theorem yields_gap (h : st.Indented) (n : Nat) :
    ∃ st', Yields files base st (List.replicate (n + 1) []) [] st' ∧ st'.depth = st.depth ∧
      st'.AtBreak ∧
      (st.opened.isPreformatted = false → st'.opened = .none) := by
  induction n generalizing st with
  | zero => exact yields_empty files base h
  | succ n ih =>
    obtain ⟨st₁, hempty, hdepth, hbreak, hnone⟩ := yields_empty files base h
    obtain ⟨st₂, hrest, hdepth', hbreak', hnone'⟩ := ih hbreak.indented
    refine ⟨st₂, hempty.append hrest, hdepth'.trans hdepth, hbreak', fun h => hnone' ?_⟩
    rw [hnone h]
    rfl

variable (files base) in
/-- A piece and the empty lines behind it are read from the end of a block to the end of a block.
Only a preformatted block must not lie behind another one. -/
theorem yields_piece (p : Piece) (n : Nat) (hbreak : st.AtBreak) (hdepth : 1 ≤ st.depth)
    (hopened : p.isPreformatted = true → st.opened = .none) :
    ∃ st', Yields files base st (p.lines ++ List.replicate (n + 1) [])
        [.block st.depth p.block] st' ∧
      st'.depth = st.depth ∧ st'.AtBreak ∧ (p.isPreformatted = false → st'.opened = .none) := by
  obtain ⟨st₁, hlines, hdepth₁, hindented, hother⟩ :
      ∃ st₁, Yields files base st p.lines [.block st.depth p.block] st₁ ∧ st₁.depth = st.depth ∧
        st₁.Indented ∧
        (p.isPreformatted = false → st₁.opened.isPreformatted = false) := by
    cases p with
    | note text =>
      exact ⟨_, yields_note text hbreak hdepth, rfl,
        State.indented_of_not_preformatted rfl, fun _ => rfl⟩
    | list bullet more =>
      exact ⟨_, yields_list bullet more hbreak hdepth, rfl,
        State.indented_of_not_preformatted rfl, fun _ => rfl⟩
    | paragraph first more =>
      exact ⟨_, yields_paragraph first more hbreak hdepth, rfl,
        State.indented_of_not_preformatted rfl, fun _ => rfl⟩
    | preformatted p =>
      refine ⟨_, yields_preformatted p (hopened rfl) hdepth, rfl, ?_, fun h => by cases h⟩
      rintro _ _ ⟨⟩
      obtain ⟨c, r, hindent⟩ := List.exists_cons_of_ne_nil p.indented
      exact ⟨c, r, hindent, p.blank c (hindent ▸ List.mem_cons_self ..)⟩
  obtain ⟨st₂, hgap, hdepth₂, hbreak₂, hnone⟩ := yields_gap files base hindented n
  exact ⟨st₂, hlines.append hgap, hdepth₂.trans hdepth₁, hbreak₂, fun h => hnone (hother h)⟩

/-! ## Topics -/

/-- The items of pieces. -/
def pieceItems (depth : Nat) (pieces : List (Piece × Nat)) : List Item :=
  pieces.map fun p => .block depth p.1.block

variable (files base) in
/-- Pieces are read from the end of a block to the end of a block. -/
theorem yields_pieces {pieces : List (Piece × Nat)}
    (hapart : pieces.IsChain fun p q => ¬ (p.1.isPreformatted = true ∧ q.1.isPreformatted = true))
    (hbreak : st.AtBreak) (hdepth : 1 ≤ st.depth)
    (hopened : ∀ p ∈ pieces.head?, p.1.isPreformatted = true → st.opened = .none) :
    ∃ st', Yields files base st (pieceLines pieces) (pieceItems st.depth pieces) st' ∧
      st'.depth = st.depth ∧ st'.AtBreak := by
  induction pieces generalizing st with
  | nil => exact ⟨st, Yields.nil, rfl, hbreak⟩
  | cons p r ih =>
    obtain ⟨st₁, hpiece, hdepth₁, hbreak₁, hnone⟩ := yields_piece files base
      p.1 p.2 hbreak hdepth (hopened p rfl)
    have hnext : ∀ q ∈ r.head?, q.1.isPreformatted = true → st₁.opened = .none := by
      intro q hq hpre
      exact hnone (Bool.eq_false_iff.2 fun h => (List.isChain_cons.1 hapart).1 q hq ⟨h, hpre⟩)
    obtain ⟨st₂, hrest, hdepth₂, hbreak₂⟩ :=
      ih hapart.tail hbreak₁ (hdepth₁ ▸ hdepth) hnext
    rw [hdepth₁] at hrest hdepth₂
    exact ⟨st₂, hpiece.append hrest, hdepth₂, hbreak₂⟩

mutual

/-- The items of a topic. -/
def Topic.items (depth : Nat) : Topic → List Item
  | ⟨title, body, topics⟩ =>
      .heading depth title.text ::
        (pieceItems depth body.pieces ++ topicItems (depth + 1) topics)

/-- The items of topics. -/
def topicItems (depth : Nat) : List Topic → List Item
  | [] => []
  | t :: r => t.items depth ++ topicItems depth r

end

theorem trim_title (t : Title) : trim t.text = t.text := by
  have hstart : trimStart t.text = t.text := by
    cases h : t.text with
    | nil => rfl
    | cons c r =>
      have hc : isBlank c = false := t.starts c (by rw [h]; rfl)
      exact List.dropWhile_cons_of_neg (by simp [hc])
  rw [trim, hstart]
  rcases List.eq_nil_or_concat t.text with h | ⟨r, c, h⟩
  · rw [h]
    rfl
  · rw [List.concat_eq_append] at h
    have hc : isBlank c = false := t.ends c (by rw [h, List.getLast?_concat]; rfl)
    have hlast : trimEnd [c] = [c] := if_neg (by simp [hc])
    rw [h, trimEnd_append, hlast, if_neg (by simp [hc])]

mutual

/-- A topic that is not too deep is read from the end of a block to the end of a block. -/
theorem yields_topic {st : State} {d : Nat} (hd : 1 ≤ d) (t : Topic) (hbreak : st.AtBreak)
    (hdepth : d ≤ st.depth + 1) :
    ∃ st', Yields files base st (t.lines d) (t.items d) st' ∧ d ≤ st'.depth ∧ st'.AtBreak := by
  obtain ⟨title, body, topics⟩ := t
  have hheading := yields_heading files base hbreak hd hdepth title.text
  have hindented : State.Indented ⟨d, .none⟩ := State.indented_of_not_preformatted rfl
  obtain ⟨st₁, hempty, hdepth₁, hbreak₁, hnone⟩ := yields_empty files base hindented
  have hopened : st₁.opened = .none := hnone rfl
  obtain ⟨st₂, hpieces, hdepth₂, hbreak₂⟩ :=
    yields_pieces files base body.apart hbreak₁ (hdepth₁ ▸ hd) fun _ _ _ => hopened
  rw [hdepth₁] at hpieces hdepth₂
  obtain ⟨st₃, htopics, hdepth₃, hbreak₃⟩ :=
    yields_topics (Nat.le_add_left 1 d) topics hbreak₂ (hdepth₂ ▸ le_rfl)
  rw [trim_title] at hheading
  exact ⟨st₃, hheading.append (hempty.append (hpieces.append htopics)),
    Nat.le_of_succ_le_succ hdepth₃, hbreak₃⟩

/-- Topics that are not too deep are read from the end of a block to the end of a block. -/
theorem yields_topics {st : State} {d : Nat} (hd : 1 ≤ d) (topics : List Topic)
    (hbreak : st.AtBreak) (hdepth : d ≤ st.depth + 1) :
    ∃ st', Yields files base st (topicLines d topics) (topicItems d topics) st' ∧
      d ≤ st'.depth + 1 ∧ st'.AtBreak := by
  cases topics with
  | nil => exact ⟨st, Yields.nil, hdepth, hbreak⟩
  | cons t r =>
    obtain ⟨st₁, htopic, hdepth₁, hbreak₁⟩ := yields_topic hd t hbreak hdepth
    obtain ⟨st₂, hrest, hdepth₂, hbreak₂⟩ := yields_topics hd r hbreak₁ (Nat.le_succ_of_le hdepth₁)
    exact ⟨st₂, htopic.append hrest, hdepth₂, hbreak₂⟩

end

/-! ## The outline of topics -/

theorem section?_pieceElements (pieces : List (Piece × Nat)) :
    ∀ e ∈ pieceElements pieces, e.section? = none := by
  intro e he
  obtain ⟨⟨p, n⟩, -, hp⟩ := List.mem_filterMap.1 he
  cases p <;> cases hp <;> rfl

theorem renumberFrom_pieceElements_append (pieces : List (Piece × Nat)) (number : List Nat)
    (es : List Element) :
    renumberFrom number 1 (pieceElements pieces ++ es) =
      pieceElements pieces ++ renumberFrom number 1 es := by
  have hnone : (pieceElements pieces).filterMap Element.section? = [] :=
    List.filterMap_eq_nil_iff.2 (section?_pieceElements pieces)
  rw [renumberFrom_append, renumberFrom_of_section?_eq_none (section?_pieceElements pieces), hnone]
  rfl

/-- The blocks of a topic: those of its pieces, and its subsections. -/
def topicBlocks (pieces : List (Piece × Nat)) (subs : List Section) : List Block :=
  pieces.map (fun p => p.1.block) ++ subs.map fun s => .elem (.sub s)

theorem filterMap_topicBlocks {β : Type} {f : Block → Option β} {g : Piece → Option β}
    (h : ∀ p : Piece, f p.block = g p) (pieces : List (Piece × Nat)) (subs : List Section) :
    (topicBlocks pieces subs).filterMap f =
      pieces.filterMap (fun p => g p.1) ++ subs.filterMap fun s => f (.elem (.sub s)) := by
  rw [topicBlocks, List.filterMap_append, List.filterMap_map, List.filterMap_map]
  exact congrArg (· ++ _) (List.filterMap_congr fun p _ => h p.1)

/-- The section of a topic, but for the numbers. -/
theorem sectionOf_topicBlocks (title : List Char) (pieces : List (Piece × Nat))
    (subs : List Section) :
    sectionOf title (topicBlocks pieces subs) =
      ⟨[], String.ofList title, pieceElements pieces ++ subs.map .sub,
        pieces.filterMap fun p => p.1.note?, [], []⟩ := by
  rw [sectionOf,
    filterMap_topicBlocks (g := Piece.element?) fun p => by cases p <;> rfl,
    filterMap_topicBlocks (g := Piece.note?) fun p => by cases p <;> rfl,
    filterMap_topicBlocks (g := fun _ => none) fun p => by cases p <;> rfl,
    filterMap_topicBlocks (g := fun _ => none) fun p => by cases p <;> rfl]
  simp [pieceElements]

/-- Numbering a section changes its subsections and leaves its pieces. -/
theorem renumber_topicBlocks (title : List Char) (pieces : List (Piece × Nat))
    (subs : List Section) (number : List Nat) :
    renumber number (sectionOf title (topicBlocks pieces subs)) =
      ⟨number, String.ofList title, pieceElements pieces ++ renumberFrom number 1 (subs.map .sub),
        pieces.filterMap fun p => p.1.note?, [], []⟩ := by
  rw [sectionOf_topicBlocks, renumber, renumberFrom_pieceElements_append]

theorem gathered_pieceItems_append (d : Nat) (pieces : List (Piece × Nat)) (r : List Item) :
    gathered (pieceItems d pieces ++ r) =
      pieces.map (fun p => (d, p.1.block)) ++ gathered r := by
  induction pieces with
  | nil => rfl
  | cons p ps ih =>
    show (d, p.1.block) :: gathered (pieceItems d ps ++ r) = _
    rw [ih, List.map_cons, List.cons_append]

mutual

/-- In front of what is not as deep, a topic is gathered as the section of the topic, but for the
numbers. -/
theorem gathered_topic {d : Nat} (t : Topic) {r : List Item}
    (hr : ∀ x ∈ gathered r, x.1 < d) :
    ∃ s, gathered (t.items d ++ r) = (d - 1, .elem (.sub s)) :: gathered r ∧
      ∀ number, renumber number s = t.section number := by
  obtain ⟨title, body, topics⟩ := t
  obtain ⟨subs, hsubs, hnumbered⟩ := gathered_topics (Nat.le_add_left 1 d) topics
    (r := r) fun x hx => (hr x hx).trans (Nat.lt_succ_self d)
  have hbehind : gathered ((pieceItems d body.pieces ++ topicItems (d + 1) topics) ++ r) =
      (topicBlocks body.pieces subs).map (fun b => (d, b)) ++ gathered r := by
    rw [List.append_assoc, gathered_pieceItems_append, hsubs, topicBlocks, List.map_append,
      List.map_map, List.map_map, List.append_assoc]
    rfl
  have hmine : ∀ x ∈ (topicBlocks body.pieces subs).map (fun b => (d, b)),
      decide (d ≤ x.1) = true := by
    intro x hx
    obtain ⟨_, -, rfl⟩ := List.mem_map.1 hx
    exact decide_eq_true le_rfl
  have hrest : ∀ x ∈ gathered r, ¬ decide (d ≤ x.1) = true := by
    intro x hx
    simpa using hr x hx
  obtain ⟨htake, hdrop⟩ := takeWhile_append_of_neg hrest
    ((topicBlocks body.pieces subs).map fun b => (d, b))
  refine ⟨sectionOf title.text (topicBlocks body.pieces subs), ?_, fun number => ?_⟩
  · rw [Topic.items, List.cons_append, gathered_cons_heading, gatheredSection, hbehind, htake,
      hdrop, List.takeWhile_eq_self_iff.2 hmine, List.dropWhile_eq_nil_iff.2 hmine, List.map_map]
    exact congrArg (fun bs => (d - 1, Block.elem (.sub (sectionOf title.text bs))) :: gathered r)
      (List.map_id _)
  · rw [renumber_topicBlocks, hnumbered, Topic.section]

/-- In front of what is not as deep, topics are gathered as their sections, but for the numbers. -/
theorem gathered_topics {d : Nat} (hd : 1 ≤ d) (topics : List Topic) {r : List Item}
    (hr : ∀ x ∈ gathered r, x.1 < d) :
    ∃ subs : List Section, gathered (topicItems d topics ++ r) =
        (subs.map fun s => (d - 1, Block.elem (.sub s))) ++ gathered r ∧
      ∀ parent next, renumberFrom parent next (subs.map .sub) =
        (topicSections parent next topics).map .sub := by
  cases topics with
  | nil => exact ⟨[], rfl, fun _ _ => rfl⟩
  | cons t ts =>
    obtain ⟨subs, hsubs, hnumbered⟩ := gathered_topics hd ts hr
    have hbehind : ∀ x ∈ gathered (topicItems d ts ++ r), x.1 < d := by
      rw [hsubs]
      intro x hx
      rcases List.mem_append.1 hx with hx | hx
      · obtain ⟨_, -, rfl⟩ := List.mem_map.1 hx
        exact Nat.sub_one_lt_of_lt hd
      · exact hr x hx
    obtain ⟨s, hs, hnumber⟩ := gathered_topic t hbehind
    refine ⟨s :: subs, ?_, fun parent next => ?_⟩
    · rw [topicItems, List.append_assoc, hs, hsubs]
      rfl
    · rw [List.map_cons, renumberFrom, hnumber, hnumbered, topicSections, List.map_cons]

end

/-- The outline of the items of topics. -/
theorem outline_topicItems (topics : List Topic) :
    outline (topicItems 1 topics) = topicSections [] 1 topics := by
  obtain ⟨subs, hsubs, hnumbered⟩ := gathered_topics (le_refl 1) topics (r := []) (by simp)
  rw [List.append_nil, gathered_nil, List.append_nil] at hsubs
  have htop : topElements (topicItems 1 topics) = subs.map .sub := by
    have hblocks : (gathered (topicItems 1 topics)).map (·.2) = topicBlocks [] subs := by
      rw [hsubs, List.map_map]
      rfl
    rw [topElements, hblocks, sectionOf_topicBlocks]
    rfl
  rw [outline_eq, htop, hnumbered, List.filterMap_map]
  exact List.filterMap_some

/-! ## Lines of derivations are no comments -/

theorem isComment_cons {c : Char} (hc : c ≠ '#') (r : List Char) : isComment (c :: r) = false := by
  simp [isComment, hc]

theorem isComment_pieceLine (p : Piece) : ∀ l ∈ p.lines, isComment l = false := by
  intro l hl
  cases p with
  | note text =>
    obtain rfl := List.mem_singleton.1 hl
    rfl
  | list bullet more =>
    obtain ⟨text, -, rfl⟩ := List.mem_map.1 hl
    rfl
  | paragraph first more =>
    obtain ⟨plain, -, rfl⟩ := List.mem_map.1 hl
    obtain ⟨c, r, htext, -, hc, -⟩ := plain.starts
    rw [htext]
    exact isComment_cons hc r
  | preformatted p =>
    obtain ⟨c, r, hindent⟩ := List.exists_cons_of_ne_nil p.indented
    have hc : c ≠ '#' := by
      have hblank : isBlank c = true := p.blank c (hindent ▸ List.mem_cons_self ..)
      rintro rfl
      cases hblank
    have hline : ∀ text, isComment (p.indent ++ text) = false := by
      intro text
      rw [hindent]
      exact isComment_cons hc _
    rcases List.mem_cons.1 hl with rfl | hl
    · exact hline p.first
    · obtain ⟨x, -, rfl⟩ := List.mem_map.1 hl
      cases x with
      | none => rfl
      | some text => exact hline text

theorem isComment_pieceLines {pieces : List (Piece × Nat)} :
    ∀ l ∈ pieceLines pieces, isComment l = false := by
  intro l hl
  obtain ⟨p, -, hl⟩ := List.mem_flatMap.1 hl
  rcases List.mem_append.1 hl with hl | hl
  · exact isComment_pieceLine p.1 l hl
  · rw [List.eq_of_mem_replicate hl]
    rfl

mutual

theorem isComment_topicLine {d : Nat} (t : Topic) : ∀ l ∈ t.lines d, isComment l = false := by
  obtain ⟨title, body, topics⟩ := t
  intro l hl
  rw [Topic.lines, List.mem_cons, List.mem_cons, List.mem_append] at hl
  rcases hl with rfl | rfl | hl | hl
  · cases d <;> rfl
  · rfl
  · exact isComment_pieceLines l hl
  · exact isComment_topicLines topics l hl

theorem isComment_topicLines {d : Nat} (topics : List Topic) :
    ∀ l ∈ topicLines d topics, isComment l = false := by
  cases topics with
  | nil => exact fun l hl => absurd hl List.not_mem_nil
  | cons t r =>
    intro l hl
    rcases List.mem_append.1 hl with hl | hl
    · exact isComment_topicLine t l hl
    · exact isComment_topicLines r l hl

end

/-! ## Sources -/

theorem readAuthors_topicLines (topics : List Topic) (first : Nat) :
    readAuthors [] (numberedFrom first (topicLines 1 topics)) =
      ([], numberedFrom first (topicLines 1 topics)) := by
  cases topics with
  | nil => rfl
  | cons t r =>
    obtain ⟨title, body, topics⟩ := t
    exact if_pos rfl

/-- The lines of a derivation are read as its document. -/
theorem readLines_lines (g : Deck) : readLines files base .full g.lines = .ok g.document := by
  obtain ⟨title, hstarts, topics⟩ := g
  obtain ⟨c, r, rfl, hc⟩ := hstarts
  obtain ⟨st, hyields, -⟩ :
      ∃ st, Yields files base {} (topicLines 1 topics) (topicItems 1 topics) st ∧ _ :=
    yields_topics (le_refl 1) topics (Or.inl rfl) le_rfl
  have hheader : numbered [c :: r, []] = [⟨1, c :: r⟩, ⟨2, []⟩] := by
    simp [numbered, numberFrom, isComment, hc]
  have hnumbered : numbered ((c :: r) :: [] :: topicLines 1 topics) =
      ⟨1, c :: r⟩ :: ⟨2, []⟩ :: numberedFrom 3 (topicLines 1 topics) := by
    have happend := numbered_append [c :: r, []] (topicLines 1 topics)
    rwa [hheader] at happend
  have hbody : (topicLines 1 topics).filter (!isComment ·) = topicLines 1 topics :=
    List.filter_eq_self.2 fun l hl => by rw [isComment_topicLines topics l hl]; rfl
  rw [← hbody, ← map_text_numberedFrom 3] at hyields
  have hitems := hyields.readItems rfl
  rw [Deck.lines, readLines_full_eq_ok_iff, hnumbered]
  refine ⟨{ title := String.ofList (c :: r) }, numberedFrom 3 (topicLines 1 topics),
    topicItems 1 topics, rfl, ?_, ?_⟩
  · rw [readAuthors_topicLines]
    exact hitems
  · rw [readAuthors_topicLines, outline_topicItems]
    rfl

/-- A source that is derived by the grammar is read as the document of its derivation. -/
theorem read_eq_document (files : Files) (name : Path) (g : Deck) {text : String}
    (h : Text.lines text.toList = g.lines) :
    Source.read files name .full text = .ok g.document := by
  unfold Source.read
  rw [h, readLines_lines]

/-- A title of one letter. -/
def Title.ofLetter (c : Char) (h : isBlank c = false) : Title :=
  ⟨[c], fun _ h' => Option.some.inj h' ▸ h, fun _ h' => Option.some.inj h' ▸ h⟩

/-- A derivation with a piece of every kind. -/
def smallDeck : Deck where
  title := "Deck".toList
  starts := ⟨'D', "eck".toList, rfl, by decide⟩
  topics :=
    [⟨.ofLetter 'A' rfl,
      ⟨[(.note "remember".toList, 0), (.list "a".toList ["b".toList], 1),
        (.preformatted ⟨['\t'], "x".toList, [none, some " y ".toList], by decide,
          List.forall_mem_singleton.2 rfl, ⟨'x', [], rfl, rfl⟩, by decide⟩, 0)], by decide⟩,
      [⟨.ofLetter 'B' rfl,
        ⟨[(.paragraph ⟨"\\.text".toList, ⟨'\\', ".text".toList, rfl, by decide⟩, by decide,
          by decide, by simp [List.replicate_succ]⟩ [], 0)], by decide⟩, []⟩]⟩]

theorem read_eq_document_smallDeck :
    Source.read (fun _ => .error .notFound) (Path.ofString "small.slide") .full
        "Deck\n\n* A\n\n: remember\n\n- a\n- b\n\n\n\tx\n\n\t y \n\n** B\n\n\\.text\n\n" =
      .ok { title := "Deck", sections :=
        [⟨[1], "A", [.list ["a", "b"], .preformatted "x\n\n y",
          .sub ⟨[1, 1], "B", [.paragraph [".text"]], [], [], []⟩], ["remember"], [], []⟩] } :=
  read_eq_document _ _ smallDeck (by cbv)

end Lectern.Grammar
