import Lectern.Proofs.Document.Numbering
import Lectern.Proofs.Source.Derivations
import Lectern.Proofs.Source.Descent

/-!
# Stretches of a body

Between its blocks a reader that stands in the section at some depth tells a stretch of lines as
blocks of that section and goes on behind them (`Tells`). Stretches are put together
(`Tells.trans`), and a stretch below a heading becomes one block of the section around it
(`tells_heading`). A section holds the blocks that are told (`holding`), numbered as the
outline numbers them.
-/

namespace Lectern

namespace Source

open Text
open Descent (stars bullet? unindent?)

/-! ## Sections that hold blocks -/

/-- The section with more blocks at its end; the sections among them are numbered by their
positions. -/
def holding (s : Section) (bs : List Block) : Section :=
  { s with
    elems := s.elems ++ renumberFrom s.number (s.subsections.length + 1) (sectionOf [] bs).elems
    notes := s.notes ++ (sectionOf [] bs).notes
    classes := s.classes ++ (sectionOf [] bs).classes
    styles := s.styles ++ (sectionOf [] bs).styles }

theorem holding_nil (s : Section) : holding s [] = s := by
  cases s
  simp [holding, sectionOf, renumberFrom]

theorem length_subsections_holding (s : Section) (bs : List Block) :
    (holding s bs).subsections.length =
      s.subsections.length + ((sectionOf [] bs).elems.filterMap Element.section?).length := by
  rw [Section.subsections, holding, List.filterMap_append, List.length_append,
    length_filterMap_renumberFrom]
  rfl

theorem elems_sectionOf_append (title : List Char) (bs bs' : List Block) :
    (sectionOf title (bs ++ bs')).elems =
      (sectionOf title bs).elems ++ (sectionOf title bs').elems := List.filterMap_append

/-- Blocks that are held one after the other are held at once. -/
theorem holding_append (s : Section) (bs bs' : List Block) :
    holding s (bs ++ bs') = holding (holding s bs) bs' := by
  have helems : renumberFrom s.number (s.subsections.length + 1) (sectionOf [] (bs ++ bs')).elems =
      renumberFrom s.number (s.subsections.length + 1) (sectionOf [] bs).elems ++
        renumberFrom s.number ((holding s bs).subsections.length + 1) (sectionOf [] bs').elems := by
    rw [elems_sectionOf_append, renumberFrom_append, length_subsections_holding, Nat.add_right_comm]
  rw [holding, helems]
  simp only [holding, sectionOf, List.filterMap_append, List.append_assoc]

/-- A section without a body that holds blocks is the numbered section of these blocks. -/
theorem holding_new {number : List Nat} (hne : number ≠ []) (title : List Char) (bs : List Block) :
    holding (.new number (String.ofList title)) bs = renumber number (sectionOf title bs) := by
  have hsection : sectionOf title bs = ⟨[], String.ofList title, (sectionOf [] bs).elems,
      (sectionOf [] bs).notes, (sectionOf [] bs).classes, (sectionOf [] bs).styles⟩ := rfl
  rw [hsection, renumber, Section.new, if_neg (by simpa using hne)]
  rfl

/-- Elements that are numbered behind those of a section become blocks that it holds. -/
theorem addElems_renumberFrom (s : Section) (es : List Element) :
    s.addElems (renumberFrom s.number (s.subsections.length + 1) es) =
      holding s (es.map .elem) := by
  have hadd (fs : List Element) (t : Section) :
      t.addElems fs = { t with elems := t.elems ++ fs } := by
    induction fs generalizing t with
    | nil =>
      rw [List.append_nil]
      cases t
      rfl
    | cons f fs ih =>
      rw [Section.addElems, List.foldl_cons, ← Section.addElems, ih, Section.addElem,
        List.append_assoc, List.singleton_append]
  have helems : (sectionOf [] (es.map .elem)).elems = es := by
    rw [sectionOf, List.filterMap_map]
    exact List.filterMap_some
  rw [hadd, holding, helems]
  simp [sectionOf, List.filterMap_map]

theorem addElems_eq_holding {es : List Element} (h : ∀ e ∈ es, e.section? = none) (s : Section) :
    s.addElems es = holding s (es.map .elem) := by
  rw [← addElems_renumberFrom, renumberFrom_of_section?_eq_none h]

theorem addElems_singleton {e : Element} (h : e.section? = none) (s : Section) :
    s.addElems [e] = holding s [.elem e] := by
  have hnone : ∀ e' ∈ [e], e'.section? = none := fun e' he' => by
    rw [List.mem_singleton.1 he', h]
  exact addElems_eq_holding hnone s

theorem addBlock_eq_holding {b : Block} (h : ∀ s, b ≠ .elem (.sub s)) (s : Section) :
    s.addBlock b = holding s [b] := by
  cases b with
  | elem e =>
    have he : e.section? = none := section?_eq_none_of_ne fun t ht => h t (congrArg Block.elem ht)
    exact addElems_singleton he s
  | note text => simp [holding, Section.addBlock, sectionOf, renumberFrom]
  | background url => simp [holding, Section.addBlock, sectionOf, renumberFrom]

/-- Sections as the subsections of a parent, numbered from a number on. -/
def numberedSubs (parent : List Nat) (next : Nat) (subs : List Section) : List Section :=
  (renumberFrom parent next (subs.map .sub)).filterMap Element.section?

theorem map_sub_numberedSubs (parent : List Nat) (next : Nat) (subs : List Section) :
    (numberedSubs parent next subs).map .sub = renumberFrom parent next (subs.map .sub) :=
  map_sub_filterMap_renumberFrom parent next fun e he => by
    obtain ⟨s, -, rfl⟩ := List.mem_map.1 he
    exact ⟨s, rfl⟩

theorem length_numberedSubs (parent : List Nat) (next : Nat) (subs : List Section) :
    (numberedSubs parent next subs).length = subs.length := by
  rw [numberedSubs, length_filterMap_renumberFrom, filterMap_section?_map_sub]

theorem numberedSubs_append (parent : List Nat) (next : Nat) (subs subs' : List Section) :
    numberedSubs parent next (subs ++ subs') =
      numberedSubs parent next subs ++ numberedSubs parent (next + subs.length) subs' := by
  rw [numberedSubs, List.map_append, renumberFrom_append, filterMap_section?_map_sub,
    List.filterMap_append]
  rfl

theorem numberedSubs_singleton (parent : List Nat) (next : Nat) (s : Section) :
    numberedSubs parent next [s] = [renumber (parent ++ [next]) s] := by
  rw [numberedSubs, List.map_singleton, renumberFrom]
  rfl

/-- The sections below a section become blocks that it holds. -/
theorem addElems_numberedSubs (s : Section) (subs : List Section) :
    s.addElems ((numberedSubs s.number (s.subsections.length + 1) subs).map .sub) =
      holding s ((subs.map .sub).map .elem) := by
  rw [map_sub_numberedSubs, addElems_renumberFrom]

/-! ## Items of one section -/

/-- Items are gathered as blocks of the section at a depth, in front of what is not deeper. -/
def Gathers (d : Nat) (items : List Item) (bs : List Block) : Prop :=
  ∀ r : List Item, (∀ x ∈ gathered r, x.1 ≤ d) →
    gathered (items ++ r) = bs.map (fun b => (d, b)) ++ gathered r

variable {d : Nat} {items items' : List Item} {bs bs' : List Block}

theorem gathers_blocks (d : Nat) (bs : List Block) : Gathers d (bs.map (.block d)) bs := by
  intro r _
  induction bs with
  | nil => rfl
  | cons b bs ih =>
    rw [List.map_cons, List.cons_append, gathered_cons_block, ih]
    rfl

theorem Gathers.append (h : Gathers d items bs) (h' : Gathers d items' bs') :
    Gathers d (items ++ items') (bs ++ bs') := by
  intro r hr
  have hbehind : ∀ x ∈ gathered (items' ++ r), x.1 ≤ d := by
    rw [h' r hr]
    intro x hx
    rcases List.mem_append.1 hx with hx | hx
    · obtain ⟨b, -, rfl⟩ := List.mem_map.1 hx
      exact le_rfl
    · exact hr x hx
  rw [List.append_assoc, h _ hbehind, h' r hr, List.map_append, List.append_assoc]

/-- The items below a heading are gathered as one section. -/
theorem Gathers.heading (h : Gathers (d + 1) items bs) (title : List Char) :
    Gathers d (.heading (d + 1) title :: items) [.elem (.sub (sectionOf title bs))] := by
  intro r hr
  have hmine : ∀ x ∈ bs.map (fun b => (d + 1, b)), decide (d + 1 ≤ x.1) = true := by
    intro x hx
    obtain ⟨b, -, rfl⟩ := List.mem_map.1 hx
    exact decide_eq_true le_rfl
  have hrest : ∀ x ∈ gathered r, ¬ decide (d + 1 ≤ x.1) = true := by
    intro x hx
    have := hr x hx
    rw [decide_eq_true_iff]
    omega
  obtain ⟨htake, hdrop⟩ := takeWhile_append_of_neg hrest (bs.map fun b => (d + 1, b))
  have hblocks : (bs.map fun b => (d + 1, b)).map (·.2) = bs := by
    rw [List.map_map]
    exact List.map_id _
  rw [List.cons_append, gathered_cons_heading, gatheredSection,
    h r fun x hx => (hr x hx).trans (Nat.le_succ d), htake, hdrop,
    List.takeWhile_eq_self_iff.2 hmine, List.dropWhile_eq_nil_iff.2 hmine, hblocks]
  rfl

/-- The outline of items that are gathered as sections. -/
theorem outline_of_gathers {subs : List Section} (h : Gathers 0 items ((subs.map .sub).map .elem)) :
    outline items = numberedSubs [] 1 subs := by
  have hgathered := h [] (by simp)
  rw [List.append_nil, gathered_nil, List.append_nil] at hgathered
  have helems : topElements items = subs.map .sub := by
    rw [topElements, hgathered, List.map_map, sectionOf]
    simp [List.filterMap_map, Function.comp_def]
  rw [outline_eq, helems, numberedSubs]

/-! ## Lines between blocks -/

variable {files : Files} {base : Path} {l : Line} {r lines lines' lines'' : List Line}
  {text : List Char}

/-- What follows the stars of a heading is nothing, or a space and the title. -/
theorem heading?_rest {n : Nat} {rest : List Char} (h : heading? text = some (n, rest)) :
    rest = [] ∨ ∃ title, rest = ' ' :: title := by
  unfold heading? at h
  simp only at h
  split_ifs at h with hif
  obtain ⟨-, rfl⟩ := Prod.mk.inj (Option.some.inj h)
  simp only [Bool.and_eq_true, Bool.or_eq_true, decide_eq_true_eq, List.isEmpty_iff] at hif
  rcases hif.2 with hnil | hspace
  · exact Or.inl hnil
  · obtain ⟨title, htitle⟩ := List.head?_eq_some_iff.1 hspace
    exact Or.inr ⟨title, htitle⟩

/-- The line is a heading that is not below the section at a depth. -/
def EndsSection (d : Nat) (text : List Char) : Prop :=
  ∃ n rest, heading? text = some (n, rest) ∧ n ≤ d

/-- The first of the lines, if there is one, ends the section at a depth. -/
def Closes (d : Nat) (lines : List Line) : Prop := ∀ l ∈ lines.head?, EndsSection d l.text

/-- A heading starts with as many stars as it has, and with no more. -/
theorem stars_prefix_heading_iff {n : Nat} {rest : List Char} (h : heading? text = some (n, rest))
    (k : Nat) : stars k <+: text ↔ k ≤ n := by
  obtain ⟨htext, -⟩ := heading?_eq_some h
  constructor
  · intro hstars
    by_contra hk
    obtain ⟨j, rfl⟩ := Nat.exists_eq_add_of_lt (Nat.lt_of_not_le hk)
    rw [htext, stars, Nat.add_assoc, List.replicate_add, List.prefix_append_right_inj,
      List.replicate_succ] at hstars
    obtain ⟨more, hmore⟩ := hstars
    rw [List.cons_append] at hmore
    rcases heading?_rest h with hnil | ⟨title, htitle⟩
    · rw [hnil] at hmore
      cases hmore
    · rw [htitle] at hmore
      exact absurd (List.cons.inj hmore).1 (by decide)
  · intro hk
    rw [htext, stars, ← Nat.add_sub_of_le hk, List.replicate_add, List.append_assoc]
    exact List.prefix_append _ _

theorem endsSection_iff (d : Nat) (text : List Char) :
    ((heading? text).isSome && !(stars (d + 1)).isPrefixOf text) = true ↔ EndsSection d text := by
  cases h : heading? text with
  | none =>
    refine ⟨fun hfalse => Bool.noConfusion hfalse, ?_⟩
    rintro ⟨n, rest, hheading, -⟩
    cases h.symm.trans hheading
  | some heading =>
    obtain ⟨n, rest⟩ := heading
    rw [Option.isSome_some, Bool.true_and, Bool.not_eq_true', ← Bool.not_eq_true,
      List.isPrefixOf_iff_prefix, stars_prefix_heading_iff h, Nat.not_le, Nat.lt_succ_iff]
    constructor
    · exact fun hn => ⟨n, rest, h, hn⟩
    · rintro ⟨n', rest', hheading, hn⟩
      obtain ⟨rfl, -⟩ := Prod.mk.inj (Option.some.inj (h.symm.trans hheading))
      exact hn

theorem readLine_between (files : Files) (base : Path) (d : Nat) (text : List Char) :
    readLine files base ⟨d, .none⟩ text = beginLine files base d text := by
  show (beginLine files base d text).map _ = _
  cases beginLine files base d text <;> rfl

/-- A line that neither ends a section nor is a heading right below it starts a block of it. -/
theorem readLine_eq_beginBlock (hd : 1 ≤ d) (hne : text ≠ []) (hends : ¬ EndsSection d text)
    (hbelow : ¬ stars (d + 1) ++ [' '] <+: text) :
    readLine files base ⟨d, .none⟩ text = beginBlock files base d text := by
  have hzero : d ≠ 0 := Nat.one_le_iff_ne_zero.1 hd
  rw [readLine_between, beginLine, if_neg (by simpa using hne)]
  cases h : heading? text with
  | none => exact if_neg hzero
  | some heading =>
    obtain ⟨n, rest⟩ := heading
    have hn : d < n := Nat.lt_of_not_le fun hn => hends ⟨n, rest, h, hn⟩
    rcases heading?_rest h with rfl | ⟨title, rfl⟩
    · have hmin : min d (n - 1) = d := by omega
      show (if _ then _ else beginBlock files base (min d (n - 1)) text) = _
      rw [if_neg (by simp only [Bool.or_eq_true, decide_eq_true_eq]; omega), hmin]
    · have hdeep : ¬ n ≤ d + 1 := by
        intro hle
        obtain rfl : n = d + 1 := by omega
        obtain ⟨htext, -⟩ := heading?_eq_some h
        exact hbelow ⟨title, by rw [htext, stars, List.append_assoc]; rfl⟩
      show (if _ then _ else if _ then _ else beginBlock files base d text) = _
      rw [if_neg hdeep, if_neg hzero]

/-- In front of the first heading every line but a heading of the first level is stray. -/
theorem readLine_stray (files : Files) (base : Path) (hne : text ≠ [])
    (hbelow : ¬ stars 1 ++ [' '] <+: text) :
    readLine files base ⟨0, .none⟩ text = .error (.strayLine text) := by
  rw [readLine_between, beginLine, if_neg (by simpa using hne)]
  cases h : heading? text with
  | none => rfl
  | some heading =>
    obtain ⟨n, rest⟩ := heading
    obtain ⟨htext, hn⟩ := heading?_eq_some h
    rcases heading?_rest h with rfl | ⟨title, rfl⟩
    · rfl
    · have hdeep : ¬ n ≤ 0 + 1 := by
        intro hle
        obtain rfl : n = 1 := by omega
        exact hbelow ⟨title, htext.symm⟩
      exact if_neg hdeep

/-- A line that ends a section is read alike in the section around it. -/
theorem readItems_of_closes (h : Closes (d + 1) lines) :
    readItems files base ⟨d + 1, .none⟩ lines = readItems files base ⟨d, .none⟩ lines := by
  cases lines with
  | nil => rfl
  | cons l r =>
    obtain ⟨n, rest, hheading, hn⟩ := h l rfl
    have hline : beginLine files base (d + 1) l.text = beginLine files base d l.text := by
      obtain ⟨htext, hpos⟩ := heading?_eq_some hheading
      by_cases hempty : l.text.isEmpty = true
      · rw [List.isEmpty_iff.1 hempty] at hheading
        cases hheading
      rw [beginLine, beginLine, if_neg hempty, if_neg hempty, hheading]
      rcases heading?_rest hheading with rfl | ⟨title, rfl⟩
      · show (if _ then _ else beginBlock files base (min (d + 1) (n - 1)) l.text) =
          (if _ then _ else beginBlock files base (min d (n - 1)) l.text)
        have hmin : min (d + 1) (n - 1) = min d (n - 1) := by omega
        have hiff : (d + 1 = 0 || n = 1) = (d = 0 || n = 1) := by
          rw [Bool.eq_iff_iff]
          simp only [Bool.or_eq_true, decide_eq_true_eq]
          omega
        rw [hmin, hiff]
      · show (if _ then _ else _) = (if _ then _ else _)
        rw [if_pos (by omega), if_pos hn]
    rw [readItems, readItems, readLine_between, readLine_between, hline]

/-! ## Stretches -/

/-- Between blocks of the section at a depth lines are told as blocks of that section, up to other
lines. -/
def Tells (files : Files) (base : Path) (d : Nat) (lines : List Line) (bs : List Block)
    (lines' : List Line) : Prop :=
  ∃ items, readItems files base ⟨d, .none⟩ lines =
    (readItems files base ⟨d, .none⟩ lines').map (items ++ ·) ∧ Gathers d items bs

theorem map_append_map {x : Except Located (List Item)} (items items' : List Item) :
    (x.map (items' ++ ·)).map (items ++ ·) = x.map (items ++ items' ++ ·) := by
  cases x with
  | error e => rfl
  | ok more => exact congrArg Except.ok (List.append_assoc items items' more).symm

theorem map_nil_append (x : Except Located (List Item)) : x.map ([] ++ ·) = x := by
  cases x <;> rfl

theorem tells_refl (files : Files) (base : Path) (d : Nat) (lines : List Line) :
    Tells files base d lines [] lines := ⟨[], (map_nil_append _).symm, gathers_blocks d []⟩

theorem Tells.trans (h : Tells files base d lines bs lines')
    (h' : Tells files base d lines' bs' lines'') :
    Tells files base d lines (bs ++ bs') lines'' := by
  obtain ⟨items, hread, hgathers⟩ := h
  obtain ⟨items', hread', hgathers'⟩ := h'
  exact ⟨items ++ items', by rw [hread, hread', map_append_map], hgathers.append hgathers'⟩

theorem Tells.error (h : Tells files base d lines bs lines') {e : Located}
    (he : readItems files base ⟨d, .none⟩ lines' = .error e) :
    readItems files base ⟨d, .none⟩ lines = .error e := by
  obtain ⟨items, hread, -⟩ := h
  rw [hread, he]
  rfl

theorem readItems_cons_of_ok {st st' : State} {items : List Item}
    (h : readLine files base st l.text = .ok (items, st')) :
    readItems files base st (l :: r) = (readItems files base st' r).map (items ++ ·) := by
  rw [readItems, h]

theorem readItems_cons_of_error {st : State} {problem : Problem}
    (h : readLine files base st l.text = .error problem) :
    readItems files base st (l :: r) = .error ⟨l.number, problem⟩ := by
  rw [readItems, h]

/-- A line that is told at once. -/
theorem tells_line
    (h : readLine files base ⟨d, .none⟩ l.text = .ok (bs.map (.block d), ⟨d, .none⟩)) :
    Tells files base d (l :: r) bs r := ⟨_, readItems_cons_of_ok h, gathers_blocks d bs⟩

/-- Empty lines tell nothing. -/
theorem tells_dropWhile_isEmpty (files : Files) (base : Path) (d : Nat) (lines : List Line) :
    Tells files base d lines [] (lines.dropWhile fun l => l.text.isEmpty) := by
  induction lines with
  | nil => exact tells_refl files base d []
  | cons l r ih =>
    by_cases hl : l.text.isEmpty = true
    · have hline : readLine files base ⟨d, .none⟩ l.text = .ok ([], ⟨d, .none⟩) := by
        rw [readLine_between, beginLine, if_pos hl]
      have htells : Tells files base d (l :: r) [] r := tells_line hline
      rw [List.dropWhile_cons, if_pos hl]
      exact htells.trans ih
    · rw [List.dropWhile_cons, if_neg hl]
      exact tells_refl files base d (l :: r)

/-- A heading right below a section starts a section there. -/
theorem readLine_below (files : Files) (base : Path) {title : List Char}
    (hl : l.text = stars (d + 1) ++ ' ' :: title) :
    readLine files base ⟨d, .none⟩ l.text =
      .ok ([.heading (d + 1) (trim title)], ⟨d + 1, .none⟩) := by
  rw [hl]
  exact readLine_heading (Or.inl rfl) (Nat.le_add_left 1 d) le_rfl title

/-- Below a heading a stretch of the section of the heading, up to its end, is told as one section
of the section around it. -/
theorem tells_heading {title : List Char} (hl : l.text = stars (d + 1) ++ ' ' :: title)
    (h : Tells files base (d + 1) r bs lines) (hcloses : Closes (d + 1) lines) :
    Tells files base d (l :: r) [.elem (.sub (sectionOf (trim title) bs))] lines := by
  obtain ⟨items, hread, hgathers⟩ := h
  refine ⟨_, ?_, hgathers.heading (trim title)⟩
  rw [readItems_cons_of_ok (readLine_below files base hl), hread, readItems_of_closes hcloses,
    map_append_map]
  rfl

theorem readItems_heading_error {title : List Char} {e : Located}
    (hl : l.text = stars (d + 1) ++ ' ' :: title)
    (h : readItems files base ⟨d + 1, .none⟩ r = .error e) :
    readItems files base ⟨d, .none⟩ (l :: r) = .error e := by
  rw [readItems_cons_of_ok (readLine_below files base hl), h]
  rfl

/-! ## Blocks of several lines -/

/-- What the lines at the front say, up to the first one that says nothing. -/
def collected (said? : List Char → Option (List Char)) (lines : List Line) : List (List Char) :=
  (lines.takeWhile fun l => (said? l.text).isSome).filterMap fun l => said? l.text

/-- The lines from the first one on that says nothing. -/
def uncollected (said? : List Char → Option (List Char)) (lines : List Line) : List Line :=
  lines.dropWhile fun l => (said? l.text).isSome

variable {said? : List Char → Option (List Char)} {said : List Char}

theorem collected_cons_of_some (h : said? l.text = some said) (r : List Line) :
    collected said? (l :: r) = said :: collected said? r := by
  rw [collected, List.takeWhile_cons_of_pos (by rw [h]; rfl), List.filterMap_cons, h]
  rfl

theorem collected_cons_of_none (h : said? l.text = none) (r : List Line) :
    collected said? (l :: r) = [] := by
  rw [collected, List.takeWhile_cons_of_neg (by rw [h]; exact Bool.false_ne_true),
    List.filterMap_nil]

theorem uncollected_cons_of_some (h : said? l.text = some said) (r : List Line) :
    uncollected said? (l :: r) = uncollected said? r :=
  List.dropWhile_cons_of_pos (by rw [h]; rfl)

theorem uncollected_cons_of_none (h : said? l.text = none) (r : List Line) :
    uncollected said? (l :: r) = l :: r :=
  List.dropWhile_cons_of_neg (by rw [h]; exact Bool.false_ne_true)

theorem length_uncollected_lt (h : (said? l.text).isSome = true) (r : List Line) :
    (uncollected said? (l :: r)).length < (l :: r).length := by
  rw [uncollected, List.dropWhile_cons, if_pos h]
  exact Nat.lt_succ_of_le (List.dropWhile_suffix _).length_le

/-- A block goes on with the lines that say something in it, and ends at the first other one. -/
structure Collects (files : Files) (base : Path) (d : Nat) (opened : List (List Char) → OpenBlock)
    (said? : List Char → Option (List Char)) : Prop where
  goesOn : ∀ saids text said, said? text = some said →
    readLine files base ⟨d, opened saids⟩ text = .ok ([], ⟨d, opened (saids ++ [said])⟩)
  ends : ∀ saids text, said? text = none →
    readLine files base ⟨d, opened saids⟩ text = closeAndBegin files base ⟨d, opened saids⟩ text

variable {opened : List (List Char) → OpenBlock}

theorem Collects.readItems_eq (h : Collects files base d opened said?) (saids : List (List Char))
    (lines : List Line) :
    readItems files base ⟨d, opened saids⟩ lines =
      (readItems files base ⟨d, .none⟩ (uncollected said? lines)).map
        ((opened (saids ++ collected said? lines)).close.map (.block d) ++ ·) := by
  induction lines generalizing saids with
  | nil =>
    show Except.ok _ = Except.ok ((opened (saids ++ [])).close.map (Item.block d) ++ [])
    rw [List.append_nil, List.append_nil]
  | cons l r ih =>
    cases hsaid : said? l.text with
    | some said =>
      rw [readItems_cons_of_ok (h.goesOn saids l.text said hsaid), ih,
        collected_cons_of_some hsaid, uncollected_cons_of_some hsaid, map_nil_append,
        List.append_assoc, List.singleton_append]
    | none =>
      rw [collected_cons_of_none hsaid, uncollected_cons_of_none hsaid, List.append_nil,
        readItems, readItems, h.ends saids l.text hsaid, readLine_between, closeAndBegin]
      cases beginLine files base d l.text with
      | error problem => rfl
      | ok begun => exact (map_append_map _ _).symm

/-- The lines of a block are told as that block. -/
theorem Collects.tells (h : Collects files base d opened said?) (hsaid : said? l.text = some said)
    (hfirst : readLine files base ⟨d, .none⟩ l.text = .ok ([], ⟨d, opened [said]⟩))
    (r : List Line) :
    Tells files base d (l :: r) (opened (collected said? (l :: r))).close
      (uncollected said? (l :: r)) := by
  refine ⟨_, ?_, gathers_blocks d _⟩
  rw [readItems_cons_of_ok hfirst, h.readItems_eq, map_nil_append, collected_cons_of_some hsaid,
    uncollected_cons_of_some hsaid, List.singleton_append]

/-! ## The blocks of a section -/

/-- What a line says in a paragraph. -/
def paragraph? (text : List Char) : Option (List Char) :=
  if isBlankLine text || text.head? = some '.' then none else some (paragraphLine text)

theorem collects_list (files : Files) (base : Path) (d : Nat) :
    Collects files base d .list bullet? where
  goesOn saids text said h := by
    rw [bullet?] at h
    simp only [readLine, h]
  ends saids text h := by
    rw [bullet?] at h
    simp only [readLine, h]

theorem collects_preformatted (files : Files) (base : Path) (d : Nat) (indent : List Char) :
    Collects files base d (.preformatted indent) (unindent? indent) where
  goesOn saids text said h := by
    rw [unindent?] at h
    split_ifs at h with hempty
    · obtain rfl := Option.some.inj h
      simp only [readLine, if_pos hempty]
    · simp only [readLine, if_neg hempty, h]
  ends saids text h := by
    rw [unindent?] at h
    split_ifs at h with hempty
    simp only [readLine, if_neg hempty, h]

theorem unindent?_takeWhile_isBlank (hne : text ≠ []) :
    unindent? (text.takeWhile isBlank) text = some (text.dropWhile isBlank) := by
  rw [unindent?, if_neg (by simpa using hne)]
  conv_lhs => arg 2; rw [← List.takeWhile_append_dropWhile (p := isBlank) (l := text)]
  exact isPrefixOf?_append _ _

theorem paragraph?_eq_some (hne : text ≠ []) (hindent : ¬ text.head?.any isBlank = true)
    (hdot : text.head? ≠ some '.') : paragraph? text = some (paragraphLine text) := by
  obtain ⟨c, r, rfl⟩ := List.exists_cons_of_ne_nil hne
  have hblank : ¬ isBlankLine (c :: r) = true := fun e =>
    hindent (List.all_eq_true.1 e c (List.mem_cons_self ..))
  rw [paragraph?, if_neg]
  rw [Bool.or_eq_true, decide_eq_true_iff, not_or]
  exact ⟨hblank, hdot⟩

theorem takeWhile_isBlank_eq_nil (h : ¬ text.head?.any isBlank = true) :
    text.takeWhile isBlank = [] := by
  cases text with
  | nil => rfl
  | cons c r => exact List.takeWhile_cons_of_neg h

theorem not_starred (h : text.head? ≠ some '*') (d : Nat) : ¬ stars (d + 1) ++ [' '] <+: text := by
  rintro ⟨title, rfl⟩
  exact h rfl

/-- An indented line starts a preformatted block, unless it is blank. -/
theorem beginBlock_indented (h : text.head?.any isBlank = true) (d : Nat) :
    beginBlock files base d text =
      if isBlankLine text then .ok ([], ⟨d, .none⟩)
      else .ok ([], ⟨d, .preformatted (text.takeWhile isBlank) [text.dropWhile isBlank]⟩) := by
  obtain ⟨c, r, rfl⟩ : ∃ c r, text = c :: r := by
    cases text with
    | nil => cases h
    | cons c r => exact ⟨c, r, rfl⟩
  have hc : isBlank c = true := h
  have hblank : ((c :: r).dropWhile isBlank).isEmpty = isBlankLine (c :: r) := by
    rw [Bool.eq_iff_iff, List.isEmpty_iff, List.dropWhile_eq_nil_iff, isBlankLine, List.all_eq_true]
  have hindent : (!((c :: r).takeWhile isBlank).isEmpty) = true := by
    rw [List.takeWhile_cons_of_pos hc]
    rfl
  unfold beginBlock
  dsimp only
  rw [if_pos hindent, hblank]

/-- A blank line tells nothing. -/
theorem readLine_blank (hd : 1 ≤ d) (h : isBlankLine text = true) :
    readLine files base ⟨d, .none⟩ text = .ok ([], ⟨d, .none⟩) := by
  cases text with
  | nil => exact readLine_between files base d []
  | cons c r =>
    have hc : isBlank c = true := List.all_eq_true.1 h c (List.mem_cons_self ..)
    have hstar : c ≠ '*' := fun e => by rw [e] at hc; exact absurd hc (by decide)
    have hhead : (c :: r).head? ≠ some '*' := fun e => hstar (Option.some.inj e)
    have hindent : (c :: r).head?.any isBlank = true := hc
    have hends : ¬ EndsSection d (c :: r) := by
      rintro ⟨n, rest, hheading, -⟩
      cases (heading?_eq_none_of_head hstar r).symm.trans hheading
    rw [readLine_eq_beginBlock hd (List.cons_ne_nil c r) hends (not_starred hhead d),
      beginBlock_indented hindent, if_pos h]

theorem tells_blank (hd : 1 ≤ d) (h : isBlankLine l.text = true) (r : List Line) :
    Tells files base d (l :: r) [] r := tells_line (readLine_blank hd h)

theorem collects_paragraph (hd : 1 ≤ d) : Collects files base d .paragraph paragraph? where
  goesOn saids text said h := by
    rw [paragraph?] at h
    split_ifs at h with hends
    obtain rfl := Option.some.inj h
    rw [Bool.or_eq_true, not_or, decide_eq_true_iff] at hends
    simp only [readLine, if_neg hends.1, if_neg hends.2]
  ends saids text h := by
    rw [paragraph?] at h
    split_ifs at h with hends
    by_cases hblank : isBlankLine text = true
    · have hbegin : beginLine files base d text = .ok ([], ⟨d, .none⟩) := by
        rw [← readLine_between, readLine_blank hd hblank]
      simp only [readLine, if_pos hblank, closeAndBegin, hbegin, Except.map, List.append_nil]
    · rw [Bool.or_eq_true, decide_eq_true_iff] at hends
      simp only [readLine, if_neg hblank, if_pos (hends.resolve_left hblank)]

section Blocks

variable (hbegin : readLine files base ⟨d, .none⟩ l.text = beginBlock files base d l.text)
include hbegin

theorem tells_note (h : (noteText? l.text).isSome = true) (r : List Line) :
    Tells files base d (l :: r) [.note (l.text.drop 2)] r := by
  obtain ⟨note, hnote⟩ := Option.isSome_iff_exists.1 h
  refine tells_line ?_
  rw [hbegin, noteText?_eq_some hnote]
  simp [beginBlock, noteText?, List.isPrefixOf?, isBlank]

theorem readLine_command (h : l.text.head? = some '.') :
    readLine files base ⟨d, .none⟩ l.text =
      (readCommand files base l.text).map fun b => ([.block d b], ⟨d, .none⟩) := by
  obtain ⟨s, hs⟩ := List.head?_eq_some_iff.1 h
  rw [hbegin, hs]
  simp [beginBlock, noteText?, List.isPrefixOf?, isBlank]

/-- The lines of a list. -/
theorem tells_list (h : (bullet? l.text).isSome = true) (r : List Line) :
    Tells files base d (l :: r)
      [.elem (.list ((collected bullet? (l :: r)).map String.ofList))]
      (uncollected bullet? (l :: r)) := by
  obtain ⟨bullet, hbullet⟩ := Option.isSome_iff_exists.1 h
  refine (collects_list files base d).tells hbullet ?_ r
  rw [hbegin, isPrefixOf?_eq_some hbullet]
  exact Grammar.beginBlock_bullet d bullet

/-- The lines of a preformatted block. -/
theorem tells_preformatted (hne : l.text ≠ []) (h : l.text.head?.any isBlank = true)
    (hblank : ¬ isBlankLine l.text = true) (r : List Line) :
    Tells files base d (l :: r)
      [.elem (.preformatted (String.ofList (preformattedText
        (collected (unindent? (l.text.takeWhile isBlank)) (l :: r)))))]
      (uncollected (unindent? (l.text.takeWhile isBlank)) (l :: r)) := by
  refine (collects_preformatted files base d _).tells (unindent?_takeWhile_isBlank hne) ?_ r
  rw [hbegin, beginBlock_indented h, if_neg hblank]

/-- The lines of a paragraph. -/
theorem tells_paragraph (hd : 1 ≤ d) (hne : l.text ≠ [])
    (hindent : ¬ l.text.head?.any isBlank = true) (hbullet : ¬ (bullet? l.text).isSome = true)
    (hnote : ¬ (noteText? l.text).isSome = true) (hdot : l.text.head? ≠ some '.') (r : List Line) :
    Tells files base d (l :: r)
      [.elem (.paragraph ((collected paragraph? (l :: r)).map String.ofList))]
      (uncollected paragraph? (l :: r)) := by
  refine (collects_paragraph hd).tells (paragraph?_eq_some hne hindent hdot) ?_ r
  have hbullet : ['-', ' '].isPrefixOf? l.text = none := Option.not_isSome_iff_eq_none.1 hbullet
  have hnote : noteText? l.text = none := Option.not_isSome_iff_eq_none.1 hnote
  simp [hbegin, beginBlock, takeWhile_isBlank_eq_nil hindent, hbullet, hnote, hdot]

end Blocks

end Source

end Lectern
