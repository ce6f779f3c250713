import Lectern.Proofs.Page.Marker
import Lectern.Proofs.Source.Excerpts
import Lectern.Proofs.Source.Notes
import Lectern.Proofs.Source.Shape

/-!
# Excerpts of programs

The excerpts of a document are those of the excerpt commands of its source, one for each, in their
order (`read_codes`). With an excerpt that can be run the rest of its file is kept, so that nothing
of the program is lost but the lines that the author has left out (`program_excerpt`).
-/

namespace Lectern

open Text

/-- The program of an excerpt: the hidden part in front of it, its lines, and the hidden part behind
it. -/
def Code.program (c : Code) : List Char :=
  c.before.toList ++ unlines (c.lines.map (·.text.toList)) ++ c.after.toList

namespace Source

variable {files : Files} {base : Path}

/-! ## Excerpt commands -/

/-- Is the line a command that shows an excerpt of a file? -/
def isExcerptLine (text : List Char) : Bool :=
  let command := String.ofList (nextField text).1
  text.head? = some '.' && (command = ".code" || command = ".play")

/-- The excerpts that a block adds. -/
def Block.codes : Block → List Code
  | .elem e => e.codes
  | .note _ | .background _ => []

/-- The excerpts that an item adds. -/
def Item.codes : Item → List Code
  | .heading _ _ => []
  | .block _ b => b.codes

/-- Excerpts are those of the excerpt commands among lines, one for each, in their order. -/
def ReadsCodes (files : Files) (base : Path) (texts : List (List Char))
    (codes : List Code) : Prop :=
  List.Forall₂ (fun text c => readExcerpt files base text = .ok c) (texts.filter isExcerptLine)
    codes

theorem ReadsCodes.append {texts texts' : List (List Char)} {codes codes' : List Code}
    (h : ReadsCodes files base texts codes) (h' : ReadsCodes files base texts' codes') :
    ReadsCodes files base (texts ++ texts') (codes ++ codes') := by
  rw [ReadsCodes, List.filter_append]
  exact List.rel_append h h'

theorem readsCodes_of_head {text : List Char} (h : text.head? ≠ some '.') :
    ReadsCodes files base [text] [] := by
  have hfilter : [text].filter isExcerptLine = [] :=
    List.filter_cons_of_neg (by simp [isExcerptLine, h])
  rw [ReadsCodes, hfilter]
  exact .nil

/-- What is no excerpt command adds no excerpt. -/
theorem codes_readCommand {text : List Char} {b : Block}
    (hcode : String.ofList (nextField text).1 ≠ ".code")
    (hplay : String.ofList (nextField text).1 ≠ ".play")
    (h : readCommand files base text = .ok b) : b.codes = [] := by
  cases readCommand_cases h with
  | excerpt hcommand _ => exact (hcommand.elim hcode hplay).elim
  | _ => rfl

/-- An excerpt command adds its excerpt. -/
theorem readCommand_excerpt {text : List Char} (h : String.ofList (nextField text).1 = ".code" ∨
      String.ofList (nextField text).1 = ".play") :
    readCommand files base text =
      (readExcerpt files base text).map fun c => .elem (.code c) := by
  unfold readCommand
  rcases h with h | h <;> simp only [h]

theorem readsCodes_readCommand {text : List Char} {b : Block} (hdot : text.head? = some '.')
    (h : readCommand files base text = .ok b) : ReadsCodes files base [text] b.codes := by
  by_cases hcommand : String.ofList (nextField text).1 = ".code" ∨
      String.ofList (nextField text).1 = ".play"
  · have hline : isExcerptLine text = true := by simp [isExcerptLine, hdot, hcommand]
    rw [readCommand_excerpt hcommand] at h
    obtain ⟨c, hc, rfl⟩ := map_eq_ok h
    rw [ReadsCodes, List.filter_cons_of_pos hline, List.filter_nil]
    exact .cons hc .nil
  · have hline : isExcerptLine text = false := by simpa [isExcerptLine, hdot] using hcommand
    rw [not_or] at hcommand
    rw [ReadsCodes, List.filter_cons_of_neg (by simp [hline]),
      codes_readCommand hcommand.1 hcommand.2 h]
    exact .nil

/-! ## Reading lines -/

/-- A block that is closed is no excerpt. -/
theorem codes_pending (st : State) : st.pending.flatMap Item.codes = [] := by
  obtain ⟨d, opened⟩ := st
  cases opened <;> rfl

theorem readsCodes_of_isBlank {c : Char} (hc : isBlank c = true) (r : List Char) :
    ReadsCodes files base [c :: r] [] := by
  refine readsCodes_of_head fun hdot => ?_
  obtain rfl := Option.some.inj hdot
  cases hc

theorem readsCodes_of_isBlankLine {text : List Char} (h : isBlankLine text = true) :
    ReadsCodes files base [text] [] := by
  cases text with
  | nil => exact readsCodes_of_head (by decide)
  | cons c r => exact readsCodes_of_isBlank (List.all_eq_true.1 h c (List.mem_cons_self ..)) r

theorem BeginsBlock.readsCodes {d : Nat} {text : List Char} {items : List Item} {o : OpenBlock}
    (h : BeginsBlock files base d text items o) :
    ReadsCodes files base [text] (items.flatMap Item.codes) := by
  cases h with
  | blank hblank => exact readsCodes_of_isBlankLine hblank
  | @preformatted indent c r hne hindent hc =>
    obtain ⟨b, i, rfl⟩ := List.exists_cons_of_ne_nil hne
    exact readsCodes_of_isBlank (List.all_eq_true.1 hindent b (List.mem_cons_self ..)) _
  | list bullet => exact readsCodes_of_head (by simp)
  | note note => exact readsCodes_of_head (by simp)
  | @command _ b hdot hb =>
    have hcodes := readsCodes_readCommand hdot hb
    rwa [← List.append_nil b.codes] at hcodes
  | paragraph hc hdot hlist hnote => exact readsCodes_of_head (by simpa using hdot)

theorem BeginsLine.readsCodes {d : Nat} {text : List Char} {items : List Item} {st : State}
    (h : BeginsLine files base d text items st) :
    ReadsCodes files base [text] (items.flatMap Item.codes) := by
  cases h with
  | empty => exact readsCodes_of_head (by decide)
  | heading hn hdepth title =>
    obtain ⟨k, rfl⟩ := Nat.exists_eq_add_of_le' hn
    exact readsCodes_of_head (by rw [List.replicate_succ, List.cons_append]; simp)
  | block hne he hdepth h => exact h.readsCodes

/-- A line that goes on with a block is no command. -/
theorem OpenBlock.Extends.readsCodes {d : Nat} {text : List Char} {o o' : OpenBlock}
    (h : o.Extends text o') (ho : State.Indented ⟨d, o⟩) : ReadsCodes files base [text] [] := by
  cases h with
  | paragraph hblank hdot => exact readsCodes_of_head hdot
  | list htext => exact readsCodes_of_head (by simp [htext])
  | empty htext => exact readsCodes_of_isBlankLine (by simp [htext])
  | preformatted hne htext =>
    obtain ⟨c, i, rfl, hc⟩ := ho _ _ rfl
    rw [htext]
    exact readsCodes_of_isBlank hc _

/-- A line adds an excerpt if it is an excerpt command, whatever block is open. -/
theorem ReadsLine.readsCodes {st st' : State} (hst : st.Indented) {text : List Char}
    {items : List Item} (h : ReadsLine files base st text items st') :
    ReadsCodes files base [text] (items.flatMap Item.codes) := by
  cases h with
  | goesOn h => exact h.readsCodes hst
  | ends hopened hblank =>
    rw [codes_pending]
    exact readsCodes_of_isBlankLine hblank
  | begins h =>
    rw [List.flatMap_append, codes_pending]
    exact h.readsCodes

theorem readsCodes_readItems {st : State} (hst : st.Indented) {lines : List Line}
    {items : List Item} (h : readItems files base st lines = .ok items) :
    ReadsCodes files base (lines.map (·.text)) (items.flatMap Item.codes) := by
  induction lines generalizing st items with
  | nil =>
    obtain rfl := Except.ok.inj h
    rw [← State.pending, codes_pending]
    exact .nil
  | cons l r ih =>
    rw [readItems] at h
    split at h
    · cases h
    rename_i begun st' hline
    obtain ⟨more, hmore, rfl⟩ := map_eq_ok h
    have hline := readLine_cases hline
    have hrest := ih (hline.indented hst) hmore
    rw [List.flatMap_append, List.map_cons, ← List.singleton_append]
    exact (hline.readsCodes hst).append hrest

/-! ## The outline -/

theorem codes_sub (s : Section) : (Element.sub s).codes = Element.allCodes s.elems := by
  cases s
  rfl

theorem allCodes_sectionOf (title : List Char) (blocks : List Block) :
    Element.allCodes (sectionOf title blocks).elems = blocks.flatMap Block.codes := by
  induction blocks with
  | nil => rfl
  | cons b r ih =>
    rw [List.flatMap_cons, ← ih]
    cases b <;> rfl

/-- Gathering items keeps their excerpts in order. -/
theorem codes_gathered (items : List Item) :
    (gathered items).flatMap (fun x => x.2.codes) = items.flatMap Item.codes := by
  induction items with
  | nil => rfl
  | cons item r ih =>
    cases item with
    | block d b =>
      rw [gathered_cons_block, List.flatMap_cons, List.flatMap_cons, ih]
      rfl
    | heading n title =>
      have hsplit := List.takeWhile_append_dropWhile (p := fun x => decide (n ≤ x.1))
        (l := gathered r)
      have hsection : (Block.elem (.sub (gatheredSection n title r))).codes =
          ((gathered r).takeWhile fun x => decide (n ≤ x.1)).flatMap fun x => x.2.codes := by
        rw [Block.codes, codes_sub, gatheredSection, allCodes_sectionOf, List.flatMap_map]
      rw [gathered_cons_heading, List.flatMap_cons, List.flatMap_cons, ← ih, hsection,
        ← List.flatMap_append, hsplit]
      rfl

mutual

theorem allCodes_renumber (number : List Nat) :
    ∀ s : Section, Element.allCodes (renumber number s).elems = Element.allCodes s.elems
  | ⟨_, _, elems, _, _, _⟩ => by rw [renumber, allCodes_renumberFrom number 1 elems]

theorem allCodes_renumberFrom (parent : List Nat) (next : Nat) (es : List Element) :
    Element.allCodes (renumberFrom parent next es) = Element.allCodes es := by
  cases es with
  | nil => rfl
  | cons e r =>
    cases e with
    | sub s =>
      rw [renumberFrom, Element.allCodes, Element.allCodes, codes_sub, codes_sub,
        allCodes_renumber _ s, allCodes_renumberFrom parent (next + 1) r]
    | _ =>
      rw [renumberFrom_cons_of_section?_eq_none rfl, Element.allCodes, Element.allCodes,
        allCodes_renumberFrom parent next r]

end

theorem allCodes_map_sub (sections : List Section) :
    Element.allCodes (sections.map .sub) = sections.flatMap fun s => Element.allCodes s.elems := by
  induction sections with
  | nil => rfl
  | cons s r ih => rw [List.map_cons, Element.allCodes, codes_sub, ih, List.flatMap_cons]

/-- All elements of the document are sections. -/
theorem exists_sub_of_mem_topElements {items : List Item} (h : Follows 0 items) :
    ∀ e ∈ topElements items, ∃ s, e = .sub s := by
  intro e he
  obtain ⟨b, hb, hbe⟩ := List.mem_filterMap.1 he
  obtain ⟨x, hx, rfl⟩ := List.mem_map.1 hb
  obtain ⟨s, hs⟩ := exists_sub_of_mem_gathered h x hx (Nat.le_zero.1 ((gathered_sorted h).1 x hx))
  rw [hs] at hbe
  exact ⟨s, (Option.some.inj hbe).symm⟩

/-- The outline has the excerpts of the items, in their order. -/
theorem codes_outline {items : List Item} (h : Follows 0 items) :
    (outline items).flatMap (fun s => Element.allCodes s.elems) = items.flatMap Item.codes := by
  rw [← allCodes_map_sub, outline_eq,
    map_sub_filterMap_renumberFrom [] 1 (exists_sub_of_mem_topElements h), allCodes_renumberFrom,
    topElements, allCodes_sectionOf, List.flatMap_map, codes_gathered]

/-! ## The excerpts of a source -/

theorem codes_authorElement (text : List Char) : (authorElement text).codes = [] := by
  unfold authorElement
  simp only
  split
  · rfl
  · split_ifs <;> rfl

theorem allCodes_eq_nil {elems : List Element} (h : ∀ e ∈ elems, e.codes = []) :
    Element.allCodes elems = [] := by
  induction elems with
  | nil => rfl
  | cons e r ih =>
    rw [Element.allCodes, h e (List.mem_cons_self ..),
      ih fun f hf => h f (List.mem_cons_of_mem e hf), List.append_nil]

theorem indented_start : State.Indented {} := State.indented_of_not_preformatted rfl

/-- The excerpt commands of a source. -/
def excerptTexts (text : String) : List (List Char) :=
  (bodyTexts (Text.lines text.toList)).filter isExcerptLine

/-- A page of a document that is read shows an excerpt for each excerpt command, in their order. -/
theorem read_codes {name : Path} {text : String} {d : Document}
    (h : read files name .full text = .ok d) (k : Kind) :
    List.Forall₂ (fun t c => readExcerpt files name.parent t = .ok c) (excerptTexts text)
      (d.codes k) := by
  obtain ⟨d₀, rest, items, hheader, hitems, rfl⟩ :=
    readLines_full_eq_ok_iff.1 (readLines_of_read h)
  have hcodes := readsCodes_readItems indented_start hitems
  rw [map_text_readAuthors hheader] at hcodes
  have hfollows := readItems_follows (s := {}) (fun _ => rfl) hitems
  have hauthors : (readAuthors [] rest).1.flatMap (fun a => Element.allCodes a.elems) = [] :=
    List.flatMap_eq_nil_iff.2 fun a ha => allCodes_eq_nil
      (forall_readAuthors codes_authorElement (fun e he => absurd he List.not_mem_nil) rest a ha)
  have hall : Document.codes { d₀ with
      authors := (readAuthors [] rest).1, sections := outline items } k =
        items.flatMap Item.codes := by
    cases k <;> simp only [Document.codes, hauthors, codes_outline hfollows, List.nil_append,
      List.append_nil]
  rw [hall]
  exact hcodes

/-! ## The program of an excerpt -/

/-- The lines of a file that are run with an excerpt: all but the lines in its range that are marked
to be left out. -/
def programLines (range : Range) (lines : List (List Char)) : List (List Char) :=
  (lines.zipIdx.filter fun x => !(range.lo ≤ x.2 && x.2 < range.hi && isOmitted x.1)).map (·.1)

theorem map_fst_filter_zipIdx {p : List Char × Nat → Bool} {q : List Char → Bool} {k : Nat}
    {lines : List (List Char)}
    (h : ∀ i (hi : i < lines.length), p (lines[i], k + i) = q lines[i]) :
    ((lines.zipIdx k).filter p).map (·.1) = lines.filter q := by
  induction lines generalizing k with
  | nil => rfl
  | cons l r ih =>
    have hfirst : p (l, k) = q l := h 0 (Nat.succ_pos _)
    have hrest := ih (k := k + 1) fun i hi => by
      have := h (i + 1) (Nat.succ_lt_succ hi)
      rwa [← Nat.add_assoc, Nat.add_right_comm] at this
    rw [List.zipIdx_cons, List.filter_cons, List.filter_cons, hfirst]
    split_ifs
    · rw [List.map_cons, hrest]
    · exact hrest

/-- Of lines in three parts, the second one of which is in the range, only lines of this part are
left out. -/
theorem programLines_append {lo hi : Nat} {front mid behind : List (List Char)}
    (hfront : front.length ≤ lo)
    (hmid : ∀ i < mid.length, lo ≤ front.length + i ∧ front.length + i < hi)
    (hbehind : ∀ i < behind.length, hi ≤ front.length + mid.length + i) :
    programLines ⟨lo, hi⟩ (front ++ mid ++ behind) =
      front ++ mid.filter (!isOmitted ·) ++ behind := by
  have hkept : ∀ l : List (List Char), l.filter (fun _ => true) = l := fun l =>
    List.filter_eq_self.2 fun _ _ => rfl
  rw [programLines, List.zipIdx_append, List.zipIdx_append, List.filter_append, List.filter_append,
    List.map_append, List.map_append, map_fst_filter_zipIdx (q := fun _ => true),
    map_fst_filter_zipIdx (q := fun t => !isOmitted t), map_fst_filter_zipIdx (q := fun _ => true),
    hkept, hkept]
  · intro i hi'
    have hout : ¬ 0 + (front ++ mid).length + i < hi := by
      have := hbehind i hi'
      rw [List.length_append]
      omega
    simp only [decide_eq_false hout, Bool.and_false, Bool.false_and, Bool.not_false]
  · intro i hi'
    obtain ⟨hlo, hhi⟩ := hmid i hi'
    rw [← Nat.zero_add front.length] at hlo hhi
    simp only [decide_eq_true hlo, decide_eq_true hhi, Bool.true_and]
  · intro i hi'
    have hlo : ¬ lo ≤ 0 + i := by omega
    simp only [decide_eq_false hlo, Bool.false_and, Bool.not_false]

/-- The program falls into the lines in front of the range, those of the range that are not left
out, and the lines behind it. -/
theorem programLines_eq {range : Range} (h : range.lo ≤ range.hi) (lines : List (List Char)) :
    programLines range lines = lines.take range.lo ++
      ((lines.take range.hi).drop range.lo).filter (!isOmitted ·) ++ lines.drop range.hi := by
  have hlines : lines.take range.lo ++ (lines.take range.hi).drop range.lo ++
      lines.drop range.hi = lines := by
    have htake : (lines.take range.hi).take range.lo = lines.take range.lo := by
      rw [List.take_take, Nat.min_eq_left h]
    rw [← htake, List.take_append_drop, List.take_append_drop]
  calc programLines range lines
      = programLines range (lines.take range.lo ++ (lines.take range.hi).drop range.lo ++
          lines.drop range.hi) := by rw [hlines]
    _ = _ := by
        apply programLines_append
        · exact List.length_take_le _ _
        · intro i hi
          rw [List.length_drop, List.length_take] at hi
          rw [List.length_take]
          omega
        · intro i hi
          rw [List.length_drop] at hi
          rw [List.length_drop, List.length_take, List.length_take]
          omega

theorem map_text_excerptLines (range : Range) (lines : List (List Char)) :
    (excerptLines range lines).map (·.text.toList) =
      ((lines.take range.hi).drop range.lo).filter (!isOmitted ·) := by
  have hkept : ∀ l : List (List Char × Nat),
      (l.filterMap fun x => if isOmitted x.1 then none
        else some (⟨x.2 + 1, String.ofList x.1⟩ : CodeLine)).map (·.text.toList) =
        (l.map (·.1)).filter (!isOmitted ·) := by
    intro l
    induction l with
    | nil => rfl
    | cons x l ih =>
      cases hx : isOmitted x.1 <;> simp [hx, ih]
  rw [excerptLines, hkept, List.map_drop, List.zipIdx_map_fst]

/-- An excerpt that can be run holds the whole file but the lines that the author has left out. -/
theorem program_excerpt {range : Range} (h : range.lo ≤ range.hi) (l : ExcerptLine)
    (lines : List (List Char)) :
    (excerpt l true range lines).program = unlines (programLines range lines) := by
  rw [programLines_eq h, unlines_append, unlines_append, ← map_text_excerptLines]
  simp [Code.program, excerpt]

/-- A command that asks for an excerpt that can be run. -/
def IsPlay (text : List Char) : Prop := String.ofList (nextField text).1 = ".play"

/-- The excerpt of a play command is one of the file that it names, at the address that it gives. -/
theorem readExcerpt_play {text : List Char} {c : Code} (hplay : IsPlay text)
    (h : readExcerpt files base text = .ok c) :
    ∃ l contents range,
      readExcerptLine text (text.length + 1) false false (nextField text).2 = .ok l ∧
      files (base.join ⟨l.file⟩) = .ok contents ∧
      resolveAddress (trim l.address) (Text.lines contents.toList) = .ok range ∧
      c = excerpt l true range (Text.lines contents.toList) := by
  have hcommand : decide ((nextField text).1 = ".play".toList) = true := by
    have heq : (nextField text).1 = ".play".toList := by rw [← hplay, String.toList_ofList]
    exact decide_eq_true heq
  obtain ⟨l, contents, range, hl, hcontents, hrange, rfl⟩ := readExcerpt_eq_ok_iff.1 h
  rw [hcommand]
  exact ⟨l, contents, range, hl, hcontents, hrange, rfl⟩

end Source

end Lectern
