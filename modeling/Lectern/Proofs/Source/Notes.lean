import Lectern.Proofs.Page.WithoutNotes
import Lectern.Proofs.Source.Joining

/-!
# Sources that differ in their speaker notes

Two sources that are the same but for the texts of speaker notes are read alike: both are refused,
or their documents are the same without the notes (`readLines_withoutNotes`). The lines of a
paragraph are no notes, whatever they start with.
-/

namespace Lectern

/-! ## Items without the texts of notes -/

namespace Source

open Text

/-- The block without the text of a note and without the notes in an element. -/
def Block.hushed : Block → Block
  | .elem e => .elem e.withoutNotes
  | .note _ => .note []
  | .background url => .background url

/-- The item without the text of a note. -/
def Item.hushed : Item → Item
  | .heading depth title => .heading depth title
  | .block depth b => .block depth b.hushed

/-- Gathered blocks without the texts of notes. -/
def hushedBlocks (blocks : List (Nat × Block)) : List (Nat × Block) :=
  blocks.map fun x => (x.1, x.2.hushed)

theorem sectionOf_withoutNotes (title : List Char) (blocks : List Block) :
    (sectionOf title blocks).withoutNotes =
      { sectionOf title (blocks.map Block.hushed) with notes := [] } := by
  rw [sectionOf, sectionOf, Section.withoutNotes, allWithoutNotes_eq_map]
  simp only [List.filterMap_map, List.map_filterMap]
  congr 1
  all_goals
    refine List.filterMap_congr fun b _ => ?_
    cases b <;> rfl

theorem hushedBlocks_takeWhile (n : Nat) (xs : List (Nat × Block)) :
    hushedBlocks (xs.takeWhile fun x => decide (n ≤ x.1)) =
      (hushedBlocks xs).takeWhile fun x => decide (n ≤ x.1) := by
  rw [hushedBlocks, hushedBlocks, List.takeWhile_map]
  rfl

theorem hushedBlocks_dropWhile (n : Nat) (xs : List (Nat × Block)) :
    hushedBlocks (xs.dropWhile fun x => decide (n ≤ x.1)) =
      (hushedBlocks xs).dropWhile fun x => decide (n ≤ x.1) := by
  rw [hushedBlocks, hushedBlocks, List.dropWhile_map]
  rfl

theorem map_snd_hushedBlocks (xs : List (Nat × Block)) :
    (xs.map (·.2)).map Block.hushed = (hushedBlocks xs).map (·.2) := by
  rw [hushedBlocks, List.map_map, List.map_map]
  rfl

/-- Putting an item in front of blocks does not look at the texts of notes. -/
theorem gather_hushed {i j : Item} {xs ys : List (Nat × Block)} (hij : i.hushed = j.hushed)
    (hxy : hushedBlocks xs = hushedBlocks ys) :
    hushedBlocks (gather i xs) = hushedBlocks (gather j ys) := by
  cases i with
  | block d b =>
    cases j with
    | heading => cases hij
    | block d' b' =>
      obtain ⟨rfl, hb⟩ := Item.block.inj hij
      show (d, b.hushed) :: hushedBlocks xs = (d, b'.hushed) :: hushedBlocks ys
      rw [hb, hxy]
  | heading n title =>
    cases j with
    | block => cases hij
    | heading n' title' =>
      obtain ⟨rfl, rfl⟩ := Item.heading.inj hij
      have hsection (zs : List (Nat × Block)) :
          (sectionOf title ((zs.takeWhile fun x => decide (n ≤ x.1)).map (·.2))).withoutNotes =
            { sectionOf title (((hushedBlocks zs).takeWhile fun x => decide (n ≤ x.1)).map (·.2))
              with notes := [] } := by
        rw [sectionOf_withoutNotes, map_snd_hushedBlocks, hushedBlocks_takeWhile]
      have hheading (zs : List (Nat × Block)) : hushedBlocks (gather (.heading n title) zs) =
          (n - 1, .elem (.sub (sectionOf title
            ((zs.takeWhile fun x => decide (n ≤ x.1)).map (·.2))).withoutNotes)) ::
            hushedBlocks (zs.dropWhile fun x => decide (n ≤ x.1)) := rfl
      rw [hheading, hheading, hsection, hsection, hushedBlocks_dropWhile,
        hushedBlocks_dropWhile, hxy]

/-- Items that differ in the texts of notes alone are gathered alike. -/
theorem gathered_hushed {items items' : List Item}
    (h : items.map Item.hushed = items'.map Item.hushed) :
    hushedBlocks (gathered items) = hushedBlocks (gathered items') := by
  induction items generalizing items' with
  | nil =>
    obtain rfl : items' = [] := List.map_eq_nil_iff.1 h.symm
    rfl
  | cons i r ih =>
    cases items' with
    | nil => cases h
    | cons j s =>
      obtain ⟨hij, hrs⟩ := List.cons.inj h
      exact gather_hushed hij (ih hrs)

/-! ## Outlines without notes -/

mutual

theorem renumber_withoutNotes (number : List Nat) :
    ∀ s : Section, (renumber number s).withoutNotes = renumber number s.withoutNotes
  | ⟨_, title, elems, _, classes, styles⟩ => by
    rw [renumber, Section.withoutNotes, Section.withoutNotes, renumber,
      allWithoutNotes_renumberFrom number 1 elems]

theorem allWithoutNotes_renumberFrom (parent : List Nat) (next : Nat) (es : List Element) :
    Element.allWithoutNotes (renumberFrom parent next es) =
      renumberFrom parent next (Element.allWithoutNotes es) := by
  cases es with
  | nil => rfl
  | cons e r =>
    rw [Element.allWithoutNotes]
    cases e with
    | sub s =>
      rw [renumberFrom, Element.allWithoutNotes, Element.withoutNotes, Element.withoutNotes,
        renumberFrom, renumber_withoutNotes _ s, allWithoutNotes_renumberFrom parent (next + 1) r]
    | _ =>
      rw [renumberFrom_cons_of_section?_eq_none rfl, Element.allWithoutNotes,
        withoutNotes_of_section?_eq_none rfl, renumberFrom_cons_of_section?_eq_none rfl,
        allWithoutNotes_renumberFrom parent next r]

end

theorem filterMap_section?_allWithoutNotes (es : List Element) :
    (Element.allWithoutNotes es).filterMap Element.section? =
      (es.filterMap Element.section?).map Section.withoutNotes := by
  rw [allWithoutNotes_eq_map, List.filterMap_map, List.map_filterMap]
  refine List.filterMap_congr fun e _ => ?_
  cases e <;> rfl

/-- Items that differ in the texts of notes alone have the same outline, without the notes. -/
theorem outline_hushed {items items' : List Item}
    (h : items.map Item.hushed = items'.map Item.hushed) :
    (outline items).map Section.withoutNotes = (outline items').map Section.withoutNotes := by
  have htop (items : List Item) : Element.allWithoutNotes (topElements items) =
      (sectionOf [] ((hushedBlocks (gathered items)).map (·.2))).elems := by
    rw [topElements, ← map_snd_hushedBlocks]
    exact congrArg Section.elems (sectionOf_withoutNotes [] _)
  have houtline (items : List Item) : (outline items).map Section.withoutNotes =
      (renumberFrom [] 1 (sectionOf [] ((hushedBlocks (gathered items)).map (·.2))).elems).filterMap
        Element.section? := by
    rw [outline_eq, ← filterMap_section?_allWithoutNotes, allWithoutNotes_renumberFrom, htop]
  rw [houtline, houtline, gathered_hushed h]

/-! ## Reading with other files -/

variable {files files' : Files} {base : Path}

/-- The file that a line refers to if it is a command. -/
def referencedFile? (base : Path) (text : List Char) : Option Path :=
  if text.head? = some '.' then
    match String.ofList (nextField text).1 with
    | ".code" | ".play" =>
        (readExcerptLine text (text.length + 1) false false (nextField text).2).toOption.map
          fun l => base.join ⟨l.file⟩
    | ".html" => (fields text).tail.head?.map fun file => base.join ⟨file⟩
    | _ => none
  else none

theorem readExcerpt_congr {text : List Char}
    (h : ∀ l, readExcerptLine text (text.length + 1) false false (nextField text).2 = .ok l →
      files (base.join ⟨l.file⟩) = files' (base.join ⟨l.file⟩)) :
    readExcerpt files base text = readExcerpt files' base text := by
  unfold readExcerpt
  dsimp only
  cases hl : readExcerptLine text (text.length + 1) false false (nextField text).2 with
  | error problem => rfl
  | ok l =>
    dsimp only [bind, Except.bind]
    rw [h l hl]

/-- A command is read alike with other files if they agree on the file that it refers to. -/
theorem readCommand_congr {text : List Char} (hdot : text.head? = some '.')
    (h : ∀ p ∈ referencedFile? base text, files p = files' p) :
    readCommand files base text = readCommand files' base text := by
  rw [referencedFile?, if_pos hdot] at h
  have hexcerpt : (∀ p ∈ (readExcerptLine text (text.length + 1) false false
        (nextField text).2).toOption.map fun l => base.join ⟨l.file⟩, files p = files' p) →
      readExcerpt files base text = readExcerpt files' base text := by
    intro h
    refine readExcerpt_congr fun l hl => h _ ?_
    rw [hl]
    rfl
  unfold readCommand
  dsimp only
  split <;> rename_i hcommand
  case h_2 =>
    rw [hcommand] at h
    rw [hexcerpt h]
  case h_3 =>
    rw [hcommand] at h
    rw [hexcerpt h]
  case h_8 =>
    rw [hcommand] at h
    cases hargs : (fields text).tail with
    | nil => rfl
    | cons file r =>
      rw [hargs] at h
      dsimp only
      rw [h (base.join ⟨file⟩) rfl]
  all_goals rfl

/-- The files are the same where lines refer to them. -/
def SameReferences (files files' : Files) (base : Path) (texts : List (List Char)) : Prop :=
  ∀ text ∈ texts, ∀ p ∈ referencedFile? base text, files p = files' p

theorem sameReferences_of_no_command {texts : List (List Char)}
    (h : ∀ text ∈ texts, text.head? ≠ some '.') : SameReferences files files' base texts := by
  intro text ht p hp
  rw [referencedFile?, if_neg (h text ht)] at hp
  cases hp

theorem readLine_congr {text : List Char} (h : ∀ p ∈ referencedFile? base text, files p = files' p)
    (st : State) : readLine files base st text = readLine files' base st text := by
  have hblock (d : Nat) : beginBlock files base d text = beginBlock files' base d text := by
    unfold beginBlock
    by_cases hdot : text.head? = some '.'
    · rw [readCommand_congr hdot h]
    · simp only [if_neg hdot]
  have hclose : closeAndBegin files base st text = closeAndBegin files' base st text := by
    simp only [closeAndBegin, beginLine, hblock]
  simp only [readLine, hclose]

theorem scan_congr {texts : List (List Char)} (h : SameReferences files files' base texts)
    (st : State) : scan files base st texts = scan files' base st texts := by
  induction texts generalizing st with
  | nil => rfl
  | cons text r ih =>
    have hr : SameReferences files files' base r := fun t ht => h t (List.mem_cons_of_mem text ht)
    rw [scan, scan, readLine_congr (h text (List.mem_cons_self ..))]
    simp only [ih hr]

/-! ## The parts of a source -/

/-- The lines of the body of a source, without comments. A header starts with the first line that is
not empty and ends at the next empty one; the body starts at the first line with a star behind. -/
def bodyTexts (texts : List (List Char)) : List (List Char) :=
  let header := (texts.filter (!isComment ·)).dropWhile (·.isEmpty)
  (header.dropWhile (!·.isEmpty)).dropWhile (·.head? ≠ some '*')

theorem dropWhile_append_of_ne_nil {α : Type} {p : α → Bool} {l : List α} (h : l.dropWhile p ≠ [])
    (m : List α) : (l ++ m).dropWhile p = l.dropWhile p ++ m := by
  rw [List.dropWhile_append, if_neg (by simpa using h)]

theorem ne_nil_of_dropWhile_ne_nil {α : Type} {p : α → Bool} {l : List α}
    (h : l.dropWhile p ≠ []) : l ≠ [] := by
  rintro rfl
  exact h rfl

/-- Behind the first heading every line but a comment is one of the body. -/
theorem bodyTexts_append {texts : List (List Char)} (h : bodyTexts texts ≠ [])
    (more : List (List Char)) :
    bodyTexts (texts ++ more) = bodyTexts texts ++ more.filter (!isComment ·) := by
  have hauthors := ne_nil_of_dropWhile_ne_nil h
  have hheader := ne_nil_of_dropWhile_ne_nil hauthors
  simp only [bodyTexts] at h hauthors hheader ⊢
  rw [List.filter_append, dropWhile_append_of_ne_nil hheader, dropWhile_append_of_ne_nil hauthors,
    dropWhile_append_of_ne_nil h]

theorem bodyTexts_eq (texts : List (List Char)) :
    bodyTexts texts = ((((numbered texts).dropWhile (·.text.isEmpty)).dropWhile
      (!·.text.isEmpty)).dropWhile (·.text.head? ≠ some '*')).map (·.text) := by
  have hnumbered : (numbered texts).map (·.text) = texts.filter (!isComment ·) :=
    map_text_numberedFrom 1 texts
  rw [bodyTexts, ← hnumbered, List.dropWhile_map, List.dropWhile_map, List.dropWhile_map]
  rfl

/-- The lines behind the authors are those of the body. -/
theorem map_text_readAuthors {stop : Nat} {texts : List (List Char)} {d : Document}
    {rest : List Line} (h : readHeader stop (numbered texts) = .ok (d, rest)) :
    (readAuthors [] rest).2.map (·.text) = bodyTexts texts := by
  obtain ⟨l, hl, hrest⟩ := readHeader_rest h
  rw [bodyTexts_eq, hrest, readAuthors_rest, List.dropWhile_cons_of_pos (by simp [hl])]

/-- What stands in front of the body of a source: its header and its authors. -/
def preamble (texts : List (List Char)) : Option (Document × List Author) :=
  (readHeader (texts.length + 1) (numbered texts)).toOption.map fun p =>
    (p.1, (readAuthors [] p.2).1)

theorem toOption_map {ε α β : Type} (f : α → β) (x : Except ε α) :
    (x.map f).toOption = x.toOption.map f := by
  cases x <;> rfl

theorem toOption_readItems (st : State) (lines : List Line) :
    (readItems files base st lines).toOption =
      (scan files base st (lines.map (·.text))).toOption.map fun q => q.1 ++ q.2.pending := by
  cases hscan : scan files base st (lines.map (·.text)) with
  | ok q =>
    rw [readItems_eq_ok_iff.2 ⟨q.1, q.2, hscan, rfl⟩]
    rfl
  | error problem =>
    cases hitems : readItems files base st lines with
    | error located => rfl
    | ok items =>
      obtain ⟨closed, st', h, -⟩ := readItems_eq_ok_iff.1 hitems
      rw [hscan] at h
      cases h

/-- A source is read part by part. -/
theorem toOption_readLines (texts : List (List Char)) :
    (readLines files base .full texts).toOption =
      (preamble texts).bind fun p =>
        (scan files base {} (bodyTexts texts)).toOption.map fun q =>
          { p.1 with authors := p.2, sections := outline (q.1 ++ q.2.pending) } := by
  unfold readLines preamble
  cases hheader : readHeader (texts.length + 1) (numbered texts) with
  | error located => rfl
  | ok header =>
    obtain ⟨d, rest⟩ := header
    have hitems : (readItems files base {} (readAuthors [] rest).2).toOption =
        (scan files base {} (bodyTexts texts)).toOption.map fun q => q.1 ++ q.2.pending := by
      rw [toOption_readItems, map_text_readAuthors hheader]
    show ((readItems files base {} (readAuthors [] rest).2).map _).toOption =
      (scan files base {} (bodyTexts texts)).toOption.map _
    rw [toOption_map, hitems, Option.map_map]
    rfl

theorem readHeaderLines_append_of_error {stop stop' : Nat} {d : Document} {lines : List Line}
    {why : Located} (h : readHeaderLines stop d lines = .error why)
    (hend : lines.dropWhile (!·.text.isEmpty) ≠ []) (behind : List Line) :
    readHeaderLines stop' d (lines ++ behind) = .error why := by
  induction lines generalizing d with
  | nil => exact absurd rfl hend
  | cons l r ih =>
    rw [readHeaderLines] at h
    rw [List.cons_append, readHeaderLines]
    split_ifs at h ⊢ with hempty
    cases hline : headerLine d l.text with
    | error problem =>
      rw [hline] at h
      exact h
    | ok d₁ =>
      rw [hline] at h
      rw [List.dropWhile_cons_of_pos (by simpa using hempty)] at hend
      exact ih h hend

/-- A header that ends is refused as before if lines come behind the others. -/
theorem readHeader_append_of_error {stop stop' : Nat} {lines : List Line} {why : Located}
    (h : readHeader stop lines = .error why)
    (hend : (lines.dropWhile (·.text.isEmpty)).dropWhile (!·.text.isEmpty) ≠ [])
    (behind : List Line) : readHeader stop' (lines ++ behind) = .error why := by
  induction lines with
  | nil => exact absurd rfl hend
  | cons l r ih =>
    rw [readHeader] at h
    rw [List.cons_append, readHeader]
    split_ifs at h ⊢ with hempty
    · rw [List.dropWhile_cons_of_pos (p := fun l : Line => l.text.isEmpty) hempty] at hend
      exact ih h hend
    · rw [List.dropWhile_cons_of_neg (p := fun l : Line => l.text.isEmpty) hempty,
        List.dropWhile_cons_of_pos (by simpa using hempty)] at hend
      exact readHeaderLines_append_of_error h hend behind

theorem readAuthors_fst_append (elems : List Element) {lines : List Line}
    (h : (readAuthors elems lines).2 ≠ []) (behind : List Line) :
    (readAuthors elems (lines ++ behind)).1 = (readAuthors elems lines).1 := by
  induction lines generalizing elems with
  | nil => exact absurd rfl h
  | cons l r ih =>
    rw [readAuthors] at h ⊢
    rw [List.cons_append, readAuthors]
    by_cases hstar : l.text.head? = some '*'
    · rw [if_pos hstar, if_pos hstar]
    by_cases hnote : (noteText? l.text).isSome = true
    · rw [if_neg hstar, if_pos hnote] at h ⊢
      rw [if_neg hstar, if_pos hnote, ih elems h]
    by_cases hblank : l.text.isEmpty = true
    · simp only [if_neg hstar, if_neg hnote, if_pos hblank] at h ⊢
      rw [ih [] h]
    · rw [if_neg hstar, if_neg hnote, if_neg hblank] at h ⊢
      rw [if_neg hstar, if_neg hnote, if_neg hblank, ih _ h]

/-- What stands in front of the body does not depend on lines behind the first heading. -/
theorem preamble_append {texts : List (List Char)} (h : bodyTexts texts ≠ [])
    (more : List (List Char)) : preamble (texts ++ more) = preamble texts := by
  rw [preamble, preamble, numbered_append]
  cases hheader : readHeader (texts.length + 1) (numbered texts) with
  | error why =>
    have hend : ((numbered texts).dropWhile (·.text.isEmpty)).dropWhile (!·.text.isEmpty) ≠ [] := by
      intro e
      rw [bodyTexts_eq, e] at h
      exact h rfl
    rw [readHeader_append_of_error hheader hend]
  | ok header =>
    obtain ⟨d, rest⟩ := header
    have hbody : (readAuthors [] rest).2 ≠ [] := by
      intro e
      rw [← map_text_readAuthors hheader, e] at h
      exact h rfl
    rw [readHeader_append hheader]
    show some (d, (readAuthors [] (rest ++ _)).1) = some (d, (readAuthors [] rest).1)
    rw [readAuthors_fst_append [] hbody]

/-! ## Reading in step -/

/-- Two sources are the same line by line but for the texts of speaker notes, which lie behind the
first heading. -/
def SameButNotes (texts texts' : List (List Char)) : Prop :=
  ∀ i, texts[i]? = texts'[i]? ∨
    (∃ note note', texts[i]? = some (": ".toList ++ note) ∧
      texts'[i]? = some (": ".toList ++ note')) ∧ bodyTexts (texts.take i) ≠ []

theorem getElem?_append_singleton_ne {α : Type} {front : List α} {a b : α} {i : Nat}
    (h : (front ++ [a])[i]? ≠ (front ++ [b])[i]?) : i = front.length := by
  rcases lt_trichotomy i front.length with hlt | heq | hgt
  · exact absurd (by rw [List.getElem?_append_left hlt, List.getElem?_append_left hlt]) h
  · exact heq
  · have hnone (c : α) : (front ++ [c])[i]? = none :=
      List.getElem?_eq_none (by rw [List.length_append, List.length_singleton]; omega)
    exact absurd ((hnone a).trans (hnone b).symm) h

/-- Behind the first heading, sources may differ in a note at their ends. -/
theorem sameButNotes_append {front : List (List Char)} (h : bodyTexts front ≠ [])
    (note note' : List Char) :
    SameButNotes (front ++ [": ".toList ++ note]) (front ++ [": ".toList ++ note']) := by
  intro i
  refine or_iff_not_imp_left.2 fun hne => ?_
  obtain rfl := getElem?_append_singleton_ne hne
  exact ⟨⟨note, note', List.getElem?_concat_length, List.getElem?_concat_length⟩,
    by rwa [List.take_left]⟩

/-- Behind the lines, a paragraph is being read. -/
def InParagraph (files : Files) (base : Path) (texts : List (List Char)) : Prop :=
  ∃ items d lines, scan files base {} (bodyTexts texts) = .ok (items, ⟨d, .paragraph lines⟩)

/-- What is read, without the texts of notes and without the reason for a refusal. -/
def outcome (x : Except Problem (List Item × State)) : Option (List Item × State) :=
  x.toOption.map fun p => (p.1.map Item.hushed, p.2)

theorem outcome_readLine_note {st : State} (hst : st.Indented)
    (hopened : ∀ lines, st.opened ≠ .paragraph lines) (note note' : List Char) :
    outcome (readLine files base st (": ".toList ++ note)) =
      outcome (readLine files' base st (": ".toList ++ note')) := by
  rw [readLine_note hst hopened, readLine_note hst hopened]
  split_ifs
  · rfl
  · simp [outcome, Except.toOption, Item.hushed, Block.hushed]

theorem outcome_map_append (items : List Item) (x : Except Problem (List Item × State)) :
    outcome (x.map fun q => (items ++ q.1, q.2)) =
      (outcome x).map fun q => (items.map Item.hushed ++ q.1, q.2) := by
  cases x with
  | error problem => rfl
  | ok q => simp [outcome, Except.map, Except.toOption]

theorem outcome_scan_cons (st : State) (text : List Char) (r : List (List Char)) :
    outcome (scan files base st (text :: r)) =
      (outcome (readLine files base st text)).bind fun p =>
        (outcome (scan files base p.2 r)).map fun q => (p.1 ++ q.1, q.2) := by
  cases hread : readLine files base st text with
  | error problem =>
    rw [scan_cons_of_error hread]
    rfl
  | ok p =>
    rw [scan_cons_of_ok hread, outcome_map_append]
    rfl

/-- Two lines behind `front` are the same, or are notes that do not stand in a paragraph. -/
def SameLine (files : Files) (base : Path) (front : List (List Char)) (a b : List Char) : Prop :=
  a = b ∨ (∃ note note', a = ": ".toList ++ note ∧ b = ": ".toList ++ note') ∧
    ¬ InParagraph files base front

/-- Lines behind `front` are the same one by one, but for notes that do not stand in a
paragraph. -/
inductive InStep (files : Files) (base : Path) :
    List (List Char) → List (List Char) → List (List Char) → Prop
  | nil (front : List (List Char)) : InStep files base front [] []
  | cons {front r r' : List (List Char)} {a b : List Char} (line : SameLine files base front a b)
      (rest : InStep files base (front ++ [a]) r r') : InStep files base front (a :: r) (b :: r')

theorem inStep_of_getElem? {front body body' : List (List Char)}
    (h : ∀ i, body[i]? = body'[i]? ∨
      (∃ note note', body[i]? = some (": ".toList ++ note) ∧
        body'[i]? = some (": ".toList ++ note')) ∧
        ¬ InParagraph files base (front ++ body.take i)) :
    InStep files base front body body' := by
  induction body generalizing front body' with
  | nil =>
    rcases h 0 with h | ⟨⟨note, note', h, -⟩, -⟩
    · obtain rfl : body' = [] := List.head?_eq_none_iff.1 (List.head?_eq_getElem?.trans h.symm)
      exact .nil front
    · cases h
  | cons a r ih =>
    cases body' with
    | nil => rcases h 0 with h | ⟨⟨note, note', -, h⟩, -⟩ <;> cases h
    | cons b r' =>
      refine .cons ?_ (ih fun i => ?_)
      · rcases h 0 with h | ⟨⟨note, note', ha, hb⟩, hopen⟩
        · exact Or.inl (Option.some.inj h)
        · rw [List.take_zero, List.append_nil] at hopen
          exact Or.inr ⟨⟨note, note', Option.some.inj ha, Option.some.inj hb⟩, hopen⟩
      · rw [List.append_assoc]
        exact h (i + 1)

theorem SameLine.isComment_eq {front : List (List Char)} {a b : List Char}
    (h : SameLine files base front a b) : isComment b = isComment a := by
  rcases h with rfl | ⟨⟨note, note', rfl, rfl⟩, -⟩ <;> rfl

/-- Lines that are the same, or notes, are read alike. -/
theorem SameLine.outcome_readLine {front : List (List Char)} {a b : List Char} {items : List Item}
    {st : State} (h : SameLine files base front a b)
    (hfront : scan files base {} (bodyTexts front) = .ok (items, st))
    (hfiles : ∀ p ∈ referencedFile? base a, files p = files' p) :
    outcome (readLine files base st a) = outcome (readLine files' base st b) := by
  rcases h with rfl | ⟨⟨note, note', rfl, rfl⟩, hopen⟩
  · rw [readLine_congr hfiles]
  · have hopened : ∀ lines, st.opened ≠ .paragraph lines := fun lines e =>
      hopen ⟨items, st.depth, lines, by rw [hfront, ← e]⟩
    have hindented : st.Indented := scan_indented (State.indented_of_not_preformatted rfl) hfront
    exact outcome_readLine_note hindented hopened note note'

/-- Behind the first heading, the next line is read from where the lines in front of it end, unless
it is a comment. -/
theorem scan_bodyTexts_concat {front : List (List Char)} {items : List Item} {st : State}
    (hfront : scan files base {} (bodyTexts front) = .ok (items, st)) (hne : bodyTexts front ≠ [])
    (a : List Char) :
    scan files base {} (bodyTexts (front ++ [a])) =
      if isComment a then .ok (items, st)
      else (readLine files base st a).map fun p => (items ++ p.1, p.2) := by
  rw [bodyTexts_append hne, scan_append_of_ok hfront]
  cases ha : isComment a with
  | true =>
    rw [List.filter_cons_of_neg (by simp [ha]), List.filter_nil, scan_nil, if_pos rfl, Except.map,
      List.append_nil]
  | false =>
    rw [List.filter_cons_of_pos (by simp [ha]), List.filter_nil, if_neg Bool.false_ne_true]
    cases hread : readLine files base st a with
    | error problem => rw [scan_cons_of_error hread]
    | ok p =>
      rw [scan_cons_of_ok hread, scan_nil, Except.map, Except.map, List.append_nil]
      rfl

/-- Lines behind the first heading are read in step with others if they are the same but for the
texts of notes that do not stand in a paragraph. -/
theorem outcome_scan {front body body' : List (List Char)} {items : List Item} {st : State}
    (h : InStep files base front body body')
    (hfront : scan files base {} (bodyTexts front) = .ok (items, st)) (hne : bodyTexts front ≠ [])
    (hfiles : SameReferences files files' base (body.filter (!isComment ·))) :
    outcome (scan files base st (body.filter (!isComment ·))) =
      outcome (scan files' base st (body'.filter (!isComment ·))) := by
  induction h generalizing items st with
  | nil front => rfl
  | @cons front r r' a b line _ ih =>
    have hcomment : isComment b = isComment a := line.isComment_eq
    have hnext := scan_bodyTexts_concat hfront hne a
    have hne' : bodyTexts (front ++ [a]) ≠ [] := by
      rw [bodyTexts_append hne]
      exact List.append_ne_nil_of_left_ne_nil hne _
    cases ha : isComment a with
    | true =>
      rw [ha, if_pos rfl] at hnext
      rw [List.filter_cons_of_neg (by simp [ha])] at hfiles
      rw [List.filter_cons_of_neg (by simp [ha]), List.filter_cons_of_neg (by simp [hcomment, ha])]
      exact ih hnext hne' hfiles
    | false =>
      rw [List.filter_cons_of_pos (by simp [ha])] at hfiles
      rw [List.filter_cons_of_pos (by simp [ha]), List.filter_cons_of_pos (by simp [hcomment, ha]),
        outcome_scan_cons, outcome_scan_cons,
        ← line.outcome_readLine hfront (hfiles a (List.mem_cons_self ..))]
      cases hread : readLine files base st a with
      | error problem => rfl
      | ok p =>
        rw [ha, if_neg Bool.false_ne_true, hread] at hnext
        have hrest := ih hnext hne' fun t ht => hfiles t (List.mem_cons_of_mem a ht)
        show (outcome (scan files base p.2 _)).map _ = (outcome (scan files' base p.2 _)).map _
        rw [hrest]

/-- Documents of items that differ in the texts of notes alone are the same without their notes. -/
theorem map_withoutNotes_of_outcome {x x' : Except Problem (List Item × State)}
    (h : outcome x = outcome x') (d : Document) (authors : List Author) :
    (x.toOption.map fun q => { d with authors, sections := outline (q.1 ++ q.2.pending) }).map
        Document.withoutNotes =
      (x'.toOption.map fun q => { d with authors, sections := outline (q.1 ++ q.2.pending) }).map
        Document.withoutNotes := by
  cases x with
  | error problem =>
    cases x' with
    | error problem' => rfl
    | ok q' => cases h
  | ok q =>
    cases x' with
    | error problem' => cases h
    | ok q' =>
      obtain ⟨hitems, hst⟩ := Prod.mk.inj (Option.some.inj h)
      have hboth : (q.1 ++ q.2.pending).map Item.hushed =
          (q'.1 ++ q'.2.pending).map Item.hushed := by
        rw [List.map_append, List.map_append, hitems, hst]
      simp only [Except.toOption, Option.map_some, Document.withoutNotes,
        outline_hushed hboth]

/-- Behind the same front, lines that are the same but for notes are read as documents that are the
same without the notes, or both are refused. -/
theorem readLines_withoutNotes_of_inStep {front body body' : List (List Char)}
    (h : InStep files base front body body') (hne : bodyTexts front ≠ [])
    (hfiles : SameReferences files files' base (bodyTexts (front ++ body))) :
    (readLines files base .full (front ++ body)).toOption.map Document.withoutNotes =
      (readLines files' base .full (front ++ body')).toOption.map Document.withoutNotes := by
  rw [bodyTexts_append hne] at hfiles
  have hfront : scan files' base {} (bodyTexts front) = scan files base {} (bodyTexts front) :=
    (scan_congr (fun t ht => hfiles t (List.mem_append_left _ ht)) {}).symm
  have houtcome : outcome (scan files base {} (bodyTexts (front ++ body))) =
      outcome (scan files' base {} (bodyTexts (front ++ body'))) := by
    rw [bodyTexts_append hne, bodyTexts_append hne]
    cases hscan : scan files base {} (bodyTexts front) with
    | error problem =>
      rw [scan_append_of_error hscan, scan_append_of_error (hfront.trans hscan)]
    | ok p =>
      have hbody := outcome_scan h hscan hne fun t ht => hfiles t (List.mem_append_right _ ht)
      rw [scan_append_of_ok hscan, scan_append_of_ok (hfront.trans hscan), outcome_map_append,
        outcome_map_append, hbody]
  rw [toOption_readLines, toOption_readLines, preamble_append hne, preamble_append hne]
  cases preamble front with
  | none => rfl
  | some p => exact map_withoutNotes_of_outcome houtcome p.1 p.2

/-- Sources that are the same but for notes are the same up to a place behind the first heading. -/
theorem SameButNotes.exists_front {texts texts' : List (List Char)} (h : SameButNotes texts texts')
    (hne : texts ≠ texts') :
    ∃ i, texts'.take i = texts.take i ∧ bodyTexts (texts.take i) ≠ [] := by
  have hdiff : ∃ i : Nat, texts[i]? ≠ texts'[i]? := by
    by_contra hall
    exact hne (List.ext_getElem? fun i => not_not.1 (not_exists.1 hall i))
  refine ⟨Nat.find hdiff, List.ext_getElem? fun j => ?_, ?_⟩
  · rw [List.getElem?_take, List.getElem?_take]
    split_ifs with hj
    · exact (not_not.1 (Nat.find_min hdiff hj)).symm
    · rfl
  · rcases h (Nat.find hdiff) with heq | ⟨-, hbody⟩
    · exact absurd heq (Nat.find_spec hdiff)
    · exact hbody

/-- Two sources that are the same but for the texts of speaker notes are read alike, if no such note
stands in a paragraph and the files that are referred to are the same: both are refused, or their
documents are the same without the notes. -/
theorem readLines_withoutNotes {texts texts' : List (List Char)} (hsame : SameButNotes texts texts')
    (hopen : ∀ i : Nat, texts[i]? ≠ texts'[i]? → ¬ InParagraph files base (texts.take i))
    (hfiles : SameReferences files files' base (bodyTexts texts)) :
    (readLines files base .full texts).toOption.map Document.withoutNotes =
      (readLines files' base .full texts').toOption.map Document.withoutNotes := by
  by_cases hne : texts = texts'
  · subst hne
    rw [toOption_readLines, toOption_readLines, scan_congr hfiles]
  obtain ⟨i, hfront, hbody⟩ := hsame.exists_front hne
  have hstep : InStep files base (texts.take i) (texts.drop i) (texts'.drop i) := by
    refine inStep_of_getElem? fun j => ?_
    rw [List.getElem?_drop, List.getElem?_drop, ← List.take_add]
    by_cases hj : texts[i + j]? = texts'[i + j]?
    · exact Or.inl hj
    · exact Or.inr ⟨((hsame (i + j)).resolve_left hj).1, hopen (i + j) hj⟩
  have htexts' : texts.take i ++ texts'.drop i = texts' := by
    rw [← hfront, List.take_append_drop]
  rw [← List.take_append_drop i texts] at hfiles
  have hread := readLines_withoutNotes_of_inStep hstep hbody hfiles
  rwa [List.take_append_drop, htexts'] at hread

end Source

end Lectern
