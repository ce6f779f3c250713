import Lectern.Proofs.Page.WithoutNotes
import Lectern.Proofs.Source.Shape
import Lectern.Source.Basic

/-!
# Documents with their speaker notes

Where the speaker notes are switched on, a page shows the notes of the sections that are not inside
of another one, each section's in a block of its own in the part of that section, and no others
(`page_notes`). So all notes of a document are shown exactly if only such sections have any.
-/

namespace Lectern

open Text Markup

/-! ## Blocks in texts -/

/-- A text is another one with blocks put into it, one behind the other. -/
def Filled : List (List Char) → List Char → List Char → Prop
  | [], bare, full => full = bare
  | b :: r, bare, full => ∃ front bare' full',
      bare = front ++ bare' ∧ full = front ++ b ++ full' ∧ Filled r bare' full'

theorem Filled.length {blocks : List (List Char)} {bare full : List Char}
    (h : Filled blocks bare full) :
    full.length = bare.length + (blocks.map List.length).sum := by
  induction blocks generalizing bare full with
  | nil =>
    obtain rfl : full = bare := h
    rfl
  | cons b r ih =>
    obtain ⟨front, bare', full', rfl, rfl, hrest⟩ := h
    simp only [List.length_append, ih hrest, List.map_cons, List.sum_cons]
    omega

/-- Empty blocks change nothing. -/
theorem filled_of_forall_eq_nil {blocks : List (List Char)} (h : ∀ b ∈ blocks, b = [])
    (s : List Char) : Filled blocks s s := by
  induction blocks with
  | nil => exact (rfl : s = s)
  | cons b r ih =>
    obtain ⟨rfl, hr⟩ := List.forall_mem_cons.1 h
    exact ⟨[], s, s, rfl, rfl, ih hr⟩

/-- The speaker notes of a section on a page, if it has any. -/
def notesBlock (notes : List String) : List Char :=
  if notes.isEmpty then []
  else "\n        <aside class=\"notes\">".toList ++
    (notes.flatMap fun n => "\n          <p>".toList ++ styleChars n.toList ++ "</p>".toList) ++
    "\n        </aside>".toList

theorem notesBlock_eq_nil_iff {notes : List String} : notesBlock notes = [] ↔ notes = [] := by
  rw [notesBlock]
  split_ifs with hempty
  · exact iff_of_true rfl (List.isEmpty_iff.1 hempty)
  · exact iff_of_false (by simp) fun h => hempty (List.isEmpty_iff.2 h)

/-- A text is another one with the speaker notes of sections put into it: those of each section
once, in one block and in their order. -/
def ShowsNotes (sections : List Section) (bare full : List Char) : Prop :=
  ∃ order : List Section, order.Perm sections ∧
    Filled (order.map fun s => notesBlock s.notes) bare full

theorem ShowsNotes.length {sections : List Section} {bare full : List Char}
    (h : ShowsNotes sections bare full) :
    full.length = bare.length + (sections.map fun s => (notesBlock s.notes).length).sum := by
  obtain ⟨order, hperm, hfilled⟩ := h
  rw [hfilled.length, List.map_map, ← (hperm.map _).sum_eq]
  rfl

/-- Where the notes of one section are shown, those of others are shown too only if there are
none. -/
theorem ShowsNotes.cons_iff {s : Section} {bare full : List Char} (h : ShowsNotes [s] bare full)
    (others : List Section) :
    ShowsNotes (s :: others) bare full ↔ ∀ t ∈ others, t.notes = [] := by
  constructor
  · intro hall t ht
    -- Blocks add their lengths, so those of the others have none.
    have hnone : (others.map fun s => (notesBlock s.notes).length).sum = 0 := by
      have hone := h.length
      rw [hall.length, List.map_cons, List.sum_cons, List.map_singleton, List.sum_singleton] at hone
      omega
    have hlength := List.sum_eq_zero_iff.1 hnone _ (List.mem_map_of_mem ht)
    exact notesBlock_eq_nil_iff.1 (List.length_eq_zero_iff.1 hlength)
  · intro hnone
    obtain ⟨order, hperm, hfilled⟩ := h
    rw [List.perm_singleton.1 hperm] at hfilled
    obtain ⟨front, bare', full', hbare, hfull, hrest⟩ := hfilled
    obtain rfl : full' = bare' := hrest
    refine ⟨s :: others, List.Perm.refl _, front, full', full', hbare, hfull, ?_⟩
    refine filled_of_forall_eq_nil (fun b hb => ?_) full'
    obtain ⟨t, ht, rfl⟩ := List.mem_map.1 hb
    exact notesBlock_eq_nil_iff.2 (hnone t ht)

/-! ## What stands around parts of pages -/

/-- Two pages are the same around two parts of theirs. -/
def Around (part part' page page' : List Markup) : Prop :=
  ∃ front behind, printAll page = front ++ printAll part ++ behind ∧
    printAll page' = front ++ printAll part' ++ behind

variable {part part' page page' : List Markup}

theorem around_self (part part' : List Markup) : Around part part' part part' :=
  ⟨[], [], (List.append_nil _).symm, (List.append_nil _).symm⟩

theorem Around.between (h : Around part part' page page') (l r : List Markup) :
    Around part part' (l ++ page ++ r) (l ++ page' ++ r) := by
  obtain ⟨front, behind, hpage, hpage'⟩ := h
  refine ⟨printAll l ++ front, behind ++ printAll r, ?_, ?_⟩
  · simp only [printAll_append, hpage, List.append_assoc]
  · simp only [printAll_append, hpage', List.append_assoc]

theorem Around.element (h : Around part part' page page') (tag : String)
    (attributes : List (String × List Char)) :
    Around part part' [.element tag attributes page] [.element tag attributes page'] := by
  obtain ⟨front, behind, hpage, hpage'⟩ := h
  refine ⟨startTag tag attributes ++ front, behind ++ endTag tag, ?_, ?_⟩
  · simp only [printAll_cons, printAll_nil, print, hpage, List.append_assoc, List.append_nil]
  · simp only [printAll_cons, printAll_nil, print, hpage', List.append_assoc, List.append_nil]

theorem Around.wrap (h : Around part part' page page') (layers : List Layer) :
    Around part part' (wrap layers page) (wrap layers page') := by
  induction layers with
  | nil => exact h
  | cons a r ih => exact (ih.element a.tag a.attributes).between a.front a.behind

variable (o : Options) (d : Document) (s : Section)

theorem around_slideTrees (number : Nat) :
    Around [] (notesTrees o s) (slideTrees o s.withoutNotes number) (slideTrees o s number) := by
  have h := (((around_self [] (notesTrees o s)).between
    ([line 8, .element (headingTag (if s.elems.isEmpty then 2 else 3)) [] [value s.title]] ++
      Element.allTrees o.play s.elems)
    [line 8, .element "span" [fixed "class" "pagenumber"] [.text (Nat.toDigits 10 number)],
      line 6]).element "article" (stringsAttribute "class" " " s.classes ++
        stringsAttribute "style" "; " s.styles)).between [line 6] [line 6]
  rw [slideTrees_withoutNotes]
  exact h

theorem around_sectionTrees :
    Around [] (notesTrees o s) (sectionTrees o s.withoutNotes) (sectionTrees o s) := by
  have h := (around_self [] (notesTrees o s)).between
    ([line 8, .element (headingTag 2) [("id", anchor s.number)] [value s.title]] ++
      Element.allTrees o.play s.elems) []
  simp only [List.append_nil] at h
  rw [sectionTrees_withoutNotes, sectionTrees, notesTrees_off, List.append_nil]
  exact h

/-- What a page of a kind shows for a section that is not inside of another one, where so many
sections stand in front of it. -/
def Section.partTrees (o : Options) (k : Kind) (s : Section) (front : Nat) : List Markup :=
  match k with
  | .slides => slideTrees o s (front + 2)
  | .article => sectionTrees o s

/-- What a page of a kind shows for the sections of a document. -/
def Document.partsTrees (o : Options) (k : Kind) (d : Document) : List Markup :=
  d.sections.zipIdx.flatMap fun e => e.1.partTrees o k e.2

theorem partsTrees_article :
    d.partsTrees o .article = d.sections.flatMap (sectionTrees o) := by
  have hparts : d.partsTrees o .article =
      (d.sections.zipIdx.map Prod.fst).flatMap (sectionTrees o) := by
    rw [List.flatMap_map]
    rfl
  rw [hparts, List.zipIdx_map_fst]

theorem around_partTrees (k : Kind) (front : Nat) :
    Around [] (notesTrees o s) (s.withoutNotes.partTrees o k front) (s.partTrees o k front) := by
  cases k with
  | slides => exact around_slideTrees o s (front + 2)
  | article => exact around_sectionTrees o s

theorem around_slidesTrees :
    Around (d.withoutNotes.partsTrees o .slides) (d.partsTrees o .slides)
      (slidesTrees o d.withoutNotes) (slidesTrees o d) := by
  have htitle : titleSlide o d.withoutNotes = titleSlide o d := by
    rw [titleSlide, authorsTrees_withoutNotes]
    rfl
  have hthanks : thanksSlide o d.withoutNotes = thanksSlide o d := by
    rw [thanksSlide, authorsTrees_withoutNotes]
    rfl
  have h := (around_self (d.withoutNotes.partsTrees o .slides) (d.partsTrees o .slides)).between
    [gap 6, titleSlide o d, line 6] [gap 6, thanksSlide o d, gap 4]
  rw [slidesTrees_eq_wrap, htitle, hthanks]
  exact h.wrap (slidesLayers d)

theorem around_articleTrees :
    Around (d.withoutNotes.partsTrees o .article) (d.partsTrees o .article)
      (articleTrees o d.withoutNotes) (articleTrees o d) := by
  have hcredits : creditsTrees o d.withoutNotes = creditsTrees o d := by
    rw [creditsTrees, authorsTrees_withoutNotes, Document.withoutNotes, List.isEmpty_map]
    rfl
  have hopening : openingTrees d.withoutNotes = openingTrees d := by
    rw [openingTrees, contentsTrees_withoutNotes]
    rfl
  have h := (around_self (d.withoutNotes.partsTrees o .article) (d.partsTrees o .article)).between
    (openingTrees d) (creditsTrees o d ++ [line 6])
  simp only [← List.append_assoc, partsTrees_article] at h
  rw [partsTrees_article, partsTrees_article, articleTrees_eq_wrap, hopening, hcredits]
  exact h.wrap (articleLayers d)

theorem around_trees (k : Kind) :
    Around (d.withoutNotes.partsTrees o k) (d.partsTrees o k) (d.withoutNotes.trees o k)
      (d.trees o k) := by
  cases k with
  | slides => exact around_slidesTrees o d
  | article => exact around_articleTrees o d

/-! ## Pages -/

theorem printAll_notesTrees (play : Bool) :
    printAll (notesTrees { play, notes := true } s) = notesBlock s.notes := by
  have hnote (n : String) : printAll [line 10, .element "p" [] (styled n)] =
      "\n          <p>".toList ++ styleChars n.toList ++ "</p>".toList := by
    simp [print, line, newline, startTag, openTag, endTag, printAll_styled]
  have hblock (body : List Markup) :
      printAll [line 8, .element "aside" [fixed "class" "notes"] (body ++ [line 8])] =
        "\n        <aside class=\"notes\">".toList ++ printAll body ++
          "\n        </aside>".toList := by
    simp [print, line, newline, startTag, openTag, endTag, fixed, attributeText, openAttribute]
  rw [notesTrees, notesBlock, Bool.true_and]
  cases s.notes with
  | nil => rfl
  | cons n r =>
    rw [List.isEmpty_cons, if_neg Bool.false_ne_true, Bool.not_false, if_pos rfl, hblock,
      printAll_flatMap]
    simp only [hnote]

/-- The part of a section shows the notes of the section itself. -/
theorem showsNotes_partTrees (k : Kind) (play : Bool) (front : Nat) :
    ShowsNotes [s] (printAll (s.withoutNotes.partTrees { play, notes := true } k front))
      (printAll (s.partTrees { play, notes := true } k front)) := by
  obtain ⟨before, behind, hbare, hfull⟩ := around_partTrees { play, notes := true } s k front
  rw [printAll_nil, List.append_nil] at hbare
  rw [printAll_notesTrees, List.append_assoc] at hfull
  refine ⟨[s], List.Perm.refl _, before, behind, behind, hbare, ?_, rfl⟩
  rw [hfull, List.append_assoc]

namespace Theme

/-- A page shows the speaker notes of the sections that are not inside of another one, and no
others: it is the page of the document without speaker notes, but for the parts of the sections,
and each part has the notes of its own section put into it, in their order. So all notes of a
section and the sections inside of it are shown exactly if those inside of it have none. -/
theorem page_notes (d : Document) (k : Kind) (play : Bool) :
    ∃ t, bundled = .ok t ∧
      (d.NestedWithin deepest →
        (∃ front behind,
          t.page k d.withoutNotes { play, notes := true } =
            .ok (front ++ printAll (d.withoutNotes.partsTrees { play, notes := true } k) ++
              behind) ∧
          t.page k d { play, notes := true } =
            .ok (front ++ printAll (d.partsTrees { play, notes := true } k) ++ behind)) ∧
        ∀ s ∈ d.sections, ∀ position,
          ShowsNotes [s]
            (printAll (s.withoutNotes.partTrees { play, notes := true } k position))
            (printAll (s.partTrees { play, notes := true } k position)) ∧
          (ShowsNotes s.withBelow
              (printAll (s.withoutNotes.partTrees { play, notes := true } k position))
              (printAll (s.partTrees { play, notes := true } k position)) ↔
            ∀ below ∈ Element.allSections s.elems, below.notes = [])) ∧
      (¬ d.NestedWithin deepest →
        t.page k d { play, notes := true } = .error (.render .tooDeep)) := by
  refine ⟨ofBundled, bundled_eq, fun hnested => ⟨?_, fun s _ position => ?_⟩, fun hnested => ?_⟩
  · obtain ⟨front, behind, hbare, hfull⟩ := around_trees { play, notes := true } d k
    refine ⟨doctype ++ front, behind, ?_, ?_⟩
    · rw [page_ofBundled, if_pos ((nestedWithin_withoutNotes d deepest).2 hnested), hbare]
      simp only [List.append_assoc]
    · rw [page_ofBundled, if_pos hnested, hfull]
      simp only [List.append_assoc]
  · have hown := showsNotes_partTrees s k play position
    refine ⟨hown, ?_⟩
    rw [withBelow_eq]
    exact hown.cons_iff _
  · rw [page_ofBundled, if_neg hnested]

/-- A slide with speaker notes, and a section in it with another one. -/
def prompter : Section :=
  ⟨[1], "One", [.sub ⟨[1, 1], "In it", [], ["Wait here."], [], []⟩], ["Speak slowly.", "Smile."],
    [], []⟩

/-- A deck of the slide. -/
def prompted : Document where
  title := "Talk"
  sections := [prompter]

theorem page_notes_prompted :
    prompted.NestedWithin deepest ∧ prompter ∈ prompted.sections ∧
      ∃ t, bundled = .ok t ∧ ∃ front behind bare full,
        t.page .slides prompted.withoutNotes { notes := true } = .ok (front ++ bare ++ behind) ∧
        t.page .slides prompted { notes := true } = .ok (front ++ full ++ behind) ∧
        ShowsNotes [prompter] bare full ∧ ¬ ShowsNotes prompter.withBelow bare full := by
  have hnested : prompted.NestedWithin deepest := by decide
  have hmem : prompter ∈ prompted.sections := List.mem_singleton_self _
  obtain ⟨t, ht, hpage, -⟩ := page_notes prompted .slides false
  obtain ⟨⟨front, behind, hbare, hfull⟩, hparts⟩ := hpage hnested
  obtain ⟨hown, hall⟩ := hparts prompter hmem 0
  refine ⟨hnested, hmem, t, ht, front, behind, _, _, ?_, ?_, hown, fun h => ?_⟩
  · simpa only [Document.partsTrees, prompted, Document.withoutNotes, List.map_cons, List.map_nil,
      List.zipIdx_cons, List.zipIdx_nil, List.flatMap_singleton] using hbare
  · simpa only [Document.partsTrees, prompted, List.zipIdx_cons, List.zipIdx_nil,
      List.flatMap_singleton] using hfull
  · have hnone := hall.1 h ⟨[1, 1], "In it", [], ["Wait here."], [], []⟩ (by
      simp [prompter, Element.allSections, Section.withBelow])
    cases hnone

/-- The notes of a section inside of another one are not shown, in either kind of document. -/
theorem page_loses_nested_note :
    Source.read (fun _ => .error .notFound) (Path.ofString "talk.slide") .full
        "Talk\n\n* One\n: Speak slowly.\n: Smile.\n\n** In it\n: Wait here.\n" = .ok prompted ∧
      (∃ s ∈ prompted.allSections, "Wait here." ∈ s.notes) ∧
      ∃ t, bundled = .ok t ∧ ∀ k play, ∃ page,
        t.page k prompted { play, notes := true } = .ok page ∧
          ¬ styleChars "Wait here.".toList <:+: page := by
  have hnested : prompted.NestedWithin deepest := by decide
  -- The first letter of the note is nowhere in a page.
  have hletter : ∀ k play, 'W' ∉ doctype ++ printAll (prompted.trees { play, notes := true } k) := by
    intro k play
    cases k <;> cases play <;> decide +kernel
  refine ⟨by cbv, ⟨⟨[1, 1], "In it", [], ["Wait here."], [], []⟩, ?_, List.mem_singleton_self _⟩,
    ofBundled, bundled_eq, fun k play => ⟨_, (page_ofBundled _ _ _).trans (if_pos hnested), ?_⟩⟩
  · simp [Document.allSections, prompted, prompter, Section.withBelow, Element.allSections]
  · exact fun hshown => hletter k play (hshown.subset (by decide +kernel))

end Theme

end Lectern
