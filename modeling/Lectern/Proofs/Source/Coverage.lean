import Lectern.Proofs.Source.Passages
import Lectern.Source.Basic

/-!
# Reading a body loses no line

The lines of the body of a source that are not blank are told by the passages of the document that
is read from it, and the entries of these passages are those of the document: each is met once, and
in every channel in the order of the lines (`read_tells_every_line_once`). What is the body is said
without the reader: behind the header it starts at the first line with a star. A reading that
succeeds is taken apart into those of the header, the authors and the items
(`readLines_full_eq_ok_iff`).
-/

namespace Lectern

namespace Source

open Text

/-! ## Passages -/

/-- The lines of a heading, a block or a command of the section at a path, each with its entry. -/
structure Passage where
  path : List Nat
  pairs : List (Line × Entry)

/-- The lines of a passage. -/
def Passage.lines (p : Passage) : List Line := p.pairs.map (·.1)

/-- The entries of a passage with their channels. -/
def Passage.placed (p : Passage) : List (Channel × Entry) :=
  p.pairs.map fun x => x.2.placed p.path

/-- The passages of items that are given with the lines that tell them, where `counters` is the
path of the last section in front of the items. -/
def passagesFrom (counters : List Nat) : List (Item × List (Line × Entry)) → List Passage
  | [] => []
  | (.heading n _, pairs) :: r => ⟨nextPath counters n, pairs⟩ :: passagesFrom (nextPath counters n) r
  | (.block d _, pairs) :: r => ⟨counters.take d, pairs⟩ :: passagesFrom counters r

/-- Passages tell lines, and their entries are those of sections, channel by channel. -/
structure Covers (files : Files) (base : Path) (lines : List Line) (sections : List Section)
    (ps : List Passage) : Prop where
  told : ∀ p ∈ ps, Told files base p.path p.pairs
  lines : ps.flatMap Passage.lines = lines
  entries : ∀ c, inChannel c (ps.flatMap Passage.placed) = inChannel c (walk sections)

/-- Passages that cover sections have the same entries, each as often. -/
theorem Covers.perm {files : Files} {base : Path} {lines : List Line} {sections : List Section}
    {ps : List Passage} (h : Covers files base lines sections ps) :
    (ps.flatMap Passage.placed).Perm (walk sections) :=
  perm_of_inChannel_eq h.entries

theorem flatMap_lines_passagesFrom :
    ∀ (counters : List Nat) (ps : List (Item × List (Line × Entry))),
      (passagesFrom counters ps).flatMap Passage.lines = ps.flatMap fun p => p.2.map (·.1)
  | _, [] => rfl
  | counters, (.heading n _, pairs) :: r => by
    rw [passagesFrom, List.flatMap_cons, List.flatMap_cons, flatMap_lines_passagesFrom]
    rfl
  | counters, (.block d _, pairs) :: r => by
    rw [passagesFrom, List.flatMap_cons, List.flatMap_cons, flatMap_lines_passagesFrom]
    rfl

theorem flatMap_placed_passagesFrom {files : Files} {base : Path} :
    ∀ (counters : List Nat) {ps : List (Item × List (Line × Entry))},
      (∀ p ∈ ps, ToldItem files base p.2 p.1) →
      (passagesFrom counters ps).flatMap Passage.placed = placeItems counters (ps.map (·.1))
  | _, [], _ => rfl
  | counters, (.heading n title, pairs) :: r, h => by
    obtain ⟨l, t, hpairs, -, -⟩ := h _ (List.mem_cons_self ..)
    have ih := flatMap_placed_passagesFrom (nextPath counters n) fun p hp =>
      h p (List.mem_cons_of_mem _ hp)
    rw [passagesFrom, List.flatMap_cons, ih, List.map_cons, placeItems]
    simp only at hpairs
    rw [hpairs]
    rfl
  | counters, (.block d b, pairs) :: r, h => by
    obtain ⟨hpairs, -⟩ := h _ (List.mem_cons_self ..)
    have ih := flatMap_placed_passagesFrom counters fun p hp => h p (List.mem_cons_of_mem _ hp)
    rw [passagesFrom, List.flatMap_cons, ih, List.map_cons, placeItems, ← hpairs, List.map_map]
    rfl

/-- Passages of items that follow each other tell their lines. -/
theorem told_of_mem_passagesFrom {files : Files} {base : Path} :
    ∀ {d : Nat} {counters : List Nat} {ps : List (Item × List (Line × Entry))},
      (∀ p ∈ ps, ToldItem files base p.2 p.1) → Follows d (ps.map (·.1)) →
      d ≤ counters.length → ∀ p ∈ passagesFrom counters ps, Told files base p.path p.pairs
  | _, _, [], _, _, _ => by simp [passagesFrom]
  | d, counters, (.heading n title, pairs) :: r, h, hf, hd => by
    obtain ⟨hn, hnd, hr⟩ := hf
    obtain ⟨l, t, rfl, hl, rfl⟩ := h _ (List.mem_cons_self ..)
    have hlen : (nextPath counters n).length = n := length_nextPath hn (by omega)
    have ih := told_of_mem_passagesFrom (fun p hp => h p (List.mem_cons_of_mem _ hp)) hr hlen.ge
    rw [passagesFrom]
    intro p hp
    rcases List.mem_cons.1 hp with rfl | hp
    · have hpath : nextPath counters n ≠ [] := fun e => by
        rw [e, List.length_nil] at hlen
        omega
      exact .heading l t (by rw [hlen, hl]) hpath
    · exact ih p hp
  | d, counters, (.block e b, pairs) :: r, h, hf, hd => by
    obtain ⟨⟨-, hed, -⟩, hr⟩ := hf
    obtain ⟨-, htold⟩ := h _ (List.mem_cons_self ..)
    have ih := told_of_mem_passagesFrom (fun p hp => h p (List.mem_cons_of_mem _ hp)) hr
      (hed.trans hd)
    rw [passagesFrom]
    intro p hp
    rcases List.mem_cons.1 hp with rfl | hp
    · exact htold _
    · exact ih p hp

/-- The outline of items is covered by their passages. -/
theorem covers_outline {files : Files} {base : Path} {items : List Item} {lines : List Line}
    (h : Accounts files base items .none lines) (hf : Follows 0 items) :
    ∃ ps, Covers files base lines (outline items) ps := by
  obtain ⟨ps, rest, rfl, htold, hrest, rfl⟩ := h
  obtain rfl : rest = [] := hrest
  refine ⟨passagesFrom [] ps, told_of_mem_passagesFrom htold hf le_rfl, ?_, fun c => ?_⟩
  · rw [flatMap_lines_passagesFrom, List.append_nil]
  · rw [flatMap_placed_passagesFrom [] htold, inChannel_walk_outline hf]

/-! ## The body of a source -/

/-- The lines of the body of a source, without comments. A header starts with the first line that is
not empty and ends at the next empty one; the body starts at the first line with a star behind. -/
def bodyLines (text : String) : List Line :=
  let header := (numbered (Text.lines text.toList)).dropWhile (·.text.isEmpty)
  (header.dropWhile (!·.text.isEmpty)).dropWhile (·.text.head? ≠ some '*')

/-- The lines of the body of a source that are neither comments nor blank. -/
def contentLines (text : String) : List Line :=
  (bodyLines text).filter fun l => !isBlankLine l.text

theorem newline_not_mem_of_mem_numberFrom {texts : List (List Char)}
    (h : ∀ t ∈ texts, '\n' ∉ t) : ∀ {first : Nat}, ∀ l ∈ numberFrom first texts, '\n' ∉ l.text := by
  induction texts with
  | nil => simp
  | cons t r ih =>
    intro first l hl
    rcases List.mem_cons.1 hl with rfl | hl
    · exact h t (List.mem_cons_self ..)
    · exact ih (fun u hu => h u (List.mem_cons_of_mem t hu)) l hl

theorem newline_not_mem_of_mem_bodyLines {text : String} :
    ∀ l ∈ bodyLines text, '\n' ∉ l.text := by
  intro l hl
  have hl : l ∈ numbered (Text.lines text.toList) :=
    (List.dropWhile_sublist _).subset <| (List.dropWhile_sublist _).subset <|
      (List.dropWhile_sublist _).subset hl
  exact newline_not_mem_of_mem_numberFrom (newline_not_mem_of_mem_lines _) l
    (List.mem_of_mem_filter hl)

/-- The header ends at the first empty line. -/
theorem readHeaderLines_rest {stop : Nat} {lines rest : List Line} {d d' : Document}
    (h : readHeaderLines stop d lines = .ok (d', rest)) :
    ∃ l, l.text = [] ∧ lines.dropWhile (!·.text.isEmpty) = l :: rest := by
  induction lines generalizing d with
  | nil => cases h
  | cons l r ih =>
    unfold readHeaderLines at h
    split at h
    · rename_i hempty
      obtain ⟨-, rfl⟩ := Prod.mk.inj (Except.ok.inj h)
      exact ⟨l, List.isEmpty_iff.1 hempty, List.dropWhile_cons_of_neg (by simpa using hempty)⟩
    · rename_i hempty
      split at h
      · rw [List.dropWhile_cons_of_pos (by simpa using hempty)]
        exact ih h
      · cases h

theorem readHeader_rest {stop : Nat} {lines rest : List Line} {d : Document}
    (h : readHeader stop lines = .ok (d, rest)) :
    ∃ l, l.text = [] ∧
      (lines.dropWhile (·.text.isEmpty)).dropWhile (!·.text.isEmpty) = l :: rest := by
  induction lines with
  | nil => cases h
  | cons l r ih =>
    unfold readHeader at h
    split at h
    · rename_i hempty
      rw [List.dropWhile_cons_of_pos (p := fun l : Line => l.text.isEmpty) hempty]
      exact ih h
    · rename_i hempty
      rw [List.dropWhile_cons_of_neg (p := fun l : Line => l.text.isEmpty) hempty,
        List.dropWhile_cons_of_pos (by simpa using hempty)]
      exact readHeaderLines_rest h

/-- The authors end at the first line with a star. -/
theorem readAuthors_rest (elems : List Element) (lines : List Line) :
    (readAuthors elems lines).2 = lines.dropWhile (·.text.head? ≠ some '*') := by
  induction lines generalizing elems with
  | nil => rfl
  | cons l r ih =>
    unfold readAuthors
    split
    · rename_i hstar
      rw [List.dropWhile_cons_of_neg (by simpa using hstar)]
    · rename_i hstar
      rw [List.dropWhile_cons_of_pos (by simpa using hstar)]
      split
      · exact ih elems
      split
      · exact ih []
      · exact ih _

/-- A document is read from the lines of its source. -/
theorem readLines_of_read {files : Files} {name : Path} {mode : Mode} {text : String} {d : Document}
    (h : read files name mode text = .ok d) :
    readLines files name.parent mode (Text.lines text.toList) = .ok d := by
  rw [read] at h
  split at h
  · rename_i d' hlines
    obtain rfl := Except.ok.inj h
    exact hlines
  · cases h

theorem readBody_eq_ok_iff {files : Files} {base : Path} {lines : List Line} {d d' : Document} :
    readBody files base d lines = .ok d' ↔
      ∃ items, readItems files base {} (readAuthors [] lines).2 = .ok items ∧
        d' = { d with authors := (readAuthors [] lines).1, sections := outline items } := by
  constructor
  · intro h
    obtain ⟨items, hitems, rfl⟩ := map_eq_ok
      (show (readItems files base {} (readAuthors [] lines).2).map _ = _ from h)
    exact ⟨items, hitems, rfl⟩
  · rintro ⟨items, hitems, rfl⟩
    show (readItems files base {} (readAuthors [] lines).2).map _ = _
    rw [hitems]
    rfl

/-- Lines that are read start with a header. -/
theorem readHeader_of_readLines {files : Files} {base : Path} {mode : Mode}
    {texts : List (List Char)} {d : Document} (h : readLines files base mode texts = .ok d) :
    ∃ d₀ rest, readHeader (texts.length + 1) (numbered texts) = .ok (d₀, rest) := by
  unfold readLines at h
  cases hheader : readHeader (texts.length + 1) (numbered texts) with
  | error problem => rw [hheader] at h; cases h
  | ok header => exact ⟨header.1, header.2, rfl⟩

theorem readLines_titlesOnly_eq_ok_iff {files : Files} {base : Path} {texts : List (List Char)}
    {d : Document} :
    readLines files base .titlesOnly texts = .ok d ↔
      ∃ rest, readHeader (texts.length + 1) (numbered texts) = .ok (d, rest) := by
  constructor
  · intro h
    obtain ⟨d₀, rest, hheader⟩ := readHeader_of_readLines h
    rw [readLines, hheader] at h
    obtain rfl := Except.ok.inj h
    exact ⟨rest, hheader⟩
  · rintro ⟨rest, hheader⟩
    rw [readLines, hheader]
    rfl

theorem readLines_full_eq_ok_iff {files : Files} {base : Path} {texts : List (List Char)}
    {d : Document} :
    readLines files base .full texts = .ok d ↔
      ∃ d₀ rest items, readHeader (texts.length + 1) (numbered texts) = .ok (d₀, rest) ∧
        readItems files base {} (readAuthors [] rest).2 = .ok items ∧
        d = { d₀ with authors := (readAuthors [] rest).1, sections := outline items } := by
  constructor
  · intro h
    obtain ⟨d₀, rest, hheader⟩ := readHeader_of_readLines h
    rw [readLines, hheader] at h
    obtain ⟨items, hitems, hd⟩ := readBody_eq_ok_iff.1 h
    exact ⟨d₀, rest, items, hheader, hitems, hd⟩
  · rintro ⟨d₀, rest, items, hheader, hitems, hd⟩
    rw [readLines, hheader]
    exact readBody_eq_ok_iff.2 ⟨items, hitems, hd⟩

/-- A document that is read in full has the outline of the items of the body. -/
theorem read_full_eq_ok {files : Files} {name : Path} {text : String} {d : Document}
    (h : read files name .full text = .ok d) :
    ∃ items, readItems files name.parent {} (bodyLines text) = .ok items ∧
      d.sections = outline items := by
  obtain ⟨d₀, rest, items, hheader, hitems, rfl⟩ := readLines_full_eq_ok_iff.1 (readLines_of_read h)
  obtain ⟨l, hl, hrest⟩ := readHeader_rest hheader
  have hbody : bodyLines text = (readAuthors [] rest).2 := by
    rw [readAuthors_rest, bodyLines, hrest, List.dropWhile_cons_of_pos (by simp [hl])]
  exact ⟨items, hbody ▸ hitems, rfl⟩

/-- In front of the first section there are but empty lines and its heading. -/
theorem beginLine_zero {files : Files} {base : Path} {text : List Char} {items : List Item}
    {st : State} (h : beginLine files base 0 text = .ok (items, st)) :
    text = [] ∨ ∃ title, text = '*' :: ' ' :: title := by
  cases beginLine_cases h with
  | empty => exact .inl rfl
  | @heading n hn hdepth title =>
    obtain rfl : n = 1 := by omega
    exact .inr ⟨title, rfl⟩
  | block hne he hdepth h => omega

/-- A body starts with a heading. -/
theorem bodyLines_head {files : Files} {name : Path} {text : String} {d : Document}
    (h : read files name .full text = .ok d) :
    ∀ l ∈ (bodyLines text).head?, ∃ title, l.text = '*' :: ' ' :: title := by
  obtain ⟨items, hitems, -⟩ := read_full_eq_ok h
  have hstar : ∀ l ∈ (bodyLines text).head?, l.text.head? = some '*' := by
    intro l hl
    have := List.head?_dropWhile_not (p := fun l : Line => decide (l.text.head? ≠ some '*'))
      ((((numbered (Text.lines text.toList)).dropWhile (·.text.isEmpty))).dropWhile
        (!·.text.isEmpty))
    rw [Option.mem_def, bodyLines] at hl
    rw [hl] at this
    simpa using this
  cases hbody : bodyLines text with
  | nil => simp
  | cons l r =>
    rw [hbody] at hitems hstar
    rintro m ⟨⟩
    unfold readItems at hitems
    split at hitems
    · cases hitems
    rename_i begun st hline
    obtain ⟨⟨items', st'⟩, hbegin, -⟩ := map_eq_ok hline
    rcases beginLine_zero hbegin with hnil | hheading
    · have := hstar l rfl
      simp [hnil] at this
    · exact hheading

/-- A document that is read in full tells every line of the body once, and has no other entries:
the body starts with a heading, and the passages in the order of their lines have in every channel
the entries of the document. -/
theorem read_tells_every_line_once {files : Files} {name : Path} {text : String} {d : Document}
    (h : read files name .full text = .ok d) :
    (∀ l ∈ (bodyLines text).head?, ∃ title, l.text = '*' :: ' ' :: title) ∧
    ∃ ps : List Passage, Covers files name.parent (contentLines text) d.sections ps ∧
      (ps.flatMap Passage.placed).Perm (walk d.sections) := by
  obtain ⟨items, hitems, hd⟩ := read_full_eq_ok h
  have haccounts := readItems_accounts newline_not_mem_of_mem_bodyLines (s := {}) rfl hitems
  have hfollows := readItems_follows (s := {}) (fun _ => rfl) hitems
  obtain ⟨ps, hps⟩ := covers_outline haccounts hfollows
  rw [List.nil_append, ← hd] at hps
  exact ⟨bodyLines_head h, ps, hps, hps.perm⟩

/-- A source with a comment, blank lines and blocks of several kinds. -/
def smallTalk : String :=
  "Talk\n\n* One\n# aside\n\\.text\n\n  code\n\n   more \n- a\n: remember\n** Two\n.caption c\n"

/-- The sections of the small talk. -/
def smallTalkSections : List Section :=
  [⟨[1], "One", [.paragraph [".text"], .preformatted "code\n\n more", .list ["a"],
    .sub ⟨[1, 1], "Two", [.caption "c"], [], [], []⟩], ["remember"], [], []⟩]

theorem read_smallTalk :
    read (fun _ => .error .notFound) (Path.ofString "talk.slide") .full smallTalk =
      .ok { title := "Talk", sections := smallTalkSections } := by
  cbv

theorem read_tells_every_line_once_smallTalk :
    ∃ ps, Covers (fun _ => .error .notFound) (Path.ofString "talk.slide").parent
      (contentLines smallTalk) smallTalkSections ps ∧
      (ps.flatMap Passage.placed).Perm (walk smallTalkSections) :=
  (read_tells_every_line_once read_smallTalk).2

end Source

end Lectern
