import Lectern.Proofs.Source.Opening

/-!
# The lines of a header

The text of a header line tells its kind, and lines of different kinds do not see each other: what
a header tells is told kind by kind (`foldlM_headerLine_eq_ok_iff`). So its lines may be put in any
order in which those of one kind keep theirs (`read_reordered`).
-/

namespace Lectern.Source

open Text

variable {files : Files} {base : Path}

/-! ## The kinds of header lines -/

/-- The kinds of the lines of a header. -/
inductive HeaderKind where
  | note
  | tags
  | summary
  | oldUrl
  | time
  | subtitle
deriving DecidableEq

/-- The kind of a header line. -/
def headerKind (text : List Char) : HeaderKind :=
  if ": ".toList.isPrefixOf text then .note
  else if "Tags:".toList.isPrefixOf text then .tags
  else if "Summary:".toList.isPrefixOf text then .summary
  else if "OldURL:".toList.isPrefixOf text then .oldUrl
  else if (Moment.ofHeader? text).isSome then .time
  else .subtitle

/-- What stands behind the label of a line. -/
def behindLabel (label : String) (text : List Char) : List Char := text.drop label.toList.length

theorem isPrefixOf?_of_isPrefixOf {p s : List Char} (h : p.isPrefixOf s = true) :
    p.isPrefixOf? s = some (s.drop p.length) := by
  obtain ⟨r, rfl⟩ := List.isPrefixOf_iff_prefix.1 h
  rw [isPrefixOf?_append, List.drop_left]

theorem isPrefixOf?_of_not_isPrefixOf {p s : List Char} (h : ¬ p.isPrefixOf s = true) :
    p.isPrefixOf? s = none :=
  isPrefixOf?_eq_none fun hprefix => h (List.isPrefixOf_iff_prefix.2 hprefix)

/-- What a header line tells depends on its kind; there is but one subtitle. -/
theorem headerLine_eq (d : Document) (text : List Char) :
    headerLine d text =
      match headerKind text with
      | .note => .ok d
      | .tags => .ok { d with tags := d.tags ++ tagsOf (behindLabel "Tags:" text) }
      | .summary =>
          .ok { d with summary := some (String.ofList (trim (behindLabel "Summary:" text))) }
      | .oldUrl =>
          .ok { d with
            oldUrls := d.oldUrls ++ [String.ofList (trim (behindLabel "OldURL:" text))] }
      | .time => .ok { d with time := Moment.ofHeader? text }
      | .subtitle =>
          if d.subtitle = none then .ok { d with subtitle := some (String.ofList text) }
          else .error (.headerLine text) := by
  unfold headerLine headerKind
  by_cases hnote : ": ".toList.isPrefixOf text = true
  · have hsome : noteText? text = some (text.drop 2) := isPrefixOf?_of_isPrefixOf hnote
    rw [hsome, if_pos hnote]
    rfl
  have hnone : noteText? text = none := isPrefixOf?_of_not_isPrefixOf hnote
  rw [hnone, if_neg hnote]
  by_cases htags : "Tags:".toList.isPrefixOf text = true
  · rw [isPrefixOf?_of_isPrefixOf htags, if_pos htags]
    rfl
  rw [isPrefixOf?_of_not_isPrefixOf htags, if_neg htags]
  by_cases hsummary : "Summary:".toList.isPrefixOf text = true
  · rw [isPrefixOf?_of_isPrefixOf hsummary, if_pos hsummary]
    rfl
  rw [isPrefixOf?_of_not_isPrefixOf hsummary, if_neg hsummary]
  by_cases holdUrl : "OldURL:".toList.isPrefixOf text = true
  · rw [isPrefixOf?_of_isPrefixOf holdUrl, if_pos holdUrl]
    rfl
  rw [isPrefixOf?_of_not_isPrefixOf holdUrl, if_neg holdUrl]
  cases Moment.ofHeader? text with
  | some m => rfl
  | none => cases hd : d.subtitle <;> rfl

/-! ## Telling a header kind by kind -/

/-- The lines of a kind, in their order. -/
def linesOf (k : HeaderKind) (ts : List (List Char)) : List (List Char) :=
  ts.filter (headerKind · = k)

/-- The header that a title and lines tell: its tags and old addresses are those of all of their
lines, its summary and its time those of the last one. -/
def headerOf (title : List Char) (ts : List (List Char)) : Document where
  title := String.ofList title
  subtitle := (linesOf .subtitle ts).head?.map String.ofList
  time := (linesOf .time ts).getLast?.bind Moment.ofHeader?
  tags := (linesOf .tags ts).flatMap fun t => tagsOf (behindLabel "Tags:" t)
  summary :=
    (linesOf .summary ts).getLast?.map fun t => String.ofList (trim (behindLabel "Summary:" t))
  oldUrls := (linesOf .oldUrl ts).map fun t => String.ofList (trim (behindLabel "OldURL:" t))

theorem linesOf_concat (k : HeaderKind) (ts : List (List Char)) (t : List Char) :
    linesOf k (ts ++ [t]) = if headerKind t = k then linesOf k ts ++ [t] else linesOf k ts := by
  rw [linesOf, List.filter_append]
  split_ifs with h
  · rw [List.filter_cons_of_pos (by simpa using h)]
    rfl
  · rw [List.filter_cons_of_neg (by simpa using h), List.filter_nil, List.append_nil]
    rfl

theorem subtitle_headerOf_eq_none_iff (title : List Char) (ts : List (List Char)) :
    (headerOf title ts).subtitle = none ↔ linesOf .subtitle ts = [] := by
  rw [headerOf, Option.map_eq_none_iff, List.head?_eq_none_iff]

/-- One more line tells its part, if it is no second subtitle. -/
theorem headerLine_headerOf (title : List Char) (ts : List (List Char)) (t : List Char) :
    headerLine (headerOf title ts) t =
      if headerKind t = .subtitle ∧ linesOf .subtitle ts ≠ [] then .error (.headerLine t)
      else .ok (headerOf title (ts ++ [t])) := by
  rw [headerLine_eq]
  simp only [← subtitle_headerOf_eq_none_iff title, ne_eq]
  cases hkind : headerKind t with
  | subtitle =>
    dsimp only
    by_cases hnone : (headerOf title ts).subtitle = none
    · have hempty := (subtitle_headerOf_eq_none_iff title ts).1 hnone
      rw [if_pos hnone, if_neg (by simp [hnone])]
      simp [headerOf, linesOf_concat, hkind, hempty]
    · rw [if_neg hnone, if_pos ⟨rfl, hnone⟩]
  | _ => simp [headerOf, linesOf_concat, hkind]

/-- A header is told kind by kind, unless it has two subtitles. -/
theorem foldlM_headerLine_eq_ok_iff {title : List Char} {ts : List (List Char)} {d : Document} :
    ts.foldlM headerLine { title := String.ofList title } = .ok d ↔
      (linesOf .subtitle ts).length ≤ 1 ∧ d = headerOf title ts := by
  induction ts using List.reverseRecOn generalizing d with
  | nil =>
    constructor
    · intro h
      exact ⟨Nat.zero_le _, (Except.ok.inj h).symm⟩
    · rintro ⟨-, rfl⟩
      rfl
  | append_singleton ts t ih =>
    rw [List.foldlM_append, linesOf_concat]
    by_cases hone : (linesOf .subtitle ts).length ≤ 1
    · rw [ih.2 ⟨hone, rfl⟩]
      show headerLine (headerOf title ts) t >>= pure = _ ↔ _
      rw [bind_pure, headerLine_headerOf]
      by_cases hkind : headerKind t = .subtitle
      · rw [if_pos hkind, List.length_append, List.length_singleton]
        by_cases hempty : linesOf .subtitle ts = []
        · rw [if_neg fun h => h.2 hempty, hempty]
          simp [eq_comm]
        · have hlength := List.length_pos_iff.2 hempty
          rw [if_pos ⟨hkind, hempty⟩]
          constructor
          · intro h; cases h
          · rintro ⟨h, -⟩; omega
      · rw [if_neg hkind, if_neg fun h => hkind h.1]
        simp [hone, eq_comm]
    · have herror : ∃ problem,
          ts.foldlM headerLine { title := String.ofList title } = .error problem := by
        cases hts : ts.foldlM headerLine { title := String.ofList title } with
        | error problem => exact ⟨problem, rfl⟩
        | ok d' => exact absurd (ih.1 hts).1 hone
      obtain ⟨problem, hproblem⟩ := herror
      rw [hproblem]
      constructor
      · intro h; cases h
      · rintro ⟨h, -⟩
        split_ifs at h
        · rw [List.length_append, List.length_singleton] at h
          omega
        · exact absurd h hone

/-! ## Headers that are read -/

/-- The lines of the header of an opening that are no comments. -/
def Opening.fields (o : Opening) : List (List Char) := withoutComments o.header

theorem tellLines_eq_ok_iff {d d' : Document} {ls : List Line} :
    tellLines d ls = .ok d' ↔ (ls.map (·.text)).foldlM headerLine d = .ok d' := by
  induction ls generalizing d with
  | nil =>
    constructor
    · intro h
      exact congrArg Except.ok (Except.ok.inj h)
    · intro h
      exact congrArg Except.ok (Except.ok.inj h)
  | cons l r ih =>
    rw [tellLines, List.foldlM_cons, List.map_cons, List.foldlM_cons]
    cases headerLine d l.text with
    | error problem =>
      constructor
      · intro h; cases h
      · intro h; cases h
    | ok d₁ => exact ih

/-- The header of an opening is told kind by kind by its lines. -/
theorem Opening.told_eq_ok_iff {o : Opening} {d : Document} :
    o.told = .ok d ↔ (linesOf .subtitle o.fields).length ≤ 1 ∧ d = headerOf o.title o.fields := by
  rw [told, tellLines_eq_ok_iff, map_text_numberedFrom]
  exact foldlM_headerLine_eq_ok_iff

/-- A body is read as the same document wherever its lines stand. -/
theorem readBody_of_texts {lines lines' : List Line} {d d' : Document}
    (h : readBody files base d lines = .ok d')
    (htexts : lines.map (·.text) = lines'.map (·.text)) :
    readBody files base d lines' = .ok d' := by
  have hmatches : ∀ {lines lines' : List Line}, lines.map (·.text) = lines'.map (·.text) →
      List.Forall₂ (Line.Matches fun _ _ => True) lines lines' := by
    intro lines lines' h
    have hsame := List.forall₂_eq_eq_eq ▸ h
    rw [List.forall₂_map_left_iff, List.forall₂_map_right_iff] at hsame
    exact hsame.imp fun _ _ htext => ⟨htext, trivial⟩
  have halike : Alike (fun _ _ => True) Eq (readBody files base d lines)
      (readBody files base d lines') := readBody_alike (hmatches htexts) d
  rw [h] at halike
  generalize readBody files base d lines' = x at halike
  cases halike with
  | ok hd => rw [hd]

/-- A source that starts with an opening is read as a document if it has one subtitle at most and
its body is read with the header that the lines of the opening tell. -/
theorem readLines_opening_eq_ok_iff {mode : Mode} {o : Opening} {rest : List (List Char)}
    {d : Document} :
    readLines files base mode (o.lines ++ rest) = .ok d ↔
      (linesOf .subtitle o.fields).length ≤ 1 ∧
        match mode with
        | .titlesOnly => d = headerOf o.title o.fields
        | .full => readBody files base (headerOf o.title o.fields)
            (numberedFrom (o.lines.length + 1) rest) = .ok d := by
  rw [readLines_opening]
  constructor
  · intro h
    cases htold : o.told with
    | error what => rw [htold] at h; cases h
    | ok d₀ =>
      obtain ⟨hone, rfl⟩ := Opening.told_eq_ok_iff.1 htold
      rw [htold] at h
      refine ⟨hone, ?_⟩
      cases mode with
      | titlesOnly => exact (Except.ok.inj h).symm
      | full => exact h
  · rintro ⟨hone, h⟩
    rw [Opening.told_eq_ok_iff.2 ⟨hone, rfl⟩]
    cases mode with
    | titlesOnly => exact congrArg Except.ok h.symm
    | full => exact h

/-- The header of a document that is read is told by the lines of its opening. -/
theorem read_header {name : Path} {mode : Mode} {text : String} {d : Document} {o : Opening}
    {behind : List (List Char)} (h : read files name mode text = .ok d)
    (hlines : lines text.toList = o.lines ++ behind) :
    d = { headerOf o.title o.fields with authors := d.authors, sections := d.sections } := by
  have hread := readLines_of_read h
  rw [hlines, readLines_opening_eq_ok_iff] at hread
  cases mode with
  | titlesOnly => rw [show d = headerOf o.title o.fields from hread.2]
  | full =>
    obtain ⟨items, -, rfl⟩ := map_eq_ok hread.2
    rfl

/-! ## Exchanging lines of a header -/

/-- The same lines in an order in which those of one kind keep theirs. -/
structure Reordered (ts ts' : List (List Char)) : Prop where
  perm : ts.Perm ts'
  keeps : ∀ k, linesOf k ts = linesOf k ts'

/-- A title and lines tell the same in every order in which the lines of one kind keep theirs. -/
theorem Reordered.headerOf_eq {ts ts' : List (List Char)} (h : Reordered ts ts')
    (title : List Char) : headerOf title ts = headerOf title ts' := by
  simp only [headerOf, h.keeps]

/-- A source that is read has an opening. The tags and old addresses of its document are those of
all lines of the header that tell some, in their order, the summary and the time those of the last
such line. The document is the same for every order of the lines between the title and the first
empty line, comments apart, in which the lines of one kind keep theirs. -/
theorem read_reordered {name : Path} {mode : Mode} {text : String} {d : Document}
    (h : read files name mode text = .ok d) :
    (∃ (o : Opening) (behind : List (List Char)), lines text.toList = o.lines ++ behind) ∧
    ∀ (o : Opening) (behind : List (List Char)), lines text.toList = o.lines ++ behind →
      d.tags = (linesOf .tags o.fields).flatMap (fun t => tagsOf (behindLabel "Tags:" t)) ∧
      d.oldUrls = (linesOf .oldUrl o.fields).map
        (fun t => String.ofList (trim (behindLabel "OldURL:" t))) ∧
      d.summary = (linesOf .summary o.fields).getLast?.map
        (fun t => String.ofList (trim (behindLabel "Summary:" t))) ∧
      d.time = (linesOf .time o.fields).getLast?.bind Moment.ofHeader? ∧
      ∀ (o' : Opening) (text' : String), o'.title = o.title → Reordered o.fields o'.fields →
        lines text'.toList = o'.lines ++ behind → read files name mode text' = .ok d := by
  refine ⟨exists_opening_of_read h, fun o behind hlines => ?_⟩
  have hread := readLines_of_read h
  rw [hlines] at hread
  obtain ⟨hone, hbody⟩ := readLines_opening_eq_ok_iff.1 hread
  have hheader := read_header h hlines
  refine ⟨congrArg Document.tags hheader, congrArg Document.oldUrls hheader,
    congrArg Document.summary hheader, congrArg Document.time hheader,
    fun o' text' htitle horder hlines' => ?_⟩
  have hread' : readLines files name.parent mode (o'.lines ++ behind) = .ok d := by
    rw [readLines_opening_eq_ok_iff, htitle, ← horder.headerOf_eq, ← horder.keeps]
    refine ⟨hone, ?_⟩
    cases mode with
    | titlesOnly => exact hbody
    | full =>
      refine readBody_of_texts hbody ?_
      rw [map_text_numberedFrom, map_text_numberedFrom]
  rw [read, hlines', hread']

/-- A source with header lines of most kinds, and a comment among them. -/
def labelledTalk : String :=
  "Talk\nTags: a\n: hush\n# draft\nAside\nTags: b\n2 Jan 2006\nSummary: s\n\n* One\n"

/-- The same source with its header lines in another order. -/
def relabelledTalk : String :=
  "Talk\nSummary: s\n2 Jan 2006\n# draft\nTags: a\nTags: b\nAside\n: hush\n\n* One\n"

/-- The opening of the source. -/
def labelledOpening : Opening :=
  .ofTitle "Talk".toList ["Tags: a".toList, ": hush".toList, "# draft".toList, "Aside".toList,
    "Tags: b".toList, "2 Jan 2006".toList, "Summary: s".toList] (by decide) (by decide)

/-- The opening of the source in the other order. -/
def relabelledOpening : Opening :=
  .ofTitle "Talk".toList ["Summary: s".toList, "2 Jan 2006".toList, "# draft".toList,
    "Tags: a".toList, "Tags: b".toList, "Aside".toList, ": hush".toList] (by decide) (by decide)

theorem reordered_relabelled : Reordered labelledOpening.fields relabelledOpening.fields where
  perm := by decide
  keeps k := by cases k <;> decide

theorem read_reordered_labelledTalk :
    ∃ d, read (fun _ => .error .notFound) (.ofString "talk.slide") .full labelledTalk = .ok d ∧
      d.tags = ["a", "b"] ∧
      read (fun _ => .error .notFound) (.ofString "talk.slide") .full relabelledTalk = .ok d := by
  have hread : read (fun _ => .error .notFound) (.ofString "talk.slide") .full labelledTalk =
      .ok { title := "Talk", subtitle := some "Aside", tags := ["a", "b"], summary := some "s",
            time := some ⟨2006, 1, 2, 0, 0, 0, 0, by decide, by decide⟩,
            sections := [⟨[1], "One", [], [], [], []⟩] } := by cbv
  obtain ⟨-, -, -, -, hsame⟩ :=
    (read_reordered hread).2 labelledOpening ["* One".toList] (by decide)
  exact ⟨_, hread, rfl, hsame relabelledOpening relabelledTalk rfl reordered_relabelled
    (by decide)⟩

end Lectern.Source
