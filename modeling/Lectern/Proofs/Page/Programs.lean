import Lectern.Proofs.Page.Querying
import Lectern.Proofs.Source.Programs

/-!
# Programs on pages

The block of an excerpt on a page holds more than it shows: what is sent to be run are the texts of
all `pre` elements in it. For a play command this is the file that it names without the lines that
the author has left out (`page_posts_programs`).
-/

namespace Lectern

open Text Markup Source

/-! ## What a block sends -/

/-- The texts of the `pre` elements among parts of a page, in their order. -/
def postedBy (parts : List Markup) : List Char :=
  ((allElements parts).filter (·.hasTag "pre")).flatMap shown

theorem postedBy_append (l r : List Markup) : postedBy (l ++ r) = postedBy l ++ postedBy r := by
  rw [postedBy, allElements_append, List.filter_append, List.flatMap_append]
  rfl

theorem postedBy_allAtoms (l : List Markup) : postedBy (allAtoms l) = postedBy l := by
  rw [postedBy, allElements_allAtoms, List.filter_map, List.flatMap_map]
  simp [postedBy, Function.comp_def]

theorem shown_pre_value (attributes : List (String × List Char)) (s : String) :
    (element "pre" attributes [.element "span" [] [value s]]).shown = s.toList := by
  have hsource : allSource [.element "span" [] [value s]] = escapeStrict s.toList := by
    simp [source, value]
  show decode (allSource [.element "span" [] [value s]]) = s.toList
  rw [hsource, decode_escapeStrict]

/-- A hidden part sends its text. -/
theorem postedBy_hiddenPart (s : String) : postedBy (hiddenPart s) = s.toList := by
  rw [hiddenPart]
  split_ifs with hempty
  · rw [List.isEmpty_iff.1 hempty]
    rfl
  · have hpre : postedBy [element "pre" [fixed "style" "display: none"]
        [.element "span" [] [value s]]] =
          (element "pre" [fixed "style" "display: none"] [.element "span" [] [value s]]).shown := by
      simp [postedBy, hasTag, value]
    rw [hpre, shown_pre_value]

/-- The body of the part of an excerpt that is shown. -/
def linesTrees (lines : List CodeLine) : List Markup :=
  lines.flatMap fun l => [.element "span" [("num", Nat.toDigits 10 l.number)] [value l.text], line 0]

theorem allSource_linesTrees (lines : List CodeLine) :
    allSource (linesTrees lines) = escapeStrict (unlines (lines.map (·.text.toList))) := by
  have hnewline : escapeStrict ['\n'] = ['\n'] := rfl
  rw [linesTrees, allSource_flatMap]
  induction lines with
  | nil => rfl
  | cons l r ih =>
    rw [List.flatMap_cons, ih, List.map_cons, unlines_cons, escapeStrict_append, escapeStrict_cons]
    simp [source, value, line, newline, escapeCharStrict, escapeChar, entity?]

theorem filter_pre_linesTrees (lines : List CodeLine) :
    (allElements (linesTrees lines)).filter (·.hasTag "pre") = [] := by
  rw [linesTrees, allElements_flatMap, List.filter_flatMap, List.flatMap_eq_nil_iff]
  intro l _
  simp [hasTag, value, line]

/-- The lines that are shown are sent, each ended by a line feed. -/
theorem postedBy_lines (attributes : List (String × List Char)) (lines : List CodeLine) :
    postedBy [element "pre" attributes (linesTrees lines)] =
      unlines (lines.map (·.text.toList)) := by
  have hpre : postedBy [element "pre" attributes (linesTrees lines)] =
      (element "pre" attributes (linesTrees lines)).shown := by
    rw [postedBy, allElements_cons, elements_element, allElements_nil, List.append_nil,
      List.filter_cons_of_pos rfl, filter_pre_linesTrees, List.flatMap_singleton]
  rw [hpre, shown]
  show decode (allSource (linesTrees lines)) = _
  rw [allSource_linesTrees, decode_escapeStrict]

/-- A block sends the program of its excerpt. -/
theorem postedBy_codeTrees (play : Bool) (c : Code) : postedBy (c.trees play) = c.program := by
  obtain ⟨attributes, numbers, htrees⟩ : ∃ attributes numbers, c.trees play =
      [line 0, .element "div" attributes (hiddenPart c.before ++
        [.element "pre" numbers (linesTrees c.lines)] ++ hiddenPart c.after)] := ⟨_, _, rfl⟩
  have hblock (body : List Markup) : postedBy [line 0, .element "div" attributes body] =
      postedBy body := by
    simp [postedBy, hasTag, line]
  rw [htrees, hblock, postedBy_append, postedBy_append, postedBy_hiddenPart, postedBy_hiddenPart,
    postedBy_lines, Code.program]

/-! ## The blocks of a page -/

/-- Texts stand in a page one behind the other. -/
def InOrder : List (List Char) → List Char → Prop
  | [], _ => True
  | t :: r, page => ∃ front behind, page = front ++ t ++ behind ∧ InOrder r behind

theorem Shows.inOrder {cs : List Code} {shown : Bool → List Char} (h : Shows cs shown)
    (play : Bool) : InOrder (cs.map fun c => printAll (c.trees play)) (shown play) := by
  induction cs generalizing shown with
  | nil => trivial
  | cons c cs ih =>
    obtain ⟨front, rest, hrest, hshown⟩ := h
    exact ⟨front, rest play, hshown play, ih hrest⟩

/-- The block of a play command: it is read as an element for code, and what this sends are the
lines of the file that the command names, each ended by a line feed, without those in the range of
its address that are marked to be left out. -/
def Runs (files : Files) (base : Path) (command block : List Char) : Prop :=
  ∃ l contents range div,
    readExcerptLine command (command.length + 1) false false (nextField command).2 = .ok l ∧
    files (base.join ⟨l.file⟩) = .ok contents ∧
    resolveAddress (trim l.address) (Text.lines contents.toList) = .ok range ∧
    Markup.read block = some [.text ['\n'], div] ∧ div.hasTag "div" = true ∧
    (div.attribute? "class" = some "code".toList ∨
      div.attribute? "class" = some ("code".toList ++ marker)) ∧
    postedBy [div] = unlines (programLines range (Text.lines contents.toList))

theorem runs_codeTrees {files : Files} {base : Path} {command : List Char} {c : Code}
    (hplay : IsPlay command) (h : readExcerpt files base command = .ok c) (play : Bool) :
    Runs files base command (printAll (c.trees play)) := by
  obtain ⟨l, contents, range, hl, hcontents, hrange, rfl⟩ := readExcerpt_play hplay h
  obtain ⟨c, hc⟩ : ∃ c, c = excerpt l true range (Text.lines contents.toList) := ⟨_, rfl⟩
  have hposted : postedBy (c.trees play) =
      unlines (programLines range (Text.lines contents.toList)) := by
    rw [postedBy_codeTrees, hc, program_excerpt (resolveAddress_bounds hrange).1]
  obtain ⟨attributes, body, htrees⟩ : ∃ attributes body, c.trees play =
      [line 0, .element "div" (("class", "code".toList ++
        if c.playableWhen play then marker else []) :: attributes) body] := ⟨_, _, rfl⟩
  have hatoms : allAtoms (c.trees play) = [.text ['\n'], .element "div" (("class", "code".toList ++
      if c.playableWhen play then marker else []) :: attributes) (allAtoms body)] := by
    rw [htrees]
    rfl
  have hread : Markup.read (printAll (c.trees play)) = some (allAtoms (c.trees play)) :=
    read_printAll (c.trees_proper play)
  rw [hatoms] at hread
  rw [← postedBy_allAtoms, hatoms] at hposted
  rw [← hc]
  refine ⟨l, contents, range, _, hl, hcontents, hrange, hread, rfl, ?_, hposted⟩
  cases c.playableWhen play
  · exact Or.inl rfl
  · exact Or.inr rfl

namespace Theme

/-- A runnable excerpt sends the whole program: the page of a document that is read has a block for
each excerpt command of its source, in their order, and that of a play command sends the file that
the command names, but for the lines in the range of its address that end in `OMIT`. -/
theorem page_posts_programs {files : Files} {name : Path} {text : String} {d : Document}
    (h : Source.read files name .full text = .ok d) (k : Kind) (o : Options) :
    ∃ t, bundled = .ok t ∧
      (d.NestedWithin deepest → ∃ page blocks, t.page k d o = .ok page ∧ InOrder blocks page ∧
        List.Forall₂ (fun command block => IsPlay command →
          Runs files name.parent command block) (excerptTexts text) blocks) ∧
      (¬ d.NestedWithin deepest → t.page k d o = .error (.render .tooDeep)) := by
  refine ⟨ofBundled, bundled_eq, fun hnested => ?_, fun hnested => ?_⟩
  · have hshows := (show Shows _ _ from d.shows_trees o.notes k).prepend doctype
    refine ⟨_, _, ?_, hshows.inOrder o.play, ?_⟩
    · rw [page_ofBundled, if_pos hnested]
    · rw [List.forall₂_map_right_iff]
      exact (read_codes h k).imp fun command c hc hplay => runs_codeTrees hplay hc o.play
  · rw [page_ofBundled, if_neg hnested]

/-- A program with lines to be left out in front of the range, in it and behind it. -/
def guardedProgram : String :=
  "package main // OMIT\n\nfunc main() \x7b\n\tif 1 < 2 \x7b // OMIT\n\t\x7d\n\x7d\n// OMIT"

/-- A deck that shows three of the lines of the program. -/
def guardedDeck : String := "Talk\n\n* One\n- a\n.play -edit main.go 3,5\n"

theorem page_posts_programs_guardedDeck :
    ∃ d t page block div, Source.read (fun _ => .ok guardedProgram) (Path.ofString "talk.slide")
        .full guardedDeck = .ok d ∧ bundled = .ok t ∧
      t.page .slides d { play := true } = .ok page ∧ InOrder [block] page ∧
      Markup.read block = some [.text ['\n'], div] ∧
      postedBy [div] =
        "package main // OMIT\n\nfunc main() \x7b\n\t\x7d\n\x7d\n// OMIT\n".toList := by
  have hread : ∃ d, Source.read (fun _ => .ok guardedProgram) (Path.ofString "talk.slide") .full
      guardedDeck = .ok d ∧ d.NestedWithin deepest := by
    have hok : (match Source.read (fun _ => .ok guardedProgram) (Path.ofString "talk.slide") .full
        guardedDeck with
      | .ok d => decide (d.NestedWithin deepest)
      | .error _ => false) = true := by decide +kernel
    split at hok
    · rename_i d heq
      exact ⟨d, heq, of_decide_eq_true hok⟩
    · cases hok
  obtain ⟨d, hd, hnested⟩ := hread
  have hcommands : excerptTexts guardedDeck = [".play -edit main.go 3,5".toList] := by
    decide +kernel
  obtain ⟨t, ht, hpage, -⟩ := page_posts_programs hd .slides { play := true }
  obtain ⟨page, blocks, hpage, horder, hblocks⟩ := hpage hnested
  rw [hcommands] at hblocks
  have hplay : IsPlay ".play -edit main.go 3,5".toList := by
    unfold IsPlay
    decide
  obtain ⟨block, hruns, rfl⟩ : ∃ block, Runs _ _ ".play -edit main.go 3,5".toList block ∧
      blocks = [block] := by
    cases hblocks with
    | cons hrun hrest =>
      cases hrest
      exact ⟨_, hrun hplay, rfl⟩
  obtain ⟨l, contents, range, div, hl, hcontents, hrange, hblock, -, -, hposted⟩ := hruns
  obtain rfl : guardedProgram = contents := Except.ok.inj hcontents
  have haddress : some l.address = some " 3,5".toList := by
    have hline : (readExcerptLine ".play -edit main.go 3,5".toList 24 false false
        (nextField ".play -edit main.go 3,5".toList).2).toOption.map (·.address) =
          some " 3,5".toList := by decide +kernel
    rwa [show readExcerptLine _ 24 _ _ _ = _ from hl] at hline
  have hresolve : resolveAddress (trim " 3,5".toList) (Text.lines guardedProgram.toList) =
      .ok ⟨2, 5⟩ := by decide +kernel
  rw [Option.some.inj haddress, hresolve] at hrange
  obtain rfl := Except.ok.inj hrange
  refine ⟨d, t, page, block, div, hd, ht, hpage, horder, hblock, ?_⟩
  rw [hposted]
  decide +kernel

end Theme

end Lectern
