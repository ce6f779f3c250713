import Lectern.Proofs.Compile.ReadBack
import Lectern.Proofs.Source.Notes

/-!
# Pages without speaker notes

With the notes switched off, the texts of speaker notes do not influence the page of a source: from
two sources that differ in them alone the same page is rendered, or both are refused
(`page_sameButNotes`). Lines of a paragraph are no notes, and are shown (`page_tells_paragraph`).
-/

namespace Lectern

open Disk Source Markup

variable {d d' : Disk} {input : Path} {s s' : String}

/-- The outcomes of reading two sources: both are refused, or neither is, and then the pages without
speaker notes are the same. -/
def SamePage (d d' : Disk) (input : Path) (play : Bool) : Prop :=
  let c : Compiler := { options := { play, notes := false } }
  (∃ why why', readDocument d .full input = .error why ∧
    readDocument d' .full input = .error why') ∨
  (∃ doc doc', readDocument d .full input = .ok doc ∧ readDocument d' .full input = .ok doc' ∧
    c.page d input = c.page d' input)

theorem theme_of_base_eq_none {c : Compiler} (hbase : c.base = none) (d : Disk) :
    c.theme d = .ok Theme.ofBundled := by
  rw [Compiler.theme, hbase]
  exact Theme.bundled_eq

theorem theme_bundled (o : Options) : ({ options := o } : Compiler).theme d = .ok Theme.ofBundled :=
  theme_of_base_eq_none rfl d

/-- The page of a source of no known kind is refused. -/
theorem page_eq_error {c : Compiler} {t : Theme} {name : List Char} (htheme : c.theme d = .ok t)
    (hkind : Kind.ofPath input = .error name) :
    c.page d input = .error (.unsupportedKind name) := by
  rw [page_eq_renderPage htheme, renderPage, hkind]

/-- Where two sources are read as documents that differ in their notes alone, or both are refused,
they have the same page. -/
theorem samePage_of_withoutNotes
    (h : (readDocument d .full input).toOption.map Document.withoutNotes =
      (readDocument d' .full input).toOption.map Document.withoutNotes) (play : Bool) :
    SamePage d d' input play := by
  cases hdoc : readDocument d .full input with
  | error why =>
    cases hdoc' : readDocument d' .full input with
    | error why' => exact Or.inl ⟨why, why', hdoc, hdoc'⟩
    | ok doc' => rw [hdoc, hdoc'] at h; cases h
  | ok doc =>
    cases hdoc' : readDocument d' .full input with
    | error why' => rw [hdoc, hdoc'] at h; cases h
    | ok doc' =>
      rw [hdoc, hdoc'] at h
      have hnotes : doc.withoutNotes = doc'.withoutNotes := Option.some.inj h
      refine Or.inr ⟨doc, doc', hdoc, hdoc', ?_⟩
      cases hkind : Kind.ofPath input with
      | error name =>
        rw [page_eq_error (theme_bundled _) hkind, page_eq_error (theme_bundled _) hkind]
      | ok k =>
        rw [page_eq (theme_bundled _) hkind hdoc, page_eq (theme_bundled _) hkind hdoc']
        exact page_eq_of_withoutNotes_eq hnotes k play

theorem toOption_readDocument (hs : d.readText input = .ok s) :
    (readDocument d .full input).toOption =
      (readLines d.readText input.parent .full (Text.lines s.toList)).toOption := by
  rw [readDocument_eq_read hs, Source.read]
  cases readLines d.readText input.parent .full (Text.lines s.toList) <;> rfl

/-- The texts of speaker notes do not influence the page of a source when the notes are switched
off: from two sources that are the same but for notes, and that refer to the same files, both are
refused or the same page is rendered. The lines of paragraphs are no notes. -/
theorem page_sameButNotes (hs : d.readText input = .ok s) (hs' : d'.readText input = .ok s')
    (hsame : SameButNotes (Text.lines s.toList) (Text.lines s'.toList))
    (hopen : ∀ i : Nat, (Text.lines s.toList)[i]? ≠ (Text.lines s'.toList)[i]? →
      ¬ InParagraph d.readText input.parent ((Text.lines s.toList).take i))
    (hfiles : SameReferences d.readText d'.readText input.parent (bodyTexts (Text.lines s.toList)))
    (play : Bool) : SamePage d d' input play := by
  refine samePage_of_withoutNotes ?_ play
  rw [toOption_readDocument hs, toOption_readDocument hs']
  exact readLines_withoutNotes hsame hopen hfiles

/-- A disk with a source. -/
def diskWith (text : String) : Disk where
  table := [(["talk.slide".toList], .file text.toUTF8)]

theorem page_sameButNotes_note :
    SamePage (diskWith "T\n\n* S\n\n: a\n") (diskWith "T\n\n* S\n\n: bb\n")
      (.ofString "talk.slide") true := by
  have hlines : Text.lines "T\n\n* S\n\n: a\n".toList =
      ["T".toList, [], "* S".toList, []] ++ [": ".toList ++ "a".toList] := by cbv
  have hlines' : Text.lines "T\n\n* S\n\n: bb\n".toList =
      ["T".toList, [], "* S".toList, []] ++ [": ".toList ++ "bb".toList] := by cbv
  have hbody : bodyTexts ["T".toList, [], "* S".toList, []] ≠ [] := by decide
  have hscan (files : Files) (base : Path) : scan files base {} ["* S".toList, []] =
      .ok ([.heading 1 ['S']], ⟨1, .none⟩) := by
    rfl
  have htext : (diskWith "T\n\n* S\n\n: a\n").readText (.ofString "talk.slide") =
      .ok "T\n\n* S\n\n: a\n" := by cbv
  have htext' : (diskWith "T\n\n* S\n\n: bb\n").readText (.ofString "talk.slide") =
      .ok "T\n\n* S\n\n: bb\n" := by cbv
  refine page_sameButNotes htext htext' ?_ ?_ ?_ true
  · rw [hlines, hlines']
    exact sameButNotes_append hbody "a".toList "bb".toList
  · rw [hlines, hlines']
    rintro i hi ⟨items, d, lines, h⟩
    rw [getElem?_append_singleton_ne hi, List.take_left] at h
    cases (hscan _ _).symm.trans h
  · rw [hlines]
    exact sameReferences_of_no_command (by decide)

/-- The document of a talk with a paragraph of two lines. -/
def talkOf (line : String) : Document where
  title := "T"
  sections := [⟨[1], "S", [.paragraph ["text", line]], [], [], []⟩]

theorem trees_talkOf_ne :
    printAll ((talkOf ": a").trees {} .slides) ≠ printAll ((talkOf ": bb").trees {} .slides) := by
  decide +kernel

/-- A line of a paragraph that starts as a note does is shown, so pages of sources that differ in it
differ. -/
theorem page_tells_paragraph :
    SameButNotes (Text.lines "T\n\n* S\n\ntext\n: a\n".toList)
      (Text.lines "T\n\n* S\n\ntext\n: bb\n".toList) ∧
    (∀ base, SameReferences (diskWith "T\n\n* S\n\ntext\n: a\n").readText
      (diskWith "T\n\n* S\n\ntext\n: bb\n").readText base
      (bodyTexts (Text.lines "T\n\n* S\n\ntext\n: a\n".toList))) ∧
    (diskWith "T\n\n* S\n\ntext\n: a\n").readText (.ofString "talk.slide") =
      .ok "T\n\n* S\n\ntext\n: a\n" ∧
    (diskWith "T\n\n* S\n\ntext\n: bb\n").readText (.ofString "talk.slide") =
      .ok "T\n\n* S\n\ntext\n: bb\n" ∧
    ¬ SamePage (diskWith "T\n\n* S\n\ntext\n: a\n") (diskWith "T\n\n* S\n\ntext\n: bb\n")
      (.ofString "talk.slide") false := by
  have hlines : Text.lines "T\n\n* S\n\ntext\n: a\n".toList =
      ["T".toList, [], "* S".toList, [], "text".toList] ++ [": ".toList ++ "a".toList] := by cbv
  have hlines' : Text.lines "T\n\n* S\n\ntext\n: bb\n".toList =
      ["T".toList, [], "* S".toList, [], "text".toList] ++ [": ".toList ++ "bb".toList] := by cbv
  have hread (files : Files) :
      Source.read files (.ofString "talk.slide") .full "T\n\n* S\n\ntext\n: a\n" =
        .ok (talkOf ": a") := by
    cbv
  have hread' (files : Files) :
      Source.read files (.ofString "talk.slide") .full "T\n\n* S\n\ntext\n: bb\n" =
        .ok (talkOf ": bb") := by
    cbv
  have htext : (diskWith "T\n\n* S\n\ntext\n: a\n").readText (.ofString "talk.slide") =
      .ok "T\n\n* S\n\ntext\n: a\n" := by cbv
  have htext' : (diskWith "T\n\n* S\n\ntext\n: bb\n").readText (.ofString "talk.slide") =
      .ok "T\n\n* S\n\ntext\n: bb\n" := by cbv
  have hdoc : readDocument (diskWith "T\n\n* S\n\ntext\n: a\n") .full (.ofString "talk.slide") =
      .ok (talkOf ": a") := (readDocument_eq_read htext).trans (hread _)
  have hdoc' : readDocument (diskWith "T\n\n* S\n\ntext\n: bb\n") .full (.ofString "talk.slide") =
      .ok (talkOf ": bb") := (readDocument_eq_read htext').trans (hread' _)
  have hpage (line : String) :
      Theme.ofBundled.page .slides (talkOf line) {} =
        .ok (doctype ++ printAll ((talkOf line).trees {} .slides)) := by
    have hnested : (talkOf line).NestedWithin Theme.deepest :=
      ⟨List.forall_mem_singleton.2 (Nat.zero_le _), fun _ h => absurd h List.not_mem_nil⟩
    rw [Theme.page_ofBundled, if_pos hnested]
  refine ⟨?_, fun base => ?_, htext, htext', ?_⟩
  · rw [hlines, hlines']
    exact sameButNotes_append (by decide) "a".toList "bb".toList
  · rw [hlines]
    exact sameReferences_of_no_command (by decide)
  · rintro (⟨why, why', h, -⟩ | ⟨doc, doc', h, h', hsame⟩)
    · rw [hdoc] at h
      cases h
    · rw [page_eq (theme_bundled _) kind_talk hdoc, page_eq (theme_bundled _) kind_talk hdoc',
        hpage, hpage] at hsame
      exact trees_talkOf_ne (List.append_cancel_left (Except.ok.inj hsame))

end Lectern
