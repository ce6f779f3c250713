import Lectern.Proofs.Compile.ReadBack
import Lectern.Proofs.Source.Opening

/-!
# Reading the header of a source alone

The header that is read alone is that of the whole document, or the whole source is refused for
the same reason; it depends on the opening of the source alone, so nothing behind it matters, and
no file that the source refers to (`readContent_titlesOnly`).
-/

namespace Lectern

open Disk

/-- What is read of a source agrees with what is read of its header alone: the header is that of
the document, and is refused only for a reason for which the source is refused. -/
structure HeaderAgrees (whole header : Except Source.Failure Document) : Prop where
  accepted : ∀ doc, whole = .ok doc → header = .ok { doc with authors := [], sections := [] }
  refused : ∀ why, header = .error why → whole = .error why

theorem headerAgrees_error (why : Source.Failure) : HeaderAgrees (.error why) (.error why) where
  accepted _ h := by cases h
  refused _ h := h

theorem headerAgrees_read (files : Source.Files) (name : Path) (text : String) :
    HeaderAgrees (Source.read files name .full text) (Source.read files name .titlesOnly text) where
  accepted doc h := by
    rw [Source.read, Source.readLines_titlesOnly_of_full (Source.readLines_of_read h)]
  refused why h := by
    rw [Source.read] at h ⊢
    cases hlines : Source.readLines files name.parent .titlesOnly (Text.lines text.toList) with
    | error what =>
      rw [hlines] at h
      rw [Source.readLines_full_of_titlesOnly hlines]
      exact h
    | ok doc => rw [hlines] at h; cases h

theorem headerAgrees_readContent (d : Disk) (p : Path) (content : Content) :
    HeaderAgrees (readContent d .full p content) (readContent d .titlesOnly p content) := by
  unfold readContent
  cases content.text with
  | error why => exact headerAgrees_error _
  | ok text => exact headerAgrees_read d.readText p text

/-- Reading the header of a source alone, given by its content or by its path, agrees with reading
the whole source. Two texts that start with the same opening, up to the first empty line behind
the title, have the same header or are refused for the same reason, whatever stands behind the
opening and on the disks. -/
theorem readContent_titlesOnly (d : Disk) (p : Path) (content : Content) :
    HeaderAgrees (readContent d .full p content) (readContent d .titlesOnly p content) ∧
    HeaderAgrees (readDocument d .full p) (readDocument d .titlesOnly p) ∧
    ∀ (d' : Disk) (content' : Content) (text text' : String) (o : Source.Opening),
      content.text = .ok text → content'.text = .ok text' →
      o.lines <+: Text.lines text.toList → o.lines <+: Text.lines text'.toList →
      readContent d .titlesOnly p content = readContent d' .titlesOnly p content' := by
  refine ⟨headerAgrees_readContent d p content, ?_, ?_⟩
  · unfold readDocument
    cases d.openFile p with
    | error why => exact headerAgrees_error _
    | ok found => exact headerAgrees_readContent d p found
  · intro d' content' text text' o htext htext' ho ho'
    rw [readContent, readContent, htext, htext']
    dsimp only
    rw [Source.read, Source.read, Source.readLines_titlesOnly_congr ho ho']

/-- A source with a comment in its header, and with a mistyped command. -/
def unfinishedTalk : String := "Draft\n# to do\nHow to begin\n\n* One\n.coed hello.go\n"

/-- The opening of the source. -/
def unfinishedOpening : Source.Opening :=
  .ofTitle "Draft".toList ["# to do".toList, "How to begin".toList] (by decide) (by decide)

theorem readContent_titlesOnly_unfinishedTalk :
    (∃ why, readContent {} .full (.ofString "talk.slide") (.bytes unfinishedTalk.toUTF8) =
      .error why) ∧
    readContent {} .titlesOnly (.ofString "talk.slide") (.bytes unfinishedTalk.toUTF8) =
      readContent { table := [(["hello.go".toList], .dir)] } .titlesOnly (.ofString "talk.slide")
        (.bytes "Draft\n# to do\nHow to begin\n\nGopher\n".toUTF8) := by
  have htext : (Content.bytes unfinishedTalk.toUTF8).text = .ok unfinishedTalk :=
    text_bytes_eq_ok_iff.2 rfl
  refine ⟨⟨.atLine (.ofString "talk.slide") ⟨6, .unknownCommand ".coed hello.go".toList⟩, ?_⟩, ?_⟩
  · rw [readContent, htext]
    cbv
  · exact (readContent_titlesOnly {} _ _).2.2 _ _ _ _ unfinishedOpening htext
      (text_bytes_eq_ok_iff.2 rfl) (by decide) (by decide)

end Lectern
