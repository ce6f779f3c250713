import Lectern.Document.Building
import Lectern.Proofs.Page.Inline
import Lectern.Template.Context
import Lectern.Template.Filter

/-!
# Elements as trees

What a page shows for the elements of a document, and how deeply their sections are nested. The
trees are proper unless the author has put markup of his own into the document.
-/

namespace Lectern

open Text Markup
open Template (Value)

/-! ## Parts of pages -/

/-- The end of a line, and the indentation of the next one. -/
def newline (n : Nat) : List Char := '\n' :: List.replicate n ' '

/-- The start of an indented line. -/
def line (n : Nat) : Markup := .text (newline n)

/-- The start of an indented line behind an empty one. -/
def gap (n : Nat) : Markup := .text ('\n' :: newline n)

/-- A string as a text of the page. -/
def value (s : String) : Markup := .text (escapeStrict s.toList)

/-- A text of the template. -/
def words (s : String) : Markup := .text s.toList

/-- Strings with a separator between them. -/
def joined (separator : String) (ss : List String) : List Char :=
  escapeStrict (Value.joined separator.toList (ss.map Value.ofString))

/-- The name of the place of a section in the page. -/
def anchor (number : List Nat) : List Char :=
  "TOC_".toList ++ escapeStrict (Value.joined ".".toList (number.map Value.ofNat))

/-- An attribute with a value from the template. -/
def fixed (name value : String) : String × List Char := (name, value.toList)

/-- The attribute for a height or width; none if it is missing or zero. -/
def sizeAttribute (name : String) : Option Nat → List (String × List Char)
  | some (n + 1) => [(name, Nat.toDigits 10 (n + 1))]
  | some 0 | none => []

/-- A part of a program that is not shown. -/
def hiddenPart (s : String) : List Markup :=
  if s.toList.isEmpty then []
  else [.element "pre" [fixed "style" "display: none"] [.element "span" [] [value s]]]

/-- An excerpt. -/
def Code.trees (play : Bool) (c : Code) : List Markup :=
  [line 0,
    .element "div"
      (("class", "code".toList ++ if c.playableWhen play then " playground".toList else []) ::
        if c.edit then [fixed "contenteditable" "true", fixed "spellcheck" "false"] else [])
      (hiddenPart c.before ++
        [.element "pre" (if c.numbers then [fixed "class" "numbers"] else [])
          (c.lines.flatMap fun l =>
            [.element "span" [("num", Nat.toDigits 10 l.number)] [value l.text], line 0])] ++
        hiddenPart c.after)]

mutual

/-- What a page shows for an element; `play` says whether excerpts can be run. -/
def Element.trees (play : Bool) : Element → List Markup
  | .sub ⟨number, title, elems, _, _, _⟩ =>
      [line 0, .element (headingTag (number.length + 1)) [("id", anchor number)] [value title]] ++
        Element.allTrees play elems
  | .text lines true =>
      [line 0, .element "div" [fixed "class" "code"] [.element "pre" [] [.text (joined "\n" lines)]]]
  | .text lines false =>
      [line 0, .element "p" [] ((lines.flatMap fun l => line 2 :: styled l) ++ [line 0])]
  | .list bullets =>
      [line 0,
        .element "ul" [] ((bullets.flatMap fun b => [line 2, .element "li" [] (styled b)]) ++
          [line 0])]
  | .code c => c.trees play
  | .image url width height =>
      [line 0,
        .element "div" [fixed "class" "image"]
          [line 2,
            .void "img" (("src", escapeStrict url.toList) ::
              (sizeAttribute "height" height ++ sizeAttribute "width" width)), line 0]]
  | .iframe url width height =>
      [line 0,
        .element "iframe" (("src", escapeStrict url.toList) ::
          (sizeAttribute "height" height ++ sizeAttribute "width" width)) []]
  | .link url label =>
      [line 0,
        .element "p" [fixed "class" "link"]
          [.element "a" [("href", escapeStrict url.toList), fixed "target" "_blank"]
            (styled label)]]
  | .caption s => [line 0, .element "figcaption" [] (styled s)]
  | .html s => [line 0, .text s.toList]

/-- What a page shows for elements. -/
def Element.allTrees (play : Bool) : List Element → List Markup
  | [] => []
  | e :: r => e.trees play ++ Element.allTrees play r

end

theorem allTrees_eq_flatMap (play : Bool) (elems : List Element) :
    Element.allTrees play elems = elems.flatMap (Element.trees play) := by
  induction elems with
  | nil => rfl
  | cons e r ih => rw [Element.allTrees, ih, List.flatMap_cons]

/-! ## Nesting -/

mutual

/-- How deeply sections are nested in an element. -/
def Element.nesting : Element → Nat
  | .sub ⟨_, _, elems, _, _, _⟩ => Element.nestings elems + 1
  | .text _ _ | .list _ | .code _ | .image _ _ _ | .iframe _ _ _ | .link _ _ | .caption _
  | .html _ => 0

/-- How deeply sections are nested in elements. -/
def Element.nestings : List Element → Nat
  | [] => 0
  | e :: r => max e.nesting (Element.nestings r)

end

theorem nestings_le_iff {elems : List Element} {n : Nat} :
    Element.nestings elems ≤ n ↔ ∀ e ∈ elems, e.nesting ≤ n := by
  induction elems with
  | nil => simp [Element.nestings]
  | cons e r ih => rw [Element.nestings, Nat.max_le, ih, List.forall_mem_cons]

theorem nesting_sub (s : Section) : (Element.sub s).nesting = Element.nestings s.elems + 1 := by
  cases s
  rfl

theorem nestings_le_iff_subsections (s : Section) {n : Nat} :
    Element.nestings s.elems ≤ n ↔ ∀ t ∈ s.subsections, Element.nestings t.elems + 1 ≤ n := by
  rw [nestings_le_iff, Section.subsections]
  constructor
  · intro h t ht
    obtain ⟨e, he, hsection⟩ := List.mem_filterMap.1 ht
    cases e <;> cases hsection
    rw [← nesting_sub]
    exact h _ he
  · intro h e he
    cases hsection : e.section? with
    | none =>
      cases e with
      | sub t => cases hsection
      | _ => exact Nat.zero_le n
    | some t =>
      have ht := h t (List.mem_filterMap.2 ⟨e, he, hsection⟩)
      cases e <;> cases hsection
      rwa [nesting_sub]

/-! ## Elements without markup of their own -/

mutual

/-- An element in which nothing is markup that the author has written. -/
def Element.NoHtml : Element → Prop
  | .sub ⟨_, _, elems, _, _, _⟩ => Element.AllNoHtml elems
  | .html _ => False
  | .text _ _ | .list _ | .code _ | .image _ _ _ | .iframe _ _ _ | .link _ _ | .caption _ => True

/-- Elements in which nothing is markup that the author has written. -/
def Element.AllNoHtml : List Element → Prop
  | [] => True
  | e :: r => e.NoHtml ∧ Element.AllNoHtml r

end

/-! ## Properness -/

theorem newline_escaped (n : Nat) : Escaped (newline n) := by
  refine .char (by decide) (escaped_of_not_special fun c hc => ?_)
  rw [List.eq_of_mem_replicate hc]
  decide

theorem line_proper (n : Nat) : (line n).Proper := newline_escaped n

theorem gap_proper (n : Nat) : (gap n).Proper := .char (by decide) (newline_escaped n)

theorem value_proper (s : String) : (value s).Proper := escaped_escapeStrict _

theorem words_proper {s : String} (h : ∀ c ∈ s.toList, c ∉ special) : (words s).Proper :=
  escaped_of_not_special h

theorem joined_escaped (separator : String) (ss : List String) : Escaped (joined separator ss) :=
  escaped_escapeStrict _

theorem anchor_escaped (number : List Nat) : Escaped (anchor number) :=
  (escaped_of_not_special (by simp [special])).append (escaped_escapeStrict _)

/-- A tag of the template's is one that elements have. -/
theorem isBodyTag_of_mem {tag : String} (h : tag ∈ bodyTags) : IsBodyTag tag := Or.inl h

theorem isBodyTag_heading (level : Nat) : IsBodyTag (headingTag (level + 1)) :=
  Or.inr ⟨level + 1, Nat.succ_pos level, rfl⟩

@[simp] theorem properAttributes_nil : ProperAttributes [] := fun _ h => absurd h List.not_mem_nil

@[simp] theorem properAttributes_cons {a : String × List Char} {r : List (String × List Char)} :
    ProperAttributes (a :: r) ↔ (a.1 ∈ attributeNames ∧ Escaped a.2) ∧ ProperAttributes r :=
  List.forall_mem_cons

@[simp] theorem properAttributes_append {l r : List (String × List Char)} :
    ProperAttributes (l ++ r) ↔ ProperAttributes l ∧ ProperAttributes r :=
  List.forall_mem_append

theorem properAttributes_pair {name : String} {v : List Char} {r : List (String × List Char)}
    (h : name ∈ attributeNames) (hv : Escaped v) (hr : ProperAttributes r) :
    ProperAttributes ((name, v) :: r) := properAttributes_cons.2 ⟨⟨h, hv⟩, hr⟩

theorem properAttributes_fixed {name v : String} {r : List (String × List Char)}
    (h : name ∈ attributeNames) (hv : ∀ c ∈ v.toList, c ∉ special) (hr : ProperAttributes r) :
    ProperAttributes (fixed name v :: r) :=
  properAttributes_pair h (escaped_of_not_special hv) hr

theorem sizeAttribute_proper {name : String} (h : name ∈ attributeNames) (n : Option Nat) :
    ProperAttributes (sizeAttribute name n) := by
  rcases n with _ | _ | n
  · exact properAttributes_nil
  · exact properAttributes_nil
  · exact properAttributes_pair h (escaped_toDigits _) properAttributes_nil

theorem source_proper (url : String) (width height : Option Nat) :
    ProperAttributes (("src", escapeStrict url.toList) ::
      (sizeAttribute "height" height ++ sizeAttribute "width" width)) :=
  properAttributes_pair (by decide) (escaped_escapeStrict _) (properAttributes_append.2
    ⟨sizeAttribute_proper (by decide) height, sizeAttribute_proper (by decide) width⟩)

theorem hiddenPart_proper (s : String) : AllProper (hiddenPart s) := by
  rw [hiddenPart]
  split_ifs
  · exact allProper_nil
  · have hspan : (Markup.element "span" [] [value s]).Proper :=
      ⟨isBodyTag_of_mem (by decide), properAttributes_nil, value_proper s, trivial⟩
    exact ⟨⟨isBodyTag_of_mem (by decide),
      properAttributes_fixed (by decide) (by simp [special]) properAttributes_nil, hspan, trivial⟩,
      trivial⟩

theorem Code.trees_proper (play : Bool) (c : Code) : AllProper (c.trees play) := by
  have hclass : Escaped ("code".toList ++
      if c.playableWhen play then " playground".toList else []) := by
    refine (escaped_of_not_special (by simp [special])).append ?_
    split_ifs
    · exact escaped_of_not_special (by simp [special])
    · exact .nil
  have hedit : ProperAttributes
      (if c.edit then [fixed "contenteditable" "true", fixed "spellcheck" "false"] else []) := by
    split_ifs
    · exact properAttributes_fixed (by decide) (by simp [special])
        (properAttributes_fixed (by decide) (by simp [special]) properAttributes_nil)
    · exact properAttributes_nil
  have hnumbers : ProperAttributes (if c.numbers then [fixed "class" "numbers"] else []) := by
    split_ifs
    · exact properAttributes_fixed (by decide) (by simp [special]) properAttributes_nil
    · exact properAttributes_nil
  have hlines : AllProper (c.lines.flatMap fun l =>
      [.element "span" [("num", Nat.toDigits 10 l.number)] [value l.text], line 0]) := by
    refine allProper_flatMap.2 fun l _ => ⟨⟨isBodyTag_of_mem (by decide), ?_, ?_⟩, line_proper 0,
      trivial⟩
    · exact properAttributes_pair (by decide) (escaped_toDigits _) properAttributes_nil
    · exact ⟨value_proper _, trivial⟩
  refine ⟨line_proper 0, ⟨isBodyTag_of_mem (by decide), ?_, ?_⟩, trivial⟩
  · exact properAttributes_pair (by decide) hclass hedit
  · rw [allProper_append, allProper_append]
    exact ⟨⟨hiddenPart_proper _, ⟨isBodyTag_of_mem (by decide), hnumbers, hlines⟩, trivial⟩,
      hiddenPart_proper _⟩

mutual

/-- What is shown for an element is proper. -/
theorem Element.trees_proper (play : Bool) : ∀ e : Element, e.NoHtml → AllProper (e.trees play)
  | .sub ⟨number, title, elems, _, _, _⟩, h => by
    rw [Element.trees, allProper_append]
    refine ⟨⟨line_proper 0, ⟨isBodyTag_heading _, ?_, value_proper title, trivial⟩, trivial⟩,
      Element.allTrees_proper play elems h⟩
    exact properAttributes_pair (by decide) (anchor_escaped number) properAttributes_nil
  | .text lines true, _ => by
    have hpre : AllProper [.element "pre" [] [.text (joined "\n" lines)]] :=
      ⟨⟨isBodyTag_of_mem (by decide), properAttributes_nil, joined_escaped _ _, trivial⟩, trivial⟩
    exact ⟨line_proper 0, ⟨isBodyTag_of_mem (by decide),
      properAttributes_fixed (by decide) (by simp [special]) properAttributes_nil, hpre⟩, trivial⟩
  | .text lines false, _ => by
    refine ⟨line_proper 0, ⟨isBodyTag_of_mem (by decide), properAttributes_nil, ?_⟩, trivial⟩
    rw [allProper_append, allProper_flatMap]
    exact ⟨fun l _ => ⟨line_proper 2, allProper_styled l⟩, line_proper 0, trivial⟩
  | .list bullets, _ => by
    refine ⟨line_proper 0, ⟨isBodyTag_of_mem (by decide), properAttributes_nil, ?_⟩, trivial⟩
    rw [allProper_append, allProper_flatMap]
    exact ⟨fun b _ => ⟨line_proper 2,
      ⟨isBodyTag_of_mem (by decide), properAttributes_nil, allProper_styled b⟩, trivial⟩,
      line_proper 0, trivial⟩
  | .code c, _ => c.trees_proper play
  | .image url width height, _ => by
    have himage : (Markup.void "img" (("src", escapeStrict url.toList) ::
        (sizeAttribute "height" height ++ sizeAttribute "width" width))).Proper :=
      ⟨by decide, source_proper url width height⟩
    exact ⟨line_proper 0, ⟨isBodyTag_of_mem (by decide),
      properAttributes_fixed (by decide) (by simp [special]) properAttributes_nil,
      line_proper 2, himage, line_proper 0, trivial⟩, trivial⟩
  | .iframe url width height, _ =>
    ⟨line_proper 0, ⟨isBodyTag_of_mem (by decide), source_proper url width height, trivial⟩,
      trivial⟩
  | .link url label, _ => by
    have hlink : ProperAttributes
        [("href", escapeStrict url.toList), fixed "target" "_blank"] :=
      properAttributes_pair (by decide) (escaped_escapeStrict _)
        (properAttributes_fixed (by decide) (by simp [special]) properAttributes_nil)
    exact ⟨line_proper 0, ⟨isBodyTag_of_mem (by decide),
      properAttributes_fixed (by decide) (by simp [special]) properAttributes_nil,
      ⟨isBodyTag_of_mem (by decide), hlink, allProper_styled label⟩, trivial⟩, trivial⟩
  | .caption s, _ =>
    ⟨line_proper 0, ⟨isBodyTag_of_mem (by decide), properAttributes_nil, allProper_styled s⟩,
      trivial⟩
  | .html _, h => h.elim

/-- What is shown for elements is proper. -/
theorem Element.allTrees_proper (play : Bool) :
    ∀ elems : List Element, Element.AllNoHtml elems → AllProper (Element.allTrees play elems)
  | [], _ => trivial
  | e :: r, ⟨he, hr⟩ =>
    allProper_append.2 ⟨Element.trees_proper play e he, Element.allTrees_proper play r hr⟩

end

end Lectern
