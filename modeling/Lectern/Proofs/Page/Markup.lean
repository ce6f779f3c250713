import Mathlib
import Lectern.Text.Entities

/-!
# Markup

A page is a tree of elements and texts, printed with a start tag and an end tag around the body of
each element. A tree is proper if its tags and attributes are those that pages are made of and its
texts hold no special character except in entities. `WellFormed` says that a page is printed from
proper trees; then each `<` in it starts a tag and each `&` an entity.
-/

namespace Lectern

open Text

/-- A part of a page: a text as it stands in the page, an element with its body, or an element
that has neither body nor end tag. -/
inductive Markup where
  | text (s : List Char)
  | element (tag : String) (attributes : List (String × List Char)) (body : List Markup)
  | void (tag : String) (attributes : List (String × List Char))

namespace Markup

/-! ## Printing -/

/-- An attribute up to its value. -/
def openAttribute (name : String) : List Char := ' ' :: name.toList ++ ['=', '"']

/-- An attribute with its value. -/
def attributeText (a : String × List Char) : List Char := openAttribute a.1 ++ a.2 ++ ['"']

/-- The tag that starts an element, up to its attributes. -/
def openTag (tag : String) : List Char := '<' :: tag.toList

/-- The tag that starts an element. -/
def startTag (tag : String) (attributes : List (String × List Char)) : List Char :=
  openTag tag ++ attributes.flatMap attributeText ++ ['>']

/-- The tag that ends an element. -/
def endTag (tag : String) : List Char := '<' :: '/' :: tag.toList ++ ['>']

mutual

/-- The text of a part of a page. -/
def print : Markup → List Char
  | text s => s
  | element tag attributes body => startTag tag attributes ++ printAll body ++ endTag tag
  | void tag attributes => startTag tag attributes

/-- The text of the parts of a page. -/
def printAll : List Markup → List Char
  | [] => []
  | m :: r => m.print ++ printAll r

end

@[simp] theorem printAll_nil : printAll [] = [] := rfl

@[simp] theorem printAll_cons (m : Markup) (r : List Markup) :
    printAll (m :: r) = m.print ++ printAll r := rfl

@[simp] theorem printAll_append (l r : List Markup) :
    printAll (l ++ r) = printAll l ++ printAll r := by
  induction l with
  | nil => rfl
  | cons m l ih => rw [List.cons_append, printAll_cons, printAll_cons, ih, List.append_assoc]

theorem printAll_flatMap {α : Type} (f : α → List Markup) (l : List α) :
    printAll (l.flatMap f) = l.flatMap fun a => printAll (f a) := by
  induction l with
  | nil => rfl
  | cons a l ih => rw [List.flatMap_cons, List.flatMap_cons, printAll_append, ih]

/-! ## Proper trees -/

/-- The characters that stand in a page only as a part of its markup. -/
def special : List Char := ['<', '>', '&', '"']

/-- The entities that stand for characters. -/
def entities : List String := ["&amp;", "&lt;", "&gt;", "&quot;", "&#x27;", "&#x2f;"]

/-- A text without special characters except in entities. -/
inductive Escaped : List Char → Prop
  | nil : Escaped []
  | char {c : Char} {s : List Char} (hc : c ∉ special) (hs : Escaped s) : Escaped (c :: s)
  | entity {e : String} {s : List Char} (he : e ∈ entities) (hs : Escaped s) :
      Escaped (e.toList ++ s)

/-- The elements without a body. -/
def voidTags : List String := ["meta", "link", "br", "img"]

/-- The elements with a body, headings apart. -/
def bodyTags : List String :=
  ["html", "head", "title", "script", "body", "section", "article", "div", "p", "ul", "li", "pre",
    "span", "iframe", "a", "b", "i", "code", "figcaption", "aside", "small"]

/-- The tag of a heading at a level. -/
def headingTag (level : Nat) : String := String.ofList ('h' :: Nat.toDigits 10 level)

/-- The tag of an element with a body. -/
def IsBodyTag (tag : String) : Prop := tag ∈ bodyTags ∨ ∃ level, 0 < level ∧ tag = headingTag level

/-- The attributes that elements have. -/
def attributeNames : List String :=
  ["id", "class", "style", "src", "href", "rel", "charset", "name", "content", "target", "height",
    "width", "num", "contenteditable", "spellcheck"]

/-- Attributes that elements have, with values without special characters. -/
def ProperAttributes (attributes : List (String × List Char)) : Prop :=
  ∀ a ∈ attributes, a.1 ∈ attributeNames ∧ Escaped a.2

mutual

/-- A part of a page that is made as pages are. -/
def Proper : Markup → Prop
  | text s => Escaped s
  | element tag attributes body => IsBodyTag tag ∧ ProperAttributes attributes ∧ AllProper body
  | void tag attributes => tag ∈ voidTags ∧ ProperAttributes attributes

/-- Parts of a page that are made as pages are. -/
def AllProper : List Markup → Prop
  | [] => True
  | m :: r => m.Proper ∧ AllProper r

end

@[simp] theorem allProper_nil : AllProper [] := trivial

@[simp] theorem allProper_cons {m : Markup} {r : List Markup} :
    AllProper (m :: r) ↔ m.Proper ∧ AllProper r := Iff.rfl

@[simp] theorem allProper_append {l r : List Markup} :
    AllProper (l ++ r) ↔ AllProper l ∧ AllProper r := by
  induction l with
  | nil => simp
  | cons m l ih => rw [List.cons_append, allProper_cons, allProper_cons, ih, and_assoc]

theorem allProper_flatMap {α : Type} {f : α → List Markup} {l : List α} :
    AllProper (l.flatMap f) ↔ ∀ a ∈ l, AllProper (f a) := by
  induction l with
  | nil => simp
  | cons a l ih => rw [List.flatMap_cons, allProper_append, ih, List.forall_mem_cons]

/-! ## Escaped texts -/

theorem Escaped.append {s t : List Char} (hs : Escaped s) (ht : Escaped t) : Escaped (s ++ t) := by
  induction hs with
  | nil => exact ht
  | char hc _ ih => exact .char hc ih
  | entity he _ ih =>
    rw [List.append_assoc]
    exact .entity he ih

theorem escaped_of_not_special {s : List Char} (h : ∀ c ∈ s, c ∉ special) : Escaped s := by
  induction s with
  | nil => exact .nil
  | cons c s ih =>
    exact .char (h c (List.mem_cons_self ..)) (ih fun d hd => h d (List.mem_cons_of_mem c hd))

theorem escaped_flatMap {f : Char → List Char} {s : List Char} (h : ∀ c ∈ s, Escaped (f c)) :
    Escaped (s.flatMap f) := by
  induction s with
  | nil => exact .nil
  | cons c s ih =>
    exact (h c (List.mem_cons_self ..)).append (ih fun d hd => h d (List.mem_cons_of_mem c hd))

theorem escaped_entity {e : String} (he : e ∈ entities) : Escaped e.toList := by
  rw [← List.append_nil e.toList]
  exact .entity he .nil

/-- A character of inline text stands escaped in a page. -/
theorem escaped_escapeChar (c : Char) : Escaped (escapeChar c) := by
  rw [escapeChar]
  cases h : entity? c with
  | some e =>
    refine escaped_entity ?_
    rw [entity?] at h
    split_ifs at h <;> obtain rfl := Option.some.inj h <;> decide
  | none =>
    refine escaped_of_not_special fun d hd => ?_
    obtain rfl := List.mem_singleton.1 hd
    rw [entity?] at h
    split_ifs at h with h₁ h₂ h₃ h₄
    simp [special, h₁, h₂, h₃, h₄]

/-- Inline text stands escaped in a page. -/
theorem escaped_escape (s : List Char) : Escaped (escape s) :=
  escaped_flatMap fun c _ => escaped_escapeChar c

/-- The text of a value stands escaped in a page. -/
theorem escaped_escapeStrict (s : List Char) : Escaped (escapeStrict s) := by
  refine escaped_flatMap fun c _ => ?_
  rw [escapeCharStrict]
  split_ifs
  · exact escaped_entity (by decide)
  · exact escaped_escapeChar c

theorem escaped_toDigits (n : Nat) : Escaped (Nat.toDigits 10 n) := by
  refine escaped_of_not_special fun c hc hspecial => ?_
  have hdigit := Nat.isDigit_of_mem_toDigits (by decide) (by decide) hc
  simp only [special, List.mem_cons, List.not_mem_nil, or_false] at hspecial
  rcases hspecial with rfl | rfl | rfl | rfl <;> exact absurd hdigit (by decide)

/-! ## Where special characters stand -/

/-- What stands behind every occurrence of a character in a text. -/
def Behind (c : Char) (P : List Char → Prop) (s : List Char) : Prop :=
  ∀ a b, s = a ++ c :: b → P b

variable {c : Char} {P : List Char → Prop} {s t : List Char}

theorem behind_of_not_mem (h : c ∉ s) : Behind c P s := by
  rintro a b rfl
  exact absurd (List.mem_append_right a (List.mem_cons_self ..)) h

theorem Behind.append (hP : ∀ s t, P s → P (s ++ t)) (hs : Behind c P s) (ht : Behind c P t) :
    Behind c P (s ++ t) := by
  intro a b h
  rcases List.append_eq_append_iff.1 h with ⟨x, -, hx⟩ | ⟨x, rfl, hx⟩
  · exact ht x b hx
  · cases x with
    | nil => exact ht [] b hx.symm
    | cons d x =>
      obtain ⟨rfl, rfl⟩ := List.cons.inj hx
      exact hP x t (hs a x rfl)

theorem behind_cons (h : P s) (hs : Behind c P s) : Behind c P (c :: s) := by
  intro a b hab
  cases a with
  | nil =>
    obtain ⟨-, rfl⟩ := List.cons.inj hab
    exact h
  | cons d a => exact hs a b (List.cons.inj hab).2

/-- A text goes on as the start tag or the end tag of an element does behind its first sign. -/
def StartsTag (s : List Char) : Prop :=
  (∃ tag d r, (IsBodyTag tag ∨ tag ∈ voidTags) ∧ (d = ' ' ∨ d = '>') ∧ s = tag.toList ++ d :: r) ∨
    ∃ tag r, IsBodyTag tag ∧ s = '/' :: tag.toList ++ '>' :: r

/-- A text goes on as an entity does behind its first sign. -/
def StartsEntity (s : List Char) : Prop := ∃ e ∈ entities, ∃ r, '&' :: s = e.toList ++ r

theorem StartsTag.append (s t : List Char) (h : StartsTag s) : StartsTag (s ++ t) := by
  rcases h with ⟨tag, d, r, htag, hd, rfl⟩ | ⟨tag, r, htag, rfl⟩
  · exact Or.inl ⟨tag, d, r ++ t, htag, hd, by rw [List.append_assoc, List.cons_append]⟩
  · exact Or.inr ⟨tag, r ++ t, htag, by simp⟩

theorem StartsEntity.append (s t : List Char) (h : StartsEntity s) : StartsEntity (s ++ t) := by
  obtain ⟨e, he, r, hr⟩ := h
  exact ⟨e, he, r ++ t, by rw [← List.cons_append, hr, List.append_assoc]⟩

theorem not_lt_of_entity : ∀ e ∈ entities, '<' ∉ e.toList := by decide

theorem behind_of_entity : ∀ e ∈ entities, Behind '&' StartsEntity e.toList := by
  intro e he
  have hsplit : ∃ r, e.toList = '&' :: r ∧ '&' ∉ r := by
    simp only [entities, List.mem_cons, List.not_mem_nil, or_false] at he
    rcases he with rfl | rfl | rfl | rfl | rfl | rfl <;> exact ⟨_, rfl, by decide⟩
  obtain ⟨r, hr, hnot⟩ := hsplit
  rw [hr]
  exact behind_cons ⟨e, he, [], by rw [List.append_nil, hr]⟩ (behind_of_not_mem hnot)

theorem Escaped.not_lt (h : Escaped s) : '<' ∉ s := by
  induction h with
  | nil => exact List.not_mem_nil
  | char hc _ ih =>
    rw [List.mem_cons, not_or]
    refine ⟨?_, ih⟩
    rintro rfl
    exact hc (by decide)
  | entity he _ ih =>
    rw [List.mem_append, not_or]
    exact ⟨not_lt_of_entity _ he, ih⟩

/-- A character reference in an escaped text is one of the entities. -/
theorem Escaped.behind (h : Escaped s) : Behind '&' StartsEntity s := by
  induction h with
  | nil => exact behind_of_not_mem List.not_mem_nil
  | @char d s hd _ ih =>
    rw [← List.singleton_append]
    refine Behind.append StartsEntity.append (behind_of_not_mem ?_) ih
    rw [List.mem_singleton]
    rintro rfl
    exact hd (by decide)
  | entity he _ ih => exact Behind.append StartsEntity.append (behind_of_entity _ he) ih

theorem not_mem_headingTag {c : Char} (hc : c.isDigit = false) (hh : c ≠ 'h') (level : Nat) :
    c ∉ (headingTag level).toList := by
  rw [headingTag, String.toList_ofList, List.mem_cons, not_or]
  refine ⟨hh, fun h => ?_⟩
  rw [Nat.isDigit_of_mem_toDigits (by decide) (by decide) h] at hc
  cases hc

theorem special_not_mem_tag {tag : String} (h : IsBodyTag tag ∨ tag ∈ voidTags) :
    '<' ∉ tag.toList ∧ '&' ∉ tag.toList := by
  have hbody : ∀ tag ∈ bodyTags, '<' ∉ tag.toList ∧ '&' ∉ tag.toList := by decide
  have hvoid : ∀ tag ∈ voidTags, '<' ∉ tag.toList ∧ '&' ∉ tag.toList := by decide
  rcases h with (h | ⟨level, -, rfl⟩) | h
  · exact hbody tag h
  · exact ⟨not_mem_headingTag rfl (by decide) level, not_mem_headingTag rfl (by decide) level⟩
  · exact hvoid tag h

variable {tag : String} {attributes : List (String × List Char)}

theorem special_not_mem_name {name : String} (h : name ∈ attributeNames) :
    '<' ∉ name.toList ∧ '&' ∉ name.toList := by
  have hall : ∀ name ∈ attributeNames, '<' ∉ name.toList ∧ '&' ∉ name.toList := by decide
  exact hall name h

theorem lt_not_mem_attributes (h : ProperAttributes attributes) :
    '<' ∉ attributes.flatMap attributeText := by
  rw [List.mem_flatMap]
  rintro ⟨a, ha, hmem⟩
  obtain ⟨hname, hvalue⟩ := h a ha
  have hn := (special_not_mem_name hname).1
  have hv := hvalue.not_lt
  simp [attributeText, openAttribute, hn, hv] at hmem

theorem behind_attributes (h : ProperAttributes attributes) :
    Behind '&' StartsEntity (attributes.flatMap attributeText) := by
  induction attributes with
  | nil => exact behind_of_not_mem List.not_mem_nil
  | cons a r ih =>
    obtain ⟨⟨hname, hvalue⟩, hr⟩ := List.forall_mem_cons.1 h
    rw [List.flatMap_cons]
    refine Behind.append StartsEntity.append ?_ (ih hr)
    rw [attributeText, List.append_assoc, openAttribute]
    refine Behind.append StartsEntity.append (behind_of_not_mem ?_)
      (Behind.append StartsEntity.append hvalue.behind (behind_of_not_mem (by decide)))
    simp [(special_not_mem_name hname).2]

theorem lt_behind_startTag (htag : IsBodyTag tag ∨ tag ∈ voidTags)
    (h : ProperAttributes attributes) : Behind '<' StartsTag (startTag tag attributes) := by
  rw [startTag, openTag, List.cons_append, List.cons_append, List.append_assoc]
  refine behind_cons (Or.inl ?_) (behind_of_not_mem ?_)
  · cases attributes with
    | nil => exact ⟨tag, '>', [], htag, Or.inr rfl, by simp⟩
    | cons a r => exact ⟨tag, ' ', _, htag, Or.inl rfl, by rw [List.flatMap_cons]; rfl⟩
  · simp [(special_not_mem_tag htag).1, lt_not_mem_attributes h]

theorem amp_behind_startTag (htag : IsBodyTag tag ∨ tag ∈ voidTags)
    (h : ProperAttributes attributes) : Behind '&' StartsEntity (startTag tag attributes) := by
  rw [startTag, openTag, List.append_assoc]
  refine Behind.append StartsEntity.append (behind_of_not_mem ?_)
    (Behind.append StartsEntity.append (behind_attributes h) (behind_of_not_mem (by decide)))
  simp [(special_not_mem_tag htag).2]

theorem behind_endTag (htag : IsBodyTag tag) :
    Behind '<' StartsTag (endTag tag) ∧ Behind '&' StartsEntity (endTag tag) := by
  obtain ⟨hlt, hamp⟩ := special_not_mem_tag (Or.inl htag)
  refine ⟨behind_cons (Or.inr ⟨tag, [], htag, rfl⟩) (behind_of_not_mem ?_), behind_of_not_mem ?_⟩
  · simp [hlt]
  · simp [endTag, hamp]

mutual

/-- In a proper part of a page special characters stand only in tags and entities. -/
theorem Proper.behind : ∀ {m : Markup}, m.Proper →
    Behind '<' StartsTag m.print ∧ Behind '&' StartsEntity m.print
  | .text _, h => ⟨behind_of_not_mem (Escaped.not_lt h), Escaped.behind h⟩
  | .element tag attributes body, ⟨htag, hattributes, hbody⟩ => by
    obtain ⟨hlt, hamp⟩ := AllProper.behind hbody
    obtain ⟨hltEnd, hampEnd⟩ := behind_endTag htag
    exact ⟨((lt_behind_startTag (Or.inl htag) hattributes).append StartsTag.append hlt).append
        StartsTag.append hltEnd,
      ((amp_behind_startTag (Or.inl htag) hattributes).append StartsEntity.append hamp).append
        StartsEntity.append hampEnd⟩
  | .void tag attributes, ⟨htag, hattributes⟩ =>
    ⟨lt_behind_startTag (Or.inr htag) hattributes, amp_behind_startTag (Or.inr htag) hattributes⟩

/-- The same for the parts of a page together. -/
theorem AllProper.behind : ∀ {l : List Markup}, AllProper l →
    Behind '<' StartsTag (printAll l) ∧ Behind '&' StartsEntity (printAll l)
  | [], _ => ⟨behind_of_not_mem List.not_mem_nil, behind_of_not_mem List.not_mem_nil⟩
  | _ :: _, ⟨hm, hr⟩ => by
    obtain ⟨hlt, hamp⟩ := hm.behind
    obtain ⟨hltRest, hampRest⟩ := AllProper.behind hr
    exact ⟨hlt.append StartsTag.append hltRest, hamp.append StartsEntity.append hampRest⟩

end

/-! ## Well-formed pages -/

/-- What a page starts with. -/
def doctype : List Char := "<!DOCTYPE html>".toList

/-- A page that is printed from proper trees. In it every `<` starts the document type or a tag,
and every `&` an entity. -/
structure WellFormed (page : List Char) : Prop where
  tree : ∃ l, AllProper l ∧ page = doctype ++ printAll l
  tags : ∀ a b, page = a ++ '<' :: b → (∃ r, '<' :: b = doctype ++ r) ∨ StartsTag b
  references : ∀ a b, page = a ++ '&' :: b → StartsEntity b

theorem wellFormed_of_allProper {l : List Markup} (h : AllProper l) :
    WellFormed (doctype ++ printAll l) := by
  obtain ⟨hlt, hamp⟩ := h.behind
  have hdoctype : ∃ r, doctype = '<' :: r ∧ '<' ∉ r ∧ '&' ∉ doctype :=
    ⟨"!DOCTYPE html>".toList, by decide, by decide, by decide⟩
  obtain ⟨r, hr, hltr, hampr⟩ := hdoctype
  refine ⟨⟨l, h, rfl⟩, ?_, ?_⟩
  · have hstable : ∀ s t, ((∃ r, '<' :: s = doctype ++ r) ∨ StartsTag s) →
        (∃ r, '<' :: (s ++ t) = doctype ++ r) ∨ StartsTag (s ++ t) := by
      rintro s t (⟨x, hx⟩ | hs)
      · exact Or.inl ⟨x ++ t, by rw [← List.cons_append, hx, List.append_assoc]⟩
      · exact Or.inr (hs.append s t)
    refine Behind.append hstable ?_ fun a b hab => Or.inr (hlt a b hab)
    rw [hr]
    exact behind_cons (Or.inl ⟨[], by rw [List.append_nil]⟩) (behind_of_not_mem hltr)
  · exact Behind.append StartsEntity.append (behind_of_not_mem hampr) hamp

end Markup

end Lectern
