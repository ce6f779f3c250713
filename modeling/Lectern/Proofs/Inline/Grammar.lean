import Mathlib.Computability.Language
import Lectern.Proofs.Inline.Words

/-!
# The grammar of inline markup

The markup of a text is a word of a small grammar: safe texts, words in a font, and anchors around
these. If the text has no link, its markup without the tags shows the text word by word
(`style_safe`).
-/

namespace Lectern

open Text
open scoped Computability

/-! ## The grammar -/

/-- The entities that stand for characters of inline text. -/
def inlineEntities : List (List Char) :=
  ["&amp;".toList, "&lt;".toList, "&gt;".toList, "&quot;".toList, "&#x27;".toList]

/-- A text goes on as one of these entities does behind its ampersand. -/
def StartsInlineEntity (s : List Char) : Prop := ∃ e ∈ inlineEntities, e <+: '&' :: s

/-- The texts without special characters but for the ampersands of entities. -/
def safeText : Language Char :=
  {s | (∀ c ∈ s, c ∉ ['<', '>', '"', '\'']) ∧ Markup.Behind '&' StartsInlineEntity s}

/-- The language of one word. -/
def only (s : String) : Language Char := {s.toList}

/-- A safe text, or one in a font. -/
def spanMarkup : Language Char :=
  safeText + only "<b>" * safeText * only "</b>" + only "<i>" * safeText * only "</i>" +
    only "<code>" * safeText * only "</code>"

/-- An anchor around safe texts in fonts. -/
def anchorMarkup : Language Char :=
  only "<a href=\"" * safeText * only "\" target=\"_blank\">" * spanMarkup∗ * only "</a>"

/-- The markup of a line of text. -/
def inlineMarkup : Language Char := (spanMarkup + anchorMarkup)∗

theorem StartsInlineEntity.append (s t : List Char) (h : StartsInlineEntity s) :
    StartsInlineEntity (s ++ t) := by
  obtain ⟨e, he, hprefix⟩ := h
  exact ⟨e, he, hprefix.trans (List.prefix_append ('&' :: s) t)⟩

theorem append_mem_safeText {s t : List Char} (hs : s ∈ safeText) (ht : t ∈ safeText) :
    s ++ t ∈ safeText := by
  refine ⟨fun c hc => ?_, hs.2.append StartsInlineEntity.append ht.2⟩
  rcases List.mem_append.1 hc with hc | hc
  · exact hs.1 c hc
  · exact ht.1 c hc

theorem mem_safeText_of_mem_inlineEntities : ∀ e ∈ inlineEntities, e ∈ safeText := by
  intro e he
  have hchars : ∀ e ∈ inlineEntities, ∀ c ∈ e, c ∉ ['<', '>', '"', '\''] := by
    simp [inlineEntities]
  have hstart : ∀ e ∈ inlineEntities, e.head? = some '&' ∧ '&' ∉ e.tail := by decide
  refine ⟨hchars e he, ?_⟩
  obtain ⟨hhead, htail⟩ := hstart e he
  obtain ⟨r, rfl⟩ := List.head?_eq_some_iff.1 hhead
  exact Markup.behind_cons ⟨_, he, List.prefix_rfl⟩ (Markup.behind_of_not_mem htail)

theorem escapeChar_mem_safeText (c : Char) : escapeChar c ∈ safeText := by
  rw [escapeChar]
  cases h : entity? c with
  | some e =>
    refine mem_safeText_of_mem_inlineEntities e.toList ?_
    rw [entity?] at h
    split_ifs at h <;> obtain rfl := Option.some.inj h <;> decide
  | none =>
    rw [entity?] at h
    split_ifs at h with hamp hlt hgt hquot hapos
    refine ⟨fun d hd => ?_, Markup.behind_of_not_mem ?_⟩
    · obtain rfl := List.mem_singleton.1 hd
      simp [hlt, hgt, hquot, hapos]
    · simpa using Ne.symm hamp

/-- An escaped text is safe. -/
theorem escape_mem_safeText (s : List Char) : escape s ∈ safeText := by
  induction s with
  | nil => exact ⟨nofun, Markup.behind_of_not_mem List.not_mem_nil⟩
  | cons c s ih => exact append_mem_safeText (escapeChar_mem_safeText c) ih

theorem flatMap_mem_kstar {α : Type} {f : α → List Char} {L : Language Char} {l : List α}
    (h : ∀ a ∈ l, f a ∈ L) : l.flatMap f ∈ L∗ := by
  rw [List.flatMap_def]
  refine Language.join_mem_kstar fun s hs => ?_
  obtain ⟨a, ha, rfl⟩ := List.mem_map.1 hs
  exact h a ha

theorem Span.html_mem (s : Span) : s.html ∈ spanMarkup := by
  cases s with
  | text s => exact Or.inl (Or.inl (Or.inl (escape_mem_safeText s)))
  | font f inner =>
    have hinner := escape_mem_safeText inner
    have htagged (start stop : String) :
        start.toList ++ escape inner ++ stop.toList ∈ only start * safeText * only stop :=
      Language.append_mem_mul (Language.append_mem_mul rfl hinner) rfl
    rw [Span.html_font]
    cases f with
    | bold => exact Or.inl (Or.inl (Or.inr (htagged "<b>" "</b>")))
    | italic => exact Or.inl (Or.inr (htagged "<i>" "</i>"))
    | code => exact Or.inr (htagged "<code>" "</code>")

theorem Inline.html_mem (i : Inline) : i.html ∈ spanMarkup + anchorMarkup := by
  cases i with
  | span s => exact Or.inl s.html_mem
  | link url label =>
    refine Or.inr ?_
    rw [Inline.html_link]
    refine Language.append_mem_mul (Language.append_mem_mul (Language.append_mem_mul
      (Language.append_mem_mul rfl (escape_mem_safeText url)) rfl) ?_) rfl
    exact flatMap_mem_kstar fun s _ => s.html_mem

/-- The markup of a text is a word of the grammar. -/
theorem styleChars_mem (s : List Char) : styleChars s ∈ inlineMarkup :=
  flatMap_mem_kstar fun i _ => i.html_mem

/-! ## What markup shows -/

/-- The text without its tags, where `inTag` says whether a tag has started in front of it. -/
def eraseTags (inTag : Bool) : List Char → List Char
  | [] => []
  | c :: r =>
      if inTag then eraseTags (c ≠ '>') r
      else if c = '<' then eraseTags true r
      else c :: eraseTags false r

theorem eraseTags_text {s : List Char} (hs : '<' ∉ s) (t : List Char) :
    eraseTags false (s ++ t) = s ++ eraseTags false t := by
  induction s with
  | nil => rfl
  | cons c s ih =>
    rw [List.mem_cons, not_or] at hs
    rw [List.cons_append, eraseTags, if_neg Bool.false_ne_true, if_neg (Ne.symm hs.1), ih hs.2,
      List.cons_append]

theorem eraseTags_tag {name : List Char} (hname : '>' ∉ name) (t : List Char) :
    eraseTags false ('<' :: (name ++ '>' :: t)) = eraseTags false t := by
  show eraseTags true (name ++ '>' :: t) = eraseTags false t
  induction name with
  | nil => rfl
  | cons c name ih =>
    rw [List.mem_cons, not_or] at hname
    rw [List.cons_append, eraseTags, if_pos rfl, decide_eq_true (Ne.symm hname.1), ih hname.2]

theorem eraseTags_html (s : Span) (t : List Char) :
    eraseTags false (s.html ++ t) = escape s.content ++ eraseTags false t := by
  have hlt (s : List Char) : '<' ∉ escape s := (Markup.escaped_escape s).not_lt
  cases s with
  | text s => exact eraseTags_text (hlt s) t
  | font f inner =>
    have htag : '>' ∉ f.tag := by cases f <;> decide
    have htag' : '>' ∉ '/' :: f.tag := by cases f <;> decide
    have hhtml : (Span.font f inner).html ++ t =
        '<' :: (f.tag ++ '>' :: (escape inner ++ '<' :: ('/' :: f.tag ++ '>' :: t))) := by
      simp [Span.html_font]
    rw [hhtml, eraseTags_tag htag, eraseTags_text (hlt inner), eraseTags_tag htag']
    rfl

theorem eraseTags_flatMap_html (l : List Span) :
    eraseTags false (l.flatMap Span.html) = escape (l.flatMap Span.content) := by
  induction l with
  | nil => rfl
  | cons s l ih =>
    rw [List.flatMap_cons, List.flatMap_cons, eraseTags_html, ih, escape_append]

/-- Inline markup is safe and balanced, and it keeps the text. -/
theorem style_safe (t : String) :
    (style t).toList ∈ inlineMarkup ∧
      (¬ HasLink t.toList → ∀ u, ReadsAs t.toList u ↔
        u = Markup.decode (eraseTags false (style t).toList)) := by
  have hchars : (style t).toList = styleChars t.toList := String.toList_ofList
  rw [hchars]
  refine ⟨styleChars_mem _, fun ht u => ?_⟩
  rw [styleChars_of_not_hasLink ht, eraseTags_flatMap_html, Markup.decode_escape, readsAs_iff]

theorem style_safe_goes :
    style "_so_it_goes_, *x*y & *z*" = "<i>so it goes</i>, *x*y &amp; <b>z</b>" ∧
      ReadsAs "_so_it_goes_, *x*y & *z*".toList "so it goes, *x*y & z".toList := by
  have hlink : ¬ HasLink "_so_it_goes_, *x*y & *z*".toList := by
    intro h
    have hinfix := h.infix
    revert hinfix
    decide +kernel
  exact ⟨by decide +kernel,
    ((style_safe "_so_it_goes_, *x*y & *z*").2 hlink _).2 (by decide +kernel)⟩

end Lectern
