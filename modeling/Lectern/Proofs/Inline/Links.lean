import Lectern.Proofs.Page.Inline
import Lectern.Proofs.Text.Blocks

/-!
# Links in inline markup

The text of a link is read as this link wherever it starts (`linkAt?_eq_some_iff`), and the text in
front of it and the text behind it are styled on their own (`styleChars_append_linkText`).
-/

namespace Lectern

open Text

/-! ## The text of a link -/

/-- The text of a link with its address, and with its label if it has one. -/
def linkText (url : List Char) : Option (List Char) → List Char
  | none => '[' :: '[' :: (url ++ [']', ']'])
  | some label => '[' :: '[' :: (url ++ ']' :: '[' :: (label ++ [']', ']']))

/-- An address, and perhaps a label, that can stand in a link. -/
structure IsLink (url : List Char) (label : Option (List Char)) : Prop where
  url_ne_nil : url ≠ []
  not_mem_url : ∀ c ∈ url, c ≠ ']' ∧ isBlank c = false
  label_ne_nil : ∀ l ∈ label, l ≠ []
  not_mem_label : ∀ l ∈ label, ']' ∉ l

/-- A part of the text is a link. -/
def HasLink (t : List Char) : Prop :=
  ∃ a url label b, IsLink url label ∧ t = a ++ (linkText url label ++ b)

variable {url a b s rest : List Char} {label : Option (List Char)}

theorem linkAt?_linkText (h : IsLink url label) (rest : List Char) :
    linkAt? (linkText url label ++ rest) = some ((url, label), rest) := by
  have hurl : ∀ c ∈ url, (c ≠ ']' && !isBlank c) = true := by
    intro c hc
    obtain ⟨hne, hblank⟩ := h.not_mem_url c hc
    simp [hne, hblank]
  have hempty : ¬ url.isEmpty = true := by simpa using h.url_ne_nil
  have hstop (r : List Char) : ∀ c ∈ (']' :: r).head?, (c ≠ ']' && !isBlank c) = false := by
    rintro _ ⟨⟩
    rfl
  cases label with
  | none =>
    obtain ⟨htake, hdrop⟩ := span_append hurl (hstop (']' :: rest))
    simp only [linkText, List.cons_append, List.append_assoc, List.nil_append, linkAt?]
    rw [htake, hdrop, if_neg hempty]
    rfl
  | some label =>
    have hlabel : ∀ c ∈ label, decide (c ≠ ']') = true := by
      intro c hc
      exact decide_eq_true fun heq => h.not_mem_label label rfl (heq ▸ hc)
    have hstop' : ∀ c ∈ (']' :: ']' :: rest).head?, decide (c ≠ ']') = false := by
      rintro _ ⟨⟩
      rfl
    obtain ⟨htake, hdrop⟩ := span_append hurl (hstop ('[' :: (label ++ ']' :: ']' :: rest)))
    obtain ⟨htake', hdrop'⟩ := span_append hlabel hstop'
    have hempty' : ¬ label.isEmpty = true := by simpa using h.label_ne_nil label rfl
    simp only [linkText, List.cons_append, List.append_assoc, List.nil_append, linkAt?]
    rw [htake, hdrop, if_neg hempty]
    simp only
    rw [htake', hdrop', if_neg hempty']
    rfl

theorem isLink_of_linkAt? (h : linkAt? s = some ((url, label), rest)) :
    IsLink url label ∧ s = linkText url label ++ rest := by
  unfold linkAt? at h
  split at h
  · rename_i r
    dsimp only at h
    have hr := List.takeWhile_append_dropWhile (p := fun c => c ≠ ']' && !isBlank c) (l := r)
    have hurl : ∀ c ∈ r.takeWhile (fun c => c ≠ ']' && !isBlank c),
        c ≠ ']' ∧ isBlank c = false := by
      intro c hc
      simpa using List.mem_takeWhile_imp hc
    split_ifs at h with hempty
    have hne : r.takeWhile (fun c => c ≠ ']' && !isBlank c) ≠ [] := by simpa using hempty
    -- Behind the address: the end of the link, or its label.
    split at h
    · rename_i hdrop
      rw [hdrop] at hr
      simp only [Option.some.injEq, Prod.mk.injEq] at h
      obtain ⟨⟨rfl, rfl⟩, rfl⟩ := h
      refine ⟨⟨hne, hurl, nofun, nofun⟩, ?_⟩
      conv_lhs => rw [← hr]
      simp [linkText]
    · rename_i r' hdrop
      have hr' := List.takeWhile_append_dropWhile (p := (· ≠ ']')) (l := r')
      split_ifs at h with hempty'
      split at h
      · rename_i hdrop'
        rw [hdrop, ← hr', hdrop'] at hr
        simp only [Option.some.injEq, Prod.mk.injEq] at h
        obtain ⟨⟨rfl, rfl⟩, rfl⟩ := h
        refine ⟨⟨hne, hurl, ?_, ?_⟩, ?_⟩
        · rintro _ ⟨⟩
          simpa using hempty'
        · rintro _ ⟨⟩ hc
          simpa using List.mem_takeWhile_imp hc
        · conv_lhs => rw [← hr]
          simp [linkText]
      · cases h
    · cases h
  · cases h

/-- What is read at the start of a text is a link, and its text stands there. -/
theorem linkAt?_eq_some_iff :
    linkAt? s = some ((url, label), rest) ↔ IsLink url label ∧ s = linkText url label ++ rest := by
  constructor
  · exact isLink_of_linkAt?
  · rintro ⟨hlink, rfl⟩
    exact linkAt?_linkText hlink rest

/-- A text that starts with a link starts with two brackets. -/
theorem prefix_of_linkAt? {link : (List Char × Option (List Char)) × List Char}
    (h : linkAt? s = some link) : "[[".toList <+: s := by
  obtain ⟨⟨url, label⟩, rest⟩ := link
  obtain ⟨-, rfl⟩ := linkAt?_eq_some_iff.1 h
  cases label <;> exact ⟨_, rfl⟩

/-- Without two brackets in a row there is no link. -/
theorem HasLink.infix {t : List Char} (h : HasLink t) : "[[".toList <:+: t := by
  obtain ⟨a, url, label, b, hlink, rfl⟩ := h
  have hprefix := prefix_of_linkAt? (linkAt?_linkText hlink b)
  exact hprefix.isInfix.trans (List.suffix_append ..).isInfix

/-! ## Segments -/

/-- The segments of a text without links. -/
def plainSegments (t : List Char) : List Segment := if t = [] then [] else [.plain t]

theorem segments_linkText (h : IsLink url label) (b : List Char) :
    segments (linkText url label ++ b) = .link url label :: segments b := by
  have hread := linkAt?_linkText h b
  obtain ⟨c, r, hs⟩ : ∃ c r, linkText url label ++ b = c :: r := by
    cases label <;> exact ⟨_, _, rfl⟩
  rw [hs] at hread ⊢
  rw [segments]
  split
  · rename_i heq
    obtain ⟨hlink, rfl⟩ := Prod.mk.inj (Option.some.inj (hread.symm.trans heq))
    obtain ⟨rfl, rfl⟩ := Prod.mk.inj hlink
    rfl
  · rename_i heq
    rw [hread] at heq
    cases heq

theorem segments_cons {c : Char} {r : List Char} (h : linkAt? (c :: r) = none) :
    segments (c :: r) =
      match segments r with
      | .plain t :: more => .plain (c :: t) :: more
      | more => .plain [c] :: more := by
  rw [segments]
  split
  · rename_i heq
    rw [h] at heq
    cases heq
  · rfl

/-- Text in which no link starts is taken together up to the first link behind it. -/
theorem segments_append (ha : ∀ x y, a = x ++ y → y ≠ [] → linkAt? (y ++ s) = none)
    (hs : ∀ t more, segments s ≠ .plain t :: more) :
    segments (a ++ s) = plainSegments a ++ segments s := by
  induction a with
  | nil => rfl
  | cons c a ih =>
    have hnone := ha [] (c :: a) rfl (List.cons_ne_nil c a)
    have hrest := ih fun x y hxy hy => ha (c :: x) y (by rw [hxy, List.cons_append]) hy
    rw [List.cons_append] at hnone ⊢
    rw [segments_cons hnone, hrest, plainSegments, plainSegments, if_neg (List.cons_ne_nil c a)]
    by_cases hnil : a = []
    · rw [if_pos hnil, hnil, List.nil_append]
      split
      · rename_i heq
        exact absurd heq (hs _ _)
      · rfl
    · rw [if_neg hnil]
      rfl

theorem segments_of_not_hasLink {t : List Char} (h : ¬ HasLink t) :
    segments t = plainSegments t := by
  have hsplit := segments_append (a := t) (s := []) ?_ (by simp)
  · rwa [List.append_nil, segments_nil, List.append_nil] at hsplit
  · intro x y hxy _
    rw [List.append_nil, Option.eq_none_iff_forall_ne_some]
    rintro ⟨⟨url, label⟩, rest⟩ hread
    obtain ⟨hlink, rfl⟩ := linkAt?_eq_some_iff.1 hread
    exact h ⟨x, url, label, rest, hlink, hxy⟩

/-- A link behind a text is the first one, unless two brackets in a row stand in the text or a
bracket at its end. -/
theorem segments_append_linkText (h : IsLink url label) (ha : ¬ "[[".toList <:+: a)
    (hlast : a.getLast? ≠ some '[') (b : List Char) :
    segments (a ++ (linkText url label ++ b)) =
      plainSegments a ++ .link url label :: segments b := by
  rw [segments_append, segments_linkText h]
  · intro x y hxy hy
    rw [Option.eq_none_iff_forall_ne_some]
    intro link hread
    have hprefix := prefix_of_linkAt? hread
    -- The two brackets would stand in the text, or one at its end and one in the link.
    rcases y with _ | ⟨c, _ | ⟨d, y⟩⟩
    · exact hy rfl
    · obtain ⟨rfl, -⟩ : '[' = c ∧ _ := List.cons_prefix_cons.1 hprefix
      exact hlast (by rw [hxy, List.getLast?_append, List.getLast?_singleton]; rfl)
    · obtain ⟨rfl, hnext⟩ : '[' = c ∧ ['['] <+: d :: y ++ (linkText url label ++ b) :=
        List.cons_prefix_cons.1 hprefix
      obtain ⟨rfl, -⟩ : '[' = d ∧ _ := List.cons_prefix_cons.1 hnext
      exact ha ⟨x, y, by rw [hxy, List.append_assoc]; rfl⟩
  · intro t more heq
    rw [segments_linkText h] at heq
    cases heq

/-! ## Styled texts -/

/-- The markup of a segment. -/
def Segment.html (s : Segment) : List Char := s.inlines.flatMap Inline.html

/-- The label that is shown for a link. -/
def labelSpans (url : List Char) : Option (List Char) → List Span
  | some label => spans label
  | none => [.text (dropScheme url)]

theorem styleChars_eq (s : List Char) : styleChars s = (segments s).flatMap Segment.html := by
  rw [styleChars, Inline.parse, List.flatMap_assoc]
  rfl

theorem html_plain (t : List Char) : (Segment.plain t).html = (spans t).flatMap Span.html := by
  rw [Segment.html, Segment.inlines, List.flatMap_map]
  rfl

theorem html_link (url : List Char) (label : Option (List Char)) :
    (Segment.link url label).html = (Inline.link url (labelSpans url label)).html := by
  cases label <;> simp [Segment.html, Segment.inlines, labelSpans]

theorem html_plainSegments (t : List Char) :
    (plainSegments t).flatMap Segment.html = (spans t).flatMap Span.html := by
  rw [plainSegments]
  split_ifs with ht
  · rw [ht]
    rfl
  · rw [List.flatMap_singleton, html_plain]

theorem styleChars_of_not_hasLink {t : List Char} (h : ¬ HasLink t) :
    styleChars t = (spans t).flatMap Span.html := by
  rw [styleChars_eq, segments_of_not_hasLink h, html_plainSegments]

theorem styleChars_append_linkText (h : IsLink url label) (ha : ¬ "[[".toList <:+: a)
    (hlast : a.getLast? ≠ some '[') (b : List Char) :
    styleChars (a ++ (linkText url label ++ b)) =
      styleChars a ++ (Inline.link url (labelSpans url label)).html ++ styleChars b := by
  rw [styleChars_of_not_hasLink fun hlink => ha hlink.infix, styleChars_eq,
    segments_append_linkText h ha hlast, List.flatMap_append, List.flatMap_cons,
    html_plainSegments, html_link, ← styleChars_eq, List.append_assoc]

/-! ## Anchors -/

/-- A text goes on with a character that starts no anchor. -/
def StartsNoAnchor (s : List Char) : Prop := ∃ c r, s = c :: r ∧ c ≠ 'a'

theorem StartsNoAnchor.append (s t : List Char) (h : StartsNoAnchor s) :
    StartsNoAnchor (s ++ t) := by
  obtain ⟨c, r, rfl, hc⟩ := h
  exact ⟨c, r ++ t, rfl, hc⟩

theorem Span.html_font (f : Font) (inner : List Char) :
    (Span.font f inner).html =
      '<' :: (f.tag ++ ['>']) ++ escape inner ++ '<' :: '/' :: (f.tag ++ ['>']) := by
  simp [Span.html]

theorem Span.behind_html (s : Span) : Markup.Behind '<' StartsNoAnchor s.html := by
  have hescape (s : List Char) : Markup.Behind '<' StartsNoAnchor (escape s) :=
    Markup.behind_of_not_mem (Markup.escaped_escape s).not_lt
  cases s with
  | text s => exact hescape s
  | font f inner =>
    have hstart : Markup.Behind '<' StartsNoAnchor ('<' :: (f.tag ++ ['>'])) := by
      refine Markup.behind_cons ?_ (Markup.behind_of_not_mem ?_)
      · cases f <;> exact ⟨_, _, rfl, by decide⟩
      · cases f <;> decide
    have hend : Markup.Behind '<' StartsNoAnchor ('<' :: '/' :: (f.tag ++ ['>'])) := by
      refine Markup.behind_cons ⟨_, _, rfl, by decide⟩ (Markup.behind_of_not_mem ?_)
      cases f <;> decide
    rw [Span.html_font]
    exact (hstart.append StartsNoAnchor.append (hescape inner)).append StartsNoAnchor.append hend

theorem behind_flatMap_html (l : List Span) :
    Markup.Behind '<' StartsNoAnchor (l.flatMap Span.html) := by
  induction l with
  | nil => exact Markup.behind_of_not_mem List.not_mem_nil
  | cons s l ih =>
    rw [List.flatMap_cons]
    exact s.behind_html.append StartsNoAnchor.append ih

/-- A text without links has no anchor. -/
theorem not_anchor_of_not_hasLink {t : List Char} (h : ¬ HasLink t) :
    ¬ "<a".toList <:+: styleChars t := by
  rintro ⟨x, y, hxy⟩
  rw [styleChars_of_not_hasLink h] at hxy
  have hsplit : (spans t).flatMap Span.html = x ++ '<' :: 'a' :: y := by
    rw [← hxy, List.append_assoc]
    rfl
  obtain ⟨c, r, heq, hc⟩ := behind_flatMap_html _ x _ hsplit
  exact hc (List.cons.inj heq).1.symm

/-! ## Links between texts -/

/-- The markup of a link with its styled label. -/
def anchorText (url label : List Char) : String :=
  "<a href=\"" ++ String.ofList (escape url) ++ "\" target=\"_blank\">" ++ String.ofList label ++
    "</a>"

theorem style_append_linkText {a b t u : String} {label : Option (List Char)}
    (h : IsLink u.toList label) (ha : ¬ "[[".toList <:+: a.toList)
    (hlast : a.toList.getLast? ≠ some '[') (ht : t.toList = linkText u.toList label) :
    style (a ++ t ++ b) = style a ++
      anchorText u.toList ((labelSpans u.toList label).flatMap Span.html) ++ style b := by
  have hstyle := styleChars_append_linkText h ha hlast b.toList
  rw [Inline.html_link, ← ht, ← List.append_assoc] at hstyle
  rw [← String.toList_inj]
  simp only [style, anchorText, String.toList_append, String.toList_ofList]
  exact hstyle

/-- A link and the texts on both sides of it are styled on their own, where two brackets in a row
do not stand in the text in front and no bracket at its end. The label of a link is styled without
links in it; a link without a label shows its address without the scheme. -/
theorem style_links :
    (∀ a b u l : String, ¬ "[[".toList <:+: a.toList → a.toList.getLast? ≠ some '[' →
      u.toList ≠ [] → (∀ c ∈ u.toList, c ≠ ']' ∧ isBlank c = false) →
      l.toList ≠ [] → ']' ∉ l.toList →
      style (a ++ ("[[" ++ u ++ "][" ++ l ++ "]]") ++ b) =
          style a ++ anchorText u.toList ((spans l.toList).flatMap Span.html) ++ style b ∧
        style (a ++ ("[[" ++ u ++ "]]") ++ b) =
          style a ++ anchorText u.toList (escape (dropScheme u.toList)) ++ style b) ∧
      ∀ t : String, ¬ "[[".toList <:+: t.toList → ¬ "<a".toList <:+: (style t).toList := by
  refine ⟨fun a b u l ha hlast hu hmem hl hmem' => ⟨?_, ?_⟩, fun t ht => ?_⟩
  · have hlink : IsLink u.toList (some l.toList) :=
      ⟨hu, hmem, by rintro _ ⟨⟩; exact hl, by rintro _ ⟨⟩; exact hmem'⟩
    have htext : ("[[" ++ u ++ "][" ++ l ++ "]]").toList = linkText u.toList (some l.toList) := by
      simp [linkText]
    have hstyle := style_append_linkText hlink ha hlast (b := b) htext
    exact hstyle
  · have hlink : IsLink u.toList none := ⟨hu, hmem, nofun, nofun⟩
    have htext : ("[[" ++ u ++ "]]").toList = linkText u.toList none := by simp [linkText]
    have hstyle := style_append_linkText hlink ha hlast (b := b) htext
    rwa [labelSpans, List.flatMap_singleton, Span.html] at hstyle
  · have hchars : (style t).toList = styleChars t.toList := String.toList_ofList
    rw [hchars]
    exact not_anchor_of_not_hasLink fun hlink => ht hlink.infix

theorem style_links_brackets :
    style ("*a* " ++ ("[[" ++ "[m:x" ++ "][" ++ "_the_[[label_" ++ "]]") ++ "] [[y]]") =
      "<b>a</b> <a href=\"[m:x\" target=\"_blank\"><i>the [[label</i></a>" ++
        "] <a href=\"y\" target=\"_blank\">y</a>" := by
  have h := (style_links.1 "*a* " "] [[y]]" "[m:x" "_the_[[label_" (by decide +kernel)
    (by decide +kernel) (by decide +kernel) (by simp [isBlank]) (by decide +kernel)
    (by decide +kernel)).1
  rw [h]
  decide +kernel

end Lectern
