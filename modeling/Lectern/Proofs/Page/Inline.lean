import Lectern.Inline
import Lectern.Proofs.Page.Markup

/-!
# Inline markup as trees

The markup of a line of text is printed from a proper tree for each of its inlines: a text, a word
in a font, or a link.
-/

namespace Lectern

open Text Markup

/-- The tree of a span. -/
def Span.markup : Span → Markup
  | text s => .text (escape s)
  | font f inner => .element (String.ofList f.tag) [] [.text (escape inner)]

/-- The tree of an inline. -/
def Inline.markup : Inline → Markup
  | span s => s.markup
  | link url label =>
      .element "a" [("href", escape url), ("target", "_blank".toList)] (label.map Span.markup)

/-- The trees of a text with inline markup. -/
def styled (s : String) : List Markup := (Inline.parse s.toList).map Inline.markup

theorem printAll_map {α : Type} (f : α → Markup) (l : List α) :
    printAll (l.map f) = l.flatMap fun a => (f a).print := by
  rw [List.map_eq_flatMap, printAll_flatMap]
  simp

theorem allProper_map {α : Type} {f : α → Markup} {l : List α} (h : ∀ a ∈ l, (f a).Proper) :
    AllProper (l.map f) := by
  rw [List.map_eq_flatMap, allProper_flatMap]
  exact fun a ha => ⟨h a ha, trivial⟩

theorem Span.print_markup (s : Span) : s.markup.print = s.html := by
  cases s with
  | text s => rfl
  | font f inner => simp [markup, html, print, startTag, openTag, endTag]

theorem Inline.html_link (url : List Char) (label : List Span) :
    (Inline.link url label).html =
      "<a href=\"".toList ++ escape url ++ "\" target=\"_blank\">".toList ++
        label.flatMap Span.html ++ "</a>".toList := rfl

theorem Inline.print_markup (i : Inline) : i.markup.print = i.html := by
  cases i with
  | span s => exact (Span.print_markup s : s.markup.print = s.html)
  | link url label =>
    rw [Inline.html_link, Inline.markup, print, printAll_map, funext Span.print_markup]
    simp [startTag, openTag, endTag, attributeText, openAttribute]

/-- The trees of a text print as its markup. -/
theorem printAll_styled (s : String) : printAll (styled s) = styleChars s.toList := by
  rw [styled, printAll_map, funext Inline.print_markup, styleChars]

theorem Span.proper_markup (s : Span) : s.markup.Proper := by
  cases s with
  | text s => exact escaped_escape s
  | font f inner =>
    refine ⟨Or.inl ?_, by simp [ProperAttributes], escaped_escape inner, trivial⟩
    cases f <;> decide

theorem Inline.proper_markup (i : Inline) : i.markup.Proper := by
  cases i with
  | span s => exact s.proper_markup
  | link url label =>
    refine ⟨Or.inl (by decide), ?_, allProper_map fun s _ => s.proper_markup⟩
    simp only [ProperAttributes, List.forall_mem_cons]
    refine ⟨⟨by decide, escaped_escape url⟩,
      ⟨by decide, escaped_of_not_special (by simp [special])⟩, ?_⟩
    simp

/-- The markup of a text is proper, whatever the text holds. -/
theorem allProper_styled (s : String) : AllProper (styled s) :=
  allProper_map fun i _ => i.proper_markup

end Lectern
