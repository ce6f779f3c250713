import Lectern.Proofs.Source.Joining

/-!
# What documents look like that are read

What is said about an author are lines and links, and no sections (`read_authors`). The sections
have numbers that lead to them, so no two have the same (`nodup_numbers_of_read`).
-/

namespace Lectern

/-! ## The sections of a document -/

mutual

/-- The section with those below it, each in front of those below itself. -/
def Section.withBelow : Section → List Section
  | ⟨number, title, elems, notes, classes, styles⟩ =>
      ⟨number, title, elems, notes, classes, styles⟩ :: Element.allSections elems

/-- The sections among elements, with those below them. -/
def Element.allSections : List Element → List Section
  | [] => []
  | .sub s :: r => s.withBelow ++ Element.allSections r
  | _ :: r => Element.allSections r

end

/-- The sections of a document at all depths, in the order in which they are shown. -/
def Document.allSections (d : Document) : List Section := d.sections.flatMap Section.withBelow

theorem withBelow_eq (s : Section) : s.withBelow = s :: Element.allSections s.elems := by
  cases s
  rfl

theorem allSections_cons_sub (s : Section) (r : List Element) :
    Element.allSections (.sub s :: r) = s.withBelow ++ Element.allSections r := by
  rw [Element.allSections]

theorem allSections_cons_of_section?_eq_none {e : Element} (h : e.section? = none)
    (r : List Element) : Element.allSections (e :: r) = Element.allSections r := by
  cases e with
  | sub s => cases h
  | _ => rw [Element.allSections]; exact fun s e => Element.noConfusion e

theorem allSections_eq_flatMap (es : List Element) :
    Element.allSections es = (es.filterMap Element.section?).flatMap Section.withBelow := by
  induction es with
  | nil => rfl
  | cons e r ih =>
    cases h : e.section? with
    | none => rw [allSections_cons_of_section?_eq_none h, List.filterMap_cons_none h, ih]
    | some s =>
      cases e <;> cases h
      rw [allSections_cons_sub, filterMap_section?_cons_sub, List.flatMap_cons, ih]

mutual

theorem length_withBelow : ∀ s : Section, s.withBelow.length = s.sectionCount
  | ⟨_, _, elems, _, _, _⟩ => by
    rw [Section.withBelow, List.length_cons, length_allSections elems, Section.sectionCount,
      Nat.add_comm]

theorem length_allSections (es : List Element) :
    (Element.allSections es).length = Element.sectionCounts es := by
  cases es with
  | nil => rfl
  | cons e r =>
    cases e with
    | sub s =>
      rw [allSections_cons_sub, List.length_append, length_withBelow s, length_allSections r,
        Element.sectionCounts, Element.sectionCount]
    | _ =>
      rw [allSections_cons_of_section?_eq_none rfl, length_allSections r, Element.sectionCounts,
        Element.sectionCount, Nat.zero_add]

end

/-- The sections are as many as are counted. -/
theorem Document.length_allSections (d : Document) : d.allSections.length = d.sectionCount := by
  rw [Document.allSections, sectionCount]
  induction d.sections with
  | nil => rfl
  | cons s r ih =>
    rw [List.flatMap_cons, List.length_append, ih, length_withBelow, List.foldr_cons]

namespace Source

/-! ## The numbers of sections -/

mutual

/-- The numbers below a section start with its own. -/
theorem prefix_of_mem_withBelow (number : List Nat) :
    ∀ s : Section, ∀ t ∈ (renumber number s).withBelow, number <+: t.number
  | ⟨_, title, elems, _, _, _⟩ => by
    rw [renumber, withBelow_eq]
    intro t ht
    rcases List.mem_cons.1 ht with rfl | ht
    · exact List.prefix_rfl
    · obtain ⟨k, -, hk⟩ := prefix_of_mem_allSections number 1 elems t ht
      exact (List.prefix_append number [k]).trans hk

theorem prefix_of_mem_allSections (parent : List Nat) (next : Nat) (es : List Element) :
    ∀ t ∈ Element.allSections (renumberFrom parent next es),
      ∃ k, next ≤ k ∧ parent ++ [k] <+: t.number := by
  cases es with
  | nil => exact fun t ht => absurd ht List.not_mem_nil
  | cons e r =>
    cases e with
    | sub s =>
      rw [renumberFrom, allSections_cons_sub]
      intro t ht
      rcases List.mem_append.1 ht with ht | ht
      · exact ⟨next, le_rfl, prefix_of_mem_withBelow (parent ++ [next]) s t ht⟩
      · obtain ⟨k, hk, hprefix⟩ := prefix_of_mem_allSections parent (next + 1) r t ht
        exact ⟨k, by omega, hprefix⟩
    | _ =>
      rw [renumberFrom_cons_of_section?_eq_none rfl, allSections_cons_of_section?_eq_none rfl]
      exact prefix_of_mem_allSections parent next r

end

/-- Numbers that start with different numbers of the same length are different. -/
theorem eq_of_prefix_singleton {parent n : List Nat} {j k : Nat} (hj : parent ++ [j] <+: n)
    (hk : parent ++ [k] <+: n) : j = k := by
  have hlen : (parent ++ [j]).length = (parent ++ [k]).length := by
    rw [List.length_append, List.length_append]
    rfl
  have heq := (List.prefix_of_prefix_length_le hj hk hlen.le).eq_of_length hlen
  exact (List.cons.inj (List.append_cancel_left heq)).1

mutual

theorem nodup_withBelow (number : List Nat) :
    ∀ s : Section, ((renumber number s).withBelow.map Section.number).Nodup
  | ⟨_, title, elems, _, _, _⟩ => by
    rw [renumber, withBelow_eq, List.map_cons, List.nodup_cons]
    refine ⟨fun hmem => ?_, nodup_allSections number 1 elems⟩
    obtain ⟨t, ht, heq⟩ := List.mem_map.1 hmem
    obtain ⟨k, -, hk⟩ := prefix_of_mem_allSections number 1 elems t ht
    have hlen := hk.length_le
    rw [heq, List.length_append, List.length_singleton] at hlen
    exact absurd hlen (Nat.not_succ_le_self _)

/-- Sections that are numbered by their positions have different numbers. -/
theorem nodup_allSections (parent : List Nat) (next : Nat) (es : List Element) :
    ((Element.allSections (renumberFrom parent next es)).map Section.number).Nodup := by
  cases es with
  | nil => exact List.nodup_nil
  | cons e r =>
    cases e with
    | sub s =>
      rw [renumberFrom, allSections_cons_sub, List.map_append, List.nodup_append]
      refine ⟨nodup_withBelow (parent ++ [next]) s, nodup_allSections parent (next + 1) r, ?_⟩
      rintro n hn m hm rfl
      obtain ⟨t, ht, rfl⟩ := List.mem_map.1 hn
      obtain ⟨u, hu, heq⟩ := List.mem_map.1 hm
      have hnext := prefix_of_mem_withBelow (parent ++ [next]) s t ht
      obtain ⟨k, hk, hprefix⟩ := prefix_of_mem_allSections parent (next + 1) r u hu
      rw [heq] at hprefix
      have := eq_of_prefix_singleton hnext hprefix
      omega
    | _ =>
      rw [renumberFrom_cons_of_section?_eq_none rfl, allSections_cons_of_section?_eq_none rfl]
      exact nodup_allSections parent next r

end

theorem nodup_numbers_outline (items : List Item) :
    (((outline items).flatMap Section.withBelow).map Section.number).Nodup := by
  rw [outline_eq, ← allSections_eq_flatMap]
  exact nodup_allSections [] 1 _

/-! ## The parts of documents that are read -/

theorem headerLine_keeps {d d' : Document} {text : List Char} (h : headerLine d text = .ok d') :
    d'.authors = d.authors ∧ d'.sections = d.sections := by
  unfold headerLine at h
  split at h
  · obtain rfl := Except.ok.inj h
    exact ⟨rfl, rfl⟩
  split at h
  · obtain rfl := Except.ok.inj h
    exact ⟨rfl, rfl⟩
  split at h
  · obtain rfl := Except.ok.inj h
    exact ⟨rfl, rfl⟩
  split at h
  · obtain rfl := Except.ok.inj h
    exact ⟨rfl, rfl⟩
  split at h
  · obtain rfl := Except.ok.inj h
    exact ⟨rfl, rfl⟩
  split at h
  · obtain rfl := Except.ok.inj h
    exact ⟨rfl, rfl⟩
  · cases h

theorem readHeaderLines_keeps {stop : Nat} {lines rest : List Line} {d d' : Document}
    (h : readHeaderLines stop d lines = .ok (d', rest)) :
    d'.authors = d.authors ∧ d'.sections = d.sections := by
  induction lines generalizing d with
  | nil => cases h
  | cons l r ih =>
    rw [readHeaderLines] at h
    split_ifs at h
    · obtain ⟨rfl, -⟩ := Prod.mk.inj (Except.ok.inj h)
      exact ⟨rfl, rfl⟩
    · cases hline : headerLine d l.text with
      | error problem => rw [hline] at h; cases h
      | ok d₁ =>
        rw [hline] at h
        obtain ⟨hauthors, hsections⟩ := headerLine_keeps hline
        obtain ⟨hauthors', hsections'⟩ := ih h
        exact ⟨hauthors'.trans hauthors, hsections'.trans hsections⟩

/-- A header tells nothing about the authors and has no sections. -/
theorem readHeader_bare {stop : Nat} {lines rest : List Line} {d : Document}
    (h : readHeader stop lines = .ok (d, rest)) : d.authors = [] ∧ d.sections = [] := by
  induction lines with
  | nil => cases h
  | cons l r ih =>
    rw [readHeader] at h
    split_ifs at h
    · exact ih h
    · exact readHeaderLines_keeps h

/-- What holds of every line about an author holds of all that is said about authors. -/
theorem forall_readAuthors {P : Element → Prop} (h : ∀ text, P (authorElement text))
    {elems : List Element} (helems : ∀ e ∈ elems, P e) (lines : List Line) :
    ∀ a ∈ (readAuthors elems lines).1, ∀ e ∈ a.elems, P e := by
  have hauthor : ∀ {elems : List Element}, (∀ e ∈ elems, P e) →
      ∀ a ∈ authorOf elems, ∀ e ∈ a.elems, P e := by
    intro elems helems a ha
    rw [authorOf] at ha
    split_ifs at ha
    · cases ha
    · rw [List.mem_singleton.1 ha]
      exact helems
  induction lines generalizing elems with
  | nil => exact hauthor helems
  | cons l r ih =>
    rw [readAuthors]
    by_cases hstar : l.text.head? = some '*'
    · rw [if_pos hstar]
      exact hauthor helems
    by_cases hnote : (noteText? l.text).isSome = true
    · rw [if_neg hstar, if_pos hnote]
      exact ih helems
    by_cases hempty : l.text.isEmpty = true
    · simp only [if_neg hstar, if_neg hnote, if_pos hempty]
      intro a ha
      rcases List.mem_append.1 ha with ha | ha
      · exact hauthor helems a ha
      · exact ih (fun e he => absurd he List.not_mem_nil) a ha
    · rw [if_neg hstar, if_neg hnote, if_neg hempty]
      refine ih fun e he => ?_
      rcases List.mem_append.1 he with he | he
      · exact helems e he
      · rw [List.mem_singleton.1 he]
        exact h l.text

/-- The authors of a document that is read are made of lines about them, and its sections are an
outline. -/
theorem read_parts {files : Files} {name : Path} {mode : Mode} {text : String} {d : Document}
    (h : read files name mode text = .ok d) :
    (∃ lines, d.authors = (readAuthors [] lines).1) ∧ ∃ items, d.sections = outline items := by
  have hlines := readLines_of_read h
  cases mode with
  | full =>
    obtain ⟨d₀, rest, items, -, -, rfl⟩ := readLines_full_eq_ok_iff.1 hlines
    exact ⟨⟨rest, rfl⟩, items, rfl⟩
  | titlesOnly =>
    obtain ⟨rest, hheader⟩ := readLines_titlesOnly_eq_ok_iff.1 hlines
    obtain ⟨hauthors, hsections⟩ := readHeader_bare hheader
    exact ⟨⟨[], hauthors⟩, [], hsections⟩

theorem section?_authorElement (text : List Char) : (authorElement text).section? = none := by
  unfold authorElement
  simp only
  split
  · rfl
  · split_ifs <;> rfl

/-- Nothing that is said about an author is a section. -/
theorem read_authors {files : Files} {name : Path} {mode : Mode} {text : String} {d : Document}
    (h : read files name mode text = .ok d) :
    ∀ a ∈ d.authors, ∀ e ∈ a.elems, e.section? = none := by
  obtain ⟨⟨lines, hauthors⟩, -⟩ := read_parts h
  rw [hauthors]
  exact forall_readAuthors section?_authorElement (fun e he => absurd he List.not_mem_nil) lines

/-- The sections of a document that is read have different numbers. -/
theorem nodup_numbers_of_read {files : Files} {name : Path} {mode : Mode} {text : String}
    {d : Document} (h : read files name mode text = .ok d) :
    (d.allSections.map Section.number).Nodup := by
  obtain ⟨-, items, hsections⟩ := read_parts h
  rw [Document.allSections, hsections]
  exact nodup_numbers_outline items

end Source

end Lectern
