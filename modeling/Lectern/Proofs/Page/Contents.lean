import Lectern.Proofs.Page.Identified
import Lectern.Proofs.Page.Rendered

/-!
# The table of contents of an article

The page of an article lists its sections twice: in the table of contents, and as headings in the
body. Both lists have the sections of the document in the same order, and the lists of the table
are nested as the sections are. In a document that is read no two sections have the same place, so
each entry leads to its own heading (`page_contents`).
-/

namespace Lectern

open Text Markup

/-! ## The entries of sections -/

/-- The link to a section: where it leads, and what it shows. -/
def Section.link (s : Section) : List Char × List Char := ('#' :: place s.number, s.title.toList)

mutual

/-- The entry of a section, with those of its subsections below it. -/
def Section.tocEntry : Section → TocEntry
  | ⟨number, title, elems, _, _, _⟩ =>
      .mk [('#' :: place number, title.toList)] (Element.tocEntries elems)

/-- The entries of the sections among elements. -/
def Element.tocEntries : List Element → List TocEntry
  | [] => []
  | .sub s :: r => s.tocEntry :: Element.tocEntries r
  | _ :: r => Element.tocEntries r

end

/-- An entry holds the link to its section. -/
theorem links_entry (number : List Nat) (title : String) :
    links [element "a" [("href", '#' :: anchor number)] [value title]] =
      [('#' :: place number, title.toList)] := by
  have hlinks : links [element "a" [("href", '#' :: anchor number)] [value title]] =
      [(decode ('#' :: anchor number),
        (element "a" [("href", '#' :: anchor number)] [value title]).shown)] := by
    simp [links, hasTag, attribute?, value]
  rw [hlinks, decode_href, shown_value]

/-- An entry in front of parts takes the entries of the lists that these start with. -/
theorem nestedIn_entry (number : List Nat) (title : String) (r : List Markup) :
    nestedIn (entryTrees number title ++ r) =
      ([], .mk [('#' :: place number, title.toList)] (nestedIn r).1 :: (nestedIn r).2) := by
  rw [entryTrees, List.cons_append, List.singleton_append, nestedIn, nestedIn, line, nestedStep,
    nestedStep, links_entry, if_pos rfl]

/-- The list of the entries below another one is read as these. -/
theorem nestedIn_listBelow (l : List Markup) {r : List Markup} (hr : (nestedIn r).1 = []) :
    nestedIn (listBelow l ++ r) = ((nestedIn l).2, (nestedIn r).2) := by
  cases l with
  | nil => exact Prod.ext hr rfl
  | cons m s =>
    rw [listBelow, List.cons_append, List.singleton_append, nestedIn, nestedIn, line, nestedStep,
      nestedStep, if_neg (by decide), if_pos rfl]

theorem listed_append (l r : List Markup) : listed (l ++ r) = listed l ++ listed r := by
  rw [listed, allElements_append, List.filter_append, List.map_append]
  rfl

theorem listed_entry (number : List Nat) (title : String) :
    listed (entryTrees number title) = [[('#' :: place number, title.toList)]] := by
  have hlisted : listed (entryTrees number title) =
      [links [.element "a" [("href", '#' :: anchor number)] [value title]]] := by
    simp [entryTrees, listed, hasTag, line, value, body]
  rw [hlisted, links_entry]

/-- The list of the entries below another one holds just these. -/
theorem listed_listBelow (l : List Markup) : listed (listBelow l) = listed l := by
  cases l with
  | nil => rfl
  | cons m r => simp [listBelow, listed, hasTag, line]

mutual

theorem listed_contents : ∀ s : Section, listed s.contents = s.withBelow.map fun t => [t.link]
  | ⟨number, title, elems, _, _, _⟩ => by
    rw [contents_mk, listed_append, listed_entry, listed_listBelow, listed_allContents elems,
      Section.withBelow, List.map_cons]
    rfl

/-- The table of contents has an entry for each section. -/
theorem listed_allContents (elems : List Element) :
    listed (Element.allContents elems) = (Element.allSections elems).map fun t => [t.link] := by
  cases elems with
  | nil => rfl
  | cons e r =>
    rw [Element.allContents, listed_append, listed_allContents r]
    cases e with
    | sub s =>
      rw [Element.contents, listed_contents s, allSections_cons_sub, List.map_append]
    | _ => rw [allSections_cons_of_section?_eq_none rfl]; rfl

end

mutual

/-- The entry of a section is read from the lists with those of its subsections below it. -/
theorem nestedIn_contents (s : Section) {r : List Markup} (hr : (nestedIn r).1 = []) :
    nestedIn (s.contents ++ r) = ([], s.tocEntry :: (nestedIn r).2) := by
  obtain ⟨number, title, elems, notes, classes, styles⟩ := s
  have hbelow : nestedIn (Element.allContents elems) = ([], Element.tocEntries elems) := by
    have h := nestedIn_allContents elems (r := []) rfl
    rwa [List.append_nil, show (nestedIn []).2 = [] from rfl, List.append_nil] at h
  rw [contents_mk, List.append_assoc, nestedIn_entry, nestedIn_listBelow _ hr, hbelow,
    Section.tocEntry]

theorem nestedIn_allContents (elems : List Element) {r : List Markup}
    (hr : (nestedIn r).1 = []) :
    nestedIn (Element.allContents elems ++ r) =
      ([], Element.tocEntries elems ++ (nestedIn r).2) := by
  cases elems with
  | nil => exact Prod.ext hr rfl
  | cons e es =>
    have ih := nestedIn_allContents es hr
    rw [Element.allContents, List.append_assoc]
    cases e with
    | sub s =>
      rw [Element.contents, nestedIn_contents s (by rw [ih]), ih]
      rfl
    | _ => exact ih

end

/-! ## The table of contents of an article -/

variable (o : Options) {d : Document}

theorem nestedIn_sections (sections : List Section) :
    (nestedIn (sections.flatMap Section.contents ++ [line 10])).2 =
        sections.map Section.tocEntry ∧
      (nestedIn (sections.flatMap Section.contents ++ [line 10])).1 = [] := by
  induction sections with
  | nil => exact ⟨rfl, rfl⟩
  | cons s r ih =>
    rw [List.flatMap_cons, List.append_assoc, nestedIn_contents s ih.2, ih.1]
    exact ⟨rfl, rfl⟩

theorem nestedIn_tableBody (d : Document) :
    (nestedIn (tableBody d)).1 = d.sections.map Section.tocEntry := by
  rw [tableBody, nestedIn, nestedIn, line, nestedStep, nestedStep, if_neg (by decide), if_pos rfl]
  exact (nestedIn_sections d.sections).1

theorem listed_tableBody (d : Document) :
    listed (tableBody d) = d.allSections.map fun s => [s.link] := by
  have hlist : listed (tableBody d) = listed (d.sections.flatMap Section.contents) := by
    simp [tableBody, listed, hasTag, line]
  rw [hlist, Document.allSections]
  induction d.sections with
  | nil => rfl
  | cons s r ih =>
    rw [List.flatMap_cons, listed_append, listed_contents, ih, List.flatMap_cons, List.map_append]

/-- The table of contents lists all sections. -/
theorem entries_articleTrees (h : ∀ a ∈ d.authors, ∀ e ∈ a.elems, e.section? = none) :
    entries (articleTrees o d) = d.allSections.map fun s => [s.link] := by
  rw [entries, tables_articleTrees o h, tableTrees]
  split_ifs with hempty
  · rw [Document.allSections, List.isEmpty_iff.1 hempty]
    rfl
  · rw [List.flatMap_singleton]
    exact listed_tableBody d

/-- The lists of the table of contents are nested as the sections are. -/
theorem nestedEntries_articleTrees (h : ∀ a ∈ d.authors, ∀ e ∈ a.elems, e.section? = none) :
    nestedEntries (articleTrees o d) = d.sections.map Section.tocEntry := by
  rw [nestedEntries, tables_articleTrees o h, tableTrees]
  split_ifs with hempty
  · rw [List.isEmpty_iff.1 hempty]
    rfl
  · rw [List.flatMap_singleton]
    exact nestedIn_tableBody d

/-- The table of contents of a page matches the headings in its body: there is an entry and a
heading for each section of the document, they have the same titles and places in the same order,
and the lists of the table are nested as the sections are. -/
structure ContentsMatch (d : Document) (page : List Markup) : Prop where
  entries_count : (entries page).length = d.sectionCount
  headings_count : (headings page).length = d.sectionCount
  agree : entries page = (headings page).map fun heading => [('#' :: heading.1, heading.2)]
  titles : headings page = d.allSections.map fun s => (place s.number, s.title.toList)
  nested : nestedEntries page = d.sections.map Section.tocEntry

/-- Each entry leads to one heading only: no two headings have the same id, and the only element
on the page with the id of a heading is this heading. -/
structure LeadsToHeadings (page : List Markup) : Prop where
  distinct : ((headings page).map Prod.fst).Nodup
  unique : ∀ heading ∈ headings page, ∃ m,
    (allElements page).filter (·.hasAttribute "id" heading.1) = [m] ∧ m.heading? = some heading

theorem contentsMatch_articleTrees (h : ∀ a ∈ d.authors, ∀ e ∈ a.elems, e.section? = none) :
    ContentsMatch d (allAtoms (articleTrees o d)) := by
  have hentries : entries (allAtoms (articleTrees o d)) = d.allSections.map fun s => [s.link] := by
    rw [entries_allAtoms, entries_articleTrees o h]
  have hheadings : headings (allAtoms (articleTrees o d)) =
      d.allSections.map fun s => (place s.number, s.title.toList) := by
    rw [headings_allAtoms, headings_articleTrees o h]
  constructor
  · rw [hentries, List.length_map, d.length_allSections]
  · rw [hheadings, List.length_map, d.length_allSections]
  · rw [hentries, hheadings, List.map_map]
    rfl
  · exact hheadings
  · rw [nestedEntries_allAtoms, nestedEntries_articleTrees o h]

theorem leadsToHeadings_articleTrees (h : ∀ a ∈ d.authors, ∀ e ∈ a.elems, e.section? = none)
    (hnumbers : (d.allSections.map Section.number).Nodup) :
    LeadsToHeadings (allAtoms (articleTrees o d)) := by
  constructor
  · rw [headings_allAtoms, headings_articleTrees o h, List.map_map]
    exact nodup_places hnumbers
  · intro heading hheading
    rw [headings_allAtoms, headings_eq] at hheading
    obtain ⟨m, hm, hread⟩ := List.mem_filterMap.1 hheading
    have hid : m.attribute? "id" = some heading.1 := by
      rw [heading?] at hread
      split_ifs at hread
      obtain ⟨id, hid, rfl⟩ := Option.map_eq_some_iff.1 hread
      exact hid
    have hfilter : (identified (articleTrees o d)).filter (·.hasAttribute "id" heading.1) = [m] := by
      have := filter_eq_singleton (nodup_ids o h hnumbers) hm
      rw [hid] at this
      exact this
    refine ⟨m.atomized, ?_, ?_⟩
    · have hatomized : ((·.hasAttribute "id" heading.1) ∘ atomized) =
          (·.hasAttribute "id" heading.1) := funext fun m => hasAttribute_atomized "id" heading.1 m
      rw [allElements_allAtoms, List.filter_map, hatomized, filter_hasAttribute_id, hfilter]
      rfl
    · rw [heading?_atomized, hread]

namespace Theme

/-- The table of contents of an article matches its body: a document without markup of its author's
and without sections in what is said about authors has a page, unless its sections are nested too
deeply, on which the table lists the headings of all sections, nested as they are. If the document
is read, the places of its sections are different, and each entry leads to its own heading only. -/
theorem page_contents (d : Document) (o : Options) :
    ∃ t, bundled = .ok t ∧
      (d.NoHtml → (∀ a ∈ d.authors, ∀ e ∈ a.elems, e.section? = none) → d.NestedWithin deepest →
        ∃ html page, t.page .article d o = .ok html ∧ readPage html = some page ∧
          ContentsMatch d page) ∧
      (∀ files name mode text, Source.read files name mode text = .ok d →
        (d.allSections.map fun s => place s.number).Nodup ∧
        (d.NoHtml → d.NestedWithin deepest →
          ∃ html page, t.page .article d o = .ok html ∧ readPage html = some page ∧
            ContentsMatch d page ∧ LeadsToHeadings page)) ∧
      (¬ d.NestedWithin deepest → t.page .article d o = .error (.render .tooDeep)) := by
  have hpage : d.NoHtml → d.NestedWithin deepest → ∃ html,
      ofBundled.page .article d o = .ok html ∧
        readPage html = some (allAtoms (articleTrees o d)) := by
    intro hhtml hnested
    refine ⟨doctype ++ printAll (d.trees o .article), ?_, ?_⟩
    · rw [page_ofBundled, if_pos hnested]
    · exact readPage_printAll (d.trees_proper o .article hhtml)
  refine ⟨ofBundled, bundled_eq, fun hhtml hauthors hnested => ?_,
    fun files name mode text hread => ⟨?_, fun hhtml hnested => ?_⟩, fun hnested => ?_⟩
  · obtain ⟨html, hhtml, hreadPage⟩ := hpage hhtml hnested
    exact ⟨html, _, hhtml, hreadPage, contentsMatch_articleTrees o hauthors⟩
  · exact nodup_places (Source.nodup_numbers_of_read hread)
  · obtain ⟨html, hhtml, hreadPage⟩ := hpage hhtml hnested
    have hauthors := Source.read_authors hread
    exact ⟨html, _, hhtml, hreadPage, contentsMatch_articleTrees o hauthors,
      leadsToHeadings_articleTrees o hauthors (Source.nodup_numbers_of_read hread)⟩
  · rw [page_ofBundled, if_neg hnested]

/-- A source with sections of the same title at two depths. -/
def nestedTalk : String := "Talk & <b>\n\nAnn\n\n* Part <1>\n** Part <1>\nText\n\n* End\n"

/-- The document that the source is read as. -/
def nestedDocument : Document where
  title := "Talk & <b>"
  authors := [⟨[.paragraph ["Ann"]]⟩]
  sections :=
    [⟨[1], "Part <1>", [.sub ⟨[1, 1], "Part <1>", [.paragraph ["Text"]], [], [], []⟩], [], [], []⟩,
      ⟨[2], "End", [], [], [], []⟩]

theorem read_nestedTalk :
    Source.read (fun _ => .error .notFound) (Path.ofString "talk.slide") .full nestedTalk =
      .ok nestedDocument := by
  cbv

theorem page_contents_nestedTalk :
    ∃ t html page, bundled = .ok t ∧ t.page .article nestedDocument {} = .ok html ∧
      readPage html = some page ∧ ContentsMatch nestedDocument page ∧ LeadsToHeadings page ∧
      headings page = [("TOC_1".toList, "Part <1>".toList), ("TOC_1.1".toList, "Part <1>".toList),
        ("TOC_2".toList, "End".toList)] := by
  have hhtml : nestedDocument.NoHtml :=
    ⟨List.forall_mem_cons.2 ⟨⟨⟨trivial, trivial⟩, trivial⟩, List.forall_mem_singleton.2 trivial⟩,
      List.forall_mem_singleton.2 ⟨trivial, trivial⟩⟩
  have hauthors : ∀ a ∈ nestedDocument.authors, ∀ e ∈ a.elems, e.section? = none :=
    List.forall_mem_singleton.2 (List.forall_mem_singleton.2 rfl)
  have hnested : nestedDocument.NestedWithin deepest := by decide
  obtain ⟨t, ht, hcontents, hread, -⟩ := page_contents nestedDocument {}
  obtain ⟨html, page, hpage, hreadPage, hmatch⟩ := hcontents hhtml hauthors hnested
  obtain ⟨-, hleads⟩ := hread _ _ _ _ read_nestedTalk
  obtain ⟨html', page', hpage', hreadPage', -, hleads⟩ := hleads hhtml hnested
  obtain rfl : html = html' := Except.ok.inj (hpage.symm.trans hpage')
  obtain rfl : page = page' := Option.some.inj (hreadPage.symm.trans hreadPage')
  refine ⟨t, html, page, ht, hpage, hreadPage, hmatch, hleads, ?_⟩
  rw [hmatch.titles]
  rfl

end Theme

end Lectern
