import Lectern.Proofs.Path
import Lectern.Proofs.Source.Authors
import Lectern.Proofs.Source.HeaderLines
import Lectern.Proofs.Source.Steps

/-!
# Documents that are read are well formed

Whatever a source is made of, no part of its document is empty or carries blanks that do not belong
there (`read_wellFormed`). A line keeps the open block well formed and adds only well-formed items
(`ReadsLine.wellFormed`); the outline puts these into sections, and numbers do not touch them.
-/

namespace Lectern

open Text

/-! ## Well-formed parts -/

/-- A preformatted text: it starts and ends with characters that are not blank, and has no tabs. -/
structure IsPreformatted (s : List Char) : Prop where
  starts : ∃ c ∈ s.head?, isBlank c = false
  ends : ∃ c ∈ s.getLast?, isBlank c = false
  no_tab : '\t' ∉ s

/-- An element as the body of a section has it. -/
def Element.WellFormed : Element → Prop
  | .text lines false => lines ≠ [] ∧ ∀ l ∈ lines, isBlankLine l.toList = false
  | .text lines true => ∃ s, lines = [s] ∧ IsPreformatted s.toList
  | .list bullets => bullets ≠ []
  | .image url _ _ | .iframe url _ _ | .link url _ => IsWord url.toList
  | .sub _ | .code _ | .caption _ | .html _ => True

/-- A section without those below it, as it is read. -/
structure Section.WellFormed (s : Section) : Prop where
  elems : ∀ e ∈ s.elems, e.WellFormed
  styles : s.classes.length = s.styles.length

/-- A tag: it is not empty, trimmed, and has no commas. -/
structure IsTag (s : List Char) : Prop where
  ne_nil : s ≠ []
  trimmed : trim s = s
  no_comma : ',' ∉ s

/-- Is the element a paragraph or a link? -/
def Element.isTextOrLink : Element → Bool
  | .text _ false | .link _ _ => true
  | _ => false

/-- A document as it is read. -/
structure Document.WellFormed (d : Document) : Prop where
  sections : ∀ s ∈ d.allSections, s.WellFormed
  tags : ∀ t ∈ d.tags, IsTag t.toList
  authors : ∀ a ∈ d.authors, a.elems ≠ [] ∧ ∀ e ∈ a.elems, e.isTextOrLink = true

/-- The element is well formed, and so are all sections in it. -/
def Element.AllWellFormed (e : Element) : Prop :=
  e.WellFormed ∧ ∀ s ∈ Element.allSections [e], s.WellFormed

theorem Element.WellFormed.all {e : Element} (h : e.WellFormed) (he : e.section? = none) :
    e.AllWellFormed :=
  ⟨h, by rw [allSections_cons_of_section?_eq_none he]; exact fun s hs => absurd hs List.not_mem_nil⟩

theorem mem_allSections {es : List Element} {s : Section} :
    s ∈ Element.allSections es ↔ ∃ e ∈ es, s ∈ Element.allSections [e] := by
  simp only [allSections_eq_flatMap, List.mem_flatMap, List.mem_filterMap, List.mem_singleton]
  constructor
  · rintro ⟨t, ⟨e, he, ht⟩, hs⟩
    exact ⟨e, he, t, ⟨e, rfl, ht⟩, hs⟩
  · rintro ⟨e, he, t, ⟨_, rfl, ht⟩, hs⟩
    exact ⟨t, ⟨_, he, ht⟩, hs⟩

namespace Source

variable {files : Files} {base : Path}

/-! ## Well-formed blocks and states -/

/-- A block that adds a well-formed element, or none. -/
def Block.AllWellFormed (b : Block) : Prop := ∀ e, b = .elem e → e.AllWellFormed

/-- An item that adds a well-formed element, or none. -/
def Item.AllWellFormed (i : Item) : Prop := ∀ d b, i = .block d b → b.AllWellFormed

/-- The lines of an open block can make up an element: a paragraph has no blank line, a list has a
bullet, and a preformatted block starts with a line that starts with no blank. -/
def OpenBlock.WellFormed : OpenBlock → Prop
  | .none => True
  | .paragraph lines => lines ≠ [] ∧ ∀ l ∈ lines, isBlankLine l = false
  | .list bullets => bullets ≠ []
  | .preformatted _ lines => ∃ c r more, lines = (c :: r) :: more ∧ isBlank c = false

theorem Block.AllWellFormed.of_wellFormed {e : Element} (h : e.WellFormed)
    (he : e.section? = none) : Block.AllWellFormed (.elem e) := by
  rintro _ ⟨⟩
  exact h.all he

theorem Item.AllWellFormed.block {b : Block} (h : b.AllWellFormed) (d : Nat) :
    Item.AllWellFormed (.block d b) := by
  rintro _ _ ⟨⟩
  exact h

/-! ## Closing a block -/

theorem intercalate_cons_left (s : List Char) (c : Char) (r : List Char) (l : List (List Char)) :
    List.intercalate s ((c :: r) :: l) = c :: List.intercalate s (r :: l) := by
  cases l with
  | nil => simp
  | cons t l => simp [List.intercalate_cons_cons]

theorem isPreformatted_preformattedText {c : Char} (hc : isBlank c = false) (r : List Char)
    (more : List (List Char)) : IsPreformatted (preformattedText ((c :: r) :: more)) := by
  have htab : c ≠ '\t' := by
    rintro rfl
    cases hc
  have htext : preformattedText ((c :: r) :: more) =
      c :: trimEnd (expandTabs (List.intercalate ['\n'] (r :: more))) := by
    rw [preformattedText, intercalate_cons_left, expandTabs_cons htab, trimEnd_cons hc]
  have hlast := isBlank_getLast?_trimEnd (expandTabs (List.intercalate ['\n'] ((c :: r) :: more)))
  rw [← preformattedText, htext] at hlast
  refine ⟨⟨c, by rw [htext]; rfl, hc⟩, ?_, fun h => ?_⟩
  · rw [htext]
    have hd := List.getLast?_eq_some_getLast (List.cons_ne_nil c
      (trimEnd (expandTabs (List.intercalate ['\n'] (r :: more)))))
    exact ⟨_, hd, hlast _ hd⟩
  · exact tab_not_mem_expandTabs _ (mem_of_mem_trimEnd h)

theorem OpenBlock.WellFormed.close {o : OpenBlock} (h : o.WellFormed) :
    ∀ b ∈ o.close, b.AllWellFormed := by
  cases o with
  | none => simp [OpenBlock.close]
  | paragraph lines =>
    obtain ⟨hne, hlines⟩ := h
    refine List.forall_mem_singleton.2 (.of_wellFormed ⟨by simpa using hne, fun l hl => ?_⟩ rfl)
    obtain ⟨t, ht, rfl⟩ := List.mem_map.1 hl
    rw [String.toList_ofList]
    exact hlines t ht
  | list bullets =>
    have hne : bullets ≠ [] := h
    exact List.forall_mem_singleton.2 (.of_wellFormed (by simpa [Element.WellFormed] using hne) rfl)
  | preformatted indent lines =>
    obtain ⟨c, r, more, rfl, hc⟩ := h
    refine List.forall_mem_singleton.2 (.of_wellFormed ⟨_, rfl, ?_⟩ rfl)
    rw [String.toList_ofList]
    exact isPreformatted_preformattedText hc r more

theorem wellFormed_of_mem_pending {st : State} (h : st.opened.WellFormed) :
    ∀ i ∈ st.pending, i.AllWellFormed := by
  intro i hi
  obtain ⟨b, hb, rfl⟩ := List.mem_map.1 hi
  exact .block (h.close b hb) st.depth

/-! ## Reading a line -/

theorem isWord_of_readBox {args : List (List Char)} {url : String} {width height : Option Nat}
    (hargs : ∀ a ∈ args, IsWord a) (h : readBox args = some (url, width, height)) :
    IsWord url.toList := by
  obtain ⟨u, r, rfl⟩ : ∃ u r, args = u :: r := by
    cases args with
    | nil => cases h
    | cons u r => exact ⟨u, r, rfl⟩
  obtain rfl : String.ofList u = url := by
    unfold readBox at h
    split at h
    · rename_i heq
      obtain ⟨rfl, -⟩ := List.cons.inj heq
      exact (Prod.mk.inj (Option.some.inj h)).1
    · rename_i heq
      obtain ⟨rfl, -⟩ := List.cons.inj heq
      simp only [Option.bind_eq_bind, Option.bind_eq_some_iff] at h
      obtain ⟨_, -, _, -, h⟩ := h
      exact (Prod.mk.inj (Option.some.inj h)).1
    · cases h
  rw [String.toList_ofList]
  exact hargs u (List.mem_cons_self ..)

theorem readCommand_wellFormed {text : List Char} {b : Block}
    (h : readCommand files base text = .ok b) : b.AllWellFormed := by
  have hargs : ∀ a ∈ (fields text).tail, IsWord a := fun a ha =>
    isWord_of_mem_fields text a (List.mem_of_mem_tail ha)
  cases readCommand_cases h with
  | background _ _ => exact fun e he => Block.noConfusion he
  | excerpt _ _ | caption _ | html _ _ _ => exact .of_wellFormed trivial rfl
  | image _ hbox | iframe _ hbox => exact .of_wellFormed (isWord_of_readBox hargs hbox) rfl
  | @link url r _ htail =>
    have hurl : IsWord (String.ofList url).toList := by
      rw [String.toList_ofList]
      exact hargs url (htail ▸ List.mem_cons_self ..)
    exact .of_wellFormed hurl rfl

theorem isBlankLine_paragraphLine {text : List Char} (h : isBlankLine text = false) :
    isBlankLine (paragraphLine text) = false := by
  unfold paragraphLine
  split
  · rfl
  · exact h

theorem OpenBlock.Extends.wellFormed {text : List Char} {o o' : OpenBlock} (h : o.Extends text o')
    (ho : o.WellFormed) : o'.WellFormed := by
  cases h with
  | paragraph hblank hdot =>
    exact ⟨by simp, List.forall_mem_append.2
      ⟨ho.2, List.forall_mem_singleton.2 (isBlankLine_paragraphLine hblank)⟩⟩
  | list htext => exact List.append_ne_nil_of_right_ne_nil _ (List.cons_ne_nil _ _)
  | empty htext =>
    obtain ⟨c, r, more, rfl, hc⟩ := ho
    exact ⟨c, r, more ++ [[]], rfl, hc⟩
  | @preformatted _ rest _ hne htext =>
    obtain ⟨c, r, more, rfl, hc⟩ := ho
    exact ⟨c, r, more ++ [rest], rfl, hc⟩

theorem BeginsBlock.wellFormed {d : Nat} {text : List Char} {items : List Item} {o : OpenBlock}
    (h : BeginsBlock files base d text items o) : o.WellFormed ∧ ∀ i ∈ items, i.AllWellFormed := by
  cases h with
  | blank h => exact ⟨trivial, by simp⟩
  | preformatted hne hindent hc => exact ⟨⟨_, _, [], rfl, hc⟩, by simp⟩
  | list bullet => exact ⟨List.cons_ne_nil _ _, by simp⟩
  | note note =>
    refine ⟨trivial, List.forall_mem_singleton.2 (.block ?_ d)⟩
    exact fun e he => Block.noConfusion he
  | command hdot h =>
    exact ⟨trivial, List.forall_mem_singleton.2 (.block (readCommand_wellFormed h) d)⟩
  | @paragraph c r hc hdot hlist hnote =>
    refine ⟨⟨List.cons_ne_nil _ _, List.forall_mem_singleton.2 ?_⟩, by simp⟩
    exact isBlankLine_paragraphLine (by simp [hc])

/-- A line keeps the open block well formed, and adds only well-formed items. -/
theorem ReadsLine.wellFormed {st st' : State} {text : List Char} {items : List Item}
    (hst : st.opened.WellFormed) (h : ReadsLine files base st text items st') :
    st'.opened.WellFormed ∧ ∀ i ∈ items, i.AllWellFormed := by
  cases h with
  | goesOn h => exact ⟨h.wellFormed hst, by simp⟩
  | ends hopened h => exact ⟨trivial, wellFormed_of_mem_pending hst⟩
  | begins h =>
    have hpending := wellFormed_of_mem_pending hst
    cases h with
    | empty => exact ⟨trivial, by simpa using hpending⟩
    | heading hn hdepth title =>
      refine ⟨trivial, List.forall_mem_append.2 ⟨hpending, List.forall_mem_singleton.2 ?_⟩⟩
      exact fun d b hi => Item.noConfusion hi
    | block hne he hdepth h =>
      obtain ⟨ho, hitems⟩ := h.wellFormed
      exact ⟨ho, List.forall_mem_append.2 ⟨hpending, hitems⟩⟩

/-! ## The outline -/

theorem length_classes_sectionOf (title : List Char) (blocks : List Block) :
    (sectionOf title blocks).classes.length = (sectionOf title blocks).styles.length := by
  simp only [sectionOf]
  induction blocks with
  | nil => rfl
  | cons b r ih =>
    cases b with
    | background url => simpa using ih
    | _ => exact ih

theorem wellFormed_of_mem_elems_sectionOf {blocks : List Block} (h : ∀ b ∈ blocks, b.AllWellFormed)
    (title : List Char) : ∀ e ∈ (sectionOf title blocks).elems, e.AllWellFormed := by
  intro e he
  obtain ⟨b, hb, hbe⟩ := List.mem_filterMap.1 he
  cases b with
  | elem e' =>
    obtain rfl := Option.some.inj hbe
    exact h _ hb _ rfl
  | _ => cases hbe

/-- A section of well-formed blocks is well formed, and so are all below it. -/
theorem sectionOf_wellFormed {blocks : List Block} (h : ∀ b ∈ blocks, b.AllWellFormed)
    (title : List Char) : (Element.sub (sectionOf title blocks)).AllWellFormed := by
  have helems := wellFormed_of_mem_elems_sectionOf h title
  refine ⟨trivial, fun s hs => ?_⟩
  rw [allSections_cons_sub, withBelow_eq] at hs
  rcases List.mem_cons.1 (by simpa [Element.allSections] using hs) with rfl | hs
  · exact ⟨fun e he => (helems e he).1, length_classes_sectionOf title blocks⟩
  · obtain ⟨e, he, hs⟩ := mem_allSections.1 hs
    exact (helems e he).2 s hs

theorem gathered_wellFormed {items : List Item} (h : ∀ i ∈ items, i.AllWellFormed) :
    ∀ x ∈ gathered items, x.2.AllWellFormed := by
  induction items with
  | nil => simp
  | cons i r ih =>
    obtain ⟨hi, hr⟩ := List.forall_mem_cons.1 h
    have ih := ih hr
    cases i with
    | block d b =>
      rw [gathered_cons_block]
      exact List.forall_mem_cons.2 ⟨hi d b rfl, ih⟩
    | heading n title =>
      rw [gathered_cons_heading]
      refine List.forall_mem_cons.2 ⟨?_, fun x hx => ih x ((List.dropWhile_sublist _).subset hx)⟩
      rintro _ ⟨⟩
      refine sectionOf_wellFormed (fun b hb => ?_) title
      obtain ⟨x, hx, rfl⟩ := List.mem_map.1 hb
      exact ih x ((List.takeWhile_sublist _).subset hx)

mutual

/-- Numbering leaves sections well formed. -/
theorem wellFormed_renumber (number : List Nat) : ∀ s : Section,
    (∀ t ∈ s.withBelow, t.WellFormed) → ∀ t ∈ (renumber number s).withBelow, t.WellFormed
  | ⟨own, title, elems, notes, classes, styles⟩ => by
    intro h t ht
    rw [withBelow_eq] at h
    obtain ⟨hs, hbelow⟩ := List.forall_mem_cons.1 h
    obtain ⟨helems, hsections⟩ := wellFormed_renumberFrom number 1 elems hs.elems hbelow
    rw [renumber, withBelow_eq] at ht
    rcases List.mem_cons.1 ht with rfl | ht
    · exact ⟨helems, hs.styles⟩
    · exact hsections t ht

theorem wellFormed_renumberFrom (parent : List Nat) (next : Nat) (es : List Element) :
    (∀ e ∈ es, e.WellFormed) → (∀ t ∈ Element.allSections es, t.WellFormed) →
      (∀ e ∈ renumberFrom parent next es, e.WellFormed) ∧
        ∀ t ∈ Element.allSections (renumberFrom parent next es), t.WellFormed := by
  intro hes hsections
  cases es with
  | nil => exact ⟨hes, hsections⟩
  | cons e r =>
    obtain ⟨he, hr⟩ := List.forall_mem_cons.1 hes
    cases e with
    | sub s =>
      rw [allSections_cons_sub] at hsections
      obtain ⟨hs, hbelow⟩ := List.forall_mem_append.1 hsections
      obtain ⟨helems, hrest⟩ := wellFormed_renumberFrom parent (next + 1) r hr hbelow
      rw [renumberFrom, allSections_cons_sub]
      exact ⟨List.forall_mem_cons.2 ⟨trivial, helems⟩,
        List.forall_mem_append.2 ⟨wellFormed_renumber (parent ++ [next]) s hs, hrest⟩⟩
    | _ =>
      rw [allSections_cons_of_section?_eq_none rfl] at hsections
      obtain ⟨helems, hrest⟩ := wellFormed_renumberFrom parent next r hr hsections
      rw [renumberFrom_cons_of_section?_eq_none rfl, allSections_cons_of_section?_eq_none rfl]
      exact ⟨List.forall_mem_cons.2 ⟨he, helems⟩, hrest⟩

end

theorem outline_wellFormed {items : List Item} (h : ∀ i ∈ items, i.AllWellFormed) :
    ∀ s ∈ (outline items).flatMap Section.withBelow, s.WellFormed := by
  have helems : ∀ e ∈ topElements items, e.AllWellFormed := by
    refine wellFormed_of_mem_elems_sectionOf (fun b hb => ?_) []
    obtain ⟨x, hx, rfl⟩ := List.mem_map.1 hb
    exact gathered_wellFormed h x hx
  rw [outline_eq, ← allSections_eq_flatMap]
  refine (wellFormed_renumberFrom [] 1 _ (fun e he => (helems e he).1) fun s hs => ?_).2
  obtain ⟨e, he, hs⟩ := mem_allSections.1 hs
  exact (helems e he).2 s hs

/-! ## Tags -/

theorem isTag_of_mem_tagsOf {s : List Char} : ∀ t ∈ tagsOf s, IsTag t.toList := by
  intro t ht
  obtain ⟨u, hu, rfl⟩ := List.mem_map.1 ht
  obtain ⟨hu, hne⟩ := List.mem_filter.1 hu
  obtain ⟨v, hv, rfl⟩ := List.mem_map.1 hu
  rw [String.toList_ofList]
  exact ⟨by simpa using hne, trim_trim v,
    fun hcomma => Path.not_mem_of_mem_splitOn s v hv (mem_of_mem_trim hcomma)⟩

/-! ## Documents -/

theorem isTextOrLink_authorElement (text : List Char) :
    (authorElement text).isTextOrLink = true := by
  unfold authorElement
  simp only
  split
  · rfl
  · split_ifs <;> rfl

theorem wellFormed_of_read {name : Path} {text : String} {d : Document}
    (h : read files name .full text = .ok d) : d.WellFormed where
  sections := by
    obtain ⟨items, hitems, hsections⟩ := read_full_eq_ok h
    rw [Document.allSections, hsections]
    have hstart : (OpenBlock.none).WellFormed := trivial
    exact outline_wellFormed (forall_items_of_readItems (fun st => st.opened.WellFormed)
      (fun hst hline => hline.wellFormed hst) wellFormed_of_mem_pending hstart hitems)
  tags := by
    obtain ⟨o, behind, hlines⟩ := exists_opening_of_read h
    have htags : d.tags = (linesOf .tags o.fields).flatMap
        fun t => tagsOf (behindLabel "Tags:" t) := congrArg Document.tags (read_header h hlines)
    intro t ht
    rw [htags] at ht
    obtain ⟨_, -, ht⟩ := List.mem_flatMap.1 ht
    exact isTag_of_mem_tagsOf t ht
  authors := by
    obtain ⟨o, behind, hlines⟩ := exists_opening_of_read h
    intro a ha
    rw [read_authors_eq h hlines] at ha
    obtain ⟨run, hrun, rfl⟩ := List.mem_map.1 ha
    refine ⟨fun hnil => ?_, fun e he => ?_⟩
    · rw [authorOfTexts, List.map_eq_nil_iff] at hnil
      exact nil_not_mem_runs _ (hnil ▸ hrun)
    · obtain ⟨t, -, rfl⟩ := List.mem_map.1 he
      exact isTextOrLink_authorElement t

/-- A document that is read is well formed. Its source has an opening, and the lines behind that, up
to the first star and without comments and notes, tell the authors: each run of lines between empty
ones is an author, and each line that is not empty one element. -/
theorem read_wellFormed {name : Path} {text : String} {d : Document}
    (h : read files name .full text = .ok d) :
    d.WellFormed ∧
    (∃ (o : Opening) (behind : List (List Char)), lines text.toList = o.lines ++ behind) ∧
    ∀ (o : Opening) (behind : List (List Char)), lines text.toList = o.lines ++ behind →
      d.authors = (runs (authorTexts behind)).map authorOfTexts ∧
      d.authors.flatMap Author.elems =
        ((authorTexts behind).filter (· ≠ [])).map authorElement := by
  refine ⟨wellFormed_of_read h, exists_opening_of_read h, fun o behind hlines => ?_⟩
  have hauthors := read_authors_eq h hlines
  refine ⟨hauthors, ?_⟩
  rw [hauthors, List.flatMap_map, ← flatten_runs, List.map_flatten]
  rfl

/-- A source with two authors, between which there are a note, a comment and empty lines. -/
def gopherTalk : String :=
  "Gophers\nTags: a, ,b \n\nGopher\n: hush\n@gopher\n# draft\n\n\nx@y.z\n* One\n" ++
    ".background p.png\n\\.text\n\n \tcode\t\n- a\n** Two\n.link http://x.y\n"

/-- The opening of the source. -/
def gopherOpening : Opening :=
  .ofTitle "Gophers".toList ["Tags: a, ,b ".toList] (by decide) (by decide)

/-- The lines behind the opening. -/
def gopherLines : List (List Char) :=
  ["Gopher".toList, ": hush".toList, "@gopher".toList, "# draft".toList, [], [], "x@y.z".toList,
    "* One".toList, ".background p.png".toList, "\\.text".toList, [], " \tcode\t".toList,
    "- a".toList, "** Two".toList, ".link http://x.y".toList]

theorem read_wellFormed_gopherTalk :
    ∃ d, read (fun _ => .error .notFound) (.ofString "talk.slide") .full gopherTalk = .ok d ∧
      d.WellFormed ∧ d.authors =
        [⟨[.paragraph ["Gopher"], .link "https://twitter.com/gopher" "@gopher"]⟩,
         ⟨[.link "mailto:x@y.z" "x@y.z"]⟩] := by
  have hread : read (fun _ => .error .notFound) (.ofString "talk.slide") .full gopherTalk =
      .ok { title := "Gophers", tags := ["a", "b"]
            authors := [⟨[.paragraph ["Gopher"], .link "https://twitter.com/gopher" "@gopher"]⟩,
              ⟨[.link "mailto:x@y.z" "x@y.z"]⟩]
            sections := [⟨[1], "One", [.paragraph [".text"], .preformatted "code", .list ["a"],
              .sub ⟨[1, 1], "Two", [.link "http://x.y" "x.y"], [], [], []⟩],
              [], ["background"], ["background-image: url('p.png')"]⟩] } := by cbv
  obtain ⟨hwellFormed, -, hauthors⟩ := read_wellFormed hread
  refine ⟨_, hread, hwellFormed, ?_⟩
  have hlines : lines gopherTalk.toList = gopherOpening.lines ++ gopherLines := by decide +kernel
  have hruns : runs (authorTexts gopherLines) =
      [["Gopher".toList, "@gopher".toList], ["x@y.z".toList]] := by decide +kernel
  rw [(hauthors gopherOpening gopherLines hlines).1, hruns]
  rfl

end Source

end Lectern
