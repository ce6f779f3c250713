import Lectern.Proofs.Source.Coverage
import Lectern.Proofs.Source.Scanning

/-!
# Sources one behind the other

Slides do not depend on each other: behind a source and an empty line, lines that start with a
heading are read as they are alone, and only the numbers of their sections are raised
(`readLines_behind`). The outline of items has the law that belongs to it (`outline_append`).
-/

namespace Lectern

/-! ## Raised numbers -/

/-- The number of a section that lies behind `n` more sections of the document. -/
def raise (n : Nat) : List Nat → List Nat
  | [] => []
  | k :: r => (k + n) :: r

mutual

/-- The section behind `n` more sections of the document, with those below it. -/
def Section.raised (n : Nat) : Section → Section
  | ⟨number, title, elems, notes, classes, styles⟩ =>
      ⟨raise n number, title, Element.allRaised n elems, notes, classes, styles⟩

/-- The elements with the sections among them behind `n` more sections of the document. -/
def Element.allRaised (n : Nat) : List Element → List Element
  | [] => []
  | .sub s :: r => .sub (s.raised n) :: Element.allRaised n r
  | e :: r => e :: Element.allRaised n r

end

theorem allRaised_cons_of_section?_eq_none {e : Element} (h : e.section? = none) (n : Nat)
    (r : List Element) : Element.allRaised n (e :: r) = e :: Element.allRaised n r := by
  cases e with
  | sub s => cases h
  | _ => rw [Element.allRaised]; exact fun s e => Element.noConfusion e

theorem filterMap_section?_cons_sub (s : Section) (r : List Element) :
    (Element.sub s :: r).filterMap Element.section? = s :: r.filterMap Element.section? := rfl

theorem filterMap_section?_allRaised (n : Nat) (es : List Element) :
    (Element.allRaised n es).filterMap Element.section? =
      (es.filterMap Element.section?).map (Section.raised n) := by
  induction es with
  | nil => rfl
  | cons e r ih =>
    cases h : e.section? with
    | none =>
      rw [allRaised_cons_of_section?_eq_none h, List.filterMap_cons_none h,
        List.filterMap_cons_none h, ih]
    | some s =>
      cases e <;> cases h
      rw [Element.allRaised, filterMap_section?_cons_sub, filterMap_section?_cons_sub,
        List.map_cons, ih]

namespace Source

theorem renumberFrom_cons_of_section?_eq_none {e : Element} (h : e.section? = none)
    (parent : List Nat) (next : Nat) (r : List Element) :
    renumberFrom parent next (e :: r) = e :: renumberFrom parent next r := by
  cases e with
  | sub s => cases h
  | _ => rw [renumberFrom]

theorem renumberFrom_of_section?_eq_none {es : List Element} (h : ∀ e ∈ es, e.section? = none)
    (parent : List Nat) (next : Nat) : renumberFrom parent next es = es := by
  induction es with
  | nil => rfl
  | cons e r ih =>
    rw [renumberFrom_cons_of_section?_eq_none (h e (List.mem_cons_self ..)),
      ih fun e' he => h e' (List.mem_cons_of_mem e he)]

theorem raise_append {n : Nat} {parent : List Nat} (h : parent ≠ []) (r : List Nat) :
    raise n (parent ++ r) = raise n parent ++ r := by
  cases parent with
  | nil => exact absurd rfl h
  | cons k p => rfl

mutual

theorem raised_renumber (n : Nat) {number : List Nat} (h : number ≠ []) (s : Section) :
    (renumber number s).raised n = renumber (raise n number) s := by
  obtain ⟨number', title, elems, notes, classes, styles⟩ := s
  rw [renumber, renumber, Section.raised, allRaised_renumberFrom n h]

theorem allRaised_renumberFrom (n : Nat) {parent : List Nat} (h : parent ≠ []) (next : Nat)
    (es : List Element) :
    Element.allRaised n (renumberFrom parent next es) =
      renumberFrom (raise n parent) next es := by
  cases es with
  | nil => rfl
  | cons e r =>
    cases e with
    | sub s =>
      rw [renumberFrom, renumberFrom, Element.allRaised, allRaised_renumberFrom n h,
        raised_renumber n (List.append_ne_nil_of_left_ne_nil h _), raise_append h]
    | _ =>
      rw [renumberFrom_cons_of_section?_eq_none rfl, renumberFrom_cons_of_section?_eq_none rfl,
        allRaised_cons_of_section?_eq_none rfl, allRaised_renumberFrom n h]

end

/-- Sections of the document are raised by counting them from a later number. -/
theorem renumberFrom_add (n next : Nat) (es : List Element) :
    renumberFrom [] (next + n) es = Element.allRaised n (renumberFrom [] next es) := by
  induction es generalizing next with
  | nil => rfl
  | cons e r ih =>
    cases e with
    | sub s =>
      rw [renumberFrom, renumberFrom, Element.allRaised, List.nil_append, List.nil_append,
        raised_renumber n (List.cons_ne_nil next []), ← ih, Nat.add_right_comm]
      rfl
    | _ =>
      rw [renumberFrom_cons_of_section?_eq_none rfl, renumberFrom_cons_of_section?_eq_none rfl,
        allRaised_cons_of_section?_eq_none rfl, ih]

theorem renumberFrom_append (parent : List Nat) (next : Nat) (es fs : List Element) :
    renumberFrom parent next (es ++ fs) =
      renumberFrom parent next es ++
        renumberFrom parent (next + (es.filterMap Element.section?).length) fs := by
  induction es generalizing next with
  | nil => rfl
  | cons e r ih =>
    cases e with
    | sub s =>
      rw [List.cons_append, renumberFrom, renumberFrom, ih, filterMap_section?_cons_sub,
        List.length_cons, Nat.add_assoc, Nat.add_comm 1]
      rfl
    | _ =>
      rw [List.cons_append, renumberFrom_cons_of_section?_eq_none rfl,
        renumberFrom_cons_of_section?_eq_none rfl, ih, List.filterMap_cons_none rfl]
      rfl

theorem length_filterMap_renumberFrom (parent : List Nat) (next : Nat) (es : List Element) :
    ((renumberFrom parent next es).filterMap Element.section?).length =
      (es.filterMap Element.section?).length := by
  induction es generalizing next with
  | nil => rfl
  | cons e r ih =>
    cases e with
    | sub s =>
      rw [renumberFrom, filterMap_section?_cons_sub, filterMap_section?_cons_sub,
        List.length_cons, List.length_cons, ih]
    | _ =>
      rw [renumberFrom_cons_of_section?_eq_none rfl, List.filterMap_cons_none rfl,
        List.filterMap_cons_none rfl, ih]

/-! ## The outline of items one behind the other -/

theorem takeWhile_append_of_neg {α : Type} {p : α → Bool} {m : List α} (h : ∀ x ∈ m, ¬ p x)
    (l : List α) :
    (l ++ m).takeWhile p = l.takeWhile p ∧ (l ++ m).dropWhile p = l.dropWhile p ++ m := by
  induction l with
  | nil =>
    cases m with
    | nil => exact ⟨rfl, rfl⟩
    | cons x r =>
      have hx : ¬ p x := h x (List.mem_cons_self ..)
      exact ⟨List.takeWhile_cons_of_neg hx, List.dropWhile_cons_of_neg hx⟩
  | cons a l ih =>
    rw [List.cons_append, List.takeWhile_cons, List.takeWhile_cons, List.dropWhile_cons,
      List.dropWhile_cons, ih.1, ih.2]
    split_ifs <;> exact ⟨rfl, rfl⟩

/-- What is gathered outside of all sections does not change what is gathered in front of it. -/
theorem gathered_append {items : List Item} {d : Nat} (h : Follows d items) {behind : List Item}
    (hbehind : ∀ x ∈ gathered behind, x.1 = 0) :
    gathered (items ++ behind) = gathered items ++ gathered behind := by
  induction items generalizing d with
  | nil => rfl
  | cons item r ih =>
    cases item with
    | block e b =>
      rw [List.cons_append, gathered_cons_block, gathered_cons_block, ih h.2, List.cons_append]
    | heading n title =>
      have hn : 1 ≤ n := h.1
      have hstop : ∀ x ∈ gathered behind, ¬ (decide (n ≤ x.1) = true) := by
        intro x hx
        have := hbehind x hx
        rw [decide_eq_true_iff]
        omega
      have ih := ih h.2.2
      obtain ⟨htake, hdrop⟩ := takeWhile_append_of_neg hstop (gathered r)
      rw [List.cons_append, gathered_cons_heading, gathered_cons_heading, gatheredSection,
        gatheredSection, ih, htake, hdrop, List.cons_append]

/-- The elements of the document that items make, before their sections are numbered. -/
def topElements (items : List Item) : List Element :=
  (sectionOf [] ((gathered items).map (·.2))).elems

theorem outline_eq (items : List Item) :
    outline items = (renumberFrom [] 1 (topElements items)).filterMap Element.section? := rfl

theorem length_outline (items : List Item) :
    (outline items).length = ((topElements items).filterMap Element.section?).length :=
  length_filterMap_renumberFrom [] 1 _

/-- The outline of items behind others: their sections come behind those of the others, and are
numbered on. -/
theorem outline_append {items behind : List Item} (h : Follows 0 items) (h' : Follows 0 behind) :
    outline (items ++ behind) =
      outline items ++ (outline behind).map (Section.raised (outline items).length) := by
  have hbehind : ∀ x ∈ gathered behind, x.1 = 0 := fun x hx =>
    Nat.le_zero.1 ((gathered_sorted h').1 x hx)
  have htop : topElements (items ++ behind) = topElements items ++ topElements behind := by
    rw [topElements, gathered_append h hbehind, List.map_append]
    exact List.filterMap_append
  rw [outline_eq, htop, renumberFrom_append, List.filterMap_append, ← length_outline,
    renumberFrom_add, filterMap_section?_allRaised]
  rfl

/-! ## Reading lines behind others -/

variable {files : Files} {base : Path}

theorem numberFrom_append (first : Nat) (a b : List (List Char)) :
    numberFrom first (a ++ b) = numberFrom first a ++ numberFrom (first + a.length) b := by
  induction a generalizing first with
  | nil => rfl
  | cons t r ih =>
    rw [List.cons_append, numberFrom, numberFrom, ih, List.length_cons, Nat.add_assoc,
      Nat.add_comm 1]
    rfl

/-- The lines that are no comments, numbered from `first` on. -/
def numberedFrom (first : Nat) (texts : List (List Char)) : List Line :=
  (numberFrom first texts).filter fun l => !isComment l.text

theorem numbered_append (a b : List (List Char)) :
    numbered (a ++ b) = numbered a ++ numberedFrom (1 + a.length) b := by
  rw [numbered, numberFrom_append, List.filter_append]
  rfl

theorem map_text_numberedFrom (first : Nat) (texts : List (List Char)) :
    (numberedFrom first texts).map (·.text) = texts.filter (!isComment ·) := by
  induction texts generalizing first with
  | nil => rfl
  | cons t r ih =>
    have hstep : numberedFrom first (t :: r) =
        ([⟨first, t⟩] : List Line).filter (fun l => !isComment l.text) ++
          numberedFrom (first + 1) r := by
      rw [numberedFrom, numberFrom, ← List.singleton_append, List.filter_append]
      rfl
    rw [hstep, List.map_append, ih]
    cases h : isComment t <;> simp [h]

theorem readHeaderLines_eq_ok {stop : Nat} {lines rest : List Line} {d d' : Document}
    (h : readHeaderLines stop d lines = .ok (d', rest)) :
    ∃ front, lines = front ++ rest ∧
      ∀ stop' rest', readHeaderLines stop' d (front ++ rest') = .ok (d', rest') := by
  induction lines generalizing d with
  | nil => cases h
  | cons l r ih =>
    rw [readHeaderLines] at h
    split_ifs at h with hempty
    · obtain ⟨rfl, rfl⟩ := Prod.mk.inj (Except.ok.inj h)
      refine ⟨[l], rfl, fun stop' rest' => ?_⟩
      rw [List.singleton_append, readHeaderLines, if_pos hempty]
    · cases hline : headerLine d l.text with
      | error problem =>
        rw [hline] at h
        cases h
      | ok d₁ =>
        rw [hline] at h
        obtain ⟨front, rfl, hfront⟩ := ih h
        refine ⟨l :: front, rfl, fun stop' rest' => ?_⟩
        rw [List.cons_append, readHeaderLines, if_neg hempty, hline]
        exact hfront stop' rest'

/-- A header is read from the lines it consists of, whatever lines stand behind. -/
theorem readHeader_eq_ok {stop : Nat} {lines rest : List Line} {d : Document}
    (h : readHeader stop lines = .ok (d, rest)) :
    ∃ front, lines = front ++ rest ∧
      ∀ stop' rest', readHeader stop' (front ++ rest') = .ok (d, rest') := by
  induction lines with
  | nil => cases h
  | cons l r ih =>
    rw [readHeader] at h
    split_ifs at h with hempty
    · obtain ⟨front, rfl, hfront⟩ := ih h
      refine ⟨l :: front, rfl, fun stop' rest' => ?_⟩
      rw [List.cons_append, readHeader, if_pos hempty]
      exact hfront stop' rest'
    · obtain ⟨front, rfl, hfront⟩ := readHeaderLines_eq_ok h
      refine ⟨l :: front, rfl, fun stop' rest' => ?_⟩
      rw [List.cons_append, readHeader, if_neg hempty]
      exact hfront stop' rest'

/-- A header is read as before if lines come behind the others. -/
theorem readHeader_append {stop stop' : Nat} {d : Document} {lines rest : List Line}
    (h : readHeader stop lines = .ok (d, rest)) (behind : List Line) :
    readHeader stop' (lines ++ behind) = .ok (d, rest ++ behind) := by
  obtain ⟨front, rfl, hfront⟩ := readHeader_eq_ok h
  rw [List.append_assoc]
  exact hfront stop' (rest ++ behind)

/-- An empty line ends what is said about the authors; a heading behind it, or one in front of it,
starts the body. -/
theorem readAuthors_append (elems : List Element) (lines : List Line) {n : Nat} {l : Line}
    (hl : l.text.head? = some '*') (behind : List Line) :
    readAuthors elems (lines ++ ⟨n, []⟩ :: l :: behind) =
      ((readAuthors elems lines).1,
        if (readAuthors elems lines).2 = [] then l :: behind
        else (readAuthors elems lines).2 ++ ⟨n, []⟩ :: l :: behind) := by
  induction lines generalizing elems with
  | nil =>
    have hstop : readAuthors [] (l :: behind) = ([], l :: behind) := by
      rw [readAuthors, if_pos hl]
      rfl
    have hempty : readAuthors elems (⟨n, []⟩ :: l :: behind) =
        (authorOf elems ++ (readAuthors [] (l :: behind)).1, (readAuthors [] (l :: behind)).2) :=
      rfl
    rw [List.nil_append, hempty, hstop, List.append_nil]
    rfl
  | cons m r ih =>
    rw [List.cons_append, readAuthors, readAuthors]
    by_cases hstar : m.text.head? = some '*'
    · rw [if_pos hstar, if_pos hstar, if_neg (List.cons_ne_nil m r), List.cons_append]
    by_cases hnote : (noteText? m.text).isSome = true
    · rw [if_neg hstar, if_neg hstar, if_pos hnote, if_pos hnote, ih]
    by_cases hblank : m.text.isEmpty = true
    · simp only [if_neg hstar, if_neg hnote, if_pos hblank, ih []]
    · rw [if_neg hstar, if_neg hstar, if_neg hnote, if_neg hnote, if_neg hblank, if_neg hblank,
        ih]

/-- The items of a body, an empty line, and lines that start with a heading of the document: those
of the body, and behind them those that the other lines have alone. -/
theorem yields_behind_body {body : List Line} {items items' : List Item} {st : State}
    {title : List Char} {slides : List (List Char)}
    (hslides : Yields files base {} (('*' :: ' ' :: title) :: slides) items' st)
    (hitems : readItems files base {} body = .ok items) :
    Yields files base {} (body.map (·.text) ++ [] :: ('*' :: ' ' :: title) :: slides)
      (items ++ items') st := by
  obtain ⟨st₁, hbody⟩ := yields_of_readItems hitems rfl
  have hindented : st₁.Indented := by
    obtain ⟨closed, hscan, -⟩ := hbody
    exact scan_indented (State.indented_of_not_preformatted rfl) hscan
  obtain ⟨st₂, hempty, -, hbreak, -⟩ := yields_empty files base hindented
  have hheading := hslides.behind (n := 1) (Or.inl rfl) le_rfl le_rfl hbreak (Nat.le_add_left ..)
  exact hbody.append (hempty.append hheading)

/-- Slides are independent of each other: lines that start with a heading of the document, behind
a source and an empty line, change nothing in front of them and are read as they are behind a title
alone. -/
theorem readLines_behind {source slides : List (List Char)} {d d' : Document}
    (h : readLines files base .full source = .ok d)
    (hslides : ∃ title, slides.head? = some ('*' :: ' ' :: title))
    (h' : readLines files base .full (['x'] :: [] :: slides) = .ok d') :
    readLines files base .full (source ++ [] :: slides) =
      .ok { d with
        sections := d.sections ++ d'.sections.map (Section.raised d.sections.length) } := by
  obtain ⟨title, hhead⟩ := hslides
  obtain ⟨r, rfl⟩ : ∃ r, slides = ('*' :: ' ' :: title) :: r := List.head?_eq_some_iff.1 hhead
  obtain ⟨d₀, rest, items, hheader, hitems, rfl⟩ := readLines_full_eq_ok_iff.1 h
  obtain ⟨d₁, rest', items', hheader', hitems', rfl⟩ := readLines_full_eq_ok_iff.1 h'
  obtain ⟨rfl, rfl⟩ := Prod.mk.inj (Except.ok.inj hheader')
  have hbehind : readItems files base {} (⟨3, '*' :: ' ' :: title⟩ :: numberedFrom 4 r) =
      .ok items' := hitems'
  obtain ⟨st, hyields⟩ := yields_of_readItems hbehind rfl
  obtain ⟨m, hnumbered⟩ : ∃ m, numbered (source ++ [] :: ('*' :: ' ' :: title) :: r) =
      numbered source ++ ⟨m, []⟩ :: ⟨m + 1, '*' :: ' ' :: title⟩ :: numberedFrom (m + 2) r :=
    ⟨_, numbered_append _ _⟩
  rw [List.map_cons, map_text_numberedFrom, ← map_text_numberedFrom (m + 2)] at hyields
  have hbody := readAuthors_append [] rest (n := m) (l := ⟨m + 1, '*' :: ' ' :: title⟩) rfl
    (numberedFrom (m + 2) r)
  have hsections := outline_append (readItems_follows (s := {}) (fun _ => rfl) hitems)
    (readItems_follows (s := {}) (fun _ => rfl) hbehind)
  rw [readLines_full_eq_ok_iff, hnumbered]
  refine ⟨d₀, _, items ++ items', readHeader_append hheader _, ?_, by rw [hbody, hsections]⟩
  rw [hbody]
  refine Yields.readItems (?_ : Yields files base {} _ _ st) rfl
  dsimp only
  split_ifs with hnone
  · rw [hnone] at hitems
    obtain rfl : [] = items := Except.ok.inj hitems
    exact hyields
  · rw [List.map_append]
    exact yields_behind_body hyields hitems

/-- A source that ends in a preformatted block, and a slide with a subsection behind it. -/
theorem readLines_behind_preformatted :
    readLines (fun _ => .error .notFound) (Path.ofString "talks") .full
        (["T".toList, [], "* A".toList, [], " code".toList] ++
          [] :: ["* B".toList, "** C".toList, "text".toList]) =
      .ok { title := "T", sections :=
        [⟨[1], "A", [.preformatted "code"], [], [], []⟩,
         ⟨[2], "B", [.sub ⟨[2, 1], "C", [.paragraph ["text"]], [], [], []⟩], [], [], []⟩] } := by
  have hsource : readLines (fun _ => .error .notFound) (Path.ofString "talks") .full
      ["T".toList, [], "* A".toList, [], " code".toList] =
      .ok { title := "T", sections := [⟨[1], "A", [.preformatted "code"], [], [], []⟩] } := by
    cbv
  have hslides : readLines (fun _ => .error .notFound) (Path.ofString "talks") .full
      (['x'] :: [] :: ["* B".toList, "** C".toList, "text".toList]) =
      .ok { title := "x", sections :=
        [⟨[1], "B", [.sub ⟨[1, 1], "C", [.paragraph ["text"]], [], [], []⟩], [], [], []⟩] } := by
    cbv
  exact readLines_behind hsource ⟨_, rfl⟩ hslides

end Source

end Lectern
