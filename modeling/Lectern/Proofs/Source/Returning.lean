import Lectern.Proofs.Source.Turns

/-!
# The descent comes to an end

A body reads the sections below it, a section reads its body, and both put lines back for each
other. Still every turn of their loops leaves fewer lines to be read: the first heading of the
sections below a body is put back for a call that must take it (`SectionsEnd.held`), and the body
of a section starts behind the heading of the section (`Held.below`). So the descent comes to an
end on every source, and it gives what `readLines` gives (`document_returns`).
-/

namespace Lectern.Source.Descent

open Text

variable {files : Files} {base : Path} {d n n' : Nat} {bs bs' : List Block} {c c' c'' : Reader}
  {e : Located}

/-! ## Parts of a run -/

/-- A reader has gone on from one place to another one and told what is between them as blocks of
the section at a depth, with at most `n` more calls for sections open at once. -/
structure Went (files : Files) (base : Path) (d n : Nat) (c : Reader) (bs : List Block)
    (c' : Reader) : Prop where
  steps : c.Steps c'.toCursor
  calls : c'.calls = c.calls
  deepest : c'.deepest ≤ max c.deepest (c.calls + n)
  tells : Tells files base d c.rest bs c'.rest

/-- A reader has gone on and failed as `readItems` does, with at most `n` more calls for sections
open at once. -/
structure Failed (files : Files) (base : Path) (d n : Nat) (c : Reader) (e : Located)
    (c' : Reader) : Prop where
  steps : c.Steps c'.toCursor
  deepest : c'.deepest ≤ max c.deepest (c.calls + n)
  fails : readItems files base ⟨d, .none⟩ c.rest = .error e

theorem went_to {j : Cursor} (hsteps : c.Steps j) (h : Tells files base d c.rest bs j.rest) :
    Went files base d n c bs (c.to j) := ⟨hsteps, rfl, le_max_left _ _, h⟩

theorem Went.trans (h : Went files base d n c bs c') (h' : Went files base d n' c' bs' c'')
    (hn : n' ≤ n) : Went files base d n c (bs ++ bs') c'' := by
  refine ⟨h.steps.trans h'.steps, h'.calls.trans h.calls, ?_, h.tells.trans h'.tells⟩
  have hdeepest := h.deepest
  have hdeepest' := h'.deepest
  rw [h.calls] at hdeepest'
  omega

theorem Went.failed (h : Went files base d n c bs c') (h' : Failed files base d n' c' e c'')
    (hn : n' ≤ n) : Failed files base d n c e c'' := by
  refine ⟨h.steps.trans h'.steps, ?_, h.tells.error h'.fails⟩
  have hdeepest := h.deepest
  have hdeepest' := h'.deepest
  rw [h.calls] at hdeepest'
  omega

theorem Went.reach_le (h : Went files base d n c bs c') (m : Nat) : c'.reach m ≤ c.reach m :=
  h.steps.reach_le m

/-- A section has got blocks of its body, and the reader has gone on behind them. -/
def Held (files : Files) (base : Path) (d : Nat) (s : Section) (c : Reader) (s' : Section)
    (c' : Reader) : Prop :=
  ∃ bs, s' = holding s bs ∧ Went files base d (c.reach d) c bs c'

/-- Sections have been found below a parent, and the reader has gone on behind them. The call for
them is counted as open already. -/
def Found (files : Files) (base : Path) (parent : List Nat) (first : Nat) (found : List Section)
    (c : Reader) (found' : List Section) (c' : Reader) : Prop :=
  ∃ subs : List Section, found' = found ++ numberedSubs parent (first + found.length) subs ∧
    Went files base parent.length (c.reach parent.length - 1) c ((subs.map .sub).map .elem) c'

/-- How the body of a section ends: in front of a line that ends the section, or with a problem. -/
inductive BodyEnd (files : Files) (base : Path) (d : Nat) (s : Section) (c : Reader) :
    Except Located Section → Reader → Prop
  | ok {s' : Section} {c' : Reader} (h : Held files base d s c s' c')
      (hcloses : Closes d c'.rest) : BodyEnd files base d s c (.ok s') c'
  | error {e : Located} {c' : Reader} (h : Failed files base d (c.reach d) c e c') :
      BodyEnd files base d s c (.error e) c'

/-- How the sections below a parent end: in front of a line that is no heading of one, or with a
problem. -/
inductive SectionsEnd (files : Files) (base : Path) (parent : List Nat) (first : Nat)
    (found : List Section) (c : Reader) : Except Located (List Section) → Reader → Prop
  | ok {found' : List Section} {c' : Reader}
      (h : Found files base parent first found c found' c')
      (hstop : ∀ l ∈ c'.rest.head?,
        l.text ≠ [] ∧ ¬ stars (parent.length + 1) ++ [' '] <+: l.text) :
      SectionsEnd files base parent first found c (.ok found') c'
  | error {e : Located} {c' : Reader}
      (h : Failed files base parent.length (c.reach parent.length - 1) c e c') :
      SectionsEnd files base parent first found c (.error e) c'

variable {s s' s'' : Section} {parent : List Nat} {first : Nat}
  {found found' found'' : List Section} {j k : Cursor} {l : Line} {r : List Line}
  {title : List Char}

theorem held_to (s : Section) (hsteps : c.Steps j)
    (h : Tells files base d c.rest [] j.rest) : Held files base d s c s (c.to j) :=
  ⟨[], (holding_nil s).symm, went_to hsteps h⟩

theorem found_to (first : Nat) (found : List Section) (hsteps : c.Steps j)
    (h : Tells files base parent.length c.rest [] j.rest) :
    Found files base parent first found c found (c.to j) :=
  ⟨[], (List.append_nil _).symm, went_to hsteps h⟩

theorem Held.left_le (h : Held files base d s c s' c') : c'.left ≤ c.left := by
  obtain ⟨bs, -, hwent⟩ := h
  exact hwent.steps.left_le

theorem Found.left_le (h : Found files base parent first found c found' c') : c'.left ≤ c.left := by
  obtain ⟨subs, -, hwent⟩ := h
  exact hwent.steps.left_le

theorem Held.trans (h : Held files base d s c s' c') (h' : Held files base d s' c' s'' c'') :
    Held files base d s c s'' c'' := by
  obtain ⟨bs, rfl, hwent⟩ := h
  obtain ⟨bs', rfl, hwent'⟩ := h'
  exact ⟨bs ++ bs', (holding_append s bs bs').symm, hwent.trans hwent' (hwent.reach_le d)⟩

theorem Found.trans (h : Found files base parent first found c found' c')
    (h' : Found files base parent first found' c' found'' c'') :
    Found files base parent first found c found'' c'' := by
  obtain ⟨subs, rfl, hwent⟩ := h
  obtain ⟨subs', rfl, hwent'⟩ := h'
  refine ⟨subs ++ subs', ?_, ?_⟩
  · rw [List.length_append, length_numberedSubs, ← Nat.add_assoc, List.append_assoc,
      ← numberedSubs_append]
  · rw [List.map_append, List.map_append]
    exact hwent.trans hwent' (Nat.sub_le_sub_right (hwent.reach_le _) 1)

/-- A body that ends behind blocks of it ends so. -/
theorem BodyEnd.behind {res : Except Located Section} (h : Held files base d s c s' c')
    (hend : BodyEnd files base d s' c' res c'') : BodyEnd files base d s c res c'' := by
  cases hend with
  | ok h' hcloses => exact .ok (h.trans h') hcloses
  | error h' =>
    obtain ⟨bs, -, hwent⟩ := h
    exact .error (hwent.failed h' (hwent.reach_le d))

/-- Sections that end behind others end so. -/
theorem SectionsEnd.behind {res : Except Located (List Section)}
    (h : Found files base parent first found c found' c')
    (hend : SectionsEnd files base parent first found' c' res c'') :
    SectionsEnd files base parent first found c res c'' := by
  cases hend with
  | ok h' hstop => exact .ok (h.trans h') hstop
  | error h' =>
    obtain ⟨subs, -, hwent⟩ := h
    exact .error (hwent.failed h' (Nat.sub_le_sub_right (hwent.reach_le _) 1))

theorem BodyEnd.deepest_le {res : Except Located Section} (h : BodyEnd files base d s c res c') :
    c'.deepest ≤ max c.deepest (c.calls + c.reach d) := by
  cases h with
  | ok h =>
    obtain ⟨bs, -, hwent⟩ := h
    exact hwent.deepest
  | error h => exact h.deepest

/-- The call for sections that the reader has entered counts as one of those that are open. -/
theorem SectionsEnd.deepest_le {res : Except Located (List Section)}
    (h : SectionsEnd files base parent first found c.enter res c') :
    c'.deepest ≤ max c.deepest (c.calls + max 1 (c.reach parent.length)) := by
  have hdeepest : c'.deepest ≤ max (max c.deepest (c.calls + 1))
      (c.calls + 1 + (c.reach parent.length - 1)) := by
    cases h with
    | ok h =>
      obtain ⟨subs, -, hwent⟩ := h
      exact hwent.deepest
    | error h => exact h.deepest
  omega

/-! ## In front of a line -/

/-- Between blocks of the section at a depth the reader is behind the empty lines in front of a
line. -/
structure Before (files : Files) (base : Path) (d : Nat) (c : Reader) (j : Cursor) (l : Line)
    (r : List Line) : Prop where
  steps : c.Steps j
  tells : Tells files base d c.rest [] (l :: r)
  rest : j.rest = l :: r
  ne_nil : l.text ≠ []

theorem tells_skipped (files : Files) (base : Path) (d : Nat) (h : Skipped c.toCursor j) :
    Tells files base d c.rest [] j.rest := by
  rw [h.rest]
  exact tells_dropWhile_isEmpty files base d _

/-- Behind the last line there is nothing left to be told. -/
theorem tells_end (files : Files) (base : Path) (d : Nat) (h : Skipped c.toCursor j)
    (hrest : j.rest = []) :
    Tells files base d c.rest [] j.next.2.rest ∧ j.next.2.rest.head? = none := by
  have hnext : j.next.2.rest = [] := by rw [j.rest_next, hrest, List.tail_nil]
  have htells := tells_skipped files base d h
  rw [hrest, ← hnext] at htells
  exact ⟨htells, by rw [hnext]; rfl⟩

theorem before_of_skipped (files : Files) (base : Path) (d : Nat) (h : Skipped c.toCursor j)
    (hrest : j.rest = l :: r) : Before files base d c j l r :=
  ⟨h.steps, hrest ▸ tells_skipped files base d h, hrest, h.ne_nil hrest⟩

namespace Before

theorem line (h : Before files base d c j l r) : j.next.1 = some l.text := by
  rw [j.next_fst, h.rest]
  rfl

theorem next (h : Before files base d c j l r) : j.next.2.rest = r := by
  rw [j.rest_next, h.rest, List.tail_cons]

theorem back (h : Before files base d c j l r) : j.next.2.back.rest = l :: r :=
  j.rest_next_back.trans h.rest

/-- The line is the one that follows when it has been put back. -/
theorem forall_back {P : Line → Prop} (h : Before files base d c j l r) (hl : P l) :
    ∀ l' ∈ j.next.2.back.rest.head?, P l' := by
  rw [h.back]
  intro l' hl'
  obtain rfl := Option.some.inj hl'
  exact hl

theorem left_lt (h : Before files base d c j l r) (hlength : k.rest.length < (l :: r).length) :
    k.left < c.left := by
  rw [← h.rest] at hlength
  exact hlength.trans_le h.steps.left_le

theorem left_next_lt (h : Before files base d c j l r) : j.next.2.left < c.left :=
  (Cursor.left_next_lt h.rest).trans_le h.steps.left_le

theorem tells_next (h : Before files base d c j l r) (ht : Tells files base d (l :: r) bs r) :
    Tells files base d c.rest bs j.next.2.rest := by
  rw [h.next]
  exact h.tells.trans ht

theorem tells_back (h : Before files base d c j l r) :
    Tells files base d c.rest [] j.next.2.back.rest := by
  rw [h.back]
  exact h.tells

/-- A heading right below the section can be read in the calls that can be open below it. -/
theorem one_le_reach (h : Before files base d c j l r)
    (hl : l.text = stars (d + 1) ++ ' ' :: title) : 1 ≤ j.next.2.back.reach d := by
  have := Cursor.reach_next_lt h.back hl
  omega

theorem reach_next_le (h : Before files base d c j l r)
    (hl : l.text = stars (d + 1) ++ ' ' :: title) :
    j.next.2.reach (d + 1) ≤ c.reach d - 1 := by
  have := Cursor.reach_next_lt h.rest hl
  have := h.steps.reach_le d
  omega

end Before

/-! ## Sections -/

/-- The body of a section, read behind its heading, gives one more section. -/
theorem Held.below (hj : Before files base parent.length c j l r)
    (hl : l.text = stars (parent.length + 1) ++ ' ' :: title)
    (h : Held files base (parent.length + 1)
      (.new (parent ++ [first + found.length]) (String.ofList (trim title))) (c.to j.next.2) s c')
    (hcloses : Closes (parent.length + 1) c'.rest) :
    Found files base parent first found c (found ++ [s]) c' := by
  obtain ⟨bs, rfl, hwent⟩ := h
  have htells : Tells files base (parent.length + 1) j.next.2.rest bs c'.rest := hwent.tells
  rw [hj.next] at htells
  have hreach := Nat.add_le_add_left (hj.reach_next_le hl) c.calls
  have hnumber : parent ++ [first + found.length] ≠ [] :=
    List.append_ne_nil_of_right_ne_nil _ (List.cons_ne_nil _ _)
  refine ⟨[sectionOf (trim title) bs], ?_, hj.steps.next.trans hwent.steps, hwent.calls,
    hwent.deepest.trans (max_le_max le_rfl hreach),
    hj.tells.trans (tells_heading hl htells hcloses)⟩
  rw [holding_new hnumber, numberedSubs_singleton]

theorem Failed.below (hj : Before files base d c j l r)
    (hl : l.text = stars (d + 1) ++ ' ' :: title)
    (h : Failed files base (d + 1) (j.next.2.reach (d + 1)) (c.to j.next.2) e c') :
    Failed files base d (c.reach d - 1) c e c' := by
  have hfails : readItems files base ⟨d + 1, .none⟩ j.next.2.rest = .error e := h.fails
  rw [hj.next] at hfails
  have hreach := Nat.add_le_add_left (hj.reach_next_le hl) c.calls
  exact ⟨hj.steps.next.trans h.steps, h.deepest.trans (max_le_max le_rfl hreach),
    hj.tells.error (readItems_heading_error hl hfails)⟩

/-- A turn reads one more section, if the body of that section comes to an end. -/
theorem ends_sectionsTurn_of_body (parent : List Nat) (first : Nat) (found : List Section)
    (c : Reader) (hbody : ∀ (s : Section) (c₁ : Reader), c₁.left < c.left →
      s.number.length = parent.length + 1 →
        Ends (body files base (parent.length + 1) s) c₁
          (BodyEnd files base (parent.length + 1) s c₁)) :
    Ends (sectionsTurn (body files base) parent first found) c (Turned c.left
      (Found files base parent first found c) (SectionsEnd files base parent first found c)) := by
  obtain ⟨j, hskipped, hreturns⟩ := returns_nextNonEmpty c
  unfold sectionsTurn
  refine hreturns.ends_bind ?_
  rw [j.next_fst]
  cases hrest : j.rest with
  | nil =>
    obtain ⟨htells, hend⟩ := tells_end files base parent.length hskipped hrest
    exact ends_pure (.done (.ok (found_to first found hskipped.steps.next htells) fun l hl =>
      absurd (hend.symm.trans hl) (Option.some_ne_none l).symm))
  | cons l r =>
    have hj := before_of_skipped files base parent.length hskipped hrest
    dsimp only [List.head?_cons, Option.map_some]
    cases htitle : (stars (parent.length + 1) ++ [' ']).isPrefixOf? l.text with
    | none =>
      refine (returns_back _).ends_bind (ends_pure (.done (.ok
        (found_to first found hj.steps.nextBack hj.tells_back) (hj.forall_back ⟨hj.ne_nil, ?_⟩))))
      rintro ⟨title, hl⟩
      rw [← hl, isPrefixOf?_append] at htitle
      cases htitle
    | some title =>
      have hl : l.text = stars (parent.length + 1) ++ ' ' :: title := by
        rw [isPrefixOf?_eq_some htitle, List.append_assoc]
        rfl
      have hnumber : (Section.new (parent ++ [first + found.length])
          (String.ofList (trim title))).number.length = parent.length + 1 := by
        rw [Section.new, if_neg (by simp), List.length_append]
        rfl
      refine (hbody _ (c.to j.next.2) hj.left_next_lt hnumber).bind (fun s c' hend => ?_)
        fun e c' hend => ?_
      · cases hend with
        | ok h hcloses =>
          exact ends_pure (.again (h.below hj hl hcloses) (h.left_le.trans_lt hj.left_next_lt))
      · cases hend with
        | error h => exact .failed (.error (h.below hj hl))

theorem ends_sections_of_body (parent : List Nat) (first : Nat) (found : List Section) (c : Reader)
    (hbody : ∀ (s : Section) (c₁ : Reader), c₁.left < c.left →
      s.number.length = parent.length + 1 →
        Ends (body files base (parent.length + 1) s) c₁
          (BodyEnd files base (parent.length + 1) s c₁)) :
    Ends (sections files base parent first found) c
      (SectionsEnd files base parent first found c) := by
  refine (loops_sections files base parent first).ends
    (I := Found files base parent first found c) ?_
    (found_to (c := c) first found .refl (tells_refl files base _ _))
  intro found' c' hfound
  exact (ends_sectionsTurn_of_body parent first found' c' fun s c₁ hc₁ hs =>
    hbody s c₁ (hc₁.trans_le hfound.left_le) hs).mono fun r c'' hturned =>
      hturned.mono le_rfl (fun _ h => hfound.trans h) fun _ h => .behind hfound h

/-! ## Bodies -/

/-- A procedure reads a block, which is then added to the section. -/
theorem Returns.ends_again {α : Type} {m : Descent α} {f : α → Section} {a : α} {c₁ : Reader}
    (hm : Returns m c₁ (.ok a) (c.to k)) (hs : f a = holding s bs)
    (hsteps : c.Steps k) (htells : Tells files base d c.rest bs k.rest) (hleft : k.left < c.left) :
    Ends (m >>= fun a => pure (.again (f a))) c₁
      (Turned c.left (Held files base d s c) (BodyEnd files base d s c)) :=
  hm.ends_bind (ends_pure (.again ⟨bs, hs, went_to hsteps htells⟩ hleft))

theorem ends_preformatted (hd : 1 ≤ d) (hj : Before files base d c j l r)
    (hbegin : readLine files base ⟨d, .none⟩ l.text = beginBlock files base d l.text)
    (hindent : l.text.head?.any isBlank = true) (s : Section) :
    Ends (preformatted l.text >>= fun es => pure (.again (s.addElems es))) (c.to j.next.2)
      (Turned c.left (Held files base d s c) (BodyEnd files base d s c)) := by
  by_cases hblank : isBlankLine l.text = true
  · exact (returns_preformatted_blank hblank (c.to j.next.2)).ends_again (holding_nil s).symm
      hj.steps.next (hj.tells_next (tells_blank hd hblank r)) hj.left_next_lt
  · obtain ⟨k, hk, hkrest, hreturns⟩ := returns_preformatted c hj.line hblank
    rw [hj.rest] at hkrest hreturns
    have htells := hj.tells.trans (tells_preformatted hbegin hj.ne_nil hindent hblank r)
    rw [← hkrest] at htells
    refine hreturns.ends_again (addElems_singleton rfl s) (hj.steps.trans hk) htells
      (hj.left_lt ?_)
    rw [hkrest]
    exact length_uncollected_lt (by rw [unindent?_takeWhile_isBlank hj.ne_nil]; rfl) r

theorem ends_list (hj : Before files base d c j l r)
    (hbegin : readLine files base ⟨d, .none⟩ l.text = beginBlock files base d l.text)
    (hbullet : (bullet? l.text).isSome = true) (s : Section) :
    Ends (list l.text >>= fun el => pure (.again (s.addElem el))) (c.to j.next.2)
      (Turned c.left (Held files base d s c) (BodyEnd files base d s c)) := by
  obtain ⟨k, hk, hkrest, hreturns⟩ := returns_list c hj.line
  rw [hj.rest] at hkrest hreturns
  have htells := hj.tells.trans (tells_list hbegin hbullet r)
  rw [← hkrest] at htells
  refine hreturns.ends_again (addElems_singleton rfl s) (hj.steps.trans hk) htells (hj.left_lt ?_)
  rw [hkrest]
  exact length_uncollected_lt hbullet r

theorem ends_paragraph (hd : 1 ≤ d) (hj : Before files base d c j l r)
    (hbegin : readLine files base ⟨d, .none⟩ l.text = beginBlock files base d l.text)
    (hindent : ¬ l.text.head?.any isBlank = true) (hbullet : ¬ (bullet? l.text).isSome = true)
    (hnote : ¬ (noteText? l.text).isSome = true) (hdot : l.text.head? ≠ some '.') (s : Section) :
    Ends (paragraph l.text >>= fun es => pure (.again (s.addElems es))) (c.to j.next.2)
      (Turned c.left (Held files base d s c) (BodyEnd files base d s c)) := by
  have hsaid := paragraph?_eq_some hj.ne_nil hindent hdot
  have hne : ¬ (collected paragraph? (l :: r)).isEmpty = true := by
    rw [collected_cons_of_some hsaid]
    exact Bool.false_ne_true
  have hshorter : (uncollected paragraph? (l :: r)).length < (l :: r).length :=
    length_uncollected_lt (by rw [hsaid]; rfl) r
  obtain ⟨k, hk, hkrest, hreturns⟩ := returns_paragraph c hj.line
  rw [hj.rest] at hkrest hreturns
  rw [if_neg hne] at hreturns
  have htells :=
    hj.tells.trans (tells_paragraph hbegin hd hj.ne_nil hindent hbullet hnote hdot r)
  obtain hkrest | ⟨l', hkrest, hblank⟩ := hkrest
  · rw [← hkrest] at htells hshorter
    exact hreturns.ends_again (addElems_singleton rfl s) (hj.steps.trans hk) htells
      (hj.left_lt hshorter)
  · rw [hkrest] at htells hshorter
    exact hreturns.ends_again (addElems_singleton rfl s) (hj.steps.trans hk)
      (htells.trans (tells_blank hd hblank k.rest))
      (hj.left_lt ((Nat.lt_succ_self _).trans hshorter))

/-- The sections below a section are read from their first heading on, which is put back for them,
and held by the section. -/
theorem SectionsEnd.held {subs : List Section} (hj : Before files base s.number.length c j l r)
    (hl : l.text = stars (s.number.length + 1) ++ ' ' :: title)
    (h : SectionsEnd files base s.number (s.subsections.length + 1) []
      (c.to j.next.2.back).enter (.ok subs) c') :
    Held files base s.number.length s c (s.addElems (subs.map .sub)) c'.leave ∧
      c'.left < c.left := by
  have hpos := hj.one_le_reach hl
  have hreach := hj.steps.nextBack.reach_le s.number.length
  cases h with
  | ok h hstop =>
    obtain ⟨subs', rfl, hwent⟩ := h
    have hsteps : j.next.2.back.Steps c'.toCursor := hwent.steps
    have htells : Tells files base s.number.length j.next.2.back.rest
        ((subs'.map .sub).map .elem) c'.rest := hwent.tells
    have hdeepest : c'.deepest ≤ max (max c.deepest (c.calls + 1))
        (c.calls + 1 + (j.next.2.back.reach s.number.length - 1)) := hwent.deepest
    have hcalls : c'.calls = c.calls + 1 := hwent.calls
    have hsuffix := hsteps.rest_suffix
    rw [hj.back] at htells hsuffix
    refine ⟨⟨_, addElems_numberedSubs s subs', hj.steps.nextBack.trans hsteps, ?_, ?_,
      hj.tells.trans htells⟩, ?_⟩
    · show c'.calls - 1 = c.calls
      omega
    · show c'.deepest ≤ _
      omega
    · -- the call has taken the heading, in front of which it cannot have ended
      rcases List.suffix_cons_iff.1 hsuffix with heq | hsuffix
      · obtain ⟨-, hno⟩ := hstop l (by rw [heq]; rfl)
        exact absurd ⟨title, by rw [hl, List.append_assoc]; rfl⟩ hno
      · exact hj.left_lt (Nat.lt_succ_of_le hsuffix.length_le)

theorem SectionsEnd.failed (hj : Before files base s.number.length c j l r)
    (hl : l.text = stars (s.number.length + 1) ++ ' ' :: title)
    (h : SectionsEnd files base s.number first [] (c.to j.next.2.back).enter (.error e) c') :
    Failed files base s.number.length (c.reach s.number.length) c e c' := by
  have hpos := hj.one_le_reach hl
  have hreach := hj.steps.nextBack.reach_le s.number.length
  cases h with
  | error h =>
    have hdeepest : c'.deepest ≤ max (max c.deepest (c.calls + 1))
        (c.calls + 1 + (j.next.2.back.reach s.number.length - 1)) := h.deepest
    have hfails : readItems files base ⟨s.number.length, .none⟩ j.next.2.back.rest = .error e :=
      h.fails
    rw [hj.back] at hfails
    exact ⟨hj.steps.nextBack.trans h.steps, by omega, hj.tells.error hfails⟩

/-- A turn reads a block of a section, or the sections below it, if those come to an end. -/
theorem ends_bodyTurn_of_sections (s : Section) (hd : 1 ≤ s.number.length) (c : Reader)
    (hsections : ∀ (first : Nat) (c₁ : Reader), c₁.left ≤ c.left →
      Ends (sections files base s.number first []) c₁
        (SectionsEnd files base s.number first [] c₁)) :
    Ends (bodyTurn files base (sections files base) s.number.length s) c (Turned c.left
      (Held files base s.number.length s c) (BodyEnd files base s.number.length s c)) := by
  obtain ⟨j, hskipped, hreturns⟩ := returns_nextNonEmpty c
  unfold bodyTurn
  refine hreturns.ends_bind ?_
  rw [j.next_fst]
  cases hrest : j.rest with
  | nil =>
    obtain ⟨htells, hend⟩ := tells_end files base s.number.length hskipped hrest
    exact ends_pure (.done (.ok (held_to s hskipped.steps.next htells) fun l hl =>
      absurd (hend.symm.trans hl) (Option.some_ne_none l).symm))
  | cons l r =>
    have hj := before_of_skipped files base s.number.length hskipped hrest
    dsimp only [List.head?_cons, Option.map_some]
    split_ifs with hends hindent hbullet hnote hbelow hdot
    · exact (returns_back _).ends_bind (ends_pure (.done (.ok
        (held_to s hj.steps.nextBack hj.tells_back)
        (hj.forall_back ((endsSection_iff _ _).1 hends)))))
    all_goals
      have hblock : ¬ stars (s.number.length + 1) ++ [' '] <+: l.text →
          readLine files base ⟨s.number.length, .none⟩ l.text =
            beginBlock files base s.number.length l.text :=
        readLine_eq_beginBlock hd hj.ne_nil (mt (endsSection_iff _ _).2 hends)
    · have hstar : l.text.head? ≠ some '*' := fun e => by rw [e] at hindent; cases hindent
      exact ends_preformatted hd hj (hblock (not_starred hstar _)) hindent s
    · obtain ⟨bullet, hsaid⟩ := Option.isSome_iff_exists.1 hbullet
      have hstar : l.text.head? ≠ some '*' := by
        rw [isPrefixOf?_eq_some hsaid]
        exact fun e => absurd (Option.some.inj e) (by decide)
      exact ends_list hj (hblock (not_starred hstar _)) hbullet s
    · obtain ⟨note, hsaid⟩ := Option.isSome_iff_exists.1 hnote
      have hstar : l.text.head? ≠ some '*' := by
        rw [noteText?_eq_some hsaid]
        exact fun e => absurd (Option.some.inj e) (by decide)
      have htells := hj.tells_next (tells_note (hblock (not_starred hstar _)) hnote r)
      exact ends_pure (.again ⟨_, addBlock_eq_holding (fun t e => by cases e) s,
        went_to hj.steps.next htells⟩ hj.left_next_lt)
    · obtain ⟨title, htitle⟩ := List.isPrefixOf_iff_prefix.1 hbelow
      have hl : l.text = stars (s.number.length + 1) ++ ' ' :: title := by
        rw [← htitle, List.append_assoc]
        rfl
      refine (returns_back _).ends_bind ((returns_enter _).ends_bind ?_)
      refine (hsections (s.subsections.length + 1) _ hj.steps.nextBack.left_le).bind
        (fun subs c' hend => ?_) fun e c' hend => .failed (.error (hend.failed hj hl))
      obtain ⟨hheld, hleft⟩ := hend.held hj hl
      exact (returns_leave c').ends_bind (ends_pure (.again hheld hleft))
    · have hline := readLine_command (hblock (mt List.isPrefixOf_iff_prefix.2 hbelow)) hdot
      cases hcommand : readCommand files base l.text with
      | ok b =>
        rw [hcommand] at hline
        have htells : Tells files base s.number.length (l :: r) [b] r := tells_line hline
        exact ends_pure (.again ⟨_, addBlock_eq_holding (readCommand_ne_sub hcommand) s,
          went_to hj.steps.next (hj.tells_next htells)⟩ hj.left_next_lt)
      | error problem =>
        rw [hcommand] at hline
        have hfails := hj.tells.error (readItems_cons_of_error hline)
        rw [← Cursor.place_next hrest] at hfails
        exact (returns_stop _ _).ends (.failed (.error ⟨hj.steps.next, le_max_left _ _, hfails⟩))
    · exact ends_paragraph hd hj (hblock (mt List.isPrefixOf_iff_prefix.2 hbelow)) hindent hbullet
        hnote hdot s

/-- The body of a section comes to an end: its turns leave fewer lines to be read, and so do the
bodies of the sections below it, whose headings are behind its own. -/
theorem ends_body (s : Section) (hd : 1 ≤ s.number.length) (c : Reader) :
    Ends (body files base s.number.length s) c (BodyEnd files base s.number.length s c) := by
  induction hn : c.left using Nat.strong_induction_on generalizing s c with
  | h n ih =>
    subst hn
    refine (loops_body files base s.number.length).ends
      (I := Held files base s.number.length s c) ?_
      (held_to (c := c) s .refl (tells_refl files base _ _))
    rintro s' c' hheld
    have hsections : ∀ (first : Nat) (c₁ : Reader), c₁.left ≤ c'.left →
        Ends (sections files base s.number first []) c₁
          (SectionsEnd files base s.number first [] c₁) := by
      refine fun first c₁ hc₁ => ends_sections_of_body s.number first [] c₁ fun t c₂ hc₂ ht => ?_
      have hc₂ : c₂.left < c.left := hc₂.trans_le (hc₁.trans hheld.left_le)
      rw [← ht]
      exact ih _ hc₂ t (ht ▸ Nat.le_add_left 1 _) c₂ rfl
    obtain ⟨bs, rfl, hwent⟩ := id hheld
    exact (ends_bodyTurn_of_sections (holding s bs) hd c' hsections).mono fun r c'' hturned =>
      hturned.mono le_rfl (fun _ h => hheld.trans h) fun _ h => .behind hheld h

theorem ends_body_of_length {s : Section} (hs : s.number.length = d + 1) (c : Reader) :
    Ends (body files base (d + 1) s) c (BodyEnd files base (d + 1) s c) := by
  rw [← hs]
  exact ends_body s (hs ▸ Nat.le_add_left 1 d) c

/-- The sections below a parent come to an end. -/
theorem ends_sections (files : Files) (base : Path) (parent : List Nat) (first : Nat)
    (found : List Section) (c : Reader) :
    Ends (sections files base parent first found) c
      (SectionsEnd files base parent first found c) :=
  ends_sections_of_body parent first found c fun _ c₁ _ hs => ends_body_of_length hs c₁

/-! ## Sources -/

/-- The sections of a document are its outline if nothing is left behind them but empty lines. -/
theorem Found.outline_eq (h : Found files base [] 1 [] c found c') (hrest : c'.rest = []) :
    (readItems files base {} c.rest).map outline = .ok found := by
  obtain ⟨subs, rfl, hwent⟩ := h
  obtain ⟨items, hread, hgathers⟩ := hwent.tells
  rw [hrest] at hread
  have hread : readItems files base {} c.rest = .ok (items ++ []) := hread
  rw [hread, List.append_nil]
  exact congrArg Except.ok (outline_of_gathers hgathers)

/-- Behind the sections of a document any line is stray. -/
theorem Found.stray (h : Found files base [] 1 [] c found c') (hrest : c'.rest = l :: r)
    (hne : l.text ≠ []) (hbelow : ¬ stars 1 ++ [' '] <+: l.text) :
    readItems files base {} c.rest = .error ⟨l.number, .strayLine l.text⟩ := by
  obtain ⟨subs, -, hwent⟩ := h
  refine hwent.tells.error ?_
  rw [hrest]
  exact readItems_cons_of_error (readLine_stray files base hne hbelow)

/-- Behind the sections of a document the reader finds its end, or a stray line. -/
theorem Found.ends_behind (h : Found files base [] 1 [] c found c')
    (hstop : ∀ l ∈ c'.rest.head?, l.text ≠ [] ∧ ¬ stars 1 ++ [' '] <+: l.text) (d : Document) :
    Ends (do
      match ← nextNonEmpty with
      | some text => stop (.strayLine text)
      | none => pure { d with sections := found }) c'.leave fun r c'' =>
        r = ((readItems files base {} c.rest).map fun items =>
            { d with sections := outline items }) ∧
          c'.Steps c''.toCursor ∧ c''.deepest = c'.deepest := by
  obtain ⟨i, hskipped, hnext⟩ := returns_nextNonEmpty c'.leave
  have hirest : i.rest = c'.rest.dropWhile fun l => l.text.isEmpty := hskipped.rest
  have hsteps : c'.Steps i.next.2 := hskipped.steps.next
  refine hnext.ends_bind ?_
  rw [i.next_fst, hirest]
  cases hrest : c'.rest with
  | nil =>
    obtain ⟨items, hitems, rfl⟩ := map_eq_ok (h.outline_eq hrest)
    rw [hitems]
    exact ends_pure ⟨rfl, hsteps, rfl⟩
  | cons l r =>
    obtain ⟨hne, hbelow⟩ := hstop l (by rw [hrest]; rfl)
    have hempty : ¬ l.text.isEmpty = true := by simpa using hne
    have hplace : i.next.2.place = l.number :=
      Cursor.place_next (r := r) (by rw [hirest, hrest, List.dropWhile_cons, if_neg hempty])
    rw [List.dropWhile_cons, if_neg hempty, h.stray hrest hne hbelow, ← hplace]
    exact (returns_stop _ _).ends ⟨rfl, hsteps, rfl⟩

/-- The part of a document behind its authors is read as by `readItems`. -/
theorem ends_outline (files : Files) (base : Path) (d : Document) (c : Reader) :
    Ends (do
      enter
      let found ← sections files base [] 1 []
      leave
      match ← nextNonEmpty with
      | some text => stop (.strayLine text)
      | none => pure { d with sections := found }) c fun r c' =>
        r = ((readItems files base {} c.rest).map fun items =>
            { d with sections := outline items }) ∧
          c.Steps c'.toCursor ∧ c'.deepest ≤ max c.deepest (c.calls + max 1 (c.reach 0)) := by
  refine (returns_enter c).ends_bind ((ends_sections files base [] 1 [] _).bind ?_ ?_)
  · intro found c' hend
    have hdeepest := hend.deepest_le
    cases hend with
    | ok hfound hstop =>
      obtain ⟨subs, -, hwent⟩ := id hfound
      have hsteps : c.Steps c'.toCursor := hwent.steps
      refine (returns_leave c').ends_bind ((hfound.ends_behind hstop d).mono ?_)
      rintro r c'' ⟨hr, hsteps', hsame⟩
      exact ⟨hr, hsteps.trans hsteps', hsame.trans_le hdeepest⟩
  · intro e c' hend
    have hdeepest := hend.deepest_le
    cases hend with
    | error h =>
      have hfails : readItems files base {} c.rest = .error e := h.fails
      rw [hfails]
      exact ⟨rfl, h.steps, hdeepest⟩

theorem ends_document (files : Files) (base : Path) (mode : Mode) (texts : List (List Char)) :
    Ends (document files base mode) (.start texts) fun r c =>
      r = readLines files base mode texts ∧ (Reader.start texts).Steps c.toCursor ∧
        c.deepest ≤ max 1 ((Reader.start texts).reach 0) := by
  have hlines : (Reader.start texts).rest = numbered texts := rfl
  unfold document readLines
  rw [← hlines]
  refine (ends_header (c := .start texts) (Nat.zero_le _)).bind ?_ ?_
  · rintro d _ ⟨j, hj, rfl, hheader⟩
    have hheader : readHeader (texts.length + 1) (Reader.start texts).rest = .ok (d, j.rest) :=
      hheader.symm
    rw [hheader]
    cases mode with
    | titlesOnly => exact ends_pure ⟨rfl, hj, Nat.zero_le _⟩
    | full =>
      obtain ⟨k, hk, hkrest, hauthors⟩ := returns_authors ((Reader.start texts).to j)
      have hsteps : (Reader.start texts).Steps k := hj.trans hk
      have hreach := hsteps.reach_le 0
      have hbody : readBody files base d j.rest = (readItems files base {} k.rest).map fun items =>
          { d with authors := (readAuthors [] j.rest).1, sections := outline items } := by
        rw [hkrest]
        rfl
      refine hauthors.ends_bind ((ends_outline files base
        { d with authors := (readAuthors [] j.rest).1 } ((Reader.start texts).to k)).mono ?_)
      rintro r c ⟨hr, hsteps', hdeepest⟩
      have hdeepest : c.deepest ≤ max 0 (0 + max 1 (k.reach 0)) := hdeepest
      exact ⟨hr.trans hbody.symm, hsteps.trans hsteps', by omega⟩
  · rintro e _ ⟨j, hj, rfl, hheader⟩
    have hheader : readHeader (texts.length + 1) (Reader.start texts).rest = .error e :=
      hheader.symm
    rw [hheader]
    exact ⟨rfl, hj, Nat.zero_le _⟩

/-! ## Coming to an end -/

theorem length_number_at (s : Section) (parent : List Nat) (k : Nat) :
    ({ s with number := parent ++ [k] } : Section).number.length = parent.length + 1 :=
  List.length_append

/-- Every loop of the descent makes progress: from every place each of its turns comes to an end,
and leaves fewer lines to be read if it asks for another turn. -/
structure TurnsProgress (files : Files) (base : Path) : Prop where
  lines : ∀ u, Progresses (nonEmptyTurn u)
  header : ∀ d, Progresses (headerTurn d)
  authors : ∀ s, Progresses (authorsTurn s)
  collect : ∀ said? s, Progresses (collectTurn said? s)
  paragraph : ∀ s, Progresses (paragraphTurn s)
  sections : ∀ parent first found, Progresses (sectionsTurn (body files base) parent first found)
  body : ∀ (parent : List Nat) (k : Nat) (s : Section),
    Progresses (bodyTurn files base (Descent.sections files base) (parent.length + 1)
      { s with number := parent ++ [k] })

theorem turnsProgress (files : Files) (base : Path) : TurnsProgress files base where
  lines u c := (ends_nonEmptyTurn u c).mono fun _ _ h => h.left_lt
  header d c := (ends_headerTurn d c).mono fun _ _ h => h.left_lt
  authors s c := (ends_authorsTurn s c).mono fun _ _ h => h.left_lt
  collect said? s c := (ends_collectTurn said? s c).mono fun _ _ h => h.left_lt
  paragraph s c := (ends_paragraphTurn s c).mono fun _ _ h => h.left_lt
  sections parent first found c :=
    (ends_sectionsTurn_of_body parent first found c fun _ c₁ _ hs =>
      ends_body_of_length hs c₁).mono fun _ _ h => h.left_lt
  body parent k s c := by
    have hlength := length_number_at s parent k
    rw [← hlength]
    exact (ends_bodyTurn_of_sections _ (hlength ▸ Nat.le_add_left 1 _) c fun first c₁ _ =>
      ends_sections files base _ first [] c₁).mono fun _ _ h => h.left_lt

/-- Every call for the sections below a parent, or for the body of a section, comes to an end. The
calls for sections that are open below it at once are no more than the lines that are left, and no
more than the levels of headings that are left below its depth. -/
structure CallsReturn (files : Files) (base : Path) : Prop where
  sections : ∀ (parent : List Nat) (first : Nat) (found : List Section) (c : Reader),
    Ends (sections files base parent first found) c.enter fun _ c' =>
      c'.deepest ≤ max c.deepest (c.calls + max 1 (c.reach parent.length))
  body : ∀ (parent : List Nat) (k : Nat) (s : Section) (c : Reader),
    Ends (body files base (parent.length + 1) { s with number := parent ++ [k] }) c fun _ c' =>
      c'.deepest ≤ max c.deepest (c.calls + c.reach (parent.length + 1))

theorem callsReturn (files : Files) (base : Path) : CallsReturn files base where
  sections parent first found c :=
    (ends_sections files base parent first found c.enter).mono fun _ _ hend => hend.deepest_le
  body parent k s c :=
    (ends_body_of_length (length_number_at s parent k) c).mono fun _ _ hend => hend.deepest_le

/-- The descent comes to an end on every source, with what the source is read as.

Every turn of its loops leaves fewer lines to be read or is the last one, a cursor that is put back
has the same lines in front of it as before the last move, and the calls are bounded by the lines
and by the levels of their headings. In the whole run a move back comes only right behind a move to
a line or to the end, the next move is to the same line, and all other moves are to lines behind
those read before. -/
theorem document_returns (files : Files) (base : Path) :
    TurnsProgress files base ∧ CallsReturn files base ∧
      (∀ c : Cursor, c.next.2.back.rest = c.rest ∧ c.next.2.back.next.1 = c.next.1) ∧
      ∀ (mode : Mode) (texts : List (List Char)), ∃ c : Reader,
        Returns (document files base mode) (.start texts) (readLines files base mode texts) c ∧
          Orderly c.moves ∧
          c.deepest ≤ max 1 (min (numbered texts).length (steepest (numbered texts))) := by
  refine ⟨turnsProgress files base, callsReturn files base,
    fun c => ⟨c.rest_next_back, c.next_next_back⟩, fun mode texts => ?_⟩
  obtain ⟨_, c, hreturns, rfl, hsteps, hdeepest⟩ := ends_document files base mode texts
  exact ⟨c, hreturns, (hsteps.sound (Cursor.sound_start texts)).orderly, hdeepest⟩

end Lectern.Source.Descent
