import Lectern.Proofs.Source.Cursor

/-!
# Reading by descent

A source can be read by procedures that call each other and share a cursor: a section reads its
body, the body reads the sections below it, and a line that belongs to the caller is put back. Here
these procedures are written with their loops and calls as they stand; nothing says beforehand that
they come to an end, so each is given a bound for the turns that it may take one inside of another,
and gives nothing if it needs more. A procedure comes to an end if it gives one outcome under all
bounds from some bound on (`Returns`), which is the only one (`Returns.unique`). `Loops.ends` is the
rule for loops, each turn of which must leave fewer lines to be read.
-/

namespace Lectern

open Text

/-- The section with one more block at its end. -/
def Section.addBlock (s : Section) : Source.Block → Section
  | .elem e => s.addElem e
  | .note text => { s with notes := s.notes ++ [String.ofList text] }
  | .background url =>
      { s with
        classes := s.classes ++ ["background"]
        styles := s.styles ++ ["background-image: url('" ++ String.ofList url ++ "')"] }

/-- The section with more elements at its end. -/
def Section.addElems (s : Section) (es : List Element) : Section := es.foldl Section.addElem s

namespace Source

/-! ## Procedures that read -/

/-- Where a reading stands: its cursor, how many calls for sections are open, and the most that were
open at once. -/
structure Reader extends Cursor where
  calls : Nat := 0
  deepest : Nat := 0

/-- The reader at the start of a source. -/
def Reader.start (texts : List (List Char)) : Reader := { texts }

/-- The reader with its cursor moved. -/
def Reader.to (c : Reader) (d : Cursor) : Reader := { c with toCursor := d }

/-- The reader in a call for sections. -/
def Reader.enter (c : Reader) : Reader :=
  { c with calls := c.calls + 1, deepest := max c.deepest (c.calls + 1) }

/-- The reader behind a call for sections. -/
def Reader.leave (c : Reader) : Reader := { c with calls := c.calls - 1 }

/-- A procedure that moves the reader. Under a bound for its turns it gives a result or a problem of
the source, or nothing if the bound is too small. -/
abbrev Descent := ReaderT Nat (ExceptT Located (StateT Reader Option))

/-- What one turn of a loop comes to: another turn, or the result of the loop. -/
inductive Turn (σ ρ : Type) where
  | again (s : σ)
  | done (r : ρ)

namespace Descent

/-- Moves to the next line. -/
def next : Descent (Option (List Char)) :=
  modifyGet fun c => (c.toCursor.next.1, c.to c.toCursor.next.2)

/-- Puts the cursor back. -/
def back : Descent Unit := modify fun c => c.to c.toCursor.back

/-- Fails at the line of the last move. -/
def stop {α : Type} (problem : Problem) : Descent α := do throw ⟨(← get).place, problem⟩

/-- Enters a call for sections. -/
def enter : Descent Unit := modify Reader.enter

/-- Leaves a call for sections. -/
def leave : Descent Unit := modify Reader.leave

/-- Goes on behind a turn. -/
def goOn {σ ρ : Type} (f : σ → Descent ρ) : Turn σ ρ → Descent ρ
  | .again s => f s
  | .done r => pure r

/-- Takes turns until one of them is the last one. -/
def loop {σ ρ : Type} (turn : σ → Descent (Turn σ ρ)) (s : σ) : Descent ρ
  | 0 => ExceptT.mk fun _ => none
  | n + 1 => (turn s >>= goOn fun s _ => loop turn s n) n

/-! ## Lines -/

/-- Reads a line, and asks for another one if it is empty. -/
def nonEmptyTurn (_ : Unit) : Descent (Turn Unit (Option (List Char))) := do
  match ← next with
  | none => pure (.done none)
  | some text => if text.isEmpty then pure (.again ()) else pure (.done (some text))

/-- Moves to the next line that is not empty. -/
def nextNonEmpty : Descent (Option (List Char)) := loop nonEmptyTurn ()

/-- Collects what the lines of a block say, from the line given up to the first one that says
nothing in it. -/
def collectTurn (said? : List Char → Option (List Char)) (s : List (List Char) × List Char) :
    Descent (Turn (List (List Char) × List Char) (List (List Char))) := do
  match said? s.2 with
  | none => pure (.done s.1)
  | some said =>
    match ← next with
    | none => pure (.done (s.1 ++ [said]))
    | some text => pure (.again (s.1 ++ [said], text))

/-- What a line says in a list. -/
def bullet? (text : List Char) : Option (List Char) := ['-', ' '].isPrefixOf? text

/-- What a line says in a preformatted block with an indentation. -/
def unindent? (indent text : List Char) : Option (List Char) :=
  if text.isEmpty then some [] else indent.isPrefixOf? text

/-- Reads a list from its first line on. -/
def list (first : List Char) : Descent Element := do
  let bullets ← loop (collectTurn bullet?) ([], first)
  back
  pure (.list (bullets.map String.ofList))

/-- Reads a preformatted block from its first line on; a blank line is none. -/
def preformatted (first : List Char) : Descent (List Element) := do
  if isBlankLine first then pure []
  else
    let lines ← loop (collectTurn (unindent? (first.takeWhile isBlank))) ([], first)
    back
    pure [.preformatted (String.ofList (preformattedText lines))]

/-- Collects the lines of a paragraph, up to a blank line or a command. -/
def paragraphTurn (s : List (List Char) × List Char) :
    Descent (Turn (List (List Char) × List Char) (List (List Char))) := do
  if isBlankLine s.2 then pure (.done s.1)
  else if s.2.head? = some '.' then do
    back
    pure (.done s.1)
  else
    match ← next with
    | none => pure (.done (s.1 ++ [paragraphLine s.2]))
    | some text => pure (.again (s.1 ++ [paragraphLine s.2], text))

/-- Reads a paragraph from its first line on; it is none without lines. -/
def paragraph (first : List Char) : Descent (List Element) := do
  let lines ← loop paragraphTurn ([], first)
  pure (if lines.isEmpty then [] else [.paragraph (lines.map String.ofList)])

/-! ## The header and the authors -/

/-- Reads a line of the header. -/
def headerTurn (d : Document) : Descent (Turn Document Document) := do
  match ← next with
  | none => stop .unfinishedHeader
  | some text =>
    if text.isEmpty then pure (.done d)
    else
      match headerLine d text with
      | .ok d => pure (.again d)
      | .error problem => stop problem

/-- Reads the header. -/
def header : Descent Document := do
  match ← nextNonEmpty with
  | none => stop .missingTitle
  | some title => loop headerTurn { title := String.ofList title }

/-- Reads a line about the authors, behind those that have been read and the lines about the one
that is being read; a line with a star is put back. -/
def authorsTurn (s : List Author × List Element) :
    Descent (Turn (List Author × List Element) (List Author)) := do
  match ← next with
  | none => pure (.done (s.1 ++ authorOf s.2))
  | some text =>
    if text.head? = some '*' then do
      back
      pure (.done (s.1 ++ authorOf s.2))
    else if (noteText? text).isSome then pure (.again s)
    else if text.isEmpty then pure (.again (s.1 ++ authorOf s.2, []))
    else pure (.again (s.1, s.2 ++ [authorElement text]))

/-- Reads the authors. -/
def authors : Descent (List Author) := loop authorsTurn ([], [])

/-! ## Sections -/

/-- The stars of a heading. -/
def stars (depth : Nat) : List Char := List.replicate depth '*'

/-- Reads a section one level below its parent, behind those found so far; a line that is no heading
of one is put back. -/
def sectionsTurn (body : Nat → Section → Descent Section) (parent : List Nat) (first : Nat)
    (found : List Section) : Descent (Turn (List Section) (List Section)) := do
  match ← nextNonEmpty with
  | none => pure (.done found)
  | some text =>
    match (stars (parent.length + 1) ++ [' ']).isPrefixOf? text with
    | none => do
      back
      pure (.done found)
    | some title => do
      let s ← body (parent.length + 1)
        (Section.new (parent ++ [first + found.length]) (String.ofList (trim title)))
      pure (.again (found ++ [s]))

variable (files : Files) (base : Path)

/-- Reads a block of a section, or the sections below it, whose first heading is put back for
them. A heading that is not below the section ends it and is put back. -/
def bodyTurn (sections : List Nat → Nat → List Section → Descent (List Section)) (depth : Nat)
    (s : Section) : Descent (Turn Section Section) := do
  match ← nextNonEmpty with
  | none => pure (.done s)
  | some text =>
    if (heading? text).isSome && !(stars (depth + 1)).isPrefixOf text then do
      back
      pure (.done s)
    else if text.head?.any isBlank then do
      let es ← preformatted text
      pure (.again (s.addElems es))
    else if (bullet? text).isSome then do
      let e ← list text
      pure (.again (s.addElem e))
    else if (noteText? text).isSome then pure (.again (s.addBlock (.note (text.drop 2))))
    else if (stars (depth + 1) ++ [' ']).isPrefixOf text then do
      back
      enter
      let subs ← sections s.number (s.subsections.length + 1) []
      leave
      pure (.again (s.addElems (subs.map .sub)))
    else if text.head? = some '.' then
      match readCommand files base text with
      | .ok b => pure (.again (s.addBlock b))
      | .error problem => stop problem
    else do
      let es ← paragraph text
      pure (.again (s.addElems es))

mutual

/-- Reads the sections one level below a parent. -/
def sections (parent : List Nat) (first : Nat) (found : List Section) : Descent (List Section)
  | 0 => ExceptT.mk fun _ => none
  | n + 1 => (sectionsTurn (fun depth s _ => body depth s n) parent first found >>=
      goOn fun found _ => sections parent first found n) n

/-- Reads the body of a section at a depth. -/
def body (depth : Nat) (s : Section) : Descent Section
  | 0 => ExceptT.mk fun _ => none
  | n + 1 => (bodyTurn files base (fun parent first found _ => sections parent first found n)
      depth s >>= goOn fun s _ => body depth s n) n

end

/-- Reads a source. -/
def document (mode : Mode) : Descent Document := do
  let d ← header
  match mode with
  | .titlesOnly => pure d
  | .full => do
    let authors ← authors
    enter
    let sections ← sections files base [] 1 []
    leave
    match ← nextNonEmpty with
    | some text => stop (.strayLine text)
    | none => pure { d with authors := authors, sections := sections }

/-! ## Procedures that come to an end -/

variable {α β σ ρ : Type}

/-- From one place the procedure comes to an end at another one, with a result or a problem: under
all bounds from some bound on it gives this outcome. -/
def Returns (m : Descent α) (c : Reader) (r : Except Located α) (c' : Reader) : Prop :=
  ∃ bound, ∀ n, bound ≤ n → (m n).run.run c = some (r, c')

/-- From a place the procedure comes to an end, with an outcome that meets a condition. -/
def Ends (m : Descent α) (c : Reader) (Q : Except Located α → Reader → Prop) : Prop :=
  ∃ r c', Returns m c r c' ∧ Q r c'

section Rules

variable {c c' c₁ : Reader} {m : Descent α} {f : α → Descent β} {r : Except Located α}
  {Q : Except Located α → Reader → Prop} {R : Except Located β → Reader → Prop}

theorem returns_pure (a : α) (c : Reader) : Returns (pure a) c (.ok a) c := ⟨0, fun _ _ => rfl⟩

theorem Returns.bind {a : α} {r : Except Located β} (h : Returns m c (.ok a) c₁)
    (h' : Returns (f a) c₁ r c') : Returns (m >>= f) c r c' := by
  obtain ⟨k, hk⟩ := h
  obtain ⟨k', hk'⟩ := h'
  refine ⟨max k k', fun n hn => ?_⟩
  show ((m n >>= fun a => f a n).run.run c) = _
  rw [ExceptT.run_bind, StateT.run_bind, hk n (le_of_max_le_left hn)]
  exact hk' n (le_of_max_le_right hn)

theorem Returns.bind_error {e : Located} (h : Returns m c (.error e) c') :
    Returns (m >>= f) c (.error e) c' := by
  obtain ⟨k, hk⟩ := h
  refine ⟨k, fun n hn => ?_⟩
  show ((m n >>= fun a => f a n).run.run c) = _
  rw [ExceptT.run_bind, StateT.run_bind, hk n hn]
  rfl

/-- There is one outcome at most. -/
theorem Returns.unique {r' : Except Located α} (h : Returns m c r c₁) (h' : Returns m c r' c') :
    r = r' ∧ c₁ = c' := by
  obtain ⟨k, hk⟩ := h
  obtain ⟨k', hk'⟩ := h'
  have heq := (hk _ (le_max_left k k')).symm.trans (hk' _ (le_max_right k k'))
  exact Prod.mk.inj (Option.some.inj heq)

theorem returns_next (c : Reader) :
    Returns next c (.ok c.toCursor.next.1) (c.to c.toCursor.next.2) :=
  ⟨0, fun _ _ => rfl⟩

theorem returns_back (c : Reader) : Returns back c (.ok ()) (c.to c.toCursor.back) :=
  ⟨0, fun _ _ => rfl⟩

theorem returns_stop (problem : Problem) (c : Reader) :
    Returns (stop problem : Descent α) c (.error ⟨c.place, problem⟩) c :=
  ⟨0, fun _ _ => rfl⟩

theorem returns_enter (c : Reader) : Returns enter c (.ok ()) c.enter := ⟨0, fun _ _ => rfl⟩

theorem returns_leave (c : Reader) : Returns leave c (.ok ()) c.leave := ⟨0, fun _ _ => rfl⟩

theorem Returns.ends (h : Returns m c r c') (hQ : Q r c') : Ends m c Q := ⟨r, c', h, hQ⟩

theorem ends_pure {a : α} (hQ : Q (.ok a) c) : Ends (pure a) c Q := (returns_pure a c).ends hQ

theorem Ends.mono {Q' : Except Located α → Reader → Prop} (h : Ends m c Q)
    (hQ : ∀ r c', Q r c' → Q' r c') : Ends m c Q' := by
  obtain ⟨r, c', hreturns, hr⟩ := h
  exact ⟨r, c', hreturns, hQ r c' hr⟩

theorem Returns.ends_bind {a : α} (h : Returns m c (.ok a) c₁) (h' : Ends (f a) c₁ R) :
    Ends (m >>= f) c R := by
  obtain ⟨r, c', hreturns, hr⟩ := h'
  exact ⟨r, c', h.bind hreturns, hr⟩

theorem Ends.bind (h : Ends m c Q) (hok : ∀ a c', Q (.ok a) c' → Ends (f a) c' R)
    (herror : ∀ e c', Q (.error e) c' → R (.error e) c') : Ends (m >>= f) c R := by
  obtain ⟨r, c', hreturns, hr⟩ := h
  cases r with
  | ok a => exact hreturns.ends_bind (hok a c' hr)
  | error e => exact ⟨.error e, c', hreturns.bind_error, herror e c' hr⟩

end Rules

/-! ## Loops -/

/-- The procedure takes turns until one of them is the last one. -/
def Loops (turn : σ → Descent (Turn σ ρ)) (f : σ → Descent ρ) : Prop :=
  ∀ s n, f s (n + 1) = (turn s >>= goOn f) n

/-- What is done behind a turn depends on the procedures under the bound at hand alone. -/
theorem bind_goOn_congr {m m' : Descent (Turn σ ρ)} {f f' : σ → Descent ρ} {n : Nat}
    (hm : m n = m' n) (hf : ∀ s, f s n = f' s n) : (m >>= goOn f) n = (m' >>= goOn f') n := by
  show (m n >>= fun t => goOn f t n) = (m' n >>= fun t => goOn f' t n)
  rw [hm]
  refine congrArg (m' n >>= ·) (funext fun t => ?_)
  cases t with
  | again s => exact hf s
  | done r => rfl

theorem loops_loop (turn : σ → Descent (Turn σ ρ)) : Loops turn (loop turn) :=
  fun _ _ => bind_goOn_congr rfl fun _ => rfl

theorem loops_sections (parent : List Nat) (first : Nat) :
    Loops (sectionsTurn (body files base) parent first) (sections files base parent first) := by
  intro found n
  rw [sections]
  refine bind_goOn_congr ?_ fun _ => rfl
  refine congrArg (nextNonEmpty n >>= ·) (funext fun line => ?_)
  cases line with
  | none => rfl
  | some text =>
    dsimp only
    cases (stars (parent.length + 1) ++ [' ']).isPrefixOf? text <;> rfl

theorem loops_body (depth : Nat) :
    Loops (bodyTurn files base (sections files base) depth) (body files base depth) := by
  intro s n
  rw [body]
  refine bind_goOn_congr ?_ fun _ => rfl
  refine congrArg (nextNonEmpty n >>= ·) (funext fun line => ?_)
  cases line with
  | none => rfl
  | some text =>
    dsimp only
    split_ifs <;> rfl

theorem Loops.returns {turn : σ → Descent (Turn σ ρ)} {f : σ → Descent ρ} (hf : Loops turn f)
    {s : σ} {c c' : Reader} {r : Except Located ρ} (h : Returns (turn s >>= goOn f) c r c') :
    Returns (f s) c r c' := by
  obtain ⟨k, hk⟩ := h
  refine ⟨k + 1, fun n hn => ?_⟩
  obtain ⟨n, rfl⟩ := Nat.exists_eq_succ_of_ne_zero (Nat.ne_of_gt (Nat.zero_lt_of_lt hn))
  rw [hf s n]
  exact hk n (Nat.le_of_succ_le_succ hn)

/-- What a turn comes to that keeps an invariant: another turn with fewer than `n` lines still to be
read, or an end of the loop that meets a condition. -/
inductive Turned (n : Nat) (I : σ → Reader → Prop) (Q : Except Located ρ → Reader → Prop) :
    Except Located (Turn σ ρ) → Reader → Prop
  | again {s : σ} {c : Reader} (h : I s c) (hleft : c.left < n) : Turned n I Q (.ok (.again s)) c
  | done {a : ρ} {c : Reader} (h : Q (.ok a) c) : Turned n I Q (.ok (.done a)) c
  | failed {e : Located} {c : Reader} (h : Q (.error e) c) : Turned n I Q (.error e) c

theorem Turned.mono {n n' : Nat} {I I' : σ → Reader → Prop}
    {Q Q' : Except Located ρ → Reader → Prop} {r : Except Located (Turn σ ρ)} {c : Reader}
    (h : Turned n I Q r c) (hn : n ≤ n') (hI : ∀ s, I s c → I' s c) (hQ : ∀ r, Q r c → Q' r c) :
    Turned n' I' Q' r c := by
  cases h with
  | again h hleft => exact .again (hI _ h) (hleft.trans_le hn)
  | done h => exact .done (hQ _ h)
  | failed h => exact .failed (hQ _ h)

/-- A loop comes to an end if every turn does that keeps the invariant, and leaves fewer lines to be
read whenever it asks for another turn. -/
theorem Loops.ends {turn : σ → Descent (Turn σ ρ)} {f : σ → Descent ρ} (hf : Loops turn f)
    {I : σ → Reader → Prop} {Q : Except Located ρ → Reader → Prop}
    (hturn : ∀ s c, I s c → Ends (turn s) c (Turned c.left I Q)) {s : σ} {c : Reader} (h : I s c) :
    Ends (f s) c Q := by
  induction hn : c.left using Nat.strong_induction_on generalizing s c with
  | h n ih =>
    subst hn
    obtain ⟨r, c', hreturns, hr⟩ := hturn s c h
    cases hr with
    | again hinv hleft =>
      obtain ⟨r', c'', hrest, hQ⟩ := ih _ hleft hinv rfl
      exact ⟨r', c'', hf.returns (hreturns.bind hrest), hQ⟩
    | done hQ => exact ⟨_, c', hf.returns (hreturns.bind (returns_pure _ _)), hQ⟩
    | failed hQ => exact ⟨_, c', hf.returns hreturns.bind_error, hQ⟩

/-- From every place a turn comes to an end, and leaves fewer lines to be read if it asks for
another turn. -/
def Progresses (turn : Descent (Turn σ ρ)) : Prop :=
  ∀ c, Ends turn c fun r c' => ∀ s, r = .ok (.again s) → c'.left < c.left

theorem Turned.left_lt {n : Nat} {I : σ → Reader → Prop} {Q : Except Located ρ → Reader → Prop}
    {r : Except Located (Turn σ ρ)} {c : Reader} (h : Turned n I Q r c) :
    ∀ s, r = .ok (.again s) → c.left < n := by
  rintro s rfl
  cases h with
  | again _ hleft => exact hleft

end Descent

end Source

end Lectern
