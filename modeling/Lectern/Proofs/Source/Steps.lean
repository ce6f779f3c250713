import Lectern.Proofs.Results
import Lectern.Proofs.Text.Trimming
import Lectern.Source.Item

/-!
# What a line does

A line that is read goes on with the open block, ends it, or starts something new. `ReadsLine` has
a case for each, with what the line must look like, and `readLine_cases` takes a step of the reader
apart into these cases; `readCommand_cases` does so for a command. What every step keeps holds of a
whole run (`forall_items_of_readItems`).
-/

namespace Lectern.Source

open Text

variable {files : Files} {base : Path} {st st' : State}

/-! ## Starts of lines -/

theorem isPrefixOf?_eq_some {p s r : List Char} (h : p.isPrefixOf? s = some r) : s = p ++ r := by
  induction p generalizing s with
  | nil =>
    rw [List.isPrefixOf?, Option.some.injEq] at h
    exact h
  | cons a p ih =>
    cases s with
    | nil => simp [List.isPrefixOf?] at h
    | cons b s =>
      rw [List.isPrefixOf?] at h
      split_ifs at h with hab
      rw [ih h, eq_of_beq hab]
      rfl

theorem isPrefixOf?_append (p r : List Char) : p.isPrefixOf? (p ++ r) = some r := by
  induction p with
  | nil => rfl
  | cons a p ih => simp [List.isPrefixOf?, ih]

theorem isPrefixOf?_eq_none {p s : List Char} (h : ¬ p <+: s) : p.isPrefixOf? s = none := by
  cases hp : p.isPrefixOf? s with
  | none => rfl
  | some r => exact absurd ⟨r, (isPrefixOf?_eq_some hp).symm⟩ h

theorem noteText?_eq_some {text note : List Char} (h : noteText? text = some note) :
    text = ':' :: ' ' :: note := isPrefixOf?_eq_some h

/-- A heading starts with stars, behind which there is nothing or a space. -/
theorem heading?_eq_some {text rest : List Char} {n : Nat} (h : heading? text = some (n, rest)) :
    text = List.replicate n '*' ++ rest ∧ 1 ≤ n := by
  unfold heading? at h
  simp only at h
  split_ifs at h with hif
  obtain ⟨rfl, rfl⟩ := Prod.mk.inj (Option.some.inj h)
  have hsplit := List.takeWhile_append_dropWhile (p := (· = '*')) (l := text)
  have hlen := congrArg List.length hsplit
  rw [List.length_append] at hlen
  simp only [Bool.and_eq_true, decide_eq_true_eq] at hif
  constructor
  · conv_lhs => rw [← hsplit]
    congr 1
    refine List.eq_replicate_iff.2 ⟨by omega, fun c hc => ?_⟩
    simpa using List.mem_takeWhile_imp hc
  · omega

/-! ## Cases of a line -/

/-- The items of the block that is open, as it stands. -/
def State.pending (st : State) : List Item := st.opened.close.map (.block st.depth)

/-- A line goes on with the open block. -/
inductive OpenBlock.Extends (text : List Char) : OpenBlock → OpenBlock → Prop
  | paragraph {lines : List (List Char)} (hblank : isBlankLine text = false)
      (hdot : text.head? ≠ some '.') :
      Extends text (.paragraph lines) (.paragraph (lines ++ [paragraphLine text]))
  | list {bullets : List (List Char)} {bullet : List Char} (htext : text = '-' :: ' ' :: bullet) :
      Extends text (.list bullets) (.list (bullets ++ [bullet]))
  | empty {indent : List Char} {lines : List (List Char)} (htext : text = []) :
      Extends text (.preformatted indent lines) (.preformatted indent (lines ++ [[]]))
  | preformatted {indent rest : List Char} {lines : List (List Char)} (hne : text ≠ [])
      (htext : text = indent ++ rest) :
      Extends text (.preformatted indent lines) (.preformatted indent (lines ++ [rest]))

/-- A line that is no heading starts a block of the section at a depth: it is told as items at
once, or opens a block. -/
inductive BeginsBlock (files : Files) (base : Path) (depth : Nat) :
    List Char → List Item → OpenBlock → Prop
  | blank {text : List Char} (h : isBlankLine text = true) :
      BeginsBlock files base depth text [] .none
  | preformatted {indent : List Char} {c : Char} {r : List Char} (hne : indent ≠ [])
      (hindent : isBlankLine indent = true) (hc : isBlank c = false) :
      BeginsBlock files base depth (indent ++ c :: r) [] (.preformatted indent [c :: r])
  | list (bullet : List Char) :
      BeginsBlock files base depth ('-' :: ' ' :: bullet) [] (.list [bullet])
  | note (note : List Char) :
      BeginsBlock files base depth (':' :: ' ' :: note) [.block depth (.note note)] .none
  | command {text : List Char} {b : Block} (hdot : text.head? = some '.')
      (h : readCommand files base text = .ok b) :
      BeginsBlock files base depth text [.block depth b] .none
  | paragraph {c : Char} {r : List Char} (hc : isBlank c = false) (hdot : c ≠ '.')
      (hlist : ['-', ' '].isPrefixOf? (c :: r) = none) (hnote : noteText? (c :: r) = none) :
      BeginsBlock files base depth (c :: r) [] (.paragraph [paragraphLine (c :: r)])

/-- A line starts something new behind the section at a depth. -/
inductive BeginsLine (files : Files) (base : Path) (depth : Nat) :
    List Char → List Item → State → Prop
  | empty : BeginsLine files base depth [] [] ⟨depth, .none⟩
  | heading {n : Nat} (hn : 1 ≤ n) (hdepth : n ≤ depth + 1) (title : List Char) :
      BeginsLine files base depth (List.replicate n '*' ++ ' ' :: title)
        [.heading n (trim title)] ⟨n, .none⟩
  | block {text : List Char} {items : List Item} {e : Nat} {o : OpenBlock} (hne : text ≠ [])
      (he : 1 ≤ e) (hdepth : e ≤ depth) (h : BeginsBlock files base e text items o) :
      BeginsLine files base depth text items ⟨e, o⟩

/-- What a command adds to its section, by the name of the command and its arguments. -/
inductive ReadsCommand (files : Files) (base : Path) (text : List Char) : Block → Prop
  | background {url : List Char} {r : List (List Char)}
      (hcommand : String.ofList (nextField text).1 = ".background")
      (hargs : (fields text).tail = url :: r) : ReadsCommand files base text (.background url)
  | excerpt {c : Code} (hcommand : String.ofList (nextField text).1 = ".code" ∨
        String.ofList (nextField text).1 = ".play")
      (h : readExcerpt files base text = .ok c) : ReadsCommand files base text (.elem (.code c))
  | image {url : String} {width height : Option Nat}
      (hcommand : String.ofList (nextField text).1 = ".image")
      (hbox : readBox (fields text).tail = some (url, width, height)) :
      ReadsCommand files base text (.elem (.image url width height))
  | iframe {url : String} {width height : Option Nat}
      (hcommand : String.ofList (nextField text).1 = ".iframe")
      (hbox : readBox (fields text).tail = some (url, width, height)) :
      ReadsCommand files base text (.elem (.iframe url width height))
  | link {url : List Char} {r : List (List Char)}
      (hcommand : String.ofList (nextField text).1 = ".link")
      (hargs : (fields text).tail = url :: r) :
      ReadsCommand files base text (.elem (.link (String.ofList url)
        (String.ofList (if r.isEmpty then dropScheme url else List.intercalate [' '] r))))
  | caption (hcommand : String.ofList (nextField text).1 = ".caption") :
      ReadsCommand files base text
        (.elem (.caption (String.ofList (trim (text.drop (nextField text).1.length)))))
  | html {file : List Char} {r : List (List Char)} {contents : String}
      (hcommand : String.ofList (nextField text).1 = ".html")
      (hargs : (fields text).tail = file :: r) (h : files (base.join ⟨file⟩) = .ok contents) :
      ReadsCommand files base text (.elem (.html contents))

/-- A line goes on with the open block, is the blank line that ends a paragraph, or starts something
new behind the open block. -/
inductive ReadsLine (files : Files) (base : Path) (st : State) :
    List Char → List Item → State → Prop
  | goesOn {text : List Char} {o : OpenBlock} (h : st.opened.Extends text o) :
      ReadsLine files base st text [] ⟨st.depth, o⟩
  | ends {text : List Char} {lines : List (List Char)} (hopened : st.opened = .paragraph lines)
      (h : isBlankLine text = true) :
      ReadsLine files base st text st.pending ⟨st.depth, .none⟩
  | begins {text : List Char} {items : List Item} {st' : State}
      (h : BeginsLine files base st.depth text items st') :
      ReadsLine files base st text (st.pending ++ items) st'

/-! ## Taking a step apart -/

theorem readCommand_cases {text : List Char} {b : Block}
    (h : readCommand files base text = .ok b) : ReadsCommand files base text b := by
  unfold readCommand at h
  simp only at h
  split at h <;> rename_i hcommand
  · split at h <;> rename_i hargs
    · obtain rfl := Except.ok.inj h
      exact .background hcommand hargs
    · cases h
  · obtain ⟨c, hread, rfl⟩ := map_eq_ok h
    exact .excerpt (Or.inl hcommand) hread
  · obtain ⟨c, hread, rfl⟩ := map_eq_ok h
    exact .excerpt (Or.inr hcommand) hread
  · split at h <;> rename_i hbox
    · obtain rfl := Except.ok.inj h
      exact .image hcommand hbox
    · cases h
  · split at h <;> rename_i hbox
    · obtain rfl := Except.ok.inj h
      exact .iframe hcommand hbox
    · cases h
  · split at h
    · cases h
    · rename_i hargs
      obtain rfl := Except.ok.inj h
      exact .link hcommand hargs
    · rename_i url label hlabel hargs
      obtain rfl := Except.ok.inj h
      have hne : label.isEmpty = false := List.isEmpty_eq_false_iff.2 hlabel
      have hlink := @ReadsCommand.link files base _ _ _ hcommand hargs
      rwa [hne] at hlink
  · obtain rfl := Except.ok.inj h
    exact .caption hcommand
  · split at h <;> rename_i hargs
    · cases h
    · split at h <;> rename_i hfile
      · obtain rfl := Except.ok.inj h
        exact .html hcommand hargs hfile
      · cases h
  · cases h

theorem beginBlock_cases {d : Nat} {text : List Char} {items : List Item} (hne : text ≠ [])
    (h : beginBlock files base d text = .ok (items, st)) :
    ∃ o, st = ⟨d, o⟩ ∧ BeginsBlock files base d text items o := by
  have hsplit := List.takeWhile_append_dropWhile (p := isBlank) (l := text)
  unfold beginBlock at h
  simp only at h
  split at h
  · rename_i hindent
    have hblank := isBlankLine_takeWhile text
    split_ifs at h with hrest
    · obtain ⟨rfl, rfl⟩ := Prod.mk.inj (Except.ok.inj h)
      rw [List.isEmpty_iff.1 hrest, List.append_nil] at hsplit
      exact ⟨_, rfl, .blank (hsplit ▸ hblank)⟩
    · obtain ⟨rfl, rfl⟩ := Prod.mk.inj (Except.ok.inj h)
      obtain ⟨c, r, hcr⟩ := List.exists_cons_of_ne_nil (show text.dropWhile isBlank ≠ [] by
        simpa using hrest)
      have hc : isBlank c = false := isBlank_head?_trimStart text c (by rw [trimStart, hcr]; rfl)
      refine ⟨_, rfl, ?_⟩
      rw [hcr] at hsplit ⊢
      conv => arg 4; rw [← hsplit]
      exact .preformatted (by simpa using hindent) hblank hc
  · rename_i hindent
    obtain ⟨c, r, rfl⟩ := List.exists_cons_of_ne_nil hne
    have hc : isBlank c = false := by
      by_contra hc
      simp [hc] at hindent
    split at h
    · rename_i bullet hbullet
      obtain ⟨rfl, rfl⟩ := Prod.mk.inj (Except.ok.inj h)
      rw [isPrefixOf?_eq_some hbullet]
      exact ⟨_, rfl, .list bullet⟩
    rename_i hbullet
    split at h
    · rename_i note hnote
      obtain ⟨rfl, rfl⟩ := Prod.mk.inj (Except.ok.inj h)
      rw [noteText?_eq_some hnote]
      exact ⟨_, rfl, .note note⟩
    rename_i hnote
    split_ifs at h with hdot
    · obtain ⟨b, hb, heq⟩ := map_eq_ok h
      obtain ⟨rfl, rfl⟩ := Prod.mk.inj heq
      exact ⟨_, rfl, .command hdot hb⟩
    · obtain ⟨rfl, rfl⟩ := Prod.mk.inj (Except.ok.inj h)
      exact ⟨_, rfl, .paragraph hc (fun e => hdot (by rw [e]; rfl))
        (Option.eq_none_iff_forall_ne_some.2 hbullet) (Option.eq_none_iff_forall_ne_some.2 hnote)⟩

theorem beginLine_cases {d : Nat} {text : List Char} {items : List Item}
    (h : beginLine files base d text = .ok (items, st)) :
    BeginsLine files base d text items st := by
  have hblock : ∀ {e : Nat}, text ≠ [] → 1 ≤ e → e ≤ d →
      beginBlock files base e text = .ok (items, st) → BeginsLine files base d text items st := by
    intro e hne he hed h
    obtain ⟨o, rfl, hbegins⟩ := beginBlock_cases hne h
    exact .block hne he hed hbegins
  unfold beginLine at h
  split at h
  · rename_i hempty
    obtain ⟨rfl, rfl⟩ := Prod.mk.inj (Except.ok.inj h)
    rw [List.isEmpty_iff.1 hempty]
    exact .empty
  rename_i hempty
  have hne : text ≠ [] := fun e => hempty (by rw [e]; rfl)
  split at h
  · rename_i stars title hheading
    obtain ⟨htext, hstars⟩ := heading?_eq_some hheading
    split_ifs at h with hdeep hzero
    · obtain ⟨rfl, rfl⟩ := Prod.mk.inj (Except.ok.inj h)
      rw [htext]
      exact .heading hstars hdeep title
    · exact hblock hne (Nat.one_le_iff_ne_zero.2 hzero) le_rfl h
  · rename_i stars rest _ hheading
    obtain ⟨-, hstars⟩ := heading?_eq_some hheading
    split_ifs at h with hzero
    simp only [Bool.or_eq_true, decide_eq_true_eq, not_or] at hzero
    exact hblock hne (by omega) (min_le_left _ _) h
  · split_ifs at h with hzero
    exact hblock hne (Nat.one_le_iff_ne_zero.2 hzero) le_rfl h

theorem readLine_cases {text : List Char} {items : List Item}
    (h : readLine files base st text = .ok (items, st')) :
    ReadsLine files base st text items st' := by
  have hbegins : closeAndBegin files base st text = .ok (items, st') →
      ReadsLine files base st text items st' := by
    intro h
    obtain ⟨⟨begun, st₁⟩, hbegin, heq⟩ := map_eq_ok h
    obtain ⟨rfl, rfl⟩ := Prod.mk.inj heq
    exact .begins (beginLine_cases hbegin)
  obtain ⟨d, opened⟩ := st
  unfold readLine at h
  cases opened with
  | none => exact hbegins h
  | paragraph lines =>
    simp only at h
    split_ifs at h with hblank hdot
    · obtain ⟨rfl, rfl⟩ := Prod.mk.inj (Except.ok.inj h)
      exact .ends rfl hblank
    · exact hbegins h
    · obtain ⟨rfl, rfl⟩ := Prod.mk.inj (Except.ok.inj h)
      exact .goesOn (.paragraph (eq_false_of_ne_true hblank) hdot)
  | list bullets =>
    simp only at h
    split at h
    · rename_i bullet hbullet
      obtain ⟨rfl, rfl⟩ := Prod.mk.inj (Except.ok.inj h)
      exact .goesOn (.list (isPrefixOf?_eq_some hbullet))
    · exact hbegins h
  | preformatted indent lines =>
    simp only at h
    split_ifs at h with hempty
    · obtain ⟨rfl, rfl⟩ := Prod.mk.inj (Except.ok.inj h)
      exact .goesOn (.empty (List.isEmpty_iff.1 hempty))
    split at h
    · rename_i rest hrest
      obtain ⟨rfl, rfl⟩ := Prod.mk.inj (Except.ok.inj h)
      exact .goesOn (.preformatted (by simpa using hempty) (isPrefixOf?_eq_some hrest))
    · exact hbegins h

/-- If every step keeps an invariant, and tells only items with a property as long as it holds, all
items of a run have the property. -/
theorem forall_items_of_readItems (inv : State → Prop) {told : Item → Prop}
    (hstep : ∀ {st text items st'}, inv st → ReadsLine files base st text items st' →
      inv st' ∧ ∀ i ∈ items, told i)
    (hclose : ∀ {st}, inv st → ∀ i ∈ st.pending, told i) {lines : List Line} {items : List Item}
    (hst : inv st) (h : readItems files base st lines = .ok items) : ∀ i ∈ items, told i := by
  induction lines generalizing st items with
  | nil =>
    obtain rfl := Except.ok.inj h
    exact hclose hst
  | cons l r ih =>
    unfold readItems at h
    split at h
    · cases h
    rename_i begun st₁ hline
    obtain ⟨more, hmore, rfl⟩ := map_eq_ok h
    obtain ⟨hst₁, hbegun⟩ := hstep hst (readLine_cases hline)
    exact List.forall_mem_append.2 ⟨hbegun, ih hst₁ hmore⟩

end Lectern.Source
