import Mathlib.Tactic
import Lectern.Proofs.Source.Outline
import Lectern.Proofs.Source.Steps

/-!
# Passages of a body

The lines of a body that are not blank fall into passages, one for each heading, block or command.
`Told` says which entries the lines of a passage turn into, line by line. The main statements are
`readItems_accounts`, that the items of a body account for all its lines that are not blank, and
`readItems_follows`, that they follow each other in the order of their depths.
-/

namespace Lectern

namespace Source

open Text

/-! ## What lines tell -/

/-- A preformatted line without the indentation of its block, with its tabs expanded. -/
def unindented (indent : List Char) (l : Line) : List Char :=
  expandTabs (l.text.drop indent.length)

/-- The lines of a passage of the section at a path, each with the entry that it turns into. -/
inductive Told (files : Files) (base : Path) (path : List Nat) : List (Line × Entry) → Prop
  | heading (l : Line) (title : List Char)
      (h : l.text = List.replicate path.length '*' ++ ' ' :: title) (hpath : path ≠ []) :
      Told files base path [(l, .heading (String.ofList (trim title)))]
  | paragraph (ls : List Line) (hls : ls ≠ []) :
      Told files base path
        (ls.map fun l => (l, .paragraphLine (String.ofList (paragraphLine l.text))))
  | list (ls : List Line) (hls : ls ≠ []) (h : ∀ l ∈ ls, ['-', ' '] <+: l.text) :
      Told files base path (ls.map fun l => (l, .bullet (String.ofList (l.text.drop 2))))
  | preformatted (first : Line) (more : List Line) (indent : List Char)
      (hfirst : indent = first.text.takeWhile isBlank) (hindent : indent ≠ [])
      (h : ∀ l ∈ first :: more, indent <+: l.text) :
      Told files base path ((first :: more).zip
        ((trimLast ((first :: more).map (unindented indent))).map fun s =>
          .preformattedLine (String.ofList s)))
  | command (l : Line) (e : Element) (hdot : l.text.head? = some '.')
      (h : readCommand files base l.text = .ok (.elem e)) (he : elementEntries e = [.command e]) :
      Told files base path [(l, .command e)]
  | background (l : Line) (url : List Char) (hdot : l.text.head? = some '.')
      (h : readCommand files base l.text = .ok (.background url)) :
      Told files base path
        [(l, .style ("background-image: url('" ++ String.ofList url ++ "')"))]
  | note (l : Line) (h : [':', ' '] <+: l.text) :
      Told files base path [(l, .note (String.ofList (l.text.drop 2)))]

variable {files : Files} {base : Path}

/-- The lines of an item, each with the entry that it turns into. -/
def ToldItem (files : Files) (base : Path) (pairs : List (Line × Entry)) : Item → Prop
  | .heading n title =>
      ∃ (l : Line) (t : List Char), pairs = [(l, .heading (String.ofList title))] ∧
        l.text = List.replicate n '*' ++ ' ' :: t ∧ title = trim t
  | .block _ b => pairs.map (·.2) = blockEntries b ∧ ∀ path, Told files base path pairs

/-- The lines that have been read into the open block. -/
def Opened : OpenBlock → List Line → Prop
  | .none, ls => ls = []
  | .paragraph texts, ls => ls ≠ [] ∧ texts = ls.map fun l => paragraphLine l.text
  | .list bullets, ls => ls ≠ [] ∧ ls.map (·.text) = bullets.map (['-', ' '] ++ ·)
  | .preformatted indent texts, ls =>
      indent ≠ [] ∧
      (∃ first more, ls = first :: more ∧ indent = first.text.takeWhile isBlank) ∧
      ls.map (·.text) = (texts.filter (!isBlankLine ·)).map (indent ++ ·) ∧
      ∀ t ∈ texts, '\n' ∉ t

/-- Items and the block that is left open tell all of the lines, in order. -/
def Accounts (files : Files) (base : Path) (items : List Item) (o : OpenBlock)
    (ls : List Line) : Prop :=
  ∃ (ps : List (Item × List (Line × Entry))) (rest : List Line),
    ps.map (·.1) = items ∧ (∀ p ∈ ps, ToldItem files base p.2 p.1) ∧ Opened o rest ∧
    (ps.flatMap fun p => p.2.map (·.1)) ++ rest = ls

theorem Accounts.opened {o : OpenBlock} {ls : List Line} (h : Opened o ls) :
    Accounts files base [] o ls :=
  ⟨[], ls, rfl, by simp, h, rfl⟩

theorem Accounts.single {item : Item} (pairs : List (Line × Entry)) {ls : List Line}
    (h : ToldItem files base pairs item) (hls : pairs.map (·.1) = ls) :
    Accounts files base [item] .none ls :=
  ⟨[(item, pairs)], [], rfl, by simpa using h, rfl, by simpa using hls⟩

theorem Accounts.append {items items' : List Item} {o : OpenBlock} {ls ls' : List Line}
    (h : Accounts files base items .none ls) (h' : Accounts files base items' o ls') :
    Accounts files base (items ++ items') o (ls ++ ls') := by
  obtain ⟨ps, rest, rfl, htold, hrest, rfl⟩ := h
  obtain ⟨ps', rest', rfl, htold', hrest', rfl⟩ := h'
  obtain rfl : rest = [] := hrest
  refine ⟨ps ++ ps', rest', List.map_append .., ?_, hrest', ?_⟩
  · intro p hp
    rcases List.mem_append.1 hp with hp | hp
    · exact htold p hp
    · exact htold' p hp
  · rw [List.flatMap_append, List.append_nil, List.append_assoc]

/-! ## Closing a block -/

theorem map_fst_zip_trimLast (indent : List Char) (ls : List Line) :
    (ls.zip ((trimLast (ls.map (unindented indent))).map fun s =>
      Entry.preformattedLine (String.ofList s))).map (·.1) = ls :=
  List.map_fst_zip (by simp)

theorem map_snd_zip_trimLast (indent : List Char) (ls : List Line) :
    (ls.zip ((trimLast (ls.map (unindented indent))).map fun s =>
      Entry.preformattedLine (String.ofList s))).map (·.2) =
      (trimLast (ls.map (unindented indent))).map fun s =>
        .preformattedLine (String.ofList s) :=
  List.map_snd_zip (by simp)

/-- The lines of a preformatted text that are not blank. -/
theorem nonBlankLines_preformattedText {texts : List (List Char)} (h : ∀ t ∈ texts, '\n' ∉ t) :
    nonBlankLines (preformattedText texts) =
      trimLast ((texts.filter (!isBlankLine ·)).map expandTabs) := by
  have hfilter : (texts.map expandTabs).filter (!isBlankLine ·) =
      (texts.filter (!isBlankLine ·)).map expandTabs := by
    rw [List.filter_map]
    congr 1
    exact List.filter_congr fun t _ => by simp [isBlankLine_expandTabs]
  rw [preformattedText, expandTabs_intercalate, nonBlankLines_trimEnd_intercalate, hfilter]
  intro t ht
  obtain ⟨u, hu, rfl⟩ := List.mem_map.1 ht
  exact newline_not_mem_expandTabs (h u hu)

/-- Lines that are texts behind a prefix start with it. -/
theorem prefix_of_map_text {p : List Char} {ls : List Line} {texts : List (List Char)}
    (h : ls.map (·.text) = texts.map (p ++ ·)) : ∀ l ∈ ls, p <+: l.text := by
  intro l hl
  have hmem : l.text ∈ texts.map (p ++ ·) := h ▸ List.mem_map_of_mem hl
  obtain ⟨t, -, ht⟩ := List.mem_map.1 hmem
  exact ⟨t, ht⟩

/-- The texts are then what the lines hold behind it. -/
theorem eq_map_drop_of_map_text {p : List Char} {ls : List Line} {texts : List (List Char)}
    (h : ls.map (·.text) = texts.map (p ++ ·)) : texts = ls.map fun l => l.text.drop p.length := by
  calc texts = (texts.map (p ++ ·)).map (List.drop p.length) := by simp [Function.comp_def]
    _ = ls.map fun l => l.text.drop p.length := by rw [← h, List.map_map]; rfl

/-- A block that is closed tells the lines that have been read into it. -/
theorem close_accounts {o : OpenBlock} {ls : List Line} (h : Opened o ls) (d : Nat) :
    Accounts files base (o.close.map (.block d)) .none ls := by
  cases o with
  | none => exact Accounts.opened h
  | paragraph texts =>
    obtain ⟨hne, rfl⟩ := h
    refine Accounts.single (ls.map fun l =>
      (l, .paragraphLine (String.ofList (paragraphLine l.text)))) ⟨?_, fun path => ?_⟩ ?_
    · simp [blockEntries, Element.paragraph, elementEntries, Function.comp_def]
    · exact .paragraph ls hne
    · simp [Function.comp_def]
  | list bullets =>
    obtain ⟨hne, hls⟩ := h
    have hbullets : bullets = ls.map fun l => l.text.drop 2 := eq_map_drop_of_map_text hls
    refine Accounts.single (ls.map fun l => (l, .bullet (String.ofList (l.text.drop 2))))
      ⟨?_, fun path => ?_⟩ ?_
    · simp [blockEntries, elementEntries, hbullets, Function.comp_def]
    · exact .list ls hne (prefix_of_map_text hls)
    · simp [Function.comp_def]
  | preformatted indent texts =>
    obtain ⟨hindent, ⟨first, more, rfl, hfirst⟩, hls, hnl⟩ := h
    have htexts : (texts.filter (!isBlankLine ·)).map expandTabs =
        (first :: more).map (unindented indent) := by
      rw [eq_map_drop_of_map_text hls, List.map_map]
      rfl
    refine Accounts.single ((first :: more).zip
        ((trimLast ((first :: more).map (unindented indent))).map fun s =>
          .preformattedLine (String.ofList s))) ⟨?_, fun path => ?_⟩ ?_
    · rw [map_snd_zip_trimLast, ← htexts, ← nonBlankLines_preformattedText hnl]
      simp [blockEntries, Element.preformatted, elementEntries]
    · exact .preformatted first more indent hfirst hindent (prefix_of_map_text hls)
    · exact map_fst_zip_trimLast indent _

/-! ## Beginning a block -/

/-- A command adds one element, or sets the background. -/
theorem element_or_background_of_readCommand {text : List Char} {b : Block}
    (h : readCommand files base text = .ok b) :
    (∃ e, b = .elem e ∧ elementEntries e = [.command e]) ∨ ∃ url, b = .background url := by
  cases readCommand_cases h with
  | background _ _ => exact Or.inr ⟨_, rfl⟩
  | _ => exact Or.inl ⟨_, rfl, rfl⟩

theorem readCommand_ne_sub {text : List Char} {b : Block}
    (h : readCommand files base text = .ok b) (s : Section) : b ≠ .elem (.sub s) := by
  rintro rfl
  rcases element_or_background_of_readCommand h with ⟨e, he, hentries⟩ | ⟨url, hurl⟩
  · obtain rfl := Block.elem.inj he
    simp [elementEntries] at hentries
  · cases hurl

/-- A command tells its line. -/
theorem told_readCommand {l : Line} {b : Block} (hdot : l.text.head? = some '.')
    (h : readCommand files base l.text = .ok b) (d : Nat) :
    Accounts files base [.block d b] .none [l] := by
  rcases element_or_background_of_readCommand h with ⟨e, rfl, he⟩ | ⟨url, rfl⟩
  · exact Accounts.single [(l, .command e)]
      ⟨he.symm, fun path => .command l e hdot h he⟩ rfl
  · exact Accounts.single
      [(l, .style ("background-image: url('" ++ String.ofList url ++ "')"))]
      ⟨rfl, fun path => .background l url hdot h⟩ rfl

/-- The line alone if it is not blank, else nothing. -/
def ifNotBlank (l : Line) : List Line := [l].filter fun l => !isBlankLine l.text

theorem ifNotBlank_of_isBlankLine {l : Line} (h : isBlankLine l.text = true) :
    ifNotBlank l = [] := by
  simp [ifNotBlank, h]

theorem ifNotBlank_of_isBlankLine_eq_false {l : Line} (h : isBlankLine l.text = false) :
    ifNotBlank l = [l] := by
  simp [ifNotBlank, h]

theorem ifNotBlank_of_head {l : Line} {c : Char} {r : List Char} (h : l.text = c :: r)
    (hc : isBlank c = false) : ifNotBlank l = [l] := by
  simp [ifNotBlank, h, hc]

/-- The first line of a block is told at once or opens the block. -/
theorem BeginsBlock.accounts {d : Nat} {l : Line} {items : List Item} {o : OpenBlock}
    (hnl : '\n' ∉ l.text) (h : BeginsBlock files base d l.text items o) :
    Accounts files base items o (ifNotBlank l) := by
  generalize htext : l.text = text at h
  cases h with
  | blank hblank =>
    rw [ifNotBlank_of_isBlankLine (htext ▸ hblank)]
    exact Accounts.opened rfl
  | @preformatted indent c r hne hindent hc =>
    have hline : isBlankLine l.text = false := by simp [htext, hc]
    have htake : l.text.takeWhile isBlank = indent := by
      rw [htext]
      exact (span_append (List.all_eq_true.1 hindent) (by simpa using hc)).1
    rw [ifNotBlank_of_isBlankLine_eq_false hline]
    refine Accounts.opened ⟨hne, ⟨l, [], rfl, htake.symm⟩, by simp [htext, hc], ?_⟩
    intro t ht hn
    rw [List.mem_singleton.1 ht] at hn
    exact hnl (htext ▸ List.mem_append_right indent hn)
  | list bullet =>
    rw [ifNotBlank_of_head htext rfl]
    exact Accounts.opened ⟨by simp, by simp [htext]⟩
  | note note =>
    rw [ifNotBlank_of_head htext rfl]
    exact Accounts.single [(l, .note (String.ofList (l.text.drop 2)))]
      ⟨by simp [blockEntries, htext], fun path => .note l ⟨note, htext.symm⟩⟩ rfl
  | command hdot hb =>
    obtain ⟨r, hr⟩ := List.head?_eq_some_iff.1 hdot
    rw [ifNotBlank_of_head (htext.trans hr) rfl]
    exact told_readCommand (htext ▸ hdot) (htext ▸ hb) d
  | paragraph hc hdot hlist hnote =>
    rw [ifNotBlank_of_head htext hc]
    exact Accounts.opened ⟨by simp, by rw [← htext]; rfl⟩

/-! ## Reading on -/

/-- A line that starts something new is told at once or opens a block. -/
theorem BeginsLine.accounts {d : Nat} {l : Line} {items : List Item} {st : State}
    (hnl : '\n' ∉ l.text) (h : BeginsLine files base d l.text items st) :
    Accounts files base items st.opened (ifNotBlank l) := by
  generalize htext : l.text = text at h
  cases h with
  | empty =>
    rw [ifNotBlank_of_isBlankLine (by simp [htext])]
    exact Accounts.opened rfl
  | heading hn hdepth title =>
    obtain ⟨k, rfl⟩ := Nat.exists_eq_add_of_le' hn
    rw [ifNotBlank_of_head (by rw [htext]; rfl) rfl]
    exact Accounts.single [(l, .heading (String.ofList (trim title)))]
      ⟨l, title, rfl, htext, rfl⟩ rfl
  | block hne he hdepth h =>
    rw [← htext] at h
    exact h.accounts hnl

/-- A line that goes on with the open block joins the lines of this block. -/
theorem OpenBlock.Extends.opened {o o' : OpenBlock} {ls : List Line} {l : Line}
    (h : o.Extends l.text o') (ho : Opened o ls) (hnl : '\n' ∉ l.text) :
    Opened o' (ls ++ ifNotBlank l) := by
  cases h with
  | paragraph hblank hdot =>
    obtain ⟨hne, rfl⟩ := ho
    rw [ifNotBlank_of_isBlankLine_eq_false hblank]
    exact ⟨by simp, by simp⟩
  | list htext =>
    obtain ⟨hne, hls⟩ := ho
    rw [ifNotBlank_of_head htext rfl]
    exact ⟨by simp, by rw [List.map_append, List.map_append, hls]; simp [htext]⟩
  | empty htext =>
    obtain ⟨hindent, hfirst, hls, hlines⟩ := ho
    rw [ifNotBlank_of_isBlankLine (by simp [htext]), List.append_nil]
    refine ⟨hindent, hfirst, by simpa using hls, ?_⟩
    exact List.forall_mem_append.2 ⟨hlines, List.forall_mem_singleton.2 List.not_mem_nil⟩
  | @preformatted indent rest _ hne htext =>
    obtain ⟨hindent, ⟨first, more, rfl, hfirst⟩, hls, hlines⟩ := ho
    have hblank : isBlankLine indent = true := by rw [hfirst]; exact isBlankLine_takeWhile _
    refine ⟨hindent, ⟨first, more ++ ifNotBlank l, rfl, hfirst⟩, ?_,
      List.forall_mem_append.2 ⟨hlines, List.forall_mem_singleton.2 fun hn =>
        hnl (htext ▸ List.mem_append_right indent hn)⟩⟩
    rw [List.map_append, hls, List.filter_append, List.map_append]
    congr 1
    cases hb : isBlankLine rest with
    | true => rw [ifNotBlank_of_isBlankLine (by simp [htext, hblank, hb])]; simp [hb]
    | false =>
      rw [ifNotBlank_of_isBlankLine_eq_false (by simp [htext, hb])]
      simp [hb, htext]

/-- A line goes on with the open block, or is told after the lines of this block. -/
theorem ReadsLine.accounts {s st : State} {ls : List Line} {l : Line} {items : List Item}
    (hs : Opened s.opened ls) (hnl : '\n' ∉ l.text) (h : ReadsLine files base s l.text items st) :
    Accounts files base items st.opened (ls ++ ifNotBlank l) := by
  cases h with
  | goesOn h => exact Accounts.opened (h.opened hs hnl)
  | ends hopened hblank =>
    rw [ifNotBlank_of_isBlankLine hblank, List.append_nil]
    exact close_accounts hs s.depth
  | begins h => exact (close_accounts hs s.depth).append (h.accounts hnl)

/-- The items that are read account for all lines that are not blank. -/
theorem readItems_accounts {lines : List Line} (hnl : ∀ l ∈ lines, '\n' ∉ l.text) {s : State}
    {ls : List Line} {items : List Item} (hs : Opened s.opened ls)
    (h : readItems files base s lines = .ok items) :
    Accounts files base items .none (ls ++ lines.filter fun l => !isBlankLine l.text) := by
  induction lines generalizing s ls items with
  | nil =>
    obtain rfl := Except.ok.inj h
    rw [List.filter_nil, List.append_nil]
    exact close_accounts hs s.depth
  | cons l r ih =>
    unfold readItems at h
    split at h
    · cases h
    rename_i begun st hline
    obtain ⟨items', hrest, rfl⟩ := map_eq_ok h
    have hfirst := (readLine_cases hline).accounts hs (hnl l (List.mem_cons_self ..))
    obtain ⟨ps, rest, rfl, htold, hopened, hlines⟩ := hfirst
    have ih := ih (fun m hm => hnl m (List.mem_cons_of_mem l hm)) hopened hrest
    have hsplit : ls ++ (l :: r).filter (fun l => !isBlankLine l.text) =
        (ps.flatMap fun p => p.2.map (·.1)) ++
          (rest ++ r.filter fun l => !isBlankLine l.text) := by
      rw [← List.singleton_append, List.filter_append, ← List.append_assoc, ← List.append_assoc,
        hlines]
      rfl
    rw [hsplit]
    exact Accounts.append ⟨ps, [], rfl, htold, rfl, List.append_nil _⟩ ih

/-! ## The order of depths -/

/-- In front of the first heading no block is open. -/
def State.Sound (st : State) : Prop := st.depth = 0 → st.opened = .none

/-- Items that can follow in a section at a depth, and behind which the section at the other depth
goes on. -/
def Leads (d : Nat) (items : List Item) (e : Nat) : Prop :=
  ∀ r, Follows e r → Follows d (items ++ r)

theorem Leads.refl (d : Nat) : Leads d [] d := fun _ hr => hr

theorem Leads.trans {d e f : Nat} {items items' : List Item} (h : Leads d items e)
    (h' : Leads e items' f) : Leads d (items ++ items') f := by
  intro r hr
  rw [List.append_assoc]
  exact h _ (h' r hr)

/-- A section that is not as deep can follow as well. -/
theorem Follows.mono {d e : Nat} (hde : e ≤ d) {items : List Item} (h : Follows e items) :
    Follows d items := by
  cases items with
  | nil => trivial
  | cons item r =>
    cases item with
    | heading n title =>
      obtain ⟨hn, hne, hr⟩ := h
      exact ⟨hn, by omega, hr⟩
    | block n b =>
      obtain ⟨⟨hn, hne, hb⟩, hr⟩ := h
      exact ⟨⟨hn, hne.trans hde, hb⟩, hr⟩

/-- Closing a block stays in its section. -/
theorem close_leads {s : State} (hs : s.Sound) :
    Leads s.depth (s.opened.close.map (.block s.depth)) s.depth := by
  obtain ⟨d, opened⟩ := s
  intro r hr
  cases opened with
  | none => exact hr
  | _ =>
    have hd : 1 ≤ d := Nat.one_le_iff_ne_zero.2 fun h0 => OpenBlock.noConfusion (hs h0)
    exact ⟨⟨hd, le_rfl, fun s e => Element.noConfusion (Block.elem.inj e)⟩, hr⟩

/-- The first line of a block stays in its section. -/
theorem BeginsBlock.leads {d : Nat} (hd : 1 ≤ d) {text : List Char} {items : List Item}
    {o : OpenBlock} (h : BeginsBlock files base d text items o) : Leads d items d := by
  cases h with
  | note note => exact fun r hr => ⟨⟨hd, le_rfl, fun s e => Block.noConfusion e⟩, hr⟩
  | command hdot hb => exact fun r hr => ⟨⟨hd, le_rfl, readCommand_ne_sub hb⟩, hr⟩
  | _ => exact Leads.refl d

/-- A line that starts something new leads on. -/
theorem BeginsLine.leads {d : Nat} {text : List Char} {items : List Item} {st : State}
    (h : BeginsLine files base d text items st) : Leads d items st.depth ∧ st.Sound := by
  cases h with
  | empty => exact ⟨Leads.refl d, fun _ => rfl⟩
  | heading hn hdepth title => exact ⟨fun r hr => ⟨hn, hdepth, hr⟩, fun _ => rfl⟩
  | block hne he hdepth h =>
    exact ⟨fun r hr => (h.leads he r hr).mono hdepth, fun h0 => absurd h0 (Nat.ne_of_gt he)⟩

/-- A line leads on. -/
theorem ReadsLine.leads {s st : State} (hs : s.Sound) {text : List Char} {items : List Item}
    (h : ReadsLine files base s text items st) : Leads s.depth items st.depth ∧ st.Sound := by
  cases h with
  | goesOn h =>
    refine ⟨Leads.refl s.depth, fun h0 => ?_⟩
    rw [hs h0] at h
    cases h
  | ends hopened hblank => exact ⟨close_leads hs, fun _ => rfl⟩
  | begins h =>
    obtain ⟨hleads, hsound⟩ := h.leads
    exact ⟨(close_leads hs).trans hleads, hsound⟩

/-- The items that are read follow each other in the order of their depths. -/
theorem readItems_follows {lines : List Line} {s : State} (hs : s.Sound) {items : List Item}
    (h : readItems files base s lines = .ok items) : Follows s.depth items := by
  induction lines generalizing s items with
  | nil =>
    obtain rfl := Except.ok.inj h
    have := close_leads hs [] trivial
    rwa [List.append_nil] at this
  | cons l r ih =>
    unfold readItems at h
    split at h
    · cases h
    rename_i begun st hline
    obtain ⟨items', hrest, rfl⟩ := map_eq_ok h
    obtain ⟨hleads, hsound⟩ := (readLine_cases hline).leads hs
    exact hleads _ (ih hsound hrest)

end Source

end Lectern
