import Mathlib.Data.List.GetD
import Mathlib.Data.List.TakeWhile
import Mathlib.Tactic
import Lectern.Proofs.Source.Entries

/-!
# The outline keeps the entries

Items are read from front to back, but their outline is folded from the end. `placeItems` gives the
entries of items in the order in which they are read, with the channels of the sections that they
belong to. The main statement, `inChannel_walk_outline`, is that the outline shows in every channel
just these entries, in this order.
-/

namespace Lectern

namespace Source

open Text

/-! ## Items in the order of their depths -/

/-- Items that can follow in a section at a depth: a heading is at most one deeper, a block belongs
to this section or to one around it, and no block is a section. -/
def Follows : Nat → List Item → Prop
  | _, [] => True
  | d, .heading n _ :: r => 1 ≤ n ∧ n ≤ d + 1 ∧ Follows n r
  | d, .block e b :: r => (1 ≤ e ∧ e ≤ d ∧ ∀ s, b ≠ .elem (.sub s)) ∧ Follows e r

/-- The path of the next section at a depth, where `counters` is the path of the last section. -/
def nextPath (counters : List Nat) (depth : Nat) : List Nat :=
  counters.take (depth - 1) ++ [counters.getD (depth - 1) 0 + 1]

/-- The entries of a block. -/
def blockEntries : Block → List Entry
  | .elem e => elementEntries e
  | .note t => [.note (String.ofList t)]
  | .background url => [.style ("background-image: url('" ++ String.ofList url ++ "')")]

/-- The entries of items with their channels, where `counters` is the path of the last section in
front of the items. -/
def placeItems (counters : List Nat) : List Item → List (Channel × Entry)
  | [] => []
  | .heading n title :: r =>
      Entry.placed (nextPath counters n) (.heading (String.ofList title)) ::
        placeItems (nextPath counters n) r
  | .block d b :: r =>
      (blockEntries b).map (Entry.placed (counters.take d)) ++ placeItems counters r

/-- The entries of blocks that are given with the depths of their sections, some of them sections
themselves. -/
def placeBlocks (counters : List Nat) : List (Nat × Block) → List (Channel × Entry)
  | [] => []
  | (d, .elem (.sub s)) :: r =>
      walkSection (nextPath counters (d + 1)) s ++ placeBlocks (nextPath counters (d + 1)) r
  | (d, b) :: r =>
      (blockEntries b).map (Entry.placed (counters.take d)) ++ placeBlocks counters r

theorem placeBlocks_cons_sub (counters : List Nat) (d : Nat) (s : Section)
    (r : List (Nat × Block)) :
    placeBlocks counters ((d, .elem (.sub s)) :: r) =
      walkSection (nextPath counters (d + 1)) s ++ placeBlocks (nextPath counters (d + 1)) r := by
  rw [placeBlocks]

theorem placeBlocks_cons_of_ne {b : Block} (hb : ∀ s, b ≠ .elem (.sub s)) (counters : List Nat)
    (d : Nat) (r : List (Nat × Block)) :
    placeBlocks counters ((d, b) :: r) =
      (blockEntries b).map (Entry.placed (counters.take d)) ++ placeBlocks counters r := by
  rw [placeBlocks]
  exact fun s e => hb s e

/-! ## Paths -/

theorem length_nextPath {counters : List Nat} {n : Nat} (hn : 1 ≤ n)
    (h : n ≤ counters.length + 1) : (nextPath counters n).length = n := by
  simp only [nextPath, List.length_append, List.length_take, List.length_singleton]
  omega

/-- A new section below a path leaves the path as it is. -/
theorem take_nextPath {counters : List Nat} {n d : Nat} (hnd : n ≤ d) (hd : d ≤ counters.length) :
    (nextPath counters (d + 1)).take n = counters.take n := by
  rw [nextPath, Nat.add_sub_cancel, List.take_append_of_le_length, List.take_take,
    Nat.min_eq_left hnd]
  rw [List.length_take]
  omega

theorem getD_nextPath {counters : List Nat} {d : Nat} (hd : d ≤ counters.length) :
    (nextPath counters (d + 1)).getD d 0 = counters.getD d 0 + 1 := by
  have hlen : (counters.take d).length = d := by rw [List.length_take]; omega
  rw [nextPath, Nat.add_sub_cancel, List.getD_eq_getElem?_getD,
    List.getElem?_append_right (by omega), hlen, Nat.sub_self]
  rfl

theorem take_congr {c c' : List Nat} {n d : Nat} (h : c.take n = c'.take n) (hd : d ≤ n) :
    c.take d = c'.take d := by
  rw [← Nat.min_eq_left hd, ← List.take_take, h, List.take_take]

theorem nextPath_congr {c c' : List Nat} {n d : Nat} (h : c.take n = c'.take n) (hd : d < n) :
    nextPath c (d + 1) = nextPath c' (d + 1) := by
  have hget : c.getD d 0 = c'.getD d 0 := by
    have := congrArg (fun l : List Nat => l.getD d 0) h
    simpa [List.getD_eq_getElem?_getD, List.getElem?_take, hd] using this
  rw [nextPath, nextPath, Nat.add_sub_cancel, take_congr h hd.le, hget]

/-- Blocks of shallower sections do not depend on the path below those. -/
theorem placeBlocks_congr {n : Nat} {c c' : List Nat} (h : c.take n = c'.take n) :
    ∀ {blocks : List (Nat × Block)}, (∀ x ∈ blocks, x.1 < n) →
      placeBlocks c blocks = placeBlocks c' blocks
  | [], _ => rfl
  | (d, b) :: r, hr => by
    have hd : d < n := hr (d, b) (List.mem_cons_self ..)
    by_cases hb : ∃ s, b = .elem (.sub s)
    · obtain ⟨s, rfl⟩ := hb
      rw [placeBlocks_cons_sub, placeBlocks_cons_sub, nextPath_congr h hd]
    · have hb : ∀ s, b ≠ .elem (.sub s) := fun s e => hb ⟨s, e⟩
      rw [placeBlocks_cons_of_ne hb, placeBlocks_cons_of_ne hb, take_congr h hd.le,
        placeBlocks_congr h fun x hx => hr x (List.mem_cons_of_mem _ hx)]

/-! ## The blocks behind a heading -/

/-- The blocks that are gathered so far. -/
def gathered (items : List Item) : List (Nat × Block) := items.foldr gather []

@[simp] theorem gathered_nil : gathered [] = [] := rfl

theorem gathered_cons_block (d : Nat) (b : Block) (r : List Item) :
    gathered (.block d b :: r) = (d, b) :: gathered r := rfl

/-- The section of a heading: what is gathered behind it, up to the first block of a section that
is not as deep. -/
def gatheredSection (n : Nat) (title : List Char) (r : List Item) : Section :=
  sectionOf title (((gathered r).takeWhile fun x => decide (n ≤ x.1)).map (·.2))

theorem gathered_cons_heading (n : Nat) (title : List Char) (r : List Item) :
    gathered (.heading n title :: r) =
      (n - 1, .elem (.sub (gatheredSection n title r))) ::
        (gathered r).dropWhile fun x => decide (n ≤ x.1) := rfl

/-- Behind the blocks of a section all are of sections that are not as deep. -/
theorem lt_of_mem_dropWhile {n : Nat} :
    ∀ {l : List (Nat × Block)}, l.Pairwise (fun x y => y.1 ≤ x.1) →
      ∀ x ∈ l.dropWhile fun x => decide (n ≤ x.1), x.1 < n
  | [], _ => by simp
  | a :: l, h => by
    rw [List.pairwise_cons] at h
    rw [List.dropWhile_cons]
    split_ifs with ha
    · exact lt_of_mem_dropWhile h.2
    · have ha : a.1 < n := by simpa using ha
      intro x hx
      rcases List.mem_cons.1 hx with rfl | hx
      · exact ha
      · exact (h.1 x hx).trans_lt ha

/-- Gathered blocks never get deeper. -/
theorem gathered_sorted : ∀ {items : List Item} {d : Nat}, Follows d items →
    (∀ x ∈ gathered items, x.1 ≤ d) ∧ (gathered items).Pairwise fun x y => y.1 ≤ x.1
  | [], _, _ => by simp
  | .heading n title :: r, d, h => by
    obtain ⟨hn, hnd, hr⟩ := h
    obtain ⟨-, hpair⟩ := gathered_sorted hr
    have hsub := List.dropWhile_sublist (l := gathered r) fun x => decide (n ≤ x.1)
    have hlt := lt_of_mem_dropWhile (n := n) hpair
    rw [gathered_cons_heading]
    constructor
    · intro x hx
      rcases List.mem_cons.1 hx with rfl | hx
      · exact (Nat.sub_le_iff_le_add.2 hnd)
      · have := hlt x hx
        omega
    · refine List.pairwise_cons.2 ⟨fun x hx => ?_, hpair.sublist hsub⟩
      have := hlt x hx
      exact Nat.le_sub_one_of_lt this
  | .block e b :: r, d, h => by
    obtain ⟨⟨-, hed, -⟩, hr⟩ := h
    obtain ⟨hle, hpair⟩ := gathered_sorted hr
    rw [gathered_cons_block]
    constructor
    · intro x hx
      rcases List.mem_cons.1 hx with rfl | hx
      · exact hed
      · exact (hle x hx).trans hed
    · exact List.pairwise_cons.2 ⟨hle, hpair⟩

/-- Outside of all sections nothing but sections is gathered. -/
theorem exists_sub_of_mem_gathered : ∀ {items : List Item} {d : Nat}, Follows d items →
    ∀ x ∈ gathered items, x.1 = 0 → ∃ s, x.2 = .elem (.sub s)
  | [], _, _ => by simp
  | .heading n title :: r, d, h => by
    intro x hx h0
    rw [gathered_cons_heading] at hx
    rcases List.mem_cons.1 hx with rfl | hx
    · exact ⟨_, rfl⟩
    · exact exists_sub_of_mem_gathered h.2.2 x ((List.dropWhile_sublist _).subset hx) h0
  | .block e b :: r, d, h => by
    intro x hx h0
    obtain ⟨⟨he, -, -⟩, hr⟩ := h
    rw [gathered_cons_block] at hx
    rcases List.mem_cons.1 hx with rfl | hx
    · exact absurd h0 (Nat.one_le_iff_ne_zero.1 he)
    · exact exists_sub_of_mem_gathered hr x hx h0

/-! ## The entries of a section -/

/-- The notes and styles of the section at a path that holds the blocks. -/
def asides (path : List Nat) (blocks : List Block) : List (Channel × Entry) :=
  ((sectionOf [] blocks).notes.map fun s => Entry.placed path (.note s)) ++
    (sectionOf [] blocks).styles.map fun s => Entry.placed path (.style s)

/-- The entries of the blocks of the section at a path, of which the next subsection is that at the
position `next`. -/
def heldEntries (path : List Nat) (next : Nat) (blocks : List Block) : List (Channel × Entry) :=
  asides path blocks ++ walkElements path next (sectionOf [] blocks).elems

theorem walkSection_sectionOf (path : List Nat) (title : List Char) (blocks : List Block) :
    walkSection path (sectionOf title blocks) =
      Entry.placed path (.heading (String.ofList title)) :: heldEntries path 1 blocks := by
  rw [heldEntries, asides, sectionOf, walkSection, List.cons_append, List.cons_append]
  rfl

theorem channel_of_mem_notes {path : List Nat} {notes : List String} {x : Channel × Entry}
    (hx : x ∈ notes.map fun s => Entry.placed path (.note s)) : x.1 = .notes path := by
  obtain ⟨s, -, rfl⟩ := List.mem_map.1 hx
  rfl

theorem channel_of_mem_asides {path : List Nat} {blocks : List Block} {x : Channel × Entry}
    (hx : x ∈ asides path blocks) : x.1 = .notes path ∨ x.1 = .styles path := by
  rcases List.mem_append.1 hx with hx | hx
  · exact Or.inl (channel_of_mem_notes hx)
  · obtain ⟨s, -, rfl⟩ := List.mem_map.1 hx
    exact Or.inr rfl

/-- A channel of a section that lies deeper is none of the section around it. -/
theorem ne_of_below {path : List Nat} {next : Nat} {c : Channel}
    (h : c.Below (path ++ [next])) : .notes path ≠ c ∧ .styles path ≠ c := by
  have hlen : ¬ path ++ [next] <+: path := fun e => by
    have := e.length_le
    simp at this
  constructor
  · rintro rfl
    exact hlen h
  · rintro rfl
    exact hlen h

theorem section?_eq_none_of_ne {e : Element} (h : ∀ s, e ≠ .sub s) : e.section? = none := by
  cases e with
  | sub s => exact absurd rfl (h s)
  | _ => rfl

/-- In every channel the entries of a block come before those of the blocks behind it. -/
theorem inChannel_heldEntries_cons {b : Block} (hb : ∀ s, b ≠ .elem (.sub s)) (path : List Nat)
    (next : Nat) (blocks : List Block) (c : Channel) :
    inChannel c (heldEntries path next (b :: blocks)) =
      inChannel c ((blockEntries b).map (Entry.placed path)) ++
        inChannel c (heldEntries path next blocks) := by
  cases b with
  | note t => exact inChannel_cons ..
  | background url =>
    have hstep : heldEntries path next (.background url :: blocks) =
        ((sectionOf [] blocks).notes.map fun s => Entry.placed path (.note s)) ++
          ((blockEntries (.background url)).map (Entry.placed path) ++
            (((sectionOf [] blocks).styles.map fun s => Entry.placed path (.style s)) ++
              walkElements path next (sectionOf [] blocks).elems)) := by
      rw [heldEntries, asides, List.append_assoc]
      rfl
    rw [hstep, inChannel_move, heldEntries, asides, List.append_assoc]
    intro x hx y hy
    rw [channel_of_mem_notes hx, List.mem_singleton.1 hy]
    exact Channel.noConfusion
  | elem e =>
    have he : e.section? = none := section?_eq_none_of_ne fun s h => hb s (congrArg Block.elem h)
    have hstep : heldEntries path next (.elem e :: blocks) =
        asides path blocks ++ ((blockEntries (.elem e)).map (Entry.placed path) ++
          walkElements path next (sectionOf [] blocks).elems) := by
      rw [blockEntries, ← walkElements_cons_of_section?_eq_none he]
      rfl
    rw [hstep, inChannel_move, heldEntries]
    intro x hx y hy
    obtain ⟨z, hz, rfl⟩ := List.mem_map.1 hy
    have hflow : (Entry.placed path z).1 = .flow := channel_of_mem_elementEntries hz path
    rw [hflow]
    rcases channel_of_mem_asides hx with h | h <;> rw [h] <;> exact Channel.noConfusion

/-- In every channel the entries of a subsection come before those of the blocks behind it. -/
theorem inChannel_heldEntries_cons_sub (s : Section) (path : List Nat) (next : Nat)
    (blocks : List Block) (c : Channel) :
    inChannel c (heldEntries path next (.elem (.sub s) :: blocks)) =
      inChannel c (walkSection (path ++ [next]) s) ++
        inChannel c (heldEntries path (next + 1) blocks) := by
  have hstep : heldEntries path next (.elem (.sub s) :: blocks) =
      asides path blocks ++ (walkSection (path ++ [next]) s ++
        walkElements path (next + 1) (sectionOf [] blocks).elems) := by
    rw [← walkElements_cons_sub]
    rfl
  rw [hstep, inChannel_move, heldEntries]
  intro x hx y hy
  obtain ⟨hn, hs⟩ := ne_of_below (below_of_mem_walkSection _ _ y hy)
  rcases channel_of_mem_asides hx with h | h <;> rw [h] <;> assumption

/-- In every channel the entries of a section, and then those of the blocks behind it, are those
of all these blocks one after the other. -/
theorem inChannel_section_then_rest {n : Nat} {path : List Nat} (hpath : path.length = n)
    (c : Channel) :
    ∀ (counters : List Nat) {blocks : List (Nat × Block)},
      (∀ x ∈ blocks, x.1 ≤ n) → blocks.Pairwise (fun x y => y.1 ≤ x.1) →
      n ≤ counters.length → counters.take n = path →
      inChannel c (heldEntries path (counters.getD n 0 + 1)
          ((blocks.takeWhile fun x => decide (n ≤ x.1)).map (·.2)) ++
        placeBlocks path (blocks.dropWhile fun x => decide (n ≤ x.1))) =
      inChannel c (placeBlocks counters blocks)
  | _, [], _, _, _, _ => rfl
  | counters, (d, b) :: r, hle, hpair, hlen, htake => by
    have hd : d ≤ n := hle (d, b) (List.mem_cons_self ..)
    by_cases hdn : n ≤ d
    · obtain rfl : d = n := Nat.le_antisymm hd hdn
      have ih := fun counters => inChannel_section_then_rest hpath c counters
        (fun x hx => hle x (List.mem_cons_of_mem _ hx)) (List.pairwise_cons.1 hpair).2
      rw [List.takeWhile_cons_of_pos (by simp), List.dropWhile_cons_of_pos (by simp),
        List.map_cons, inChannel_append]
      by_cases hb : ∃ s, b = .elem (.sub s)
      · obtain ⟨s, rfl⟩ := hb
        have hnext : nextPath counters (d + 1) = path ++ [counters.getD d 0 + 1] := by
          rw [nextPath, Nat.add_sub_cancel, htake]
        have ih := ih (nextPath counters (d + 1))
          (by rw [length_nextPath (by omega) (by omega)]; omega)
          (by rw [take_nextPath le_rfl hlen, htake])
        rw [getD_nextPath hlen, inChannel_append] at ih
        rw [inChannel_heldEntries_cons_sub, List.append_assoc, ih, placeBlocks_cons_sub,
          inChannel_append, hnext]
      · have hb : ∀ s, b ≠ .elem (.sub s) := fun s e => hb ⟨s, e⟩
        have ih := ih counters hlen htake
        rw [inChannel_append] at ih
        rw [inChannel_heldEntries_cons hb, List.append_assoc, ih, placeBlocks_cons_of_ne hb,
          inChannel_append, htake]
    · have hlt : ∀ x ∈ (d, b) :: r, x.1 < n := by
        intro x hx
        rcases List.mem_cons.1 hx with rfl | hx
        · exact Nat.lt_of_not_le hdn
        · exact ((List.pairwise_cons.1 hpair).1 x hx).trans_lt (Nat.lt_of_not_le hdn)
      have htop : path.take n = counters.take n := by
        rw [htake, List.take_of_length_le hpath.le]
      rw [List.takeWhile_cons_of_neg (by simpa using hdn),
        List.dropWhile_cons_of_neg (by simpa using hdn), placeBlocks_congr htop hlt]
      rfl

/-- Gathering items keeps their entries in every channel. -/
theorem inChannel_placeBlocks_gathered (c : Channel) :
    ∀ {items : List Item} {d : Nat} {counters : List Nat}, Follows d items →
      d ≤ counters.length →
      inChannel c (placeBlocks counters (gathered items)) =
        inChannel c (placeItems counters items)
  | [], _, _, _, _ => rfl
  | .heading n title :: r, d, counters, h, hlen => by
    obtain ⟨hn, hnd, hr⟩ := h
    obtain ⟨hle, hpair⟩ := gathered_sorted hr
    have hpath : (nextPath counters n).length = n := length_nextPath hn (by omega)
    have hfirst : (nextPath counters n).getD n 0 = 0 := List.getD_eq_default _ _ hpath.le
    have hrest := inChannel_section_then_rest hpath c _ hle hpair hpath.ge
      (List.take_of_length_le hpath.le)
    have ih := inChannel_placeBlocks_gathered c hr hpath.ge
    rw [hfirst] at hrest
    rw [gathered_cons_heading, placeBlocks_cons_sub, Nat.sub_add_cancel hn, gatheredSection,
      walkSection_sectionOf, List.cons_append, inChannel_cons, hrest, ih, placeItems,
      inChannel_cons c _ (placeItems _ r)]
  | .block e b :: r, d, counters, h, hlen => by
    obtain ⟨⟨-, hed, hb⟩, hr⟩ := h
    have ih := inChannel_placeBlocks_gathered c hr (hed.trans hlen)
    rw [gathered_cons_block, placeBlocks_cons_of_ne hb, inChannel_append, ih, placeItems,
      inChannel_append]

/-! ## Numbering -/

mutual

theorem walkSection_renumber (number path : List Nat) (s : Section) :
    walkSection path (renumber number s) = walkSection path s := by
  obtain ⟨n, title, elems, notes, classes, styles⟩ := s
  rw [renumber, walkSection, walkSection, walkElements_renumberFrom]

theorem walkElements_renumberFrom (number : List Nat) (k : Nat) (path : List Nat) (next : Nat)
    (es : List Element) :
    walkElements path next (renumberFrom number k es) = walkElements path next es := by
  cases es with
  | nil => rfl
  | cons e r =>
    cases e with
    | sub s =>
      rw [renumberFrom, walkElements_cons_sub, walkElements_cons_sub, walkSection_renumber,
        walkElements_renumberFrom]
    | _ =>
      rw [renumberFrom]
      rw [walkElements_cons_of_section?_eq_none rfl, walkElements_cons_of_section?_eq_none rfl,
        walkElements_renumberFrom]

end

/-- Elements that are all sections are those of the sections among them. -/
theorem map_sub_filterMap_renumberFrom (number : List Nat) :
    ∀ (k : Nat) {es : List Element}, (∀ e ∈ es, ∃ s, e = .sub s) →
      ((renumberFrom number k es).filterMap Element.section?).map .sub = renumberFrom number k es
  | _, [], _ => rfl
  | k, e :: r, h => by
    obtain ⟨s, rfl⟩ := h e (List.mem_cons_self ..)
    have ih := map_sub_filterMap_renumberFrom number (k + 1) fun e he =>
      h e (List.mem_cons_of_mem _ he)
    rw [renumberFrom, List.filterMap_cons]
    exact congrArg _ ih

/-- Blocks that are all sections leave no notes and no styles. -/
theorem asides_eq_nil (path : List Nat) {blocks : List Block}
    (h : ∀ b ∈ blocks, ∃ s, b = .elem (.sub s)) : asides path blocks = [] := by
  have hnotes : (sectionOf [] blocks).notes = [] := List.filterMap_eq_nil_iff.2 fun b hb => by
    obtain ⟨s, rfl⟩ := h b hb
    rfl
  have hstyles : (sectionOf [] blocks).styles = [] := List.filterMap_eq_nil_iff.2 fun b hb => by
    obtain ⟨s, rfl⟩ := h b hb
    rfl
  rw [asides, hnotes, hstyles]
  rfl

/-- The outline shows in every channel the entries of the items, in the order of the items. -/
theorem inChannel_walk_outline {items : List Item} (h : Follows 0 items) (c : Channel) :
    inChannel c (walk (outline items)) = inChannel c (placeItems [] items) := by
  obtain ⟨hle, hpair⟩ := gathered_sorted h
  have hsub : ∀ b ∈ (gathered items).map (·.2), ∃ s, b = .elem (.sub s) := by
    intro b hb
    obtain ⟨x, hx, rfl⟩ := List.mem_map.1 hb
    exact exists_sub_of_mem_gathered h x hx (Nat.le_zero.1 (hle x hx))
  have htop : ∀ e ∈ (sectionOf [] ((gathered items).map (·.2))).elems, ∃ s, e = .sub s := by
    intro e he
    obtain ⟨b, hb, hbe⟩ := List.mem_filterMap.1 he
    obtain ⟨s, rfl⟩ := hsub b hb
    exact ⟨s, (Option.some.inj hbe).symm⟩
  have hwalk : walk (outline items) = heldEntries [] 1 ((gathered items).map (·.2)) := by
    rw [heldEntries, asides_eq_nil [] hsub, List.nil_append,
      ← walkElements_renumberFrom [] 1, ← map_sub_filterMap_renumberFrom [] 1 htop]
    rfl
  have hall : ((gathered items).takeWhile fun x => decide (0 ≤ x.1)) = gathered items :=
    List.takeWhile_eq_self_iff.2 fun x _ => by simp
  have hnone : ((gathered items).dropWhile fun x => decide (0 ≤ x.1)) = [] :=
    List.dropWhile_eq_nil_iff.2 fun x _ => by simp
  have key := inChannel_section_then_rest List.length_nil c [] hle hpair
    le_rfl rfl
  rw [hall, hnone, placeBlocks, List.append_nil] at key
  rw [hwalk, ← inChannel_placeBlocks_gathered c h le_rfl]
  exact key

end Source

end Lectern
