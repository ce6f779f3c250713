import Lectern.Assets
import Lectern.Proofs.Disk.Proper

/-!
# The files below a directory

`filesBelow` lists the names that lead from a directory to the files and links below it, in the
order in which they are copied. The listing of a directory stays the same on a disk that grows, as
long as nothing new comes below it (`kinds_children_eq`).
-/

namespace Lectern

namespace Disk

variable {d d' : Disk} {p q root : Place} {names : Place} {s : Name} {n : Node}

/-! ## Children -/

theorem isPrefixOf?_eq_some_iff {p q r : Place} : p.isPrefixOf? q = some r ↔ q = p ++ r := by
  induction p generalizing q with
  | nil => simp [List.isPrefixOf?, eq_comm]
  | cons a p ih =>
    cases q with
    | nil => simp [List.isPrefixOf?]
    | cons b q =>
      rw [List.isPrefixOf?, List.cons_append, List.cons.injEq]
      by_cases hab : a = b
      · subst hab
        simp [ih]
      · simp [hab, Ne.symm hab]

/-- The child of a place that an entry of the table is, if it is one. -/
def childOf? (p : Place) (e : Place × Node) : Option (Name × Node) :=
  match p.isPrefixOf? e.1 with
  | some [name] => some (name, e.2)
  | _ => none

theorem childOf?_append (p : Place) (s : Name) (n : Node) :
    childOf? p (p ++ [s], n) = some (s, n) := by
  rw [childOf?, isPrefixOf?_eq_some_iff.2 rfl]

theorem childOf?_eq_some {e : Place × Node} (h : childOf? p e = some (s, n)) :
    e = (p ++ [s], n) := by
  obtain ⟨q, m⟩ := e
  rw [childOf?] at h
  split at h
  · rename_i name hpre
    obtain ⟨rfl, rfl⟩ := Prod.mk.inj (Option.some.inj h)
    exact Prod.ext (isPrefixOf?_eq_some_iff.1 hpre) rfl
  · cases h

theorem childOf?_eq_none {n : Node} (h : ∀ s, q ≠ p ++ [s]) : childOf? p (q, n) = none := by
  cases hc : childOf? p (q, n) with
  | none => rfl
  | some c => exact absurd (congrArg Prod.fst (childOf?_eq_some hc)) (h c.1)

theorem children_eq (d : Disk) (p : Place) :
    d.children p = (d.table.filterMap (childOf? p)).mergeSort fun a b => nameLe a.1 b.1 := rfl

/-- The children of a place stand below it in the table. -/
theorem mem_children : (s, n) ∈ d.children p ↔ (p ++ [s], n) ∈ d.table := by
  rw [children_eq, List.mem_mergeSort, List.mem_filterMap]
  constructor
  · rintro ⟨e, hmem, he⟩
    rwa [← childOf?_eq_some he]
  · intro hmem
    exact ⟨_, hmem, childOf?_append p s n⟩

/-- A child with whether it is a directory. -/
def kind (child : Name × Node) : Name × Bool := (child.1, child.2.isDir)

/-! ## Files -/

/-- Names lead from a place through directories to something that is none. -/
inductive FileBelow (d : Disk) : Place → Place → Prop
  | file {p : Place} {s : Name} {n : Node} (h : (s, n) ∈ d.children p) (hn : n.isDir = false) :
      FileBelow d p [s]
  | sub {p : Place} {s : Name} {n : Node} {names : Place} (h : (s, n) ∈ d.children p)
      (hn : n.isDir = true) (hnames : FileBelow d (p ++ [s]) names) : FileBelow d p (s :: names)

/-- The names that lead from a place to the files and links below it, directory by directory;
`fuel` bounds the depth. -/
def filesBelow (d : Disk) : Nat → Place → List Place
  | 0, _ => []
  | fuel + 1, p =>
      (d.children p).flatMap fun child =>
        if child.2.isDir then (d.filesBelow fuel (p ++ [child.1])).map (child.1 :: ·)
        else [[child.1]]

/-- All files below a place are listed that do not lie too deep. -/
theorem mem_filesBelow (h : FileBelow d p names) {fuel : Nat} (hfuel : names.length ≤ fuel) :
    names ∈ d.filesBelow fuel p := by
  induction h generalizing fuel with
  | file h hn =>
    obtain ⟨k, rfl⟩ := Nat.exists_eq_add_of_le' hfuel
    rw [List.length_singleton, filesBelow, List.mem_flatMap]
    exact ⟨_, h, by simp [hn]⟩
  | sub h hn _ ih =>
    obtain ⟨k, rfl⟩ := Nat.exists_eq_add_of_le' (Nat.one_le_of_lt hfuel)
    rw [List.length_cons, Nat.add_le_add_iff_right] at hfuel
    rw [filesBelow, List.mem_flatMap]
    refine ⟨_, h, ?_⟩
    rw [if_pos hn, List.mem_map]
    exact ⟨_, ih hfuel, rfl⟩

theorem fileBelow_of_mem {fuel : Nat} (h : names ∈ d.filesBelow fuel p) : FileBelow d p names := by
  induction fuel generalizing p names with
  | zero => simp [filesBelow] at h
  | succ fuel ih =>
    rw [filesBelow, List.mem_flatMap] at h
    obtain ⟨⟨s, n⟩, hmem, h⟩ := h
    split_ifs at h with hn
    · obtain ⟨names', hnames', rfl⟩ := List.mem_map.1 h
      exact .sub hmem hn (ih hnames')
    · obtain rfl := List.mem_singleton.1 h
      exact .file hmem (by simpa using hn)

theorem Proper.names_of_mem (hd : d.Proper) (h : (s, n) ∈ d.children p) :
    ∀ t ∈ p ++ [s], ProperName t :=
  hd.names _ (mem_children.1 h)

theorem Proper.names_below (hd : d.Proper) {below : Place} (h : (s, n) ∈ d.children (p ++ below)) :
    ∀ t ∈ below ++ [s], ProperName t := fun t ht =>
  hd.names_of_mem h t (by rw [List.append_assoc]; exact List.mem_append_right p ht)

theorem Proper.names_of_fileBelow (hd : d.Proper) (h : FileBelow d p names) :
    ∀ t ∈ p ++ names, ProperName t := by
  induction h with
  | file h _ => exact hd.names_of_mem h
  | sub _ _ _ ih => simpa using ih

theorem FileBelow.ne_nil (h : FileBelow d p names) : names ≠ [] := by
  cases h <;> simp

/-! ## All files -/

/-- The number of names of the deepest place in the table. -/
def height (d : Disk) : Nat := (d.table.map (·.1.length)).foldr max 0

/-- The names that lead from a place to all files and links below it, in the order in which they
are copied: directory by directory, the names sorted. -/
def files (d : Disk) (p : Place) : List Place := d.filesBelow d.height p

theorem length_le_height {e : Place × Node} (h : e ∈ d.table) : e.1.length ≤ d.height := by
  rw [height]
  generalize d.table = t at h
  induction t with
  | nil => cases h
  | cons a t ih =>
    rw [List.map_cons, List.foldr_cons]
    rcases List.mem_cons.1 h with rfl | h
    · exact le_max_left _ _
    · exact (ih h).trans (le_max_right _ _)

/-- More depth than there is makes no difference. -/
theorem filesBelow_add {fuel : Nat} (h : ∀ e ∈ d.table, e.1.length ≤ p.length + fuel)
    (extra : Nat) :
    d.filesBelow (fuel + extra) p = d.filesBelow fuel p := by
  induction fuel generalizing p with
  | zero =>
    have hnone : d.children p = [] := List.eq_nil_iff_forall_not_mem.2 fun ⟨s, n⟩ hchild => by
      have hlength := h _ (mem_children.1 hchild)
      simp at hlength
    cases extra with
    | zero => rfl
    | succ extra => rw [Nat.zero_add, filesBelow.eq_2, hnone, filesBelow, List.flatMap_nil]
  | succ fuel ih =>
    rw [Nat.add_right_comm, filesBelow, filesBelow]
    have hchild : ∀ child : Name × Node,
        d.filesBelow (fuel + extra) (p ++ [child.1]) = d.filesBelow fuel (p ++ [child.1]) :=
      fun child => ih fun e he => by
        have := h e he
        rw [List.length_append, List.length_singleton]
        omega
    simp only [hchild]

theorem filesBelow_height_add (d : Disk) (p : Place) (extra : Nat) :
    d.filesBelow (d.height + extra) p = d.files p :=
  filesBelow_add (fun _ he => (length_le_height he).trans (Nat.le_add_left _ _)) extra

theorem FileBelow.mem_table (h : FileBelow d p names) : ∃ n, (p ++ names, n) ∈ d.table := by
  induction h with
  | file h _ => exact ⟨_, mem_children.1 h⟩
  | sub _ _ _ ih => simpa using ih

theorem mem_files : names ∈ d.files p ↔ FileBelow d p names := by
  refine ⟨fileBelow_of_mem, fun h => mem_filesBelow h ?_⟩
  obtain ⟨n, hmem⟩ := h.mem_table
  have := length_le_height hmem
  rw [List.length_append] at this
  omega

theorem nodup_children (hd : d.Proper) (p : Place) : ((d.children p).map (·.1)).Nodup := by
  have hperm : (d.children p).Perm (d.table.filterMap (childOf? p)) := List.mergeSort_perm _ _
  rw [(hperm.map _).nodup_iff]
  have htable := hd.nodup
  generalize d.table = t at htable
  induction t with
  | nil => exact List.nodup_nil
  | cons e t ih =>
    rw [List.map_cons, List.nodup_cons] at htable
    cases hchild : childOf? p e with
    | none =>
      rw [List.filterMap_cons_none hchild]
      exact ih htable.2
    | some child =>
      obtain ⟨s, n⟩ := child
      rw [List.filterMap_cons_some hchild, List.map_cons, List.nodup_cons]
      refine ⟨fun hmem => htable.1 ?_, ih htable.2⟩
      obtain ⟨⟨s', n'⟩, hmem', rfl⟩ := List.mem_map.1 hmem
      obtain ⟨e', he', hchild'⟩ := List.mem_filterMap.1 hmem'
      refine List.mem_map.2 ⟨e', he', ?_⟩
      rw [childOf?_eq_some hchild, childOf?_eq_some hchild']

theorem nodup_filesBelow (hd : d.Proper) (fuel : Nat) (p : Place) :
    (d.filesBelow fuel p).Nodup := by
  induction fuel generalizing p with
  | zero => exact List.nodup_nil
  | succ fuel ih =>
    rw [filesBelow, List.nodup_flatMap]
    constructor
    · rintro ⟨s, n⟩ -
      split_ifs
      · exact (ih _).map (List.cons_injective)
      · exact List.nodup_singleton _
    -- what lies below two children starts with their names
    · have hnames := nodup_children hd p
      rw [List.Nodup, List.pairwise_map] at hnames
      refine hnames.imp fun {c c'} hne names hc hc' => hne ?_
      have hhead : ∀ {c : Name × Node}, names ∈ (if c.2.isDir = true then
          (d.filesBelow fuel (p ++ [c.1])).map (c.1 :: ·) else [[c.1]]) →
          names.head? = some c.1 := by
        intro c hmem
        split_ifs at hmem
        · obtain ⟨_, _, rfl⟩ := List.mem_map.1 hmem
          rfl
        · rw [List.mem_singleton.1 hmem]
          rfl
      exact Option.some.inj ((hhead hc).symm.trans (hhead hc'))

/-- There are as many files as are listed. -/
theorem ncard_fileBelow (hd : d.Proper) (p : Place) :
    {names | FileBelow d p names}.ncard = (d.files p).length := by
  have hset : {names | FileBelow d p names} = ((d.files p).toFinset : Set Place) := by
    ext names
    simp [mem_files]
  rw [hset, Set.ncard_coe_finset, files,
    List.toFinset_card_of_nodup (nodup_filesBelow hd _ p)]

/-! ## Listing a disk that grows -/

/-- Nothing is new at or below a place. -/
def NothingNew (d d' : Disk) (root : Place) : Prop :=
  ∀ q, root <+: q → d.node? q = none → d'.node? q = none

theorem NothingNew.of_grows {d'' : Disk} (h : NothingNew d d'' root) (hgrows : Grows d' d'') :
    NothingNew d d' root := fun q hq hnone => hgrows.node?_eq_none (h q hq hnone)

theorem kinds_filterMap_eq {t t' : List (Place × Node)} (h : TableGrows t t')
    (hnodup : (t'.map (·.1)).Nodup)
    (hold : ∀ s, p ++ [s] ∈ t'.map (·.1) → p ++ [s] ∈ t.map (·.1)) :
    (t'.filterMap (childOf? p)).map kind = (t.filterMap (childOf? p)).map kind := by
  induction h with
  | new t' ht =>
    have hnone : t'.filterMap (childOf? p) = [] := List.filterMap_eq_nil_iff.2 fun e he =>
      childOf?_eq_none fun s hs => by
        have := hold s (List.mem_map.2 ⟨e, he, hs⟩)
        simp at this
    rw [hnone]
    rfl
  | @kept q n n' t t' hn ht ih =>
    rw [List.map_cons, List.nodup_cons] at hnodup
    have ih := ih hnodup.2 fun s hs => by
      have hmem := hold s (List.mem_cons_of_mem _ hs)
      rw [List.map_cons, List.mem_cons] at hmem
      refine hmem.resolve_left fun heq => ?_
      rw [heq] at hs
      exact hnodup.1 hs
    by_cases hq : ∃ s, q = p ++ [s]
    · obtain ⟨s, rfl⟩ := hq
      rw [List.filterMap_cons_some (childOf?_append p s n'),
        List.filterMap_cons_some (childOf?_append p s n), List.map_cons, List.map_cons, ih, kind,
        kind, hn.isDir_eq]
    · push Not at hq
      rw [List.filterMap_cons_none (childOf?_eq_none hq),
        List.filterMap_cons_none (childOf?_eq_none hq), ih]

/-- A directory keeps its listing while nothing new comes below it. -/
theorem kinds_children_eq (h : Grows d d') (hd : d.Proper) (hnew : NothingNew d d' root)
    (hp : root <+: p) : (d'.children p).map kind = (d.children p).map kind := by
  have hsort : ∀ d : Disk, (d.children p).map kind =
      ((d.table.filterMap (childOf? p)).map kind).mergeSort fun a b => nameLe a.1 b.1 :=
    fun d => List.map_mergeSort fun _ _ _ _ => rfl
  rw [hsort, hsort, kinds_filterMap_eq h.table (h.nodup hd.nodup)]
  intro s hs
  obtain ⟨⟨q, n⟩, hmem, rfl⟩ := List.mem_map.1 hs
  have hne : p ++ [s] ≠ [] := by simp
  have hnode := node?_of_mem_table (h.nodup hd.nodup) hne hmem
  cases hold : d.node? (p ++ [s]) with
  | none =>
    have := hnew (p ++ [s]) (hp.trans (List.prefix_append ..)) hold
    rw [hnode] at this
    cases this
  | some m => exact List.mem_map.2 ⟨_, mem_table_of_node? hne hold, rfl⟩

end Disk

end Lectern
