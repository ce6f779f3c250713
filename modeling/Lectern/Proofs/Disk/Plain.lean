import Lectern.Proofs.Disk.Proper

/-!
# Disks without links

On a disk without links the place that a path leads to is read off its steps
(`PathLeads.place_eq`). A plain disk is a tree without links: above what a path leads to there are
directories only (`Plain.node?_above`).
-/

namespace Lectern

namespace Disk

open Lectern.Path

variable {d d' : Disk} {links : Nat} {p q : Place} {way : List Component} {t : Target}
  {path parent : Path} {names : Place}

/-! ## Places that are read off steps -/

/-- The place that a step leads to if it is no link. -/
def stepFrom (p : Place) : Component → Place
  | .root => []
  | .here => p
  | .up => p.dropLast
  | .name s => p ++ [s]

/-- The place that steps lead to if there are no links on the way. -/
def placeAlong (p : Place) (way : List Component) : Place := way.foldl stepFrom p

/-- The place that a path is written for. -/
def lexical (d : Disk) (path : Path) : Place := placeAlong d.home path.components

theorem placeAlong_append (p : Place) (way rest : List Component) :
    placeAlong p (way ++ rest) = placeAlong (placeAlong p way) rest := List.foldl_append ..

theorem placeAlong_names (p names : Place) : placeAlong p (names.map .name) = p ++ names := by
  induction names generalizing p with
  | nil => exact (List.append_nil p).symm
  | cons s names ih =>
    rw [List.append_cons, ← ih]
    rfl

theorem placeAlong_filter (p : Place) (way : List Component) :
    placeAlong p (way.filter (· ≠ .here)) = placeAlong p way := by
  induction way generalizing p with
  | nil => rfl
  | cons c way ih =>
    cases c with
    | here => exact ih p
    | root | up | name s => exact ih _

theorem lexical_eq (d : Disk) (path : Path) : d.lexical path = placeAlong d.home path.moves :=
  (placeAlong_filter _ _).symm

/-! ## Moves -/

theorem filter_stepsOfTexts (texts : List (List Char)) :
    (stepsOfTexts texts).filter (· ≠ .here) = (texts.filter (!isIdle ·)).map stepOf := by
  induction texts with
  | nil => rfl
  | cons s texts ih =>
    rw [← List.singleton_append, stepsOfTexts_append, List.filter_append, ih, List.filter_append,
      List.map_append]
    congr 1
    by_cases hempty : s = []
    · subst hempty
      rfl
    by_cases hdot : s = ['.']
    · subst hdot
      rfl
    have hidle : isIdle s = false := by simp [isIdle, hempty, hdot]
    have hstep : stepsOfTexts [s] = [stepOf s] := by simp [stepsOfTexts, hempty, hdot]
    rw [hstep, List.filter_singleton, List.filter_singleton, hidle]
    simp [stepOf_ne_here]

theorem filter_splitOn (s : List Char) :
    (s.splitOn '/').filter (!isIdle ·) = ((splitLead s).2.splitOn '/').filter (!isIdle ·) := by
  rcases splitLead_cases s with ⟨r, rfl, hl⟩ | ⟨rfl, -⟩ | ⟨r, rfl, hl⟩ | ⟨-, -, -, hl⟩
  · rw [hl, List.splitOn_cons_eq_if_modifyHead, if_pos (beq_self_eq_true _)]
    rfl
  · rfl
  · rw [hl, List.splitOn_cons_eq_if_modifyHead, if_neg (by decide),
      List.splitOn_cons_eq_if_modifyHead, if_pos (beq_self_eq_true _)]
    rfl
  · rw [hl]

theorem filter_bareSteps (path : Path) : (bareSteps path).filter (· ≠ .here) = path.moves := by
  rw [bareSteps, List.filter_append, filter_stepsOfTexts, moves_eq, parts, filter_trimIdle,
    filter_splitOn]
  congr 1
  split_ifs <;> rfl

theorem filter_lastStep (path : Path) : (lastStep path).filter (· ≠ .here) = [] := by
  rw [lastStep]
  split_ifs <;> rfl

/-- The steps of a path that are taken from place to place are its moves. -/
theorem filter_steps (path : Path) : (steps path).filter (· ≠ .here) = path.moves := by
  rw [steps_eq, List.filter_append, filter_bareSteps, filter_lastStep, List.append_nil]

theorem filter_moves (path : Path) : path.moves.filter (· ≠ .here) = path.moves := by
  rw [← filter_steps, List.filter_filter]
  simp

/-- A file is put where the last move is a name. -/
theorem fileName?_of_filePlace (h : d.filePlace path = .ok q) : ∃ s, path.fileName? = some s := by
  obtain ⟨⟨s, hs⟩, -, -⟩ := filePlace_eq_ok_iff.1 h
  have hne : withoutSlashes path ≠ [] := by
    intro e
    rw [e] at hs
    simp [steps, Path.isAbsolute] at hs
  obtain ⟨way, hway⟩ := List.getLast?_eq_some_iff.1 hs
  refine ⟨s, fileName?_of_moves ?_⟩
  rw [← filter_steps, steps_eq_withoutSlashes hne, hway, List.filter_append, List.filter_append,
    filter_lastStep, List.append_nil]
  exact List.getLast?_concat

theorem moves_join_relative (root : Path) (h : ∀ s ∈ names, ProperName s) (hne : names ≠ []) :
    (root.join (relative names)).moves = root.moves ++ names.map .name := by
  rw [← filter_steps, steps_join_relative root h hne, List.filter_append, filter_bareSteps]
  congr 1
  exact List.filter_eq_self.2 (by simp)

theorem lexical_join_relative (d : Disk) (root : Path) (h : ∀ s ∈ names, ProperName s)
    (hne : names ≠ []) : d.lexical (root.join (relative names)) = d.lexical root ++ names := by
  rw [lexical_eq, moves_join_relative root h hne, placeAlong_append, placeAlong_names, lexical_eq]

/-- The paths above a path are its first moves. -/
theorem moves_of_mem_ancestorsWithin {fuel : Nat} (h : path ∈ ancestorsWithin fuel parent) :
    path.moves <+: parent.moves := by
  induction fuel generalizing parent with
  | zero => simp [ancestorsWithin] at h
  | succ fuel ih =>
    rw [ancestorsWithin] at h
    split at h
    · rename_i q hq
      rcases List.mem_cons.1 h with rfl | h
      · exact List.prefix_rfl
      · have hparent := ih h
        rw [moves_parent? hq] at hparent
        exact hparent.trans (List.dropLast_prefix _)
    · rw [List.mem_singleton.1 h]

/-- A file lies in the directory that is its parent. -/
theorem lexical_eq_concat {s : Name} (h : path.fileName? = some s) :
    d.lexical path = d.lexical path.parent ++ [s] := by
  rw [lexical_eq, moves_fileName? h, placeAlong_append, lexical_eq, moves_parent h]
  rfl

/-- The paths above a path start where it starts. -/
theorem isAbsolute_of_mem_ancestorsWithin {fuel : Nat} (h : path ∈ ancestorsWithin fuel parent) :
    path.isAbsolute = parent.isAbsolute := by
  induction fuel generalizing parent with
  | zero => simp [ancestorsWithin] at h
  | succ fuel ih =>
    rw [ancestorsWithin] at h
    split at h
    · rename_i q hq
      rcases List.mem_cons.1 h with rfl | h
      · rfl
      · rw [ih h]
        rcases parts_of_parent? hq with ⟨-, rfl, hroot⟩ | ⟨-, -, -, -, hroot, -⟩
        · exact hroot.symm
        · exact hroot
    · rw [List.mem_singleton.1 h]

theorem prefix_placeAlong (p : Place) (hroot : .root ∉ way) (hup : .up ∉ way) :
    p <+: placeAlong p way := by
  induction way generalizing p with
  | nil => exact List.prefix_rfl
  | cons c way ih =>
    rw [List.mem_cons, not_or] at hroot hup
    have hrest (q : Place) : q <+: placeAlong q way := ih q hroot.2 hup.2
    cases c with
    | root => exact absurd rfl hroot.1
    | up => exact absurd rfl hup.1
    | here => exact hrest p
    | name s => exact (List.prefix_append p [s]).trans (hrest (p ++ [s]))

/-- Without steps up, what is above a path leads to a place above its place. -/
theorem lexical_prefix_of_mem_ancestorsWithin {fuel : Nat}
    (h : path ∈ ancestorsWithin fuel parent) (hup : .up ∉ parent.moves) :
    d.lexical path <+: d.lexical parent := by
  have hmoves := moves_of_mem_ancestorsWithin h
  rw [moves_eq path, isAbsolute_of_mem_ancestorsWithin h, moves_eq parent,
    List.prefix_append_right_inj] at hmoves
  obtain ⟨rest, hrest⟩ := hmoves
  have hroot : .root ∉ (parent.parts.filter (!isIdle ·)).map stepOf := by
    intro hmem
    obtain ⟨s, -, hs⟩ := List.mem_map.1 hmem
    rw [stepOf] at hs
    split_ifs at hs
  rw [moves_eq, List.mem_append, not_or] at hup
  rw [← hrest, List.mem_append, not_or] at hroot hup
  rw [lexical_eq, lexical_eq, moves_eq path, moves_eq parent, isAbsolute_of_mem_ancestorsWithin h,
    ← hrest, ← List.append_assoc, placeAlong_append _ _ rest]
  exact prefix_placeAlong _ hroot.2 hup.2.2

/-! ## Ways without links -/

/-- There are no links on the disk. -/
def NoLinks (d : Disk) : Prop := ∀ e ∈ d.table, ¬ e.2.IsLink

theorem NoLinks.of_grows (h : d.NoLinks) (hgrows : Grows d d') : d'.NoLinks :=
  hgrows.table.not_isLink h

theorem NoLinks.node?_ne (h : d.NoLinks) (q : Place) (target : Path) :
    d.node? q ≠ some (.link target) := by
  intro hq
  by_cases hne : q = []
  · subst hne
    cases hq
  · exact h _ (mem_table_of_node? hne hq) trivial

theorem Leads.place_eq (h : Leads d links p way t) (hd : d.NoLinks) :
    t.place = placeAlong p way := by
  induction h with
  | stop | free | file => rfl
  | root _ ih | here _ ih | up _ ih | dir _ _ _ ih => exact ih
  | link _ hn _ => exact absurd hn (hd.node?_ne _ _)

/-- A path leads to the place it is written for. -/
theorem PathLeads.place_eq (h : PathLeads d path t) (hd : d.NoLinks) :
    t.place = d.lexical path := by
  rw [h.2.place_eq hd, ← placeAlong_filter, filter_steps, lexical_eq]

/-- A file is put at the place that its path is written for. -/
theorem eq_lexical_of_filePlace (h : d.filePlace path = .ok q) (hd : d.NoLinks) :
    q = d.lexical path := by
  obtain ⟨-, -, ⟨b, hl⟩ | hl⟩ := filePlace_eq_ok_iff.1 h
  · exact hl.place_eq hd
  · exact hl.place_eq hd

/-- A path is written for the same place when the disk has grown. -/
theorem Grows.lexical (h : Grows d d') (path : Path) : d'.lexical path = d.lexical path := by
  rw [Disk.lexical, h.home, Disk.lexical]

theorem Leads.filter (h : Leads d links p way t) (hd : d.NoLinks) :
    Leads d links p (way.filter (· ≠ .here)) t := by
  induction h with
  | stop links p => exact .stop links p
  | root _ ih => exact .root ih
  | here _ ih => exact ih
  | up _ ih => exact .up ih
  | free links hs hn => exact .free links hs hn
  | dir hs hn _ ih => exact .dir hs hn ih
  | file links hs hn => exact .file links hs hn
  | link _ hn _ => exact absurd hn (hd.node?_ne _ _)

/-! ## Trees -/

/-- A tree of directories and files, without links. Paths start at a directory. -/
structure Plain (d : Disk) : Prop where
  proper : d.Proper
  noLinks : d.NoLinks
  parents : ∀ e ∈ d.table, d.node? e.1.dropLast = some .dir
  home : d.node? d.home = some .dir

/-- Every place above one that is taken is a directory. -/
theorem Plain.node?_above (hd : d.Plain) (hq : d.node? q ≠ none) (hp : p <+: q) (hne : p ≠ q) :
    d.node? p = some .dir := by
  induction q using List.reverseRecOn with
  | nil => exact absurd (List.prefix_nil.1 hp) hne
  | append_singleton q s ih =>
    obtain ⟨n, hn⟩ := Option.ne_none_iff_exists'.1 hq
    have hparent := hd.parents _ (mem_table_of_node? (by simp) hn)
    rw [List.dropLast_concat] at hparent
    have hpq : p <+: q := (List.prefix_concat_iff.1 hp).resolve_left hne
    by_cases hsame : p = q
    · rw [hsame, hparent]
    · exact ih (by simp [hparent]) hpq hsame

theorem Leads.node?_dir {n : Node} (h : Leads d links p way (.found q n)) (hd : d.Plain)
    (hp : d.node? p = some .dir) : d.node? q = some n := by
  generalize htarget : Target.found q n = target at h
  induction h with
  | stop _ p =>
    obtain ⟨rfl, rfl⟩ := Target.found.inj htarget
    exact hp
  | root _ ih => exact ih rfl htarget
  | here _ ih => exact ih hp htarget
  | @up _ p _ _ _ ih =>
    refine ih ?_ htarget
    by_cases hroot : p = []
    · rw [hroot]
      rfl
    · refine hd.node?_above (by simp [hp]) (List.dropLast_prefix p) fun e => ?_
      have := congrArg List.length e
      rw [List.length_dropLast] at this
      have := List.length_pos_of_ne_nil hroot
      omega
  | free => cases htarget
  | dir _ hn _ ih => exact ih hn htarget
  | file _ _ hn =>
    obtain ⟨rfl, rfl⟩ := Target.found.inj htarget
    exact hn
  | link _ hn _ => exact absurd hn (hd.noLinks.node?_ne _ _)

/-- On a plain disk what a path leads to stands at its place, also if it is a directory. -/
theorem PathLeads.node?_dir {n : Node} (h : PathLeads d path (.found q n)) (hd : d.Plain) :
    d.node? q = some n := h.2.node?_dir hd hd.home

end Disk

end Lectern
