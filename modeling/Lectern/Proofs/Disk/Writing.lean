import Lectern.Proofs.Disk.Growth
import Lectern.Proofs.Disk.Run
import Lectern.Proofs.Disk.Steps

/-!
# What writing does to a disk

A file that is written stands where its path leads, and nothing else changes. A file that is copied
has the bytes of its source, unless both are one file: then it is empty (`copyFile_cases`). Making
directories puts directories at free places to which the path or one above it then leads
(`makeDirs_made`).
-/

namespace Lectern

namespace Disk

variable {d d' : Disk} {path : Path} {q : Place} {b : ByteArray}

/-! ## Writing a file -/

/-- A file is put where its path leads: in place of a file, or at a free place. -/
theorem filePlace_eq_ok_iff :
    d.filePlace path = .ok q ↔
      (∃ s, (steps ⟨withoutSlashes path⟩).getLast? = some (.name s)) ∧
      path.chars.getLast? ≠ some '/' ∧
      ((∃ b, PathLeads d path (.found q (.file b))) ∨ PathLeads d path (.free q)) := by
  constructor
  · intro h
    obtain ⟨⟨⟩, hpath, h⟩ := bind_eq_ok_iff.1 h
    split at h
    · rename_i s hs
      split_ifs at h with hslash
      · obtain ⟨t, -, h⟩ := bind_eq_ok_iff.1 h
        split at h <;> cases h
      · obtain ⟨t, hwalk, h⟩ := bind_eq_ok_iff.1 h
        refine ⟨⟨s, hs⟩, hslash, ?_⟩
        split at h
        · obtain rfl := Except.ok.inj h
          exact Or.inl ⟨_, hpath, leads_of_walk hwalk⟩
        · cases h
        · obtain rfl := Except.ok.inj h
          exact Or.inr ⟨hpath, leads_of_walk hwalk⟩
    · obtain ⟨t, -, h⟩ := bind_eq_ok_iff.1 h
      split at h <;> cases h
  · rintro ⟨⟨s, hs⟩, hslash, h⟩
    have hpath : checkPath path = .ok () := h.elim (fun ⟨_, h⟩ => h.1) And.left
    refine bind_eq_ok_iff.2 ⟨(), hpath, ?_⟩
    rw [hs]
    dsimp only
    rw [if_neg hslash]
    rcases h with ⟨b, h⟩ | h
    · exact bind_eq_ok_iff.2 ⟨_, walk_eq_ok_iff.2 h.2, rfl⟩
    · exact bind_eq_ok_iff.2 ⟨_, walk_eq_ok_iff.2 h.2, rfl⟩

theorem runOn_writeFile :
    runOn d (writeFile path b) =
      match d.filePlace path with
      | .ok q => (.ok (), d.set q (.file b))
      | .error why => (.error why, d) := by
  rw [writeFile, runOn_get_bind]
  cases d.filePlace path with
  | error why => rfl
  | ok q => rfl

/-- What is written is there for good, in place of a file or at a free place. -/
theorem grows_of_filePlace (h : d.filePlace path = .ok q) (b : ByteArray) :
    Grows d (d.set q (.file b)) := by
  obtain ⟨-, -, ⟨b', hl⟩ | hl⟩ := filePlace_eq_ok_iff.1 h
  · obtain ⟨hq, hn⟩ := hl.2.node?_file
    refine grows_set hq (fun m hm => ?_) (fun e => e)
    obtain rfl := Option.some.inj (hn.symm.trans hm)
    exact .file b' b
  · obtain ⟨hq, hn⟩ := hl.2.node?_free
    refine grows_set hq (fun m hm => ?_) (fun e => e)
    rw [hn] at hm
    cases hm

theorem ne_nil_of_filePlace (h : d.filePlace path = .ok q) : q ≠ [] := by
  obtain ⟨-, -, ⟨b, hl⟩ | hl⟩ := filePlace_eq_ok_iff.1 h
  · exact hl.2.node?_file.1
  · exact hl.2.node?_free.1

/-- A path leads to what is written there. -/
theorem pathLeads_set (h : d.filePlace path = .ok q) (b : ByteArray) :
    PathLeads (d.set q (.file b)) path (.found q (.file b)) := by
  have hnode : (d.set q (.file b)).node? q = some (.file b) := by
    rw [node?_set (ne_nil_of_filePlace h), if_pos rfl]
  have hgrows := grows_of_filePlace h b
  have hfile : ∀ {n : Node}, n ≠ .dir → PathLeads (d.set q (.file b)) path (.found q n) →
      PathLeads (d.set q (.file b)) path (.found q (.file b)) := by
    intro n hn hl
    obtain ⟨-, hq⟩ := hl.2.node?_eq.resolve_left hn
    obtain rfl := Option.some.inj (hq.symm.trans hnode)
    exact hl
  obtain ⟨-, -, ⟨b', hl⟩ | hl⟩ := filePlace_eq_ok_iff.1 h
  · obtain ⟨n', hl', hlike⟩ := hgrows.pathLeads_found hl
    cases hlike
    exact hfile Node.noConfusion hl'
  · rcases hgrows.pathLeads_free hl with hl' | ⟨n', hl', hq⟩
    · have := hl'.2.node?_free.2
      rw [hnode] at this
      cases this
    · obtain rfl := Option.some.inj (hq.symm.trans hnode)
      exact hl'

/-- A file can be written again where it has been written. -/
theorem filePlace_set (h : d.filePlace path = .ok q) (b : ByteArray) :
    (d.set q (.file b)).filePlace path = .ok q := by
  obtain ⟨hname, hslash, -⟩ := filePlace_eq_ok_iff.1 h
  exact filePlace_eq_ok_iff.2 ⟨hname, hslash, Or.inl ⟨b, pathLeads_set h b⟩⟩

/-- A path leads to the file that stands where files are put. -/
theorem pathLeads_of_filePlace (h : d.filePlace path = .ok q) (hq : d.node? q = some (.file b)) :
    PathLeads d path (.found q (.file b)) := by
  obtain ⟨-, -, ⟨b', hl⟩ | hl⟩ := filePlace_eq_ok_iff.1 h
  · rwa [← Node.file.inj (Option.some.inj (hl.2.node?_file.2.symm.trans hq))]
  · rw [hl.2.node?_free.2] at hq
    cases hq

/-- Where a file has been put, files are put for good. -/
theorem Grows.filePlace (hgrows : Grows d d') (h : d.filePlace path = .ok q)
    (hq : d'.node? q = some (.file b)) : d'.filePlace path = .ok q := by
  obtain ⟨hname, hslash, hl⟩ := filePlace_eq_ok_iff.1 h
  refine filePlace_eq_ok_iff.2 ⟨hname, hslash, Or.inl ?_⟩
  rcases hl with ⟨b', hl⟩ | hl
  · obtain ⟨n, hl', hlike⟩ := hgrows.pathLeads_found hl
    cases hlike with
    | file _ b' => exact ⟨b', hl'⟩
  · rcases hgrows.pathLeads_free hl with hl' | ⟨n, hl', hn⟩
    · rw [hl'.2.node?_free.2] at hq
      cases hq
    · obtain rfl := Option.some.inj (hn.symm.trans hq)
      exact ⟨b, hl'⟩

theorem setIn_setIn (p : Place) (m n : Node) (t : List (Place × Node)) :
    setIn p n (setIn p m t) = setIn p n t := by
  induction t with
  | nil => simp [setIn]
  | cons e t ih =>
    by_cases he : e.1 = p
    · simp [setIn, he]
    · simp [setIn, he, ih]

@[simp] theorem set_set (d : Disk) (p : Place) (m n : Node) :
    (d.set p m).set p n = d.set p n := by
  rw [set, set, set, setIn_setIn]

theorem setIn_of_lookup {p : Place} {n : Node} {t : List (Place × Node)}
    (h : t.lookup p = some n) : setIn p n t = t := by
  induction t with
  | nil => cases h
  | cons e t ih =>
    rw [List.lookup_cons] at h
    rw [setIn]
    by_cases he : e.1 = p
    · rw [← he, beq_self_eq_true] at h
      rw [if_pos he, ← he, ← Option.some.inj h]
    · have hpe : (p == e.1) = false := by simpa using Ne.symm he
      rw [hpe] at h
      rw [if_neg he, ih h]

/-- Setting what stands at a place already changes nothing. -/
theorem set_of_node? {n : Node} (hq : q ≠ []) (h : d.node? q = some n) : d.set q n = d := by
  rw [node?, if_neg (by simpa using hq)] at h
  rw [set, setIn_of_lookup h]

/-! ## Copying a file -/

/-- The bytes of a file are put where the target leads; a file that is copied onto itself is
emptied. -/
theorem runOn_copyFile {source target : Path} {s : Place}
    (hs : PathLeads d source (.found s (.file b))) (hplace : d.filePlace target = .ok q) :
    runOn d (copyFile source target) =
      (.ok (), d.set q (.file (if s = q then ByteArray.empty else b))) := by
  -- the source is read again when the target has been emptied
  have hagain : (d.set q (.file ByteArray.empty)).openFile source =
      .ok (.bytes (if s = q then ByteArray.empty else b)) := by
    obtain ⟨n, hl, hlike⟩ := (grows_of_filePlace hplace ByteArray.empty).pathLeads_found hs
    cases hlike with
    | file _ b' =>
      refine openFile_eq_bytes_iff.2 ⟨s, ?_⟩
      obtain ⟨-, hnode⟩ := hl.2.node?_file
      have hold := hs.2.node?_file.2
      rw [node?_set (ne_nil_of_filePlace hplace)] at hnode
      split_ifs at hnode ⊢ with hsq
      · obtain rfl := Node.file.inj (Option.some.inj hnode)
        exact hl
      · obtain rfl := Node.file.inj (Option.some.inj (hold.symm.trans hnode))
        exact hl
  rw [copyFile, runOn_get_bind, openFile_eq_bytes_iff.2 ⟨s, hs⟩, runOn_bind, runOn_liftM]
  simp only
  rw [runOn_bind, runOn_writeFile, hplace]
  simp only
  rw [runOn_get_bind, hagain, runOn_bind, runOn_liftM]
  simp only
  rw [runOn_writeFile, filePlace_set hplace]
  simp only [set_set]

/-- Copying fails and changes nothing, or puts the bytes of the source where the target leads; a
file that is copied onto itself is emptied. -/
theorem copyFile_cases {source target : Path} {r : Except Fault Unit}
    (h : runOn d (copyFile source target) = (r, d')) :
    (∃ why, r = .error why ∧ d' = d) ∨
      ∃ s q b, r = .ok () ∧ PathLeads d source (.found s (.file b)) ∧
        d.filePlace target = .ok q ∧
        d' = d.set q (.file (if s = q then ByteArray.empty else b)) := by
  have hrun := h
  rw [copyFile, runOn_get_bind] at h
  rcases runOn_liftM_bind_eq h with ⟨why, -, rfl, rfl⟩ | ⟨content, hopen, h⟩
  · exact Or.inl ⟨why, rfl, rfl⟩
  cases content with
  | directory =>
    obtain ⟨rfl, rfl⟩ := Prod.mk.inj h
    exact Or.inl ⟨_, rfl, rfl⟩
  | bytes b =>
    obtain ⟨s, hs⟩ := openFile_eq_bytes_iff.1 hopen
    cases hplace : d.filePlace target with
    | error why =>
      simp only at h
      rw [runOn_bind, runOn_writeFile, hplace] at h
      obtain ⟨rfl, rfl⟩ := Prod.mk.inj h
      exact Or.inl ⟨why, rfl, rfl⟩
    | ok q =>
      rw [runOn_copyFile hs hplace] at hrun
      obtain ⟨rfl, rfl⟩ := Prod.mk.inj hrun
      exact Or.inr ⟨s, q, b, rfl, hs, rfl, rfl⟩

/-! ## Making directories -/

/-- Directories may have been made where paths now lead, and nothing else has changed. -/
structure DirsMade (paths : List Path) (d d' : Disk) : Prop where
  grows : Grows d d'
  node? : ∀ q, d'.node? q = d.node? q ∨
    d.node? q = none ∧ d'.node? q = some .dir ∧ ∃ path ∈ paths, PathLeads d' path (.found q .dir)

theorem DirsMade.refl (paths : List Path) (d : Disk) : DirsMade paths d d :=
  ⟨.refl d, fun _ => Or.inl rfl⟩

theorem DirsMade.mono {paths paths' : List Path} (h : DirsMade paths d d')
    (hsub : paths ⊆ paths') : DirsMade paths' d d' :=
  ⟨h.grows, fun q => (h.node? q).imp_right fun ⟨hq, hdir, path, hpath, hl⟩ =>
    ⟨hq, hdir, path, hsub hpath, hl⟩⟩

theorem DirsMade.trans {paths : List Path} {d'' : Disk} (h : DirsMade paths d d')
    (h' : DirsMade paths d' d'') : DirsMade paths d d'' := by
  refine ⟨h.grows.trans h'.grows, fun q => ?_⟩
  rcases h'.node? q with heq | ⟨hq, hdir, hl⟩
  · rcases h.node? q with heq' | ⟨hq, hdir, path, hpath, hl⟩
    · exact Or.inl (heq.trans heq')
    · obtain ⟨n, hl', hlike⟩ := h'.grows.pathLeads_found hl
      cases hlike
      exact Or.inr ⟨hq, heq.trans hdir, path, hpath, hl'⟩
  · exact Or.inr ⟨h.grows.node?_eq_none hq, hdir, hl⟩

theorem exists_withoutSlashes_append (path : Path) :
    ∃ k, path.chars = withoutSlashes path ++ List.replicate k '/' := by
  have hsplit := List.takeWhile_append_dropWhile (p := (· = '/')) (l := path.chars.reverse)
  refine ⟨(path.chars.reverse.takeWhile (· = '/')).length, ?_⟩
  have hslashes : path.chars.reverse.takeWhile (· = '/') =
      List.replicate (path.chars.reverse.takeWhile (· = '/')).length '/' :=
    List.eq_replicate_iff.2 ⟨rfl, fun c hc => by simpa using List.mem_takeWhile_imp hc⟩
  have := congrArg List.reverse hsplit
  rw [List.reverse_reverse, List.reverse_append, hslashes, List.reverse_replicate] at this
  exact this.symm

theorem withoutSlashes_getLast (path : Path) : (withoutSlashes path).getLast? ≠ some '/' := by
  intro h
  have hne : withoutSlashes path ≠ [] := by
    rintro e
    rw [e] at h
    cases h
  have hlast := List.rdropWhile_last_not (· = '/') path.chars hne
  rw [List.getLast?_eq_some_getLast hne, Option.some.injEq] at h
  exact hlast (decide_eq_true h)

theorem stepsOfTexts_splitOn_slashes (s : List Char) (k : Nat) :
    stepsOfTexts ((s ++ List.replicate k '/').splitOn '/') = stepsOfTexts (s.splitOn '/') := by
  induction k with
  | zero => rw [List.replicate_zero, List.append_nil]
  | succ k ih =>
    rw [List.replicate_succ', ← List.append_assoc, ← ih, List.splitOn_append_cons_self,
      stepsOfTexts_append]
    simp

/-- Slashes at the end of a path add no more than the last step. -/
theorem steps_eq_withoutSlashes (hne : withoutSlashes path ≠ []) :
    steps path = steps ⟨withoutSlashes path⟩ ++ lastStep path := by
  obtain ⟨k, hk⟩ := exists_withoutSlashes_append path
  have hlast : lastStep ⟨withoutSlashes path⟩ = [] := if_neg (withoutSlashes_getLast path)
  have hroot : path.isAbsolute = Path.isAbsolute ⟨withoutSlashes path⟩ := by
    rw [Path.isAbsolute, hk, List.head?_append_of_ne_nil _ hne]
    rfl
  have htexts := stepsOfTexts_splitOn_slashes (withoutSlashes path) k
  rw [← hk] at htexts
  rw [steps_eq, steps_eq, hlast, List.append_nil, bareSteps, bareSteps, hroot, htexts]

/-- A directory is made under a free name in a directory that is there. -/
theorem newDirPlace_eq_ok (h : d.newDirPlace path = .ok q) :
    checkPath path = .ok () ∧ ∃ way p s, steps path = way ++ .name s :: lastStep path ∧
      q = p ++ [s] ∧ Leads d linkLimit d.home way (.found p .dir) ∧ byteLength s ≤ nameLimit ∧
      d.node? q = none := by
  obtain ⟨⟨⟩, hpath, h⟩ := bind_eq_ok_iff.1 h
  dsimp only at h
  split at h
  · rename_i s hs
    obtain ⟨t, hwalk, h⟩ := bind_eq_ok_iff.1 h
    split at h
    · rename_i p
      split_ifs at h with hlimit hfree
      obtain rfl := Except.ok.inj h
      have hne : withoutSlashes path ≠ [] := by
        rintro e
        rw [e] at hs
        simp [steps, Path.isAbsolute] at hs
      refine ⟨hpath, _, p, s, ?_, rfl, leads_of_walk hwalk, Nat.le_of_not_lt hlimit,
        by simpa using hfree⟩
      rw [steps_eq_withoutSlashes hne]
      conv_lhs => rw [← List.dropLast_append_getLast? (Component.name s) hs]
      rw [List.append_assoc, List.singleton_append]
    · cases h
    · cases h
  · obtain ⟨t, -, h⟩ := bind_eq_ok_iff.1 h
    split at h <;> cases h

/-- The path then leads to the directory that is made. -/
theorem pathLeads_of_newDirPlace (h : d.newDirPlace path = .ok q) :
    q ≠ [] ∧ d.node? q = none ∧ PathLeads (d.set q .dir) path (.found q .dir) := by
  obtain ⟨hpath, way, p, s, hsteps, rfl, hway, hs, hnone⟩ := newDirPlace_eq_ok h
  have hq : p ++ [s] ≠ [] := by simp
  have hgrows : Grows d (d.set (p ++ [s]) .dir) :=
    grows_set hq (fun m hm => by rw [hnone] at hm; cases hm) (fun e => e)
  obtain ⟨n, hdir, hlike⟩ := hgrows.leads_found hway
  cases hlike
  -- the last steps need no links
  have hlast : Leads (d.set (p ++ [s]) .dir) 0 p (.name s :: lastStep path)
      (.found (p ++ [s]) .dir) := by
    refine .dir hs (by rw [node?_set hq, if_pos rfl]) ?_
    rw [lastStep]
    split_ifs
    · exact .here (.stop _ _)
    · exact .stop _ _
  refine ⟨hq, hnone, hpath, ?_⟩
  rw [hsteps]
  exact hdir.append hlast

/-- A directory is made at the place that is found for it, or nothing happens. -/
theorem makeDir_cases {r : Except Fault Unit} (h : runOn d (makeDir path) = (r, d')) :
    (∃ why, d.newDirPlace path = .error why ∧ r = .error why ∧ d' = d) ∨
      ∃ q, d.newDirPlace path = .ok q ∧ r = .ok () ∧ d' = d.set q .dir := by
  rw [makeDir, runOn_get_bind] at h
  rcases runOn_liftM_bind_eq h with hfail | ⟨q, hplace, h⟩
  · exact Or.inl hfail
  · obtain ⟨rfl, rfl⟩ := Prod.mk.inj h
    exact Or.inr ⟨q, hplace, rfl, rfl⟩

theorem makeDir_made {r : Except Fault Unit} (h : runOn d (makeDir path) = (r, d')) :
    DirsMade [path] d d' := by
  rcases makeDir_cases h with ⟨why, -, -, rfl⟩ | ⟨q, hplace, -, rfl⟩
  · exact .refl _ _
  · obtain ⟨hq, hnone, hl⟩ := pathLeads_of_newDirPlace hplace
    refine ⟨grows_set hq (fun m hm => ?_) (fun e => e), fun q' => ?_⟩
    · rw [hnone] at hm
      cases hm
    · rw [node?_set hq]
      split_ifs with hqq
      · subst hqq
        exact Or.inr ⟨hnone, rfl, path, List.mem_singleton_self path, hl⟩
      · exact Or.inl rfl

theorem makeOrFindDir_made {r : Except Fault Unit} (h : runOn d (makeOrFindDir path) = (r, d')) :
    DirsMade [path] d d' := by
  rcases runOn_tryCatch_eq h with ⟨u, hmake, -⟩ | ⟨why, d₁, hmake, hcatch⟩
  · exact makeDir_made hmake
  · have hmade := makeDir_made hmake
    rw [runOn_get_bind] at hcatch
    split_ifs at hcatch <;>
    · obtain ⟨-, rfl⟩ := Prod.mk.inj hcatch
      exact hmade

theorem makeDirsFrom_made {paths : List Path} {r : Except Fault Unit}
    (h : runOn d (makeDirsFrom paths) = (r, d')) : DirsMade paths d d' := by
  induction paths generalizing d d' r with
  | nil =>
    obtain ⟨-, rfl⟩ := Prod.mk.inj h
    exact .refl _ _
  | cons path parents ih =>
    have hfirst : [path] ⊆ path :: parents := by simp
    rw [makeDirsFrom] at h
    split_ifs at h with hempty
    · obtain ⟨-, rfl⟩ := Prod.mk.inj h
      exact .refl _ _
    rcases runOn_tryCatch_eq h with ⟨u, hmake, -⟩ | ⟨why, d₁, hmake, hcatch⟩
    · exact (makeOrFindDir_made hmake).mono hfirst
    have hmade := (makeOrFindDir_made hmake).mono hfirst
    split_ifs at hcatch with hwhy
    · rcases runOn_bind_eq hcatch with ⟨why', hparents, -⟩ | ⟨u, d₂, hparents, hagain⟩
      · exact hmade.trans ((ih hparents).mono (List.subset_cons_self ..))
      · exact (hmade.trans ((ih hparents).mono (List.subset_cons_self ..))).trans
          ((makeOrFindDir_made hagain).mono hfirst)
    · obtain ⟨-, rfl⟩ := Prod.mk.inj hcatch
      exact hmade

theorem exists_ancestorsWithin (fuel : Nat) (path : Path) :
    ∃ above, ancestorsWithin (fuel + 1) path = path :: above ∧
      ∀ parent, path.parent? = some parent → above = ancestorsWithin fuel parent := by
  rw [ancestorsWithin]
  cases path.parent? with
  | none => exact ⟨[], rfl, nofun⟩
  | some parent => exact ⟨_, rfl, fun _ h => by rw [Option.some.inj h]⟩

/-- The paths at which directories may be made for a path: itself and those above it. -/
def upwards (path : Path) : List Path := ancestorsWithin (path.chars.length + 1) path

/-- Making directories makes them where the path or one above it then leads. -/
theorem makeDirs_made {r : Except Fault Unit} (h : runOn d (makeDirs path) = (r, d')) :
    DirsMade (upwards path) d d' := makeDirsFrom_made h

/-! ## Directories that are there -/

theorem isDir_eq_true_iff : d.isDir path = true ↔ ∃ q, PathLeads d path (.found q .dir) := by
  simp only [← resolve_eq_ok_iff]
  rw [isDir]
  cases d.resolve true path with
  | error why => simp
  | ok t =>
    cases t with
    | found p n => cases n <;> simp [Node.isDir]
    | free p => simp

/-- A directory is made, or it is there, or nothing happens. -/
theorem makeOrFindDir_cases {r : Except Fault Unit}
    (h : runOn d (makeOrFindDir path) = (r, d')) :
    (∃ q, d.newDirPlace path = .ok q ∧ r = .ok () ∧ d' = d.set q .dir) ∨
      (d.isDir path = true ∧ r = .ok () ∧ d' = d) ∨
      d.isDir path = false ∧ (∃ why, r = .error why) ∧ d' = d := by
  rcases runOn_tryCatch_eq h with ⟨u, hmake, rfl⟩ | ⟨why, d₁, hmake, hcatch⟩
  · rcases makeDir_cases hmake with ⟨why, -, hwhy, -⟩ | hmade
    · cases hwhy
    · exact Or.inl hmade
  rcases makeDir_cases hmake with ⟨-, -, -, rfl⟩ | ⟨q, -, hok, -⟩
  · rw [runOn_get_bind] at hcatch
    split_ifs at hcatch with hdir
    · obtain ⟨rfl, rfl⟩ := Prod.mk.inj hcatch
      exact Or.inr (Or.inl ⟨hdir, rfl, rfl⟩)
    · obtain ⟨rfl, rfl⟩ := Prod.mk.inj hcatch
      exact Or.inr (Or.inr ⟨by simpa using hdir, ⟨why, rfl⟩, rfl⟩)
  · cases hok

/-- Directories are made at a path at once, or when those above have been made. -/
theorem makeDirsFrom_cons_cases {parents : List Path}
    (h : runOn d (makeDirsFrom (path :: parents)) = (.ok (), d')) (hne : path.chars ≠ []) :
    runOn d (makeOrFindDir path) = (.ok (), d') ∨
      ∃ d₁, runOn d (makeDirsFrom parents) = (.ok (), d₁) ∧
        runOn d₁ (makeOrFindDir path) = (.ok (), d') := by
  rw [makeDirsFrom, if_neg (by simpa using hne)] at h
  rcases runOn_tryCatch_eq h with ⟨u, hmake, -⟩ | ⟨why, d₁, hmake, hcatch⟩
  · exact Or.inl hmake
  obtain ⟨q, -, hr, -⟩ | ⟨-, hr, -⟩ | ⟨-, -, rfl⟩ := makeOrFindDir_cases hmake
  · cases hr
  · cases hr
  split_ifs at hcatch
  · rcases runOn_bind_eq hcatch with ⟨why', -, hr⟩ | ⟨u, d₂, hparents, hagain⟩
    · cases hr
    · exact Or.inr ⟨d₂, hparents, hagain⟩
  · cases (Prod.mk.inj hcatch).1

/-- Where directories have been made, there is one. -/
theorem isDir_of_makeOrFindDir (h : runOn d (makeOrFindDir path) = (.ok (), d')) :
    d'.isDir path = true := by
  obtain ⟨q, hplace, -, rfl⟩ | ⟨hdir, -, rfl⟩ | ⟨-, ⟨why, hr⟩, -⟩ := makeOrFindDir_cases h
  · exact isDir_eq_true_iff.2 ⟨q, (pathLeads_of_newDirPlace hplace).2.2⟩
  · exact hdir
  · cases hr

/-- No directory is made at a path that leads to one. -/
theorem newDirPlace_of_isDir (h : d.isDir path = true) :
    ∃ why, d.newDirPlace path = .error why := by
  cases hplace : d.newDirPlace path with
  | error why => exact ⟨why, rfl⟩
  | ok q =>
    exfalso
    obtain ⟨-, way, p, s, hsteps, rfl, hway, -, hnone⟩ := newDirPlace_eq_ok hplace
    obtain ⟨q, hq⟩ := isDir_eq_true_iff.1 h
    have hl := hq.2
    rw [hsteps] at hl
    exact (hway.split hl).node?_first hnone

theorem runOn_makeOrFindDir (h : d.isDir path = true) :
    runOn d (makeOrFindDir path) = (.ok (), d) := by
  obtain ⟨why, hplace⟩ := newDirPlace_of_isDir h
  have hmake : runOn d (makeDir path) = (.error why, d) := by
    rw [makeDir, runOn_get_bind, hplace]
    rfl
  rw [makeOrFindDir, runOn_tryCatch, hmake]
  simp only
  rw [runOn_get_bind, if_pos h, runOn_pure]

theorem runOn_makeDirsFrom {fuel : Nat} (h : path.chars = [] ∨ d.isDir path = true) :
    runOn d (makeDirsFrom (ancestorsWithin (fuel + 1) path)) = (.ok (), d) := by
  obtain ⟨above, hpaths, -⟩ := exists_ancestorsWithin fuel path
  rw [hpaths, makeDirsFrom]
  split_ifs with hempty
  · exact runOn_pure _
  · rw [runOn_tryCatch, runOn_makeOrFindDir (h.resolve_left (by simpa using hempty))]

/-- Making directories changes nothing if they are there. -/
theorem runOn_makeDirs (h : path.chars = [] ∨ d.isDir path = true) :
    runOn d (makeDirs path) = (.ok (), d) := runOn_makeDirsFrom h

end Disk

end Lectern
