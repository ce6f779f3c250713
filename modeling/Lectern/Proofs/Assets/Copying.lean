import Lectern.Proofs.Assets.Listing
import Lectern.Proofs.Disk.Writing

/-!
# Copying a tree of assets

A run that copies the entries of a directory copies the files that are listed below it, one after
the other, until it fails or until something new comes into the tree that is copied: `Walked` says
so, and `toured_copyEntries` proves it. What one copy does to the disk is said by `Copied`.
-/

namespace Lectern

open Disk

namespace Assets

variable {d d' e e' : Disk} {root target path : Path} {names : Place} {top : Place}

/-! ## One asset -/

/-- The paths at which directories may be made for a file at a path. -/
def pathsAbove (path : Path) : List Path :=
  match path.parent? with
  | some parent => upwards parent
  | none => []

/-- One asset has been copied: directories may have been made for it, and the file where its path
leads has the bytes of the source, unless it is the source. -/
inductive Copied (source target : Path) (d d' : Disk) : Prop
  | intro (d₁ : Disk) (s q : Place) (b : ByteArray) (hdirs : DirsMade (pathsAbove target) d d₁)
      (hsource : PathLeads d₁ source (.found s (.file b))) (hplace : d₁.filePlace target = .ok q)
      (heq : d' = d₁.set q (.file (if s = q then ByteArray.empty else b)))

theorem Copied.grows {source : Path} (h : Copied source target d d') : Grows d d' := by
  obtain ⟨d₁, s, q, b, hdirs, hsource, hplace, rfl⟩ := h
  exact hdirs.grows.trans (grows_of_filePlace hplace _)

theorem makeParent_made {r : Except Failure Unit} (h : runOn d (makeParent path) = (r, d')) :
    DirsMade (pathsAbove path) d d' := by
  rw [makeParent] at h
  rw [pathsAbove]
  cases hparent : path.parent? with
  | none =>
    rw [hparent] at h
    obtain ⟨-, rfl⟩ := Prod.mk.inj h
    exact .refl _ _
  | some parent =>
    rw [hparent] at h
    obtain ⟨s, hs, -⟩ := runOn_adapt_eq h
    exact makeDirs_made hs

/-- An asset is copied, or directories may have been made for it. -/
theorem copyAsset_cases {r : Except Failure Unit}
    (h : runOn d (copyAsset root target path) = (r, d')) :
    (∃ why, r = .error why ∧ DirsMade (pathsAbove (target.join path)) d d') ∨
      r = .ok () ∧ Copied (root.join path) (target.join path) d d' := by
  rcases runOn_bind_eq h with ⟨why, hparent, rfl⟩ | ⟨u, d₁, hparent, hcopy⟩
  · exact Or.inl ⟨why, rfl, makeParent_made hparent⟩
  have hdirs := makeParent_made hparent
  obtain ⟨s, hrun, rfl⟩ := runOn_adapt_eq hcopy
  rcases copyFile_cases hrun with ⟨why, rfl, rfl⟩ | ⟨p, q, b, rfl, hsource, hplace, heq⟩
  · exact Or.inl ⟨_, rfl, hdirs⟩
  · exact Or.inr ⟨rfl, d₁, p, q, b, hdirs, hsource, hplace, heq⟩

theorem copyAsset_grows {r : Except Failure Unit}
    (h : runOn d (copyAsset root target path) = (r, d')) : Grows d d' := by
  rcases copyAsset_cases h with ⟨why, -, hdirs⟩ | ⟨-, hcopied⟩
  · exact hdirs.grows
  · exact hcopied.grows

/-! ## One entry -/

/-- Copies an entry of the directory at `below`. -/
def copyEntry (root target : Path) (fuel : Nat) (below : Path) (entry : Name × Node) :
    DiskM Failure Nat := do
  let path := below.join (pathOf entry.1)
  if entry.2.isDir then do
    match (← get).resolve true (root.join path) with
    | .ok (.found q .dir) => copyEntries root target fuel path ((← get).children q)
    | .ok _ => throw (.assetCopy (root.join path) (.disk .notDirectory))
    | .error why => throw (.assetCopy (root.join path) (.disk why))
  else do
    copyAsset root target path
    pure 1

theorem copyEntries_succ (root target : Path) (fuel : Nat) (below : Path)
    (entries : List (Name × Node)) :
    copyEntries root target (fuel + 1) below entries =
      (entries.mapM (copyEntry root target fuel below) >>= fun counts =>
        pure (counts.foldl (· + ·) 0)) := rfl

theorem copyEntry_congr {fuel : Nat} {below : Path} {entry entry' : Name × Node}
    (h : kind entry = kind entry') :
    copyEntry root target fuel below entry = copyEntry root target fuel below entry' := by
  obtain ⟨hname, hdir⟩ := Prod.mk.inj h
  rw [copyEntry, copyEntry, hname, hdir]

/-- Of the entries only the names and which of them are directories matter. -/
theorem copyEntries_congr {fuel : Nat} {below : Path} {entries entries' : List (Name × Node)}
    (h : entries.map kind = entries'.map kind) :
    copyEntries root target fuel below entries = copyEntries root target fuel below entries' := by
  cases fuel with
  | zero => rfl
  | succ fuel =>
    rw [copyEntries_succ, copyEntries_succ]
    congr 1
    induction entries generalizing entries' with
    | nil =>
      obtain rfl : entries' = [] := List.map_eq_nil_iff.1 h.symm
      rfl
    | cons entry entries ih =>
      obtain ⟨entry', rest, rfl, hentry, hrest⟩ := List.map_eq_cons_iff.1 h.symm
      rw [List.mapM_cons, List.mapM_cons, copyEntry_congr hentry, ih hrest.symm]

theorem runOn_mapM_cons {α β ε : Type} {f : α → DiskM ε β} {a : α} {l : List α}
    {r : Except ε (List β)} (h : runOn d ((a :: l).mapM f) = (r, d')) :
    (∃ why, runOn d (f a) = (.error why, d') ∧ r = .error why) ∨
      ∃ b d₁ r', runOn d (f a) = (.ok b, d₁) ∧ runOn d₁ (l.mapM f) = (r', d') ∧
        r = r'.map (b :: ·) := by
  rw [List.mapM_cons] at h
  rcases runOn_bind_eq h with ⟨why, ha, rfl⟩ | ⟨b, d₁, ha, hrest⟩
  · exact Or.inl ⟨why, ha, rfl⟩
  rcases runOn_bind_eq hrest with ⟨why, hl, rfl⟩ | ⟨bs, d₂, hl, hpure⟩
  · exact Or.inr ⟨b, d₁, _, ha, hl, rfl⟩
  · obtain ⟨rfl, rfl⟩ := Prod.mk.inj hpure
    exact Or.inr ⟨b, d₁, _, ha, hl, rfl⟩

/-- The entries that are copied are found on a disk that has grown. -/
theorem grows_mapM {α β ε : Type} {f : α → DiskM ε β} {l : List α}
    (hf : ∀ a ∈ l, ∀ (d d' : Disk) (r : Except ε β), runOn d (f a) = (r, d') → Grows d d')
    {r : Except ε (List β)} (h : runOn d (l.mapM f) = (r, d')) : Grows d d' := by
  induction l generalizing d r with
  | nil =>
    obtain ⟨-, rfl⟩ := Prod.mk.inj h
    exact .refl d
  | cons a l ih =>
    have ha := hf a (List.mem_cons_self ..)
    rcases runOn_mapM_cons h with ⟨why, hrun, -⟩ | ⟨b, d₁, r', hrun, hrest, -⟩
    · exact ha _ _ _ hrun
    · exact (ha _ _ _ hrun).trans (ih (fun a' ha' => hf a' (List.mem_cons_of_mem a ha')) hrest)

theorem copyEntry_grows_of {fuel : Nat} (ih : ∀ (below : Path) (entries : List (Name × Node))
      (d d' : Disk) (r : Except Failure Nat),
      runOn d (copyEntries root target fuel below entries) = (r, d') → Grows d d')
    {below : Path} {entry : Name × Node} {r : Except Failure Nat}
    (h : runOn d (copyEntry root target fuel below entry) = (r, d')) : Grows d d' := by
  rw [copyEntry] at h
  split_ifs at h with hdir
  · rw [runOn_get_bind] at h
    split at h
    · rw [runOn_get_bind] at h
      exact ih _ _ _ _ _ h
    · obtain ⟨-, rfl⟩ := Prod.mk.inj h
      exact .refl d
    · obtain ⟨-, rfl⟩ := Prod.mk.inj h
      exact .refl d
  · rcases runOn_bind_eq h with ⟨why, hcopy, -⟩ | ⟨u, d₁, hcopy, hpure⟩
    · exact copyAsset_grows hcopy
    · obtain ⟨-, rfl⟩ := Prod.mk.inj hpure
      exact copyAsset_grows hcopy

theorem copyEntries_grows {fuel : Nat} {below : Path} {entries : List (Name × Node)}
    {r : Except Failure Nat}
    (h : runOn d (copyEntries root target fuel below entries) = (r, d')) : Grows d d' := by
  induction fuel generalizing below entries d d' r with
  | zero =>
    obtain ⟨-, rfl⟩ := Prod.mk.inj h
    exact .refl d
  | succ fuel ih =>
    rw [copyEntries_succ] at h
    rcases runOn_bind_eq h with ⟨why, hmap, -⟩ | ⟨counts, d₁, hmap, hpure⟩
    · exact grows_mapM (fun _ _ _ _ _ => copyEntry_grows_of fun _ _ _ _ _ => ih) hmap
    · obtain ⟨-, rfl⟩ := Prod.mk.inj hpure
      exact grows_mapM (fun _ _ _ _ _ => copyEntry_grows_of fun _ _ _ _ _ => ih) hmap

theorem copyEntry_grows {fuel : Nat} {below : Path} {entry : Name × Node}
    {r : Except Failure Nat} (h : runOn d (copyEntry root target fuel below entry) = (r, d')) :
    Grows d d' := copyEntry_grows_of (fun _ _ _ _ _ => copyEntries_grows) h

/-! ## Paths that are not too long -/

theorem length_le_byteLength (s : List Char) : s.length ≤ byteLength s := by
  induction s with
  | nil => exact le_rfl
  | cons c s ih =>
    have := c.utf8Size_pos
    rw [List.length_cons, byteLength]
    omega

theorem length_le_length_join (path path' : Path) :
    path'.chars.length ≤ (path.join path').chars.length := by
  rw [Path.join]
  split_ifs
  · exact le_rfl
  · rw [List.length_append]
    omega
  · rw [List.length_append, List.length_cons]
    omega

theorem length_le_length_relative {names : Place} (h : ∀ s ∈ names, ProperName s) :
    names.length ≤ (relative names).chars.length := by
  induction names with
  | nil => exact Nat.zero_le _
  | cons s r ih =>
    have ih := ih fun t ht => h t (List.mem_cons_of_mem s ht)
    have hs := List.length_pos_of_ne_nil (h s (List.mem_cons_self ..)).ne_nil
    cases r with
    | nil =>
      have hone : (relative [s]).chars = s := by simp [relative]
      rwa [hone]
    | cons t r =>
      rw [relative_cons_cons, List.length_append]
      simp only [List.length_cons] at ih ⊢
      omega

theorem checkPath_eq_ok {path : Path} (h : checkPath path = .ok ()) :
    byteLength path.chars < pathLimit := by
  rw [checkPath] at h
  split_ifs at h with _ _ hlimit
  exact Nat.lt_of_not_le hlimit

/-- A path that can be followed has fewer names than bytes are allowed. -/
theorem length_lt_pathLimit (hproper : ∀ s ∈ names, ProperName s)
    (h : checkPath (root.join (relative names)) = .ok ()) : names.length < pathLimit := by
  have hlimit := checkPath_eq_ok h
  have hbytes := length_le_byteLength (root.join (relative names)).chars
  have hjoin := length_le_length_join root (relative names)
  have hnames := length_le_length_relative hproper
  omega

/-! ## A whole run -/

/-- A run that copies files one after the other, given by their names below `top`, succeeds or
fails with a disk left behind. It fails when directories have been made for the next file, or for a
reason that has nothing to do with one. Once something new has come into the tree of the disk `d`
below `top`, nothing more is said but that the disk grows. -/
inductive Walked (d : Disk) (top : Place) (root target : Path) :
    List Place → Disk → Bool → Disk → Prop
  | done (e : Disk) : Walked d top root target [] e true e
  | stop (l : List Place) (e : Disk) : Walked d top root target l e false e
  | fail {names : Place} (l : List Place) {e e' : Disk}
      (h : DirsMade (pathsAbove (target.join (relative names))) e e') :
      Walked d top root target (names :: l) e false e'
  | copy {names : Place} {l : List Place} {e e₁ e' : Disk} {ok : Bool}
      (h : Copied (root.join (relative names)) (target.join (relative names)) e e₁)
      (hrest : Walked d top root target l e₁ ok e') :
      Walked d top root target (names :: l) e ok e'
  | spoilt (l : List Place) {e e' : Disk} (ok : Bool) (hnew : ¬ NothingNew d e top)
      (h : Grows e e') : Walked d top root target l e ok e'

variable {l l' : List Place} {ok : Bool}

theorem Walked.grows (h : Walked d top root target l e ok e') : Grows e e' := by
  induction h with
  | done e | stop _ e => exact .refl e
  | fail _ h => exact h.grows
  | copy h _ ih => exact h.grows.trans ih
  | spoilt _ _ _ h => exact h

theorem Walked.append {e'' : Disk} (h : Walked d top root target l e true e')
    (h' : Walked d top root target l' e' ok e'') :
    Walked d top root target (l ++ l') e ok e'' := by
  generalize htrue : true = done at h
  induction h with
  | done e => exact h'
  | stop _ _ | fail _ _ => cases htrue
  | copy h _ ih => exact .copy h (ih h' htrue)
  | spoilt l _ hnew h => exact .spoilt _ ok hnew (h.trans h'.grows)

theorem Walked.append_of_failed (h : Walked d top root target l e false e') (l' : List Place) :
    Walked d top root target (l ++ l') e false e' := by
  generalize hfalse : false = done at h
  induction h with
  | done e => cases hfalse
  | stop l e => exact .stop _ e
  | fail l h => exact .fail _ h
  | copy h _ ih => exact .copy h (ih hfalse)
  | spoilt l ok hnew h =>
    subst hfalse
    exact .spoilt _ false hnew h

/-- Names lead from a place through directories only. -/
def DirsDown (d : Disk) : Place → Place → Prop
  | _, [] => True
  | p, s :: r => d.node? (p ++ [s]) = some .dir ∧ DirsDown d (p ++ [s]) r

theorem dirsDown_append {s : Name} :
    ∀ {names : Place} {p : Place}, DirsDown d p names → d.node? (p ++ names ++ [s]) = some .dir →
      DirsDown d p (names ++ [s])
  | [], p, _, hs => ⟨by simpa using hs, trivial⟩
  | t :: names, p, ⟨ht, hnames⟩, hs => ⟨ht, dirsDown_append hnames (by simpa using hs)⟩

theorem DirsDown.grows (h : Grows d d') :
    ∀ {names p : Place}, DirsDown d p names → DirsDown d' p names
  | [], _, _ => trivial
  | t :: names, p, ⟨ht, hnames⟩ => by
    obtain ⟨n, hn, hlike⟩ := h.node?_some ht
    cases hlike
    exact ⟨hn, DirsDown.grows h hnames⟩

/-- Names that lead through directories only lead below the place they start at. -/
theorem DirsDown.leads {links : Nat} {t : Target} :
    ∀ {names p : Place}, DirsDown d p names → Leads d links p (names.map .name) t →
      t = .found (p ++ names) .dir
  | [], p, _, hl => by
    cases hl
    rw [List.append_nil]
  | s :: names, p, ⟨hs, hnames⟩, hl => by
    rw [hnames.leads (hl.of_dir hs), List.append_assoc, List.singleton_append]

/-- The steps of a root but for a slash at its end lead where the root does. -/
theorem leads_bareSteps {n : Node} (h : PathLeads d root (.found top n)) :
    Leads d linkLimit d.home (bareSteps root) (.found top n) := by
  have hl := h.2
  rw [steps_eq, lastStep] at hl
  split_ifs at hl
  · obtain ⟨rfl, hl'⟩ := hl.of_append_here
    exact hl'
  · rwa [List.append_nil] at hl

/-- A path of names below a root leads where the names lead from there. -/
theorem leads_of_join_relative {t : Target} (hroot : PathLeads d root (.found top .dir))
    (hproper : ∀ s ∈ names, ProperName s) (hne : names ≠ [])
    (h : PathLeads d (root.join (relative names)) t) :
    Leads d linkLimit top (names.map .name) t := by
  have hl := h.2
  rw [steps_join_relative root hproper hne] at hl
  exact (leads_bareSteps hroot).split hl

theorem dirsDown_child (hd : d.Proper) {below : Place} (hbelow : DirsDown d top below) {s : Name}
    {n : Node} (hchild : (s, n) ∈ d.children (top ++ below)) (hn : n.isDir = true) :
    DirsDown d top (below ++ [s]) := by
  have hnode := node?_of_mem_table hd.nodup (by simp) (mem_children.1 hchild)
  cases n with
  | dir => exact dirsDown_append hbelow hnode
  | file | link => cases hn

/-- The files that a child of a directory stands for, given the names of the directory. -/
def filesOfChild (d : Disk) (fuel : Nat) (p below : Place) (child : Name × Node) : List Place :=
  (if child.2.isDir then (d.filesBelow fuel (p ++ [child.1])).map (child.1 :: ·)
    else [[child.1]]).map (below ++ ·)

theorem map_filesBelow_succ (d : Disk) (fuel : Nat) (p below : Place) :
    (d.filesBelow (fuel + 1) p).map (below ++ ·) =
      (d.children p).flatMap (filesOfChild d fuel p below) := by
  rw [filesBelow, List.map_flatMap]
  rfl

/-- The root of the assets leads to the same directory when the disk has grown. -/
theorem pathLeads_root (he : Grows d e) (hroot : PathLeads d root (.found top .dir)) :
    PathLeads e root (.found top .dir) := by
  obtain ⟨n, hroot', hlike⟩ := he.pathLeads_found hroot
  cases hlike
  exact hroot'

/-- What is done for a directory is done for those of its entries that were there at the start. -/
theorem copyEntries_children (hd : d.Proper) (he : Grows d e) (hnew : NothingNew d e top)
    (fuel : Nat) (path : Path) (below : Place) :
    copyEntries root target fuel path (e.children (top ++ below)) =
      copyEntries root target fuel path (d.children (top ++ below)) :=
  copyEntries_congr (kinds_children_eq he hd hnew (List.prefix_append top below))

/-! ## Entries by their names -/

section

variable {fuel : Nat} {below : Place} {s : Name} {n : Node}

theorem relative_join_pathOf (h : ∀ t ∈ below ++ [s], ProperName t) :
    (relative below).join (pathOf s) = relative (below ++ [s]) :=
  relative_join_name (fun t ht => h t (List.mem_append_left _ ht)) (h s (by simp))

/-- A directory is entered if its path leads to one. -/
theorem runOn_copyEntry_dir (h : ∀ t ∈ below ++ [s], ProperName t) (hn : n.isDir = true)
    {r : Except Failure Nat}
    (hrun : runOn e (copyEntry root target fuel (relative below) (s, n)) = (r, e')) :
    (∃ q, e.resolve true (root.join (relative (below ++ [s]))) = .ok (.found q .dir) ∧
        runOn e (copyEntries root target fuel (relative (below ++ [s])) (e.children q)) = (r, e')) ∨
      (∃ why, r = .error why) ∧ e' = e := by
  rw [copyEntry, relative_join_pathOf h] at hrun
  simp only [hn, if_true] at hrun
  rw [runOn_get_bind] at hrun
  split at hrun
  · rename_i q hq
    rw [runOn_get_bind] at hrun
    exact Or.inl ⟨q, hq, hrun⟩
  · obtain ⟨rfl, rfl⟩ := Prod.mk.inj hrun
    exact Or.inr ⟨⟨_, rfl⟩, rfl⟩
  · obtain ⟨rfl, rfl⟩ := Prod.mk.inj hrun
    exact Or.inr ⟨⟨_, rfl⟩, rfl⟩

/-- Anything else is copied. -/
theorem copyEntry_file (h : ∀ t ∈ below ++ [s], ProperName t) (hn : n.isDir = false) :
    copyEntry root target fuel (relative below) (s, n) =
      (do copyAsset root target (relative (below ++ [s])); pure 1) := by
  rw [copyEntry, relative_join_pathOf h]
  simp only [hn, Bool.false_eq_true, if_false]

end

/-! ## Walking a tree -/

/-- A run that walks files and, unless something new has come below `top`, counts them. -/
structure Toured (d : Disk) (top : Place) (root target : Path) (l : List Place) (e : Disk)
    (count : Except Failure Nat) (e' : Disk) : Prop where
  walked : Walked d top root target l e count.isOk e'
  counted : ∀ n, count = .ok n → NothingNew d e' top → n = l.length

variable {count : Except Failure Nat} {m : Nat} {why : Failure}

theorem Toured.append {e'' : Disk} (h : Toured d top root target l e (.ok m) e')
    (h' : Toured d top root target l' e' count e'') :
    Toured d top root target (l ++ l') e (count.map (m + ·)) e'' := by
  refine ⟨?_, fun n hn hnew => ?_⟩
  · have hok : (count.map (m + ·)).isOk = count.isOk := by cases count <;> rfl
    rw [hok]
    exact h.walked.append h'.walked
  · cases count with
    | error why => cases hn
    | ok k =>
      obtain rfl := Except.ok.inj hn
      have hm := h.counted m rfl (hnew.of_grows h'.walked.grows)
      have hk := h'.counted k rfl hnew
      rw [List.length_append, ← hm, ← hk]

theorem Toured.append_of_failed (h : Toured d top root target l e (.error why) e')
    (l' : List Place) : Toured d top root target (l ++ l') e (.error why) e' :=
  ⟨h.walked.append_of_failed l', fun _ hn => by cases hn⟩

/-- What is said about a run for the entries of a directory: it tours the files below. The files
are listed to a greater depth than the run could go, but it fails on paths that are too long. -/
def ToursEntries (d : Disk) (top : Place) (root target : Path) (fuel extra : Nat) : Prop :=
  ∀ (below : Place) (e e' : Disk) (r : Except Failure Nat), Grows d e →
    (∀ s ∈ below, ProperName s) → DirsDown d top below → below.length < pathLimit →
    pathLimit ≤ below.length + fuel →
    runOn e (copyEntries root target fuel (relative below) (e.children (top ++ below))) = (r, e') →
    Toured d top root target ((d.filesBelow (fuel + extra) (top ++ below)).map (below ++ ·)) e r e'

variable {fuel extra : Nat} {below : Place}

theorem toured_copyEntry (hd : d.Proper) (hroot : PathLeads d root (.found top .dir))
    (ih : ToursEntries d top root target fuel extra) (hbelow : DirsDown d top below)
    (hfuel : pathLimit ≤ below.length + (fuel + 1)) {child : Name × Node}
    (hchild : child ∈ d.children (top ++ below)) (he : Grows d e)
    (h : runOn e (copyEntry root target fuel (relative below) child) = (count, e')) :
    Toured d top root target (filesOfChild d (fuel + extra) (top ++ below) below child) e
      count e' := by
  obtain ⟨s, n⟩ := child
  have hnames := hd.names_below hchild
  rw [filesOfChild]
  cases hn : n.isDir with
  | true =>
    simp only [if_true]
    rcases runOn_copyEntry_dir hnames hn h with ⟨q, hq, h⟩ | ⟨⟨why, rfl⟩, rfl⟩
    · have hl := resolve_eq_ok_iff.1 hq
      have hdown := dirsDown_child hd hbelow hchild hn
      obtain ⟨rfl, -⟩ := Target.found.inj ((hdown.grows he).leads
        (leads_of_join_relative (pathLeads_root he hroot) hnames (by simp) hl))
      have hlength : (below ++ [s]).length < pathLimit := length_lt_pathLimit hnames hl.1
      have key := ih (below ++ [s]) e e' count he hnames hdown hlength
        (by rw [List.length_append, List.length_singleton]; omega) h
      simpa [List.map_map, Function.comp_def] using key
    · exact ⟨.stop _ _, fun _ hcount => by cases hcount⟩
  | false =>
    simp only [Bool.false_eq_true, if_false]
    rw [copyEntry_file hnames hn] at h
    rcases runOn_bind_eq h with ⟨why, hcopy, rfl⟩ | ⟨u, d₁, hcopy, hpure⟩
    · rcases copyAsset_cases hcopy with ⟨why', -, hdirs⟩ | ⟨hok, -⟩
      · exact ⟨.fail [] hdirs, fun _ hcount => by cases hcount⟩
      · cases hok
    · obtain ⟨rfl, rfl⟩ := Prod.mk.inj hpure
      rcases copyAsset_cases hcopy with ⟨why', herr, -⟩ | ⟨-, hcopied⟩
      · cases herr
      · exact ⟨.copy hcopied (.done _), fun n hcount _ => (Except.ok.inj hcount).symm⟩

theorem toured_mapM (hd : d.Proper) (hroot : PathLeads d root (.found top .dir))
    (ih : ToursEntries d top root target fuel extra) (hbelow : DirsDown d top below)
    (hfuel : pathLimit ≤ below.length + (fuel + 1)) {children : List (Name × Node)}
    (hsub : children ⊆ d.children (top ++ below)) (he : Grows d e)
    {r : Except Failure (List Nat)}
    (h : runOn e (children.mapM (copyEntry root target fuel (relative below))) = (r, e')) :
    Toured d top root target
      (children.flatMap (filesOfChild d (fuel + extra) (top ++ below) below)) e
      (r.map List.sum) e' := by
  induction children generalizing e r with
  | nil =>
    obtain ⟨rfl, rfl⟩ := Prod.mk.inj h
    exact ⟨.done _, fun n hn _ => (Except.ok.inj hn).symm⟩
  | cons child children ihc =>
    have hchild := hsub (List.mem_cons_self ..)
    rw [List.flatMap_cons]
    rcases runOn_mapM_cons h with ⟨why, hrun, rfl⟩ | ⟨b, d₁, r', hrun, hrest, rfl⟩
    · exact (toured_copyEntry hd hroot ih hbelow hfuel hchild he hrun).append_of_failed _
    · have hfirst := toured_copyEntry hd hroot ih hbelow hfuel hchild he hrun
      have hsum : (r'.map (b :: ·)).map List.sum = (r'.map List.sum).map (b + ·) := by
        cases r' with
        | error why => rfl
        | ok l => exact congrArg Except.ok List.sum_cons
      rw [hsum]
      exact hfirst.append
        (ihc (List.subset_of_cons_subset hsub) (he.trans hfirst.walked.grows) hrest)

/-- A run copies the files below a directory one after the other. -/
theorem toured_copyEntries (hd : d.Proper) (hroot : PathLeads d root (.found top .dir))
    (fuel extra : Nat) : ToursEntries d top root target fuel extra := by
  induction fuel with
  | zero =>
    intro below e e' r _ _ _ hlength hfuel h
    omega
  | succ fuel ih =>
    intro below e e' r he _ hbelow _ hfuel h
    by_cases hnew : NothingNew d e top
    · rw [Nat.add_right_comm, map_filesBelow_succ]
      rw [copyEntries_children hd he hnew, copyEntries_succ] at h
      rcases runOn_bind_eq h with ⟨why, hmap, rfl⟩ | ⟨counts, d₁, hmap, hpure⟩
      · exact toured_mapM hd hroot ih hbelow hfuel (List.Subset.refl _) he hmap
      · obtain ⟨rfl, rfl⟩ := Prod.mk.inj hpure
        rw [← List.sum_eq_foldl]
        exact toured_mapM hd hroot ih hbelow hfuel (List.Subset.refl _) he hmap
    · have hgrows := copyEntries_grows h
      exact ⟨.spoilt _ _ hnew hgrows, fun _ _ hnew' => absurd (hnew'.of_grows hgrows) hnew⟩

end Assets

end Lectern
