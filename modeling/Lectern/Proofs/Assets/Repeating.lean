import Lectern.Proofs.Assets.Overlay

/-!
# Replicating again

Once assets have been copied to places outside of their directory, copying them again changes
nothing: an asset that has its bytes at its place gets the same bytes (`Settled.runOn_copyAsset`),
and a run does the same as the first one did (`repeats_copyEntries`). With what one run does, this
says what replicating is: `replicate_overlay`.
-/

namespace Lectern

open Disk

namespace Assets

variable {d d' e e' : Disk} {root target page path parent : Path} {top q : Place}
  {names : Place} {l : List Place}

/-! ## One asset again -/

/-- Every asset of a run that succeeds has been read, and a file has been put at its path. -/
theorem Walked.delivered {ok : Bool} (h : Walked d top root target l e ok e') (hok : ok = true)
    (hnew : NothingNew d e' top) {names : Place} (hmem : names ∈ l) :
    (∃ s b, PathLeads e' (root.join (relative names)) (.found s (.file b))) ∧
      ∃ q b, e'.filePlace (target.join (relative names)) = .ok q ∧
        e'.node? q = some (.file b) := by
  induction h with
  | done e => cases hmem
  | stop l e => cases hok
  | fail l h => cases hok
  | spoilt l ok hspoilt h => exact absurd (hnew.of_grows h) hspoilt
  | @copy names' l e e₁ e' ok h hrest ih =>
    rcases List.mem_cons.1 hmem with rfl | hmem
    · obtain ⟨d₁, s, q, b, hdirs, hsource, hplace, rfl⟩ := h
      obtain ⟨n, hl, hlike⟩ :=
        ((grows_of_filePlace hplace _).trans hrest.grows).pathLeads_found hsource
      cases hlike with
      | file _ b₁ =>
        have hwritten := filePlace_set hplace (if s = q then ByteArray.empty else b)
        have hnode := (pathLeads_set hplace (if s = q then ByteArray.empty else b)).2.node?_file.2
        obtain ⟨n, hn, hlike⟩ := hrest.grows.node?_some hnode
        cases hlike with
        | file _ b₂ => exact ⟨⟨s, b₁, hl⟩, q, b₂, hrest.grows.filePlace hwritten hn, hn⟩
    · exact ih hok hnew hmem

/-- An asset that has been copied, and that has not changed since. -/
def Settled (e : Disk) (root target : Path) (names : Place) : Prop :=
  ∃ s q b, PathLeads e (root.join (relative names)) (.found s (.file b)) ∧
    e.filePlace (target.join (relative names)) = .ok q ∧ e.node? q = some (.file b) ∧ s ≠ q

/-- Without links the parent of a path to a file leads to a directory. -/
theorem isDir_parent (hd : e.NoLinks) {b : ByteArray} (hl : PathLeads e path (.found q (.file b)))
    {s : Name} {way : List Component} (hmoves : path.moves = way ++ [.name s])
    (hparent : path.parent? = some parent) (hne : parent.chars ≠ []) : e.isDir parent = true := by
  have hway := hl.2.filter hd
  rw [filter_steps, hmoves] at hway
  obtain ⟨p, links, -, hp, -⟩ := hway.of_append (List.cons_ne_nil _ _)
  have hsteps : (steps parent).filter (· ≠ .here) = way.filter (· ≠ .here) := by
    rw [filter_steps, Path.moves_parent? hparent, hmoves, List.dropLast_concat]
    have hidem := filter_moves path
    rw [hmoves, List.filter_append] at hidem
    exact (List.append_cancel_right hidem).symm
  exact isDir_eq_true_iff.2 ⟨p, checkPath_of_prefix hl.1 (Path.prefix_chars_parent? hparent) hne,
    hp.of_filter_eq hsteps⟩

/-- Copying an asset again changes nothing. -/
theorem Settled.runOn_copyAsset (h : Settled e root target names) (hd : e.NoLinks)
    (hproper : ∀ s ∈ names, ProperName s) (hne : names ≠ []) :
    runOn e (copyAsset root target (relative names)) = (.ok (), e) := by
  obtain ⟨s, q, b, hsource, hplace, hnode, hsq⟩ := h
  have hparent : runOn e (makeParent (target.join (relative names))) = (.ok (), e) := by
    rw [makeParent]
    cases hparent : (target.join (relative names)).parent? with
    | none => rfl
    | some parent =>
      obtain ⟨init, t, rfl⟩ := (List.eq_nil_or_concat' names).resolve_left hne
      have hl := pathLeads_of_filePlace hplace hnode
      have hmoves : (target.join (relative (init ++ [t]))).moves =
          (target.moves ++ init.map .name) ++ [.name t] := by
        rw [moves_join_relative target hproper hne, List.map_append, List.append_assoc]
        rfl
      have hmake : runOn e (makeDirs parent) = (.ok (), e) := runOn_makeDirs
        (or_iff_not_imp_left.2 fun hempty => isDir_parent hd hl hmoves hparent hempty)
      simp only [reporting, runOn_adapt, hmake]
      rfl
  have hcopy := runOn_copyFile hsource hplace
  rw [if_neg hsq, set_of_node? (ne_nil_of_filePlace hplace) hnode] at hcopy
  rw [copyAsset, runOn_bind, hparent]
  simp only [reporting, runOn_adapt, hcopy]
  rfl

/-- Names behind a directory that names lead to. -/
theorem fileBelow_of_dirsDown {below : Place} (h : DirsDown d top below)
    (hnames : FileBelow d (top ++ below) names) : FileBelow d top (below ++ names) := by
  induction below generalizing top with
  | nil => rwa [List.append_nil] at hnames
  | cons s below ih =>
    rw [List.append_cons] at hnames
    exact .sub (mem_children.2 (mem_table_of_node? (by simp) h.1)) rfl (ih h.2 hnames)

/-! ## A run again -/

/-- What is said about a run for the entries of a directory that has succeeded: on the disk `d'` it
does the same and changes nothing. -/
def RepeatsEntries (d d' : Disk) (top : Place) (root target : Path) (fuel : Nat) : Prop :=
  ∀ (below : Place) (e e' : Disk) (n : Nat), DirsDown d top below → Grows d e → Grows e' d' →
    runOn e (copyEntries root target fuel (relative below) (e.children (top ++ below))) =
      (.ok n, e') →
    runOn d' (copyEntries root target fuel (relative below) (d'.children (top ++ below))) =
      (.ok n, d')

section

variable (hd : d.Proper) (hroot : PathLeads d root (.found top .dir))
  (hcopy : ∀ names, FileBelow d top names →
    runOn d' (copyAsset root target (relative names)) = (.ok (), d'))
  {fuel : Nat} {below : Place}

include hd hroot hcopy

theorem repeats_copyEntry (ih : RepeatsEntries d d' top root target fuel)
    (hbelow : DirsDown d top below) {child : Name × Node}
    (hchild : child ∈ d.children (top ++ below)) (he : Grows d e) (he' : Grows e' d') {n : Nat}
    (h : runOn e (copyEntry root target fuel (relative below) child) = (.ok n, e')) :
    runOn d' (copyEntry root target fuel (relative below) child) = (.ok n, d') := by
  obtain ⟨s, node⟩ := child
  have hnames := hd.names_below hchild
  cases hdir : node.isDir with
  | true =>
    rcases runOn_copyEntry_dir hnames hdir h with ⟨q, hq, hrun⟩ | ⟨⟨why, hwhy⟩, -⟩
    · have hdown := dirsDown_child hd hbelow hchild hdir
      obtain ⟨rfl, -⟩ := Target.found.inj ((hdown.grows he).leads
        (leads_of_join_relative (pathLeads_root he hroot) hnames (by simp)
          (resolve_eq_ok_iff.1 hq)))
      have hagain := ih (below ++ [s]) e e' n hdown he he' hrun
      have hq' : d'.resolve true (root.join (relative (below ++ [s]))) =
          .ok (.found (top ++ (below ++ [s])) .dir) := resolve_eq_ok_iff.2
        (pathLeads_root ((copyEntry_grows h).trans he') (resolve_eq_ok_iff.1 hq))
      rw [copyEntry, relative_join_pathOf hnames]
      simp only [hdir, if_true]
      rw [runOn_get_bind, hq']
      simp only
      rw [runOn_get_bind]
      exact hagain
    · cases hwhy
  | false =>
    rw [copyEntry_file hnames hdir] at h ⊢
    have hfile : FileBelow d top (below ++ [s]) :=
      fileBelow_of_dirsDown hbelow (.file hchild hdir)
    rcases runOn_bind_eq h with ⟨why, -, herr⟩ | ⟨u, d₁, -, hpure⟩
    · cases herr
    · rw [runOn_bind, hcopy _ hfile]
      exact congrArg (·, d') (Prod.mk.inj hpure).1

theorem repeats_mapM (ih : RepeatsEntries d d' top root target fuel)
    (hbelow : DirsDown d top below) {children : List (Name × Node)}
    (hsub : children ⊆ d.children (top ++ below)) (he : Grows d e) (he' : Grows e' d')
    {counts : List Nat}
    (h : runOn e (children.mapM (copyEntry root target fuel (relative below))) =
      (.ok counts, e')) :
    runOn d' (children.mapM (copyEntry root target fuel (relative below))) = (.ok counts, d') := by
  induction children generalizing e counts with
  | nil => exact congrArg (·, d') (Prod.mk.inj h).1
  | cons child children ihc =>
    rcases runOn_mapM_cons h with ⟨why, -, herr⟩ | ⟨n, d₁, r, hrun, hrest, hr⟩
    · cases herr
    cases r with
    | error why => cases hr
    | ok counts' =>
      obtain rfl := Except.ok.inj hr
      have hgrows := copyEntry_grows hrun
      have hfirst := repeats_copyEntry hd hroot hcopy ih hbelow (hsub (List.mem_cons_self ..)) he
        ((grows_mapM (fun _ _ _ _ _ => copyEntry_grows) hrest).trans he') hrun
      have hagain := ihc (List.subset_of_cons_subset hsub) (he.trans hgrows) hrest
      rw [List.mapM_cons, runOn_bind, hfirst]
      simp only
      rw [runOn_bind, hagain]
      rfl

/-- A run that has succeeded succeeds again and changes nothing, if copying each asset does. -/
theorem repeats_copyEntries (hnew : NothingNew d d' top) (fuel : Nat) :
    RepeatsEntries d d' top root target fuel := by
  induction fuel with
  | zero =>
    intro below e e' n _ _ _ h
    exact congrArg (·, d') (Prod.mk.inj h).1
  | succ fuel ih =>
    intro below e e' n hbelow he he' h
    have hgrows := copyEntries_grows h
    rw [copyEntries_children hd he (hnew.of_grows (hgrows.trans he')), copyEntries_succ] at h
    rw [copyEntries_children hd (he.trans (hgrows.trans he')) hnew, copyEntries_succ]
    rcases runOn_bind_eq h with ⟨why, -, herr⟩ | ⟨counts, d₁, hmap, hpure⟩
    · cases herr
    obtain ⟨hn, rfl⟩ := Prod.mk.inj hpure
    rw [runOn_bind, repeats_mapM hd hroot hcopy ih hbelow (List.Subset.refl _) he he' hmap]
    exact congrArg (·, d') hn

end

/-! ## Replicating -/

theorem toured_files (hd : d.Proper) (hroot : d.resolve true root = .ok (.found top .dir))
    {r : Except Failure Nat} (h : runOn d (replicate root page) = (r, d')) :
    Toured d top root (destination page) (d.files top) d r d' := by
  rw [← filesBelow_height_add d top pathLimit, Nat.add_comm]
  exact toured_replicate hd hroot d.height h

section

variable (hd : d.Plain) (hroot : d.resolve true root = .ok (.found top .dir))
  (hout : ∀ names, FileBelow d top names →
    ¬ Inside top (d.lexical ((destination page).join (relative names))))

include hd hroot hout

/-- A page that is accepted does not lie in the directory of the assets, nor do their copies. -/
theorem apart_of_guardOutside (h : runOn d (guardOutside root page) = (.ok (), d')) :
    Apart d top root (destination page) := by
  have hl := resolve_eq_ok_iff.1 hroot
  obtain ⟨place, hplace, -⟩ := futurePlace_of_guardOutside (canonical_eq_ok_iff.2 ⟨_, hl⟩) h
  refine ⟨hd, hl, fun names hnames => ?_, fun way hway => ?_⟩
  · rw [← lexical_join_relative d _ (fun s hs => hd.proper.names_of_fileBelow hnames s
      (List.mem_append_right top hs)) hnames.ne_nil]
    exact hout names hnames
  · rw [← futurePlace_eq_lexical hd.noLinks hplace]
    exact node?_above_futurePlace hd hplace hway

theorem overlaid_replicate {r : Except Failure Nat}
    (h : runOn d (replicate root page) = (r, d')) :
    ∃ copied, copied <+: d.files top ∧ (r.isOk = true → copied = d.files top) ∧
      Overlaid d top (d.lexical (destination page)) (d.files top) copied d' := by
  have htour := toured_files hd.proper hroot h
  rcases runOn_bind_eq h with ⟨why, hguard, rfl⟩ | ⟨u, d₁, hguard, -⟩
  · obtain rfl := guardOutside_disk hguard
    exact ⟨[], List.nil_prefix, nofun, overlaid_refl ..⟩
  · have ha := apart_of_guardOutside hd hroot hout hguard
    exact htour.walked.overlaid ha (fun _ => mem_files.1) (.refl d) (List.nil_subset _)
      (List.Subset.refl _) (overlaid_refl ..)

/-- A run that succeeds has accepted the page and put nothing new below the assets. -/
theorem apart_of_replicate {n : Nat} (h : runOn d (replicate root page) = (.ok n, d')) :
    Apart d top root (destination page) ∧ NothingNew d d' top ∧
      Overlaid d top (d.lexical (destination page)) (d.files top) (d.files top) d' := by
  obtain ⟨copied, -, hall, hover⟩ := overlaid_replicate hd hroot hout h
  rw [hall rfl] at hover
  rcases runOn_bind_eq h with ⟨why, -, herr⟩ | ⟨u, d₁, hguard, -⟩
  · cases herr
  · have ha := apart_of_guardOutside hd hroot hout hguard
    exact ⟨ha, hover.nothingNew ha (fun _ => mem_files.1) (List.Subset.refl _), hover⟩

/-- After a run that succeeds all assets are settled. -/
theorem settled_replicate {n : Nat} (h : runOn d (replicate root page) = (.ok n, d'))
    (hnames : FileBelow d top names) : Settled d' root (destination page) names := by
  obtain ⟨ha, hnew, hover⟩ := apart_of_replicate hd hroot hout h
  have hwalked := (toured_files hd.proper hroot h).walked
  have hgrows := hwalked.grows
  have hmem := mem_files.2 hnames
  obtain ⟨⟨s, b, hsource⟩, q, b', hplace, hnode⟩ := hwalked.delivered rfl hnew hmem
  have hs : s = top ++ names := ha.source_place hnames hgrows hsource
  have hq : q = d.lexical (destination page) ++ names := ha.place_of_filePlace hnames hgrows hplace
  have hsq : s ≠ q := by
    rw [hs, hq]
    exact ha.source_ne hnames hnames
  have hbytes : d'.node? s = d'.node? q := by
    rw [hs, hq, hover.bytes names hmem, ha.node?_source hover (fun _ => mem_files.1)
      (List.Subset.refl _) hnames]
  rw [hsource.2.node?_file.2, hnode] at hbytes
  obtain rfl := Node.file.inj (Option.some.inj hbytes)
  exact ⟨s, q, b, hsource, hplace, hnode, hsq⟩

/-- A run that has succeeded succeeds again and changes nothing. -/
theorem replicate_again {n : Nat} (h : runOn d (replicate root page) = (.ok n, d')) :
    runOn d' (replicate root page) = (.ok n, d') := by
  obtain ⟨ha, hnew, -⟩ := apart_of_replicate hd hroot hout h
  have hgrows := (toured_files hd.proper hroot h).walked.grows
  have hsettled : ∀ names, FileBelow d top names → Settled d' root (destination page) names :=
    fun names hnames => settled_replicate hd hroot hout h hnames
  have hroot' := resolve_eq_ok_iff.2 (pathLeads_root hgrows ha.root)
  rcases runOn_bind_eq h with ⟨why, -, herr⟩ | ⟨u, d₁, hguard, hrun⟩
  · cases herr
  obtain ⟨place, hplace, houtside⟩ :=
    futurePlace_of_guardOutside (canonical_eq_ok_iff.2 ⟨_, ha.root⟩) hguard
  obtain rfl := guardOutside_disk hguard
  have hguard' : runOn d' (guardOutside root page) = (.ok (), d') := by
    rw [runOn_guardOutside (canonical_eq_ok_iff.2 ⟨_, resolve_eq_ok_iff.1 hroot'⟩)
      (futurePlace_grows hd.noLinks hgrows hplace), if_neg houtside]
  rw [runOn_get_bind, hroot] at hrun
  rw [replicate, runOn_bind, hguard']
  simp only
  rw [runOn_get_bind, hroot']
  have hagain := repeats_copyEntries hd.proper ha.root
    (fun names hnames => (hsettled names hnames).runOn_copyAsset (hd.noLinks.of_grows hgrows)
      (ha.proper hnames) hnames.ne_nil) hnew pathLimit [] d₁ d' n trivial (.refl d₁) (.refl d')
  simp only [List.append_nil] at hagain
  exact hagain hrun

end

/-- Replicating assets that are not copied into their own directory lays them over the disk. If it
succeeds, it counts the assets, each of them can be read where the page is, nothing else has changed
but for directories above, and a second run changes nothing. If it fails, an asset cannot be copied,
and the first of the assets have been laid over the disk. -/
theorem replicate_overlay (hd : d.Plain) (root page : Path)
    (hroot : d.resolve true root = .ok (.found top .dir))
    (hout : ∀ names, FileBelow d top names →
      ¬ Inside top (d.lexical ((destination page).join (relative names)))) :
    (∀ n e, runOn d (replicate root page) = (.ok n, e) →
      n = {names | FileBelow d top names}.ncard ∧
      (∀ names, FileBelow d top names → ∃ b, d.node? (top ++ names) = some (.file b) ∧
        e.openFile ((destination page).join (relative names)) = .ok (.bytes b)) ∧
      Overlaid d top (d.lexical (destination page)) (d.files top) (d.files top) e ∧
      runOn e (replicate root page) = (.ok n, e)) ∧
    (∀ why e, runOn d (replicate root page) = (.error why, e) →
      (∃ path cause, why = .assetCopy path cause) ∧
      ∃ copied, copied <+: d.files top ∧
        Overlaid d top (d.lexical (destination page)) (d.files top) copied e) := by
  refine ⟨fun n e h => ?_, fun why e h => ?_⟩
  · obtain ⟨ha, hnew, hover⟩ := apart_of_replicate hd hroot hout h
    have hcount := (toured_files hd.proper hroot h).counted n rfl hnew
    refine ⟨hcount.trans (ncard_fileBelow hd.proper top).symm, fun names hnames => ?_, hover,
      replicate_again hd hroot hout h⟩
    obtain ⟨b, hb⟩ := Plain.node?_file hd hnames
    obtain ⟨-, q, -, -, hplace, -⟩ := settled_replicate hd hroot hout h hnames
    have hq := ha.place_of_filePlace hnames (toured_files hd.proper hroot h).walked.grows hplace
    have hnode := (hover.bytes names (mem_files.2 hnames)).trans hb
    rw [← hq] at hnode
    exact ⟨b, hb, openFile_eq_bytes_iff.2 ⟨q, pathLeads_of_filePlace hplace hnode⟩⟩
  · obtain ⟨copied, hpre, -, hover⟩ := overlaid_replicate hd hroot hout h
    exact ⟨(failsOnly_replicate root page).of_runOn h, copied, hpre, hover⟩

/-- A directory of assets with a file in it and one further below. -/
def stocked : Disk where
  table := [
    (["assets".toList], .dir),
    (["assets".toList, "css".toList], .dir),
    (["assets".toList, "css".toList, ['a']], .file "a".toUTF8),
    (["assets".toList, ['f']], .file "f".toUTF8)]

theorem plain_stocked : stocked.Plain := by
  have htable : ∀ P : Place × Node → Prop, P (["assets".toList], .dir) →
      P (["assets".toList, "css".toList], .dir) →
      P (["assets".toList, "css".toList, ['a']], .file "a".toUTF8) →
      P (["assets".toList, ['f']], .file "f".toUTF8) → ∀ e ∈ stocked.table, P e := by
    intro P h₁ h₂ h₃ h₄ e he
    simp only [stocked, List.mem_cons, List.not_mem_nil, or_false] at he
    rcases he with rfl | rfl | rfl | rfl
    · exact h₁
    · exact h₂
    · exact h₃
    · exact h₄
  exact ⟨by decide, htable _ id id id id, htable _ rfl rfl rfl rfl, rfl⟩

/-- Both assets are copied into a directory that is missing, and a second run changes nothing. -/
theorem replicate_overlay_stocked :
    (runOn stocked (replicate (.ofString "assets") (.ofString "out/talk.html"))).1 = .ok 2 ∧
    {names | FileBelow stocked ["assets".toList] names}.ncard = 2 ∧
    Overlaid stocked ["assets".toList] ["out".toList] [["css".toList, ['a']], [['f']]]
      [["css".toList, ['a']], [['f']]]
      (runOn stocked (replicate (.ofString "assets") (.ofString "out/talk.html"))).2 ∧
    runOn (runOn stocked (replicate (.ofString "assets") (.ofString "out/talk.html"))).2
        (replicate (.ofString "assets") (.ofString "out/talk.html")) =
      (.ok 2, (runOn stocked (replicate (.ofString "assets") (.ofString "out/talk.html"))).2) := by
  have hroot : stocked.resolve true (.ofString "assets") =
      .ok (.found ["assets".toList] .dir) := by cbv
  have hok : (runOn stocked (replicate (.ofString "assets") (.ofString "out/talk.html"))).1 =
      .ok 2 := by cbv
  have hfiles : stocked.files ["assets".toList] = [["css".toList, ['a']], [['f']]] := by cbv
  have hbase : stocked.lexical (destination (.ofString "out/talk.html")) = ["out".toList] := by cbv
  have hout : ∀ names, FileBelow stocked ["assets".toList] names → ¬ Inside ["assets".toList]
      (stocked.lexical ((destination (.ofString "out/talk.html")).join (relative names))) := by
    intro names hnames
    rw [← mem_files, hfiles] at hnames
    rintro ⟨hpre, -⟩
    rcases List.mem_pair.1 hnames with rfl | rfl
    · have hplace : stocked.lexical ((destination (.ofString "out/talk.html")).join
          (relative ["css".toList, ['a']])) = ["out".toList, "css".toList, ['a']] := by cbv
      exact absurd (hplace ▸ hpre) (by decide)
    · have hplace : stocked.lexical ((destination (.ofString "out/talk.html")).join
          (relative [['f']])) = ["out".toList, ['f']] := by cbv
      exact absurd (hplace ▸ hpre) (by decide)
  obtain ⟨hcount, -, hover, hagain⟩ := (replicate_overlay plain_stocked (.ofString "assets")
    (.ofString "out/talk.html") hroot hout).1 2 _ (Prod.ext hok rfl)
  rw [hfiles, hbase] at hover
  exact ⟨hok, hcount.symm, hover, hagain⟩

end Assets

end Lectern
