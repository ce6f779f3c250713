import Lectern.Proofs.Assets.Harm

/-!
# Replicating a directory of assets

Replicating copies the assets below a directory into the directory of a page, also if the page does
not lie inside the directory of the assets but paths from it lead there. `replicate_harm_iff` says
just when the assets are left as they are and when they are delivered.
-/

namespace Lectern

open Disk

namespace Assets

variable {d d' : Disk} {root page : Path} {top : Place}

/-- What is looked up is reported without a change of the disk. -/
theorem reporting_disk {α : Type} {path : Path} {s : Except Fault α} {r : Except Failure α}
    (h : runOn d (reporting path (ExceptT.mk (pure s))) = (r, d')) : d' = d := by
  obtain ⟨_, hs, -⟩ := runOn_adapt_eq h
  exact (Prod.mk.inj hs).2.symm

/-- Refusing a page or not leaves the disk as it is. -/
theorem guardOutside_disk {r : Except Failure Unit}
    (h : runOn d (guardOutside root page) = (r, d')) : d' = d := by
  rw [guardOutside, runOn_get_bind] at h
  rcases runOn_bind_eq h with ⟨why, hroot, -⟩ | ⟨q, d₁, hroot, htarget⟩
  · exact reporting_disk hroot
  obtain rfl := reporting_disk hroot
  rcases runOn_bind_eq htarget with ⟨why, hplace, -⟩ | ⟨p, d₂, hplace, hinside⟩
  · exact reporting_disk hplace
  obtain rfl := reporting_disk hplace
  split_ifs at hinside <;> exact (Prod.mk.inj hinside).2.symm

/-- A run copies the assets one after the other and counts them. The assets are listed to a greater
depth than the run could go. -/
theorem toured_replicate (hd : d.Proper) (hroot : d.resolve true root = .ok (.found top .dir))
    (extra : Nat) {r : Except Failure Nat} (h : runOn d (replicate root page) = (r, d')) :
    Toured d top root (destination page) (d.filesBelow (pathLimit + extra) top) d r d' := by
  rcases runOn_bind_eq h with ⟨why, hguard, rfl⟩ | ⟨u, d₁, hguard, hrun⟩
  · obtain rfl := guardOutside_disk hguard
    exact ⟨.stop _ _, fun _ hcount => by cases hcount⟩
  · obtain rfl := guardOutside_disk hguard
    rw [runOn_get_bind, hroot] at hrun
    have hentries : ToursEntries d₁ top root (destination page) pathLimit extra :=
      toured_copyEntries hd (resolve_eq_ok_iff.1 hroot) pathLimit extra
    have key := hentries [] d₁ d' r (.refl d₁) (by simp) trivial (by decide) (by simp)
    rw [List.append_nil] at key
    simpa using key hrun

/-- The assets that are copied are those that do not lie too deep. -/
theorem walked_replicate (hd : d.Proper) (hroot : d.resolve true root = .ok (.found top .dir))
    {r : Except Failure Nat} (h : runOn d (replicate root page) = (r, d')) :
    Walked d top root (destination page) (assetsBelow d top) d r.isOk d' :=
  (toured_replicate hd hroot 0 h).walked

/-- Nothing is copied if the root leads to no directory. -/
theorem replicate_disk_of_no_dir (hroot : ∀ top, d.resolve true root ≠ .ok (.found top .dir))
    {r : Except Failure Nat} (h : runOn d (replicate root page) = (r, d')) : d' = d := by
  rcases runOn_bind_eq h with ⟨why, hguard, -⟩ | ⟨u, d₁, hguard, hrun⟩
  · exact guardOutside_disk hguard
  · obtain rfl := guardOutside_disk hguard
    rw [runOn_get_bind] at hrun
    split at hrun
    · rename_i q hq
      exact absurd hq (hroot q)
    · exact (Prod.mk.inj hrun).2.symm

/-! ## Why copying fails -/

/-- The failure is that of an asset that cannot be copied. -/
def IsAssetCopy (why : Failure) : Prop := ∃ path cause, why = .assetCopy path cause

/-- The disk has refused to copy an asset. -/
def IsDiskCopy (why : Failure) : Prop := ∃ path cause, why = .assetCopy path (.disk cause)

theorem IsDiskCopy.isAssetCopy {why : Failure} (h : IsDiskCopy why) : IsAssetCopy why := by
  obtain ⟨path, cause, rfl⟩ := h
  exact ⟨path, _, rfl⟩

theorem failsOnly_reporting {α : Type} (path : Path) (x : DiskM Fault α) :
    FailsOnly IsDiskCopy (reporting path x) := failsOnly_adapt (fun _ => ⟨_, _, rfl⟩) x

theorem failsOnly_makeParent (path : Path) : FailsOnly IsDiskCopy (makeParent path) := by
  rw [makeParent]
  split
  · exact failsOnly_reporting _ _
  · exact failsOnly_pure _

theorem failsOnly_copyEntries (root target : Path) (fuel : Nat) (below : Path)
    (entries : List (Name × Node)) :
    FailsOnly IsDiskCopy (copyEntries root target fuel below entries) := by
  induction fuel generalizing below entries with
  | zero => exact failsOnly_pure _
  | succ fuel ih =>
    refine (failsOnly_mapM (fun entry => ?_) entries).bind fun counts => failsOnly_pure _
    simp only
    split_ifs
    · refine failsOnly_get.bind fun d => ?_
      split
      · exact failsOnly_get.bind fun d => ih _ _
      · exact failsOnly_throw ⟨_, _, rfl⟩
      · exact failsOnly_throw ⟨_, _, rfl⟩
    · exact ((failsOnly_makeParent _).bind fun _ => failsOnly_reporting _ _).bind fun _ =>
        failsOnly_pure _

/-- A page is refused because it lies inside the assets, or because the disk refuses. -/
theorem failsOnly_guardOutside (root page : Path) :
    FailsOnly (fun why => IsDiskCopy why ∨ why = .assetCopy page (.insideAssets root))
      (guardOutside root page) := by
  have hreporting {α : Type} (path : Path) (x : DiskM Fault α) :
      FailsOnly (fun why => IsDiskCopy why ∨ why = .assetCopy page (.insideAssets root))
        (reporting path x) := (failsOnly_reporting path x).mono fun _ => .inl
  refine failsOnly_get.bind fun d => (hreporting _ _).bind fun rootPlace =>
    (hreporting _ _).bind fun place => ?_
  split_ifs
  · exact failsOnly_throw (.inr rfl)
  · exact failsOnly_pure _

/-- What is refused because it lies inside the assets is refused before anything is copied. -/
theorem replicate_insideAssets {path root' : Path}
    (h : runOn d (replicate root page) = (.error (.assetCopy path (.insideAssets root')), d')) :
    d' = d ∧ path = page ∧ root' = root := by
  rcases runOn_bind_eq h with ⟨why, hguard, hwhy⟩ | ⟨u, d₁, -, hrun⟩
  · obtain rfl := Except.error.inj hwhy
    refine ⟨guardOutside_disk hguard, ?_⟩
    rcases (failsOnly_guardOutside root page).of_runOn hguard with ⟨_, _, hdisk⟩ | hwhy
    · cases hdisk
    · cases hwhy
      exact ⟨rfl, rfl⟩
  · exfalso
    rw [runOn_get_bind] at hrun
    split at hrun
    · obtain ⟨_, _, hdisk⟩ := (failsOnly_copyEntries _ _ _ _ _).of_runOn hrun
      cases hdisk
    · cases (Prod.mk.inj hrun).1

/-- Replicating fails only because an asset cannot be copied. -/
theorem failsOnly_replicate (root page : Path) : FailsOnly IsAssetCopy (replicate root page) := by
  refine FailsOnly.bind ?_ fun _ => failsOnly_get.bind fun d => ?_
  · refine (failsOnly_guardOutside root page).mono fun why hwhy => hwhy.elim IsDiskCopy.isAssetCopy ?_
    rintro rfl
    exact ⟨_, _, rfl⟩
  split
  · exact (failsOnly_copyEntries _ _ _ _ _).mono fun _ => IsDiskCopy.isAssetCopy
  · exact failsOnly_pure _

theorem failsOnly_replicateBundled (page : Path) :
    FailsOnly IsDiskCopy (replicateBundled page) :=
  (failsOnly_forM (fun _ => (failsOnly_makeParent _).bind fun _ => failsOnly_reporting _ _) _).bind
    fun _ => failsOnly_pure _

/-! ## Assets that can be read -/

/-- All assets that can be read are copied. -/
theorem mem_assetsBelow {names : Place} (hproper : ∀ s ∈ names, ProperName s)
    (h : FileBelow d top names) {b : ByteArray}
    (hopen : d.openFile (root.join (relative names)) = .ok (.bytes b)) :
    names ∈ assetsBelow d top := by
  obtain ⟨q, hcheck, -⟩ := openFile_eq_bytes_iff.1 hopen
  exact mem_filesBelow h (length_lt_pathLimit hproper hcheck).le

theorem fileBelow_of_lastLanding {target : Path} {q last : Place}
    (h : lastLanding d' target (assetsBelow d top) q = some last) : FileBelow d top last :=
  fileBelow_of_mem (List.mem_of_mem_filter (List.mem_of_getLast? h))

/-- Replicating leaves the assets as they are just if no place that belongs to them is changed of
those to which the paths of the copies, or the paths above these, lead in the end. If none of these
places belongs to the assets and nothing fails, an asset is delivered just if the last asset whose
path leads to the same place has the same bytes. -/
theorem replicate_harm_iff (hd : d.Proper) (root page : Path) :
    (∀ top, d.resolve true root = .ok (.found top .dir) →
      (Unharmed d (runOn d (replicate root page)).2 top ↔
        ∀ q, Belongs d top q →
          Reached (runOn d (replicate root page)).2 (destination page) (assetsBelow d top) q →
          (runOn d (replicate root page)).2.node? q = d.node? q) ∧
      ((runOn d (replicate root page)).1.isOk = true →
        (∀ q, Belongs d top q →
          ¬ Reached (runOn d (replicate root page)).2 (destination page) (assetsBelow d top) q) →
        ∀ names b, FileBelow d top names →
          d.openFile (root.join (relative names)) = .ok (.bytes b) →
          ∃ q last, Lands (runOn d (replicate root page)).2 (destination page) q names ∧
            lastLanding (runOn d (replicate root page)).2 (destination page) (assetsBelow d top) q =
              some last ∧
            ∀ b', d.openFile (root.join (relative last)) = .ok (.bytes b') →
              ((runOn d (replicate root page)).2.openFile
                ((destination page).join (relative names)) = .ok (.bytes b) ↔ b' = b))) ∧
    ((∀ top, d.resolve true root ≠ .ok (.found top .dir)) →
      (runOn d (replicate root page)).2 = d) := by
  generalize hrun : runOn d (replicate root page) = ran
  obtain ⟨r, d'⟩ := ran
  refine ⟨fun top hroot => ?_, fun hroot => replicate_disk_of_no_dir hroot hrun⟩
  have hwalked := walked_replicate hd hroot hrun
  have hframed := hwalked.framed (List.Subset.refl _) (framed_refl d top (destination page) _)
  refine ⟨hframed.unharmed_iff hwalked.grows, fun hok hapart names b hbelow hopen => ?_⟩
  obtain ⟨-, hnew⟩ := hframed.of_apart hapart
  have hproper : ∀ names, FileBelow d top names → ∀ s ∈ names, ProperName s :=
    fun names h s hs => hd.names_of_fileBelow h s (List.mem_append_right top hs)
  rw [show r.isOk = true from hok] at hwalked
  obtain ⟨hleads, -⟩ := hwalked.lands (.refl d) hnew
  have hmem := mem_assetsBelow (hproper names hbelow) hbelow hopen
  obtain ⟨q, b₀, hq⟩ := hleads names hmem
  have hlands : Lands d' (destination page) q names := lands_of_leads ⟨b₀, hq⟩
  obtain ⟨last, hlastq⟩ := exists_lastLanding hmem hlands
  refine ⟨q, last, hlands, hlastq, fun b' hopen' => ?_⟩
  have hlastBelow := fileBelow_of_lastLanding hlastq
  obtain ⟨s, hs⟩ := openFile_eq_bytes_iff.1 hopen'
  have hbelongs : Belongs d top s := Or.inr ⟨last, b', walk_of_leads
    (leads_of_join_relative (resolve_eq_ok_iff.1 hroot) (hproper last hlastBelow)
      hlastBelow.ne_nil hs)⟩
  have hnode := hwalked.delivers (List.Subset.refl _) (.refl d) hnew (fun q => Or.inl rfl) hlastq
    hs (hapart s hbelongs)
  obtain rfl : b₀ = b' :=
    Node.file.inj (Option.some.inj (hq.2.node?_file.2.symm.trans hnode))
  rw [openFile_eq_bytes_iff]
  constructor
  · rintro ⟨q', hq'⟩
    obtain ⟨-, hb⟩ := Target.found.inj (hq.unique hq')
    exact Node.file.inj hb
  · rintro rfl
    exact ⟨q, hq⟩

/-- A directory of assets with one file. -/
def plain : Disk where
  table := [
    (["assets".toList], .dir),
    (["assets".toList, ['f']], .file "new".toUTF8)]

/-- Next to the directory of the assets no place that belongs to them is reached. -/
theorem apart_plain (q : Place) (hq : Belongs plain ["assets".toList] q) :
    ¬ Reached (runOn plain (replicate (.ofString "assets") (.ofString "talk.html"))).2
      (destination (.ofString "talk.html")) (assetsBelow plain ["assets".toList]) q := by
  have hassets : assetsBelow plain ["assets".toList] = [[['f']]] := by cbv
  have habove : pathsAbove ((destination (.ofString "talk.html")).join (relative [['f']])) =
      [⟨['.']⟩, ⟨[]⟩] := by cbv
  have hplace : q = [['f']] ∨ q = [] → False := by
    rintro (rfl | rfl)
    · rcases hq with ⟨hq, -⟩ | ⟨names, b, hl⟩
      · exact absurd hq (by decide)
      · have hfree : plain.node? [['f']] = none := by cbv
        cases hfree.symm.trans (leads_of_walk hl).node?_file.2
    · rcases hq with ⟨hq, -⟩ | ⟨names, b, hl⟩
      · exact absurd hq (by decide)
      · exact absurd rfl (leads_of_walk hl).node?_file.1
  rw [hassets]
  rintro ⟨names, hnames, hr⟩
  obtain rfl := List.mem_singleton.1 hnames
  rw [habove] at hr
  rcases hr with hl | ⟨path, hpath, hl⟩
  · have hf : (runOn plain (replicate (.ofString "assets") (.ofString "talk.html"))).2.canonical
        ((destination (.ofString "talk.html")).join (relative [['f']])) = .ok [['f']] := by cbv
    exact hplace (Or.inl (Except.ok.inj (hl.symm.trans hf)))
  · rcases List.mem_pair.1 hpath with rfl | rfl
    · have hdot : (runOn plain
          (replicate (.ofString "assets") (.ofString "talk.html"))).2.canonical ⟨['.']⟩ =
            .ok [] := by cbv
      exact hplace (Or.inr (Except.ok.inj (hl.symm.trans hdot)))
    · have hnone : (runOn plain
          (replicate (.ofString "assets") (.ofString "talk.html"))).2.canonical ⟨[]⟩ =
            .error .notFound := by cbv
      cases hl.symm.trans hnone

theorem replicate_harm_iff_plain :
    Unharmed plain (runOn plain (replicate (.ofString "assets") (.ofString "talk.html"))).2
      ["assets".toList] ∧
    ∃ q last, Lands (runOn plain (replicate (.ofString "assets") (.ofString "talk.html"))).2
        (destination (.ofString "talk.html")) q [['f']] ∧
      lastLanding (runOn plain (replicate (.ofString "assets") (.ofString "talk.html"))).2
        (destination (.ofString "talk.html")) (assetsBelow plain ["assets".toList]) q =
          some last ∧
      ∀ b', plain.openFile ((Path.ofString "assets").join (relative last)) = .ok (.bytes b') →
        ((runOn plain (replicate (.ofString "assets") (.ofString "talk.html"))).2.openFile
          ((destination (.ofString "talk.html")).join (relative [['f']])) =
            .ok (.bytes "new".toUTF8) ↔ b' = "new".toUTF8) := by
  have hproper : plain.Proper := by decide
  have hroot : plain.resolve true (.ofString "assets") = .ok (.found ["assets".toList] .dir) := by
    cbv
  have hok : (runOn plain (replicate (.ofString "assets") (.ofString "talk.html"))).1.isOk =
      true := by cbv
  have hlist : plain.filesBelow 1 ["assets".toList] = [[['f']]] := by cbv
  have hbelow : FileBelow plain ["assets".toList] [['f']] :=
    fileBelow_of_mem (hlist ▸ List.mem_singleton_self _)
  have hopen : plain.openFile ((Path.ofString "assets").join (relative [['f']])) =
      .ok (.bytes "new".toUTF8) := by cbv
  have key := (replicate_harm_iff hproper (.ofString "assets") (.ofString "talk.html")).1
    ["assets".toList] hroot
  exact ⟨key.1.2 fun q hq hr => absurd hr (apart_plain q hq),
    key.2 hok apart_plain [['f']] _ hbelow hopen⟩

/-- A directory of assets with a directory of the same name in it. -/
def nested : Disk where
  table := [
    (["assets".toList], .dir),
    (["assets".toList, "assets".toList], .dir),
    (["assets".toList, "assets".toList, ['f']], .file "new".toUTF8),
    (["assets".toList, ['f']], .file "old".toUTF8)]

/-- The page lies outside of the directory of the assets, but a file in it is written over, and
what is copied last is not what it held. -/
theorem replicate_harms_nested :
    nested.Proper ∧
    (runOn nested (replicate (.ofString "assets") (.ofString "talk.html"))).1 = .ok 2 ∧
    nested.openFile (.ofString "assets/f") = .ok (.bytes "old".toUTF8) ∧
    (runOn nested (replicate (.ofString "assets") (.ofString "talk.html"))).2.openFile
      (.ofString "assets/f") = .ok (.bytes "new".toUTF8) ∧
    (runOn nested (replicate (.ofString "assets") (.ofString "talk.html"))).2.openFile
      (.ofString "./f") = .ok (.bytes "new".toUTF8) ∧
    ¬ Unharmed nested (runOn nested (replicate (.ofString "assets") (.ofString "talk.html"))).2
      ["assets".toList] := by
  refine ⟨by decide, by cbv, by cbv, by cbv, by cbv, fun h => ?_⟩
  have hbefore : nested.walk true linkLimit ["assets".toList] (([['f']] : Place).map .name) =
      .ok (.found ["assets".toList, ['f']] (.file "old".toUTF8)) := by cbv
  have hafter : (runOn nested
      (replicate (.ofString "assets") (.ofString "talk.html"))).2.walk true linkLimit
        ["assets".toList] (([['f']] : Place).map .name) =
      .ok (.found ["assets".toList, ['f']] (.file "new".toUTF8)) := by cbv
  have heq := (h.files _ _ _ hbefore).symm.trans hafter
  have hbytes : "old".toUTF8 = "new".toUTF8 :=
    Node.file.inj (Target.found.inj (Except.ok.inj heq)).2
  exact absurd hbytes (by decide)

end Assets

end Lectern
