import Lectern.Proofs.Assets.Replicating
import Lectern.Proofs.Disk.Plain

/-!
# Assets as an overlay

On a disk without links, assets that are not copied into their own directory are laid over the
directory of the page (`Overlaid`): every asset that is copied adds its bytes at its place, maybe
with directories above, and nothing else changes (`Overlaid.copy`). A run that fails has done so
with the first of the assets (`Walked.overlaid`).
-/

namespace Lectern

open Disk

namespace Assets

variable {d d' e e' : Disk} {root target page path parent : Path} {top base q place : Place}
  {names : Place} {copied l assets : List Place}

/-! ## Where a page will stand -/

/-- The path that is followed for one, the directory it starts in for an empty one. -/
def orHere (path : Path) : Path := if path.chars.isEmpty then .ofString "." else path

theorem moves_orHere (path : Path) : (orHere path).moves = path.moves := by
  rw [orHere]
  split_ifs with h
  · obtain rfl : path = ⟨[]⟩ := congrArg Path.mk (List.isEmpty_iff.1 h)
    rfl
  · rfl

/-- The place of a page is that of its path, if the path leads somewhere, or it follows from that of
the parent. -/
theorem futurePlace_eq_ok_iff {fuel : Nat} :
    futurePlace d (ancestorsWithin (fuel + 1) path) = .ok place ↔
      d.canonical (orHere path) = .ok place ∨
      (∀ q, d.canonical (orHere path) ≠ .ok q) ∧ ∃ parent name p, path.parent? = some parent ∧
        path.fileName? = some name ∧ futurePlace d (ancestorsWithin fuel parent) = .ok p ∧
        place = p ++ [name] := by
  obtain ⟨paths, hpaths, hparent⟩ : ∃ paths, ancestorsWithin (fuel + 1) path = path :: paths ∧
      paths = (path.parent?.map (ancestorsWithin fuel)).getD [] := by
    rw [ancestorsWithin]
    cases path.parent? <;> exact ⟨_, rfl, rfl⟩
  have hhere : (if path.chars.isEmpty then Path.ofString "." else path) = orHere path := rfl
  rw [hpaths, futurePlace, hhere]
  cases hcanonical : d.canonical (orHere path) with
  | ok q => simp
  | error why =>
    simp only [reduceCtorEq, not_false_eq_true, implies_true, true_and, false_or, ne_eq]
    cases hname : path.fileName? with
    | none => simp
    | some name =>
      cases hup : path.parent? with
      | none =>
        rw [hup] at hparent
        subst hparent
        simp
      | some parent =>
        rw [hup] at hparent
        obtain rfl : paths = ancestorsWithin fuel parent := hparent
        simp only [Option.some.injEq, exists_and_left, exists_eq_left']
        cases hlist : ancestorsWithin fuel parent with
        | nil => simp [futurePlace]
        | cons a r =>
          simp only
          cases futurePlace d (a :: r) with
          | error why => simp [Except.map]
          | ok p => simp [Except.map, eq_comm]

/-- Without links a page will stand at the place its path is written for. -/
theorem futurePlace_eq_lexical (hd : d.NoLinks) {fuel : Nat}
    (h : futurePlace d (ancestorsWithin fuel path) = .ok place) : place = d.lexical path := by
  induction fuel generalizing path place with
  | zero => cases h
  | succ fuel ih =>
    rcases futurePlace_eq_ok_iff.1 h with hq | ⟨-, parent, name, p, hparent, hname, hp, rfl⟩
    · obtain ⟨n, hl⟩ := canonical_eq_ok_iff.1 hq
      have hplace : place = d.lexical (orHere path) := hl.place_eq hd
      rw [hplace, lexical_eq, moves_orHere, lexical_eq]
    · rw [ih hp, lexical_eq, lexical_eq, Path.moves_parent? hparent, Path.moves_fileName? hname,
        placeAlong_append, List.dropLast_concat]
      rfl

/-- Above the place of a page there are directories, or they are yet to be made. -/
theorem node?_above_futurePlace (hd : d.Plain) {fuel : Nat}
    (h : futurePlace d (ancestorsWithin fuel path) = .ok place) {way : List Component}
    (hway : way <+: path.moves) :
    d.node? (placeAlong d.home way) = some .dir ∨ placeAlong d.home way <+: place := by
  have hlexical := futurePlace_eq_lexical hd.noLinks h
  induction fuel generalizing path place with
  | zero => cases h
  | succ fuel ih =>
    by_cases hall : way = path.moves
    · rw [hlexical, lexical_eq, hall]
      exact Or.inr List.prefix_rfl
    rcases futurePlace_eq_ok_iff.1 h with hq | ⟨-, parent, name, p, hparent, hname, hp, rfl⟩
    · obtain ⟨n, hl⟩ := canonical_eq_ok_iff.1 hq
      have hmoves := hl.2.filter hd.noLinks
      obtain ⟨rest, hrest⟩ := hway
      have hne : rest ≠ [] := by
        rintro rfl
        exact hall (by rwa [List.append_nil] at hrest)
      rw [filter_steps, moves_orHere, ← hrest] at hmoves
      obtain ⟨q, links, -, hq, -⟩ := hmoves.of_append hne
      have hqplace : q = placeAlong d.home way := hq.place_eq hd.noLinks
      rw [← hqplace]
      exact Or.inl (hq.node?_dir hd hd.home)
    · have hup : way <+: parent.moves := by
        rw [Path.moves_fileName? hname] at hway hall
        rw [Path.moves_parent? hparent]
        exact (List.prefix_concat_iff.1 hway).resolve_left hall
      exact (ih hp hup (futurePlace_eq_lexical hd.noLinks hp)).imp_right fun hpre =>
        hpre.trans (List.prefix_append p [name])

/-- The place of a page is the same when the disk has grown. -/
theorem futurePlace_grows (hd : d.NoLinks) (hgrows : Grows d d') {fuel : Nat}
    (h : futurePlace d (ancestorsWithin fuel path) = .ok place) :
    futurePlace d' (ancestorsWithin fuel path) = .ok place := by
  have hlexical := futurePlace_eq_lexical hd h
  induction fuel generalizing path place with
  | zero => cases h
  | succ fuel ih =>
    rw [futurePlace_eq_ok_iff]
    rcases futurePlace_eq_ok_iff.1 h with hq | ⟨-, parent, name, p, hparent, hname, hp, rfl⟩
    · exact Or.inl (hgrows.canonical hq)
    by_cases hcanonical : ∃ q, d'.canonical (orHere path) = .ok q
    · obtain ⟨q, hq⟩ := hcanonical
      obtain ⟨n, hl⟩ := canonical_eq_ok_iff.1 hq
      have hplace : q = d'.lexical (orHere path) := hl.place_eq (hd.of_grows hgrows)
      rw [hgrows.lexical, lexical_eq, moves_orHere, ← lexical_eq, ← hlexical] at hplace
      exact Or.inl (hplace ▸ hq)
    · push Not at hcanonical
      exact Or.inr ⟨hcanonical, parent, name, p, hparent, hname,
        ih hp (futurePlace_eq_lexical hd hp), rfl⟩

/-- A page is refused if its place lies in the directory of the assets. -/
theorem runOn_guardOutside (hroot : d.canonical root = .ok top)
    (hplace : futurePlace d (upwards (destination page)) = .ok place) :
    runOn d (guardOutside root page) =
      (if top <+: place then .error (.assetCopy page (.insideAssets root)) else .ok (), d) := by
  rw [upwards] at hplace
  rw [guardOutside, runOn_get_bind, reporting, hroot, runOn_bind, runOn_adapt, runOn_mk_pure]
  simp only [Except.mapError]
  rw [reporting, hplace, runOn_bind, runOn_adapt, runOn_mk_pure]
  simp only [Except.mapError, List.isPrefixOf_iff_prefix]
  split_ifs <;> rfl

/-- A page is accepted only if its place is known. -/
theorem futurePlace_of_guardOutside (hroot : d.canonical root = .ok top)
    (h : runOn d (guardOutside root page) = (.ok (), d')) :
    ∃ place, futurePlace d (upwards (destination page)) = .ok place ∧ ¬ top <+: place := by
  cases hplace : futurePlace d (upwards (destination page)) with
  | error why =>
    rw [upwards] at hplace
    rw [guardOutside, runOn_get_bind, reporting, hroot, runOn_bind, runOn_adapt, runOn_mk_pure] at h
    simp only [Except.mapError] at h
    rw [reporting, hplace, runOn_bind, runOn_adapt, runOn_mk_pure] at h
    cases (Prod.mk.inj h).1
  | ok place =>
    rw [runOn_guardOutside hroot hplace] at h
    refine ⟨place, rfl, fun hpre => ?_⟩
    rw [if_pos hpre] at h
    cases (Prod.mk.inj h).1

/-! ## Assets that are copied elsewhere -/

/-- The place lies below the other. -/
def Inside (top q : Place) : Prop := top <+: q ∧ q ≠ top

/-- The assets below `top` are copied to places outside. Above the place of the page there are
directories, or they are yet to be made. -/
structure Apart (d : Disk) (top : Place) (root target : Path) : Prop where
  plain : d.Plain
  root : PathLeads d root (.found top .dir)
  outside : ∀ names, FileBelow d top names → ¬ Inside top (d.lexical target ++ names)
  above : ∀ way, way <+: target.moves →
    d.node? (placeAlong d.home way) = some .dir ∨ placeAlong d.home way <+: d.lexical target

/-- The disk `e` is the disk `d` but for the assets that have been copied from `top` to `base`, and
for directories above the places of assets. -/
structure Overlaid (d : Disk) (top base : Place) (assets copied : List Place) (e : Disk) :
    Prop where
  home : e.home = d.home
  bytes : ∀ names ∈ copied, e.node? (base ++ names) = d.node? (top ++ names)
  kept : ∀ q, (∀ names ∈ copied, q ≠ base ++ names) → e.node? q = d.node? q ∨
    d.node? q = none ∧ e.node? q = some .dir ∧
      ∃ names ∈ assets, q <+: base ++ names ∧ q ≠ base ++ names

theorem overlaid_refl (d : Disk) (top base : Place) (assets : List Place) :
    Overlaid d top base assets [] d :=
  ⟨rfl, by simp, fun _ _ => Or.inl rfl⟩

/-- Without links what stands below a directory is a file or a directory. -/
theorem Plain.node?_file (hd : d.Plain) (h : FileBelow d top names) :
    ∃ b, d.node? (top ++ names) = some (.file b) := by
  induction h with
  | @file p s n h hn =>
    have hnode := node?_of_mem_table hd.proper.nodup (by simp) (mem_children.1 h)
    cases n with
    | file b => exact ⟨b, hnode⟩
    | dir => cases hn
    | link target => exact absurd hnode (hd.noLinks.node?_ne _ _)
  | sub _ _ _ ih => simpa using ih

namespace Apart

variable (ha : Apart d top root target)

include ha

theorem node?_top : d.node? top = some .dir := ha.root.node?_dir ha.plain

theorem proper (h : FileBelow d top names) : ∀ s ∈ names, ProperName s := fun s hs =>
  ha.plain.proper.names_of_fileBelow h s (List.mem_append_right top hs)

theorem lexical_root : d.lexical root = top := (ha.root.place_eq ha.plain.noLinks).symm

/-- The path of an asset leads to its place, as long as the disk only grows. -/
theorem source_place (h : FileBelow d top names) (hgrows : Grows d e) {t : Target}
    (hl : PathLeads e (root.join (relative names)) t) : t.place = top ++ names := by
  rw [hl.place_eq (ha.plain.noLinks.of_grows hgrows), hgrows.lexical,
    lexical_join_relative d root (ha.proper h) h.ne_nil, ha.lexical_root]

/-- An asset is copied to the place that its path is written for. -/
theorem place_of_filePlace (h : FileBelow d top names) (hgrows : Grows d e)
    (hplace : e.filePlace (target.join (relative names)) = .ok q) :
    q = d.lexical target ++ names := by
  rw [eq_lexical_of_filePlace hplace (ha.plain.noLinks.of_grows hgrows), hgrows.lexical,
    lexical_join_relative d target (ha.proper h) h.ne_nil]

/-- No asset is copied onto an asset. -/
theorem source_ne {names' : Place} (h : FileBelow d top names) (h' : FileBelow d top names') :
    top ++ names ≠ d.lexical target ++ names' := fun heq =>
  ha.outside names' h' ⟨heq ▸ List.prefix_append _ _, fun htop =>
    h.ne_nil (List.append_right_eq_self.1 (heq.trans htop))⟩

theorem ne_top (h : FileBelow d top names) (hpre : top <+: d.lexical target ++ names) :
    d.lexical target ++ names = top :=
  by_contra fun hne => ha.outside names h ⟨hpre, hne⟩

/-- A directory that is made for an asset stands above the place of the asset. -/
theorem place_of_pathsAbove (h : FileBelow d top names) (hgrows : Grows d e)
    (hpath : path ∈ pathsAbove (target.join (relative names)))
    (hl : PathLeads e path (.found q .dir)) (hq : d.node? q = none) :
    q <+: d.lexical target ++ names ∧ q ≠ d.lexical target ++ names := by
  obtain ⟨init, s, rfl⟩ := (List.eq_nil_or_concat' names).resolve_left h.ne_nil
  have hplace : q = placeAlong d.home path.moves := by
    have hplace : q = e.lexical path := hl.place_eq (ha.plain.noLinks.of_grows hgrows)
    rw [hplace, hgrows.lexical, lexical_eq]
  have hway : path.moves <+: target.moves ++ init.map .name := by
    rw [pathsAbove] at hpath
    split at hpath
    · rename_i parent hparent
      have hpre := moves_of_mem_ancestorsWithin hpath
      rwa [Path.moves_parent? hparent, moves_join_relative target (ha.proper h) (by simp),
        List.map_append, ← List.append_assoc, List.map_singleton, List.dropLast_concat] at hpre
    · cases hpath
  have hlength : ∀ p : Place, p <+: d.lexical target ++ init →
      p <+: d.lexical target ++ (init ++ [s]) ∧ p ≠ d.lexical target ++ (init ++ [s]) := by
    intro p hp
    rw [← List.append_assoc]
    refine ⟨hp.trans (List.prefix_append _ _), fun e => ?_⟩
    have := hp.length_le
    rw [e, List.length_append, List.length_singleton] at this
    omega
  rw [hplace]
  rcases List.prefix_or_prefix_of_prefix hway (List.prefix_append _ _) with hway | ⟨way, hmoves⟩
  · rcases ha.above _ hway with hdir | hpre
    · rw [hplace, hdir] at hq
      cases hq
    · exact hlength _ (hpre.trans (List.prefix_append _ _))
  · rw [← hmoves, List.prefix_append_right_inj] at hway
    have hnames : way = (init.take way.length).map .name := by
      rw [List.map_take]
      exact List.prefix_iff_eq_take.1 hway
    rw [← hmoves, placeAlong_append, ← lexical_eq, hnames, placeAlong_names]
    exact hlength _ ((List.prefix_append_right_inj _).2 (List.take_prefix _ _))

/-- An asset keeps its bytes while others are copied. -/
theorem node?_source (hover : Overlaid d top (d.lexical target) assets copied e)
    (hassets : ∀ names ∈ assets, FileBelow d top names) (hsub : copied ⊆ assets)
    (h : FileBelow d top names) : e.node? (top ++ names) = d.node? (top ++ names) := by
  obtain ⟨b, hb⟩ := Plain.node?_file ha.plain h
  refine (hover.kept _ fun names' hmem => ha.source_ne h (hassets names' (hsub hmem))).resolve_right
    fun ⟨hnone, _⟩ => ?_
  rw [hb] at hnone
  cases hnone

end Apart

/-! ## One asset -/

namespace Overlaid

variable (ha : Apart d top root target)

include ha

/-- Nothing new has come below the directory of the assets. -/
theorem nothingNew (h : Overlaid d top (d.lexical target) assets copied e)
    (hassets : ∀ names ∈ assets, FileBelow d top names) (hsub : copied ⊆ assets) :
    NothingNew d e top := by
  intro q hq hnone
  have hne : q ≠ top := by
    rintro rfl
    rw [ha.node?_top] at hnone
    cases hnone
  have hplace : ∀ names ∈ assets, ¬ q <+: d.lexical target ++ names := by
    intro names hmem hpre
    have htop := ha.ne_top (hassets names hmem) (hq.trans hpre)
    rw [htop] at hpre
    exact hne (List.IsPrefix.eq_of_length_le hpre hq.length_le)
  rcases h.kept q fun names hmem e => hplace names (hsub hmem) (e ▸ List.prefix_rfl) with
    heq | ⟨-, -, names, hmem, hpre, -⟩
  · rw [heq, hnone]
  · exact absurd hpre (hplace names hmem)

/-- Making directories for an asset makes them above its place. -/
theorem makeDirs (h : Overlaid d top (d.lexical target) assets copied e)
    (hassets : ∀ names ∈ assets, FileBelow d top names) (hsub : copied ⊆ assets)
    (hgrows : Grows d e) (hmem : names ∈ assets)
    (hdirs : DirsMade (pathsAbove (target.join (relative names))) e e') :
    Overlaid d top (d.lexical target) assets copied e' := by
  refine ⟨hdirs.grows.home.trans h.home, fun names' hmem' => ?_, fun q hq => ?_⟩
  · obtain ⟨b, hb⟩ := Plain.node?_file ha.plain (hassets names' (hsub hmem'))
    have hbytes := h.bytes names' hmem'
    rcases hdirs.node? (d.lexical target ++ names') with heq | ⟨hnone, -⟩
    · rw [heq, hbytes]
    · rw [hbytes, hb] at hnone
      cases hnone
  · rcases h.kept q hq with heq | ⟨hnone, hdir, hmade⟩
    · rcases hdirs.node? q with heq' | ⟨hnone, hdir, path, hpath, hl⟩
      · exact Or.inl (heq'.trans heq)
      · rw [heq] at hnone
        exact Or.inr ⟨hnone, hdir, names, hmem, ha.place_of_pathsAbove (hassets names hmem)
          (hgrows.trans hdirs.grows) hpath hl hnone⟩
    · rcases hdirs.node? q with heq' | ⟨hnone', -⟩
      · exact Or.inr ⟨hnone, heq'.trans hdir, hmade⟩
      · rw [hdir] at hnone'
        cases hnone'

/-- Copying an asset puts its bytes at its place. -/
theorem copy (h : Overlaid d top (d.lexical target) assets copied e)
    (hassets : ∀ names ∈ assets, FileBelow d top names) (hsub : copied ⊆ assets)
    (hgrows : Grows d e) (hmem : names ∈ assets)
    (hcopied : Copied (root.join (relative names)) (target.join (relative names)) e e') :
    Overlaid d top (d.lexical target) assets (copied ++ [names]) e' := by
  have hbelow := hassets names hmem
  obtain ⟨d₁, s, q, b, hdirs, hsource, hplace, rfl⟩ := hcopied
  have h₁ := h.makeDirs ha hassets hsub hgrows hmem hdirs
  have hgrows₁ := hgrows.trans hdirs.grows
  have hs : s = top ++ names := ha.source_place hbelow hgrows₁ hsource
  have hq : q = d.lexical target ++ names := ha.place_of_filePlace hbelow hgrows₁ hplace
  have hbytes : d.node? (top ++ names) = some (.file b) := by
    rw [← ha.node?_source h₁ hassets hsub hbelow, ← hs]
    exact hsource.2.node?_file.2
  have hnode := node?_set (d := d₁) (ne_nil_of_filePlace hplace)
    (.file (if s = q then ByteArray.empty else b))
  rw [if_neg (by rw [hs, hq]; exact ha.source_ne hbelow hbelow)] at hnode ⊢
  rw [hq] at hnode ⊢
  refine ⟨h₁.home, fun names' hmem' => ?_, fun p hp => ?_⟩
  · rw [hnode]
    split_ifs with hsame
    · obtain rfl := List.append_cancel_left hsame
      exact hbytes.symm
    · rcases List.mem_append.1 hmem' with hmem' | hmem'
      · exact h₁.bytes names' hmem'
      · exact absurd (by rw [List.mem_singleton.1 hmem']) hsame
  · rw [hnode, if_neg (hp names (by simp))]
    exact h₁.kept p fun names' hmem' => hp names' (List.mem_append_left _ hmem')

end Overlaid

/-! ## A whole run -/

/-- A run lays assets over the disk one after the other: all of them if it succeeds, the first ones
if it fails. -/
theorem Walked.overlaid (ha : Apart d top root target) {ok : Bool}
    (h : Walked d top root target l e ok e') (hassets : ∀ names ∈ assets, FileBelow d top names)
    (hgrows : Grows d e) (hsub : copied ⊆ assets) (hl : l ⊆ assets)
    (hover : Overlaid d top (d.lexical target) assets copied e) :
    ∃ l', l' <+: l ∧ (ok = true → l' = l) ∧
      Overlaid d top (d.lexical target) assets (copied ++ l') e' := by
  induction h generalizing copied with
  | done e => exact ⟨[], List.prefix_rfl, fun _ => rfl, by rwa [List.append_nil]⟩
  | stop l e => exact ⟨[], List.nil_prefix, nofun, by rwa [List.append_nil]⟩
  | fail l h =>
    refine ⟨[], List.nil_prefix, nofun, ?_⟩
    rw [List.append_nil]
    exact hover.makeDirs ha hassets hsub hgrows (hl (List.mem_cons_self ..)) h
  | @copy names l e e₁ e' ok h hrest ih =>
    have hmem := hl (List.mem_cons_self ..)
    have hcopy := hover.copy ha hassets hsub hgrows hmem h
    obtain ⟨l', hpre, hall, hover'⟩ := ih (hgrows.trans h.grows)
      (List.append_subset.2 ⟨hsub, by simpa using hmem⟩) (List.subset_of_cons_subset hl) hcopy
    refine ⟨names :: l', (List.prefix_cons_inj names).2 hpre, fun hok => by rw [hall hok], ?_⟩
    rwa [List.append_assoc] at hover'
  | spoilt l ok hnew h => exact absurd (hover.nothingNew ha hassets hsub) hnew

end Assets

end Lectern
