import Lectern.Proofs.Assets.Overlay

/-!
# Where the directory of a page will be

The place that is looked up for the directory of a page, before the directory is made, is the one it
is then made at, also if links are on the way to it (`leads_to_futurePlace`). A page that is
accepted is therefore not put into the directory of the assets (`destination_outside`).
-/

namespace Lectern

open Disk Lectern.Path Assets

namespace Disk

variable {d d' : Disk} {path parent : Path} {p q : Place} {s : Name}

/-! ## Trees with links -/

/-- Every node of the disk stands in another one, as on any file system. -/
def NoOrphans (d : Disk) : Prop := ∀ e ∈ d.table, (d.node? e.1.dropLast).isSome

instance (d : Disk) : Decidable d.NoOrphans :=
  inferInstanceAs (Decidable (∀ e ∈ d.table, (d.node? e.1.dropLast).isSome))

/-- Nothing stands below a free place. -/
theorem NoOrphans.node?_eq_none (hd : d.NoOrphans) (hq : d.node? q = none) (s : Name) :
    d.node? (q ++ [s]) = none := by
  by_contra hs
  obtain ⟨n, hn⟩ := Option.ne_none_iff_exists'.1 hs
  have hsome := hd _ (mem_table_of_node? (by simp) hn)
  rw [List.dropLast_concat, hq] at hsome
  cases hsome

/-! ## Parents -/

/-- The moves of a path to a directory lead there. -/
theorem PathLeads.moves (h : PathLeads d path (.found q .dir)) :
    Leads d linkLimit d.home path.moves (.found q .dir) :=
  h.2.of_filter_eq (by rw [filter_moves, filter_steps])

theorem PathLeads.of_moves (hcheck : checkPath path = .ok ())
    (h : Leads d linkLimit d.home path.moves (.found q .dir)) :
    PathLeads d path (.found q .dir) :=
  ⟨hcheck, h.of_filter_eq (by rw [filter_moves, filter_steps])⟩

/-- The parent of a path, taken from where a relative path starts, has the moves of the path but for
the last one. -/
theorem moves_orHere_parent (hparent : path.parent? = some parent) (hname : path.fileName? = some s) :
    path.moves = (orHere parent).moves ++ [.name s] := by
  rw [moves_orHere, moves_parent? hparent]
  exact moves_fileName? hname

theorem checkPath_orHere_parent (hcheck : checkPath path = .ok ())
    (hparent : path.parent? = some parent) : checkPath (orHere parent) = .ok () := by
  rw [orHere]
  split_ifs with hempty
  · rfl
  · exact checkPath_of_prefix hcheck (prefix_chars_parent? hparent) (by simpa using hempty)

/-- A directory is made under the last name of a path, in the one that the parent leads to. -/
theorem newDirPlace_in_parent (h : d.newDirPlace path = .ok q)
    (hparent : path.parent? = some parent) (hname : path.fileName? = some s) :
    ∃ p, q = p ++ [s] ∧ PathLeads d (orHere parent) (.found p .dir) := by
  obtain ⟨hcheck, way, p, s', hsteps, rfl, hway, -, -⟩ := newDirPlace_eq_ok h
  have hmoves : way.filter (· ≠ .here) ++ [.name s'] = (orHere parent).moves ++ [.name s] := by
    rw [← moves_orHere_parent hparent hname, ← filter_steps, hsteps, List.filter_append,
      List.filter_cons_of_pos (by simp), filter_lastStep]
  obtain ⟨hfirst, hlast⟩ := List.append_inj' hmoves rfl
  obtain rfl : s' = s := by simpa using hlast
  refine ⟨p, rfl, .of_moves (checkPath_orHere_parent hcheck hparent) (hway.of_filter_eq ?_)⟩
  rw [filter_moves, hfirst]

/-- A path that leads to a directory leads to its last name in the directory of the parent, unless
there is a link. -/
theorem PathLeads.eq_in_parent (h : PathLeads d path (.found q .dir))
    (hparent : path.parent? = some parent) (hname : path.fileName? = some s)
    (hp : PathLeads d (orHere parent) (.found p .dir))
    (hlink : ∀ n, d.node? (p ++ [s]) = some n → ¬ n.IsLink) : q = p ++ [s] := by
  have hmoves := h.moves
  rw [moves_orHere_parent hparent hname] at hmoves
  cases hp.moves.split hmoves with
  | dir _ _ hstop =>
    cases hstop
    rfl
  | link _ hn _ => exact absurd trivial (hlink _ hn)

end Disk

namespace Assets

variable {d d' : Disk} {root page path parent : Path} {place : Place} {fuel : Nat}

/-- An empty path stands for the directory it is taken from. -/
theorem orHere_of_ne_nil (h : path.chars ≠ []) : orHere path = path :=
  if_neg (by simpa using h)

theorem chars_ne_nil_of_fileName? {name : Name} (h : path.fileName? = some name) :
    path.chars ≠ [] := by
  intro hempty
  rw [show path = ⟨[]⟩ from congrArg Path.mk hempty] at h
  cases h

theorem orHere_of_fileName? {name : Name} (h : path.fileName? = some name) :
    orHere path = path :=
  orHere_of_ne_nil (chars_ne_nil_of_fileName? h)

theorem isDir_orHere_iff :
    d.isDir (orHere path) = true ↔ path.chars = [] ∨ d.isDir path = true := by
  by_cases hempty : path.chars = []
  · rw [orHere, if_pos (by simpa using hempty)]
    exact iff_of_true (isDir_eq_true_iff.2 ⟨d.home, rfl, .here (.stop _ _)⟩) (.inl hempty)
  · rw [orHere_of_ne_nil hempty, or_iff_right hempty]

/-- Directories that have been made are there. -/
theorem isDir_of_makeDirsFrom
    (h : runOn d (makeDirsFrom (ancestorsWithin (fuel + 1) path)) = (.ok (), d')) :
    d'.isDir (orHere path) = true := by
  obtain ⟨above, hpaths, -⟩ := exists_ancestorsWithin fuel path
  rw [hpaths] at h
  refine isDir_orHere_iff.2 (or_iff_not_imp_left.2 fun hne => ?_)
  rcases makeDirsFrom_cons_cases h hne with hmade | ⟨d₁, -, hmade⟩
  · exact isDir_of_makeOrFindDir hmade
  · exact isDir_of_makeOrFindDir hmade

theorem futurePlace_of_canonical {q : Place} (hq : d.canonical (orHere path) = .ok q)
    (h : futurePlace d (ancestorsWithin fuel path) = .ok place) : place = q := by
  cases fuel with
  | zero => cases h
  | succ fuel =>
    rcases futurePlace_eq_ok_iff.1 h with hplace | ⟨hnone, -⟩
    · exact Except.ok.inj (hplace.symm.trans hq)
    · exact absurd hq (hnone q)

/-- A path leads to a directory at a place, which was free if the path led to no directory before. -/
structure Foreseen (d d' : Disk) (path : Path) (place : Place) : Prop where
  leads : PathLeads d' (orHere path) (.found place .dir)
  fresh : d.isDir (orHere path) = true ∨ d.node? place = none

/-- A path that has led somewhere leads to a directory there. -/
theorem foreseen_of_canonical (hq : d.canonical (orHere path) = .ok place) (hgrows : Grows d d')
    (hdir : d'.isDir (orHere path) = true) : Foreseen d d' path place := by
  obtain ⟨n, hl⟩ := canonical_eq_ok_iff.1 hq
  obtain ⟨n', hl', hlike⟩ := hgrows.pathLeads_found hl
  obtain ⟨q, hdir⟩ := isDir_eq_true_iff.1 hdir
  obtain ⟨rfl, rfl⟩ := Target.found.inj (hl'.unique hdir)
  cases hlike
  exact ⟨hdir, .inl (isDir_eq_true_iff.2 ⟨place, hl⟩)⟩

section

variable {d₁ : Disk} {name : Name} {p : Place} (hparent : path.parent? = some parent)
  (hname : path.fileName? = some name)

include hparent hname

/-- A directory that is made is found in the one that the parent leads to. -/
theorem foreseen_of_newDirPlace {q : Place} (hgrows : Grows d d₁)
    (hplace : d₁.newDirPlace path = .ok q)
    (hp : ∀ p', PathLeads d₁ (orHere parent) (.found p' .dir) → p' = p) :
    Foreseen d (d₁.set q .dir) path (p ++ [name]) := by
  obtain ⟨p', rfl, hl⟩ := newDirPlace_in_parent hplace hparent hname
  obtain rfl := hp p' hl
  obtain ⟨-, hfree, hmade⟩ := pathLeads_of_newDirPlace hplace
  refine ⟨?_, .inr (hgrows.node?_eq_none hfree)⟩
  rwa [orHere_of_fileName? hname]

/-- Below a directory that is new there are no links, so a path that has come to lead to a directory
leads to one in it. -/
theorem Foreseen.of_isDir (hd : d.NoOrphans) (h : Foreseen d d₁ parent p) (hgrows : Grows d d₁)
    (hnew : d.isDir (orHere parent) ≠ true) (hdir : d₁.isDir path = true) :
    Foreseen d d₁ path (p ++ [name]) := by
  have hfree : d.node? (p ++ [name]) = none := hd.node?_eq_none (h.fresh.resolve_left hnew) name
  obtain ⟨q, hq⟩ := isDir_eq_true_iff.1 hdir
  obtain rfl := hq.eq_in_parent hparent hname h.leads fun n hn => hgrows.node?_none hfree hn
  refine ⟨?_, .inr hfree⟩
  rwa [orHere_of_fileName? hname]

end

/-- When the directories of a path have been made, the path leads to the place that was looked up
for it before. -/
theorem leads_to_futurePlace (hd : d.NoOrphans)
    (h : futurePlace d (ancestorsWithin fuel path) = .ok place)
    (hrun : runOn d (makeDirsFrom (ancestorsWithin fuel path)) = (.ok (), d')) :
    Foreseen d d' path place := by
  induction fuel generalizing path place d' with
  | zero => cases h
  | succ fuel ih =>
    rcases futurePlace_eq_ok_iff.1 h with hq | ⟨hnone, parent, name, p, hparent, hname, hp, rfl⟩
    · exact foreseen_of_canonical hq (makeDirsFrom_made hrun).grows (isDir_of_makeDirsFrom hrun)
    have hnodir : d.isDir path ≠ true := by
      intro hdir
      obtain ⟨q, hl⟩ := isDir_eq_true_iff.1 hdir
      rw [orHere_of_fileName? hname] at hnone
      exact hnone q (canonical_eq_ok_iff.2 ⟨_, hl⟩)
    obtain ⟨above, hpaths, habove⟩ := exists_ancestorsWithin fuel path
    rw [hpaths, habove parent hparent] at hrun
    rcases makeDirsFrom_cons_cases hrun (chars_ne_nil_of_fileName? hname) with
      hmake | ⟨d₁, hparents, hmake⟩
    · -- the parent has been there
      obtain ⟨q, hplace, -, rfl⟩ | ⟨hdir, -, -⟩ | ⟨-, ⟨why, hr⟩, -⟩ := makeOrFindDir_cases hmake
      · exact foreseen_of_newDirPlace hparent hname (.refl d) hplace fun p' hl =>
          (futurePlace_of_canonical (canonical_eq_ok_iff.2 ⟨_, hl⟩) hp).symm
      · exact absurd hdir hnodir
      · cases hr
    -- the parent has been made, and leads to its future place
    have hforeseen : Foreseen d d₁ parent p := ih hp hparents
    have hgrows : Grows d d₁ := (makeDirsFrom_made hparents).grows
    obtain ⟨q, hplace, -, rfl⟩ | ⟨hdir, -, rfl⟩ | ⟨-, ⟨why, hr⟩, -⟩ := makeOrFindDir_cases hmake
    · exact foreseen_of_newDirPlace hparent hname hgrows hplace fun p' hl =>
        (Target.found.inj (hl.unique hforeseen.leads)).1
    · refine hforeseen.of_isDir hparent hname hd hgrows (fun hparentDir => hnodir ?_) hdir
      -- if the parent had been there, nothing would have been made
      cases fuel with
      | zero => cases hp
      | succ fuel =>
        rw [runOn_makeDirsFrom (isDir_orHere_iff.1 hparentDir)] at hparents
        obtain ⟨-, rfl⟩ := Prod.mk.inj hparents
        exact hdir
    · cases hr

/-! ## The directory of a page -/

theorem orHere_destination (page : Path) : orHere (destination page) = destination page := by
  refine orHere_of_ne_nil ?_
  rw [destination]
  split
  · split_ifs with hempty
    · exact List.cons_ne_nil _ _
    · simpa using hempty
  · exact List.cons_ne_nil _ _

/-- A page is accepted only if the assets are there. -/
theorem canonical_of_guardOutside {d₁ : Disk}
    (h : runOn d (guardOutside root page) = (.ok (), d₁)) : ∃ top, d.canonical root = .ok top := by
  cases hroot : d.canonical root with
  | ok top => exact ⟨top, rfl⟩
  | error why =>
    rw [guardOutside, runOn_get_bind, reporting, hroot, runOn_bind, runOn_adapt, runOn_mk_pure] at h
    cases (Prod.mk.inj h).1

/-- The directory of a page that is accepted, once it has been made, is where it was expected, and
neither the directory of the assets nor inside it. Links on the way make no difference. -/
theorem destination_outside {d₁ : Disk} (hd : d.NoOrphans)
    (hguard : runOn d (guardOutside root page) = (.ok (), d₁))
    (hrun : runOn d₁ (makeDirs (destination page)) = (.ok (), d')) :
    ∃ place top, futurePlace d (upwards (destination page)) = .ok place ∧
      d'.canonical (destination page) = .ok place ∧ d.canonical root = .ok top ∧
      d'.canonical root = .ok top ∧ ¬ top <+: place := by
  obtain rfl := guardOutside_disk hguard
  obtain ⟨top, hroot⟩ := canonical_of_guardOutside hguard
  obtain ⟨place, hplace, hout⟩ := futurePlace_of_guardOutside hroot hguard
  have hl := (leads_to_futurePlace hd hplace hrun).leads
  rw [orHere_destination] at hl
  exact ⟨place, top, hplace, canonical_eq_ok_iff.2 ⟨_, hl⟩, hroot,
    (makeDirs_made hrun).grows.canonical hroot, hout⟩

/-- A disk with a link to a directory and one that leads nowhere. -/
def linked : Disk where
  table := [(["assets".toList], .dir), (["pages".toList], .dir),
    (["way".toList], .link (.ofString "pages/.")),
    (["pages".toList, "old".toList], .link (.ofString "../assets/gone"))]

theorem destination_outside_linked :
    ∃ d', runOn linked (guardOutside (.ofString "assets") (.ofString "way/a/b/talk.html")) =
        (.ok (), linked) ∧
      runOn linked (makeDirs (destination (.ofString "way/a/b/talk.html"))) = (.ok (), d') ∧
      ∃ place top, futurePlace linked (upwards (destination (.ofString "way/a/b/talk.html"))) =
          .ok place ∧ d'.canonical (destination (.ofString "way/a/b/talk.html")) = .ok place ∧
        linked.canonical (.ofString "assets") = .ok top ∧
        d'.canonical (.ofString "assets") = .ok top ∧ ¬ top <+: place := by
  have hguard : runOn linked (guardOutside (.ofString "assets") (.ofString "way/a/b/talk.html")) =
      (.ok (), linked) := by cbv
  obtain ⟨d', hrun⟩ : ∃ d', runOn linked (makeDirs (destination (.ofString "way/a/b/talk.html"))) =
      (.ok (), d') := ⟨_, by cbv⟩
  exact ⟨d', hguard, hrun, destination_outside (by decide) hguard hrun⟩

end Assets

end Lectern
