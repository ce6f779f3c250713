import Lectern.Proofs.Assets.Copying

/-!
# When copying assets harms them

The directory of a page must not lie inside the directory of the assets, but the paths that the
assets are copied to lie below it and may well lead back into that directory. A run changes places
only where such a path, or one above it, leads to. So it leaves the assets as they are just if none
of these places that belongs to the assets is changed (`Framed.unharmed_iff`), and if none belongs
to them, every file that is delivered has the bytes of the last asset whose path leads to it
(`Walked.delivers`).
-/

namespace Lectern

open Disk

namespace Assets

variable {d d' e e' : Disk} {root target : Path} {top q : Place} {names : Place} {l l' : List Place}

/-! ## Notions -/

/-- The files below the directory of the assets still have their bytes, and nothing new has come
below it. -/
structure Unharmed (d d' : Disk) (top : Place) : Prop where
  files : ∀ (names : Place) q b,
    d.walk true linkLimit top (names.map .name) = .ok (.found q (.file b)) →
    d'.walk true linkLimit top (names.map .name) = .ok (.found q (.file b))
  nothingNew : NothingNew d d' top

/-- Places that belong to the assets: the free ones below their directory, and those of the files
that names lead to from there, maybe through links. -/
def Belongs (d : Disk) (top q : Place) : Prop :=
  top <+: q ∧ d.node? q = none ∨
    ∃ (names : Place) (b : ByteArray),
      d.walk true linkLimit top (names.map .name) = .ok (.found q (.file b))

/-- The path that an asset is copied to leads to a place. -/
def Lands (d : Disk) (target : Path) (q names : Place) : Prop :=
  d.canonical (target.join (relative names)) = .ok q

instance (d : Disk) (target : Path) (q names : Place) : Decidable (Lands d target q names) :=
  inferInstanceAs (Decidable (_ = _))

/-- The path that one of some assets is copied to, or one above it, leads to a place. -/
def Reached (d : Disk) (target : Path) (assets : List Place) (q : Place) : Prop :=
  ∃ names ∈ assets, Lands d target q names ∨
    ∃ path ∈ pathsAbove (target.join (relative names)), d.canonical path = .ok q

/-- The last asset that is copied to a place. -/
def lastLanding (d : Disk) (target : Path) (assets : List Place) (q : Place) : Option Place :=
  (assets.filter fun names => decide (Lands d target q names)).getLast?

/-- The assets below a directory, in the order in which they are copied. -/
def assetsBelow (d : Disk) (top : Place) : List Place := d.filesBelow pathLimit top

theorem Reached.grows (h : Grows d d') (hr : Reached d target l q) : Reached d' target l q := by
  obtain ⟨names, hmem, hr⟩ := hr
  exact ⟨names, hmem, hr.imp (h.canonical ·) fun ⟨path, hpath, hl⟩ => ⟨path, hpath, h.canonical hl⟩⟩

/-! ## What changes -/

/-- Assets are unharmed just if what stands at their places is. -/
theorem unharmed_iff_of_grows (h : Grows d d') :
    Unharmed d d' top ↔ ∀ q, Belongs d top q → d'.node? q = d.node? q := by
  constructor
  · rintro ⟨hfiles, hnew⟩ q (⟨hq, hnone⟩ | ⟨names, b, hl⟩)
    · rw [hnone]
      exact hnew q hq hnone
    · have hl' := leads_of_walk (hfiles names q b hl)
      rw [(leads_of_walk hl).node?_file.2, hl'.node?_file.2]
  · intro hsame
    refine ⟨fun names q b hl => ?_, fun q hq hnone => ?_⟩
    · have hq := hsame q (Or.inr ⟨names, b, hl⟩)
      obtain ⟨n, hl', hlike⟩ := h.leads_found (leads_of_walk hl)
      cases hlike with
      | file _ b' =>
        rw [hl'.node?_file.2, (leads_of_walk hl).node?_file.2] at hq
        obtain rfl := Node.file.inj (Option.some.inj hq)
        exact walk_of_leads hl'
    · rw [hsame q (Or.inl ⟨hq, hnone⟩), hnone]

/-- What has changed has been reached, or something new below the directory of the assets has. -/
def Framed (d : Disk) (top : Place) (target : Path) (assets : List Place) (e : Disk) : Prop :=
  (∀ q, e.node? q = d.node? q ∨ Reached e target assets q) ∨
    ∃ q, top <+: q ∧ d.node? q = none ∧ e.node? q ≠ none ∧ Reached e target assets q

theorem framed_refl (d : Disk) (top : Place) (target : Path) (assets : List Place) :
    Framed d top target assets d := Or.inl fun _ => Or.inl rfl

/-- What is done for one asset keeps the frame, if it only changes what is reached. -/
theorem Framed.step {assets : List Place} (h : Framed d top target assets e) (hgrows : Grows e e')
    (hstep : ∀ q, e'.node? q = e.node? q ∨ Reached e' target assets q) :
    Framed d top target assets e' := by
  rcases h with h | ⟨q, hq, hnone, hsome, hr⟩
  · refine Or.inl fun q => ?_
    rcases hstep q with heq | hr
    · rw [heq]
      exact (h q).imp_right (Reached.grows hgrows)
    · exact Or.inr hr
  · refine Or.inr ⟨q, hq, hnone, fun hnone' => hsome (hgrows.node?_eq_none hnone'), hr.grows hgrows⟩

theorem reached_of_dirsMade {assets : List Place} (hmem : names ∈ assets)
    (h : DirsMade (pathsAbove (target.join (relative names))) e e') (q : Place) :
    e'.node? q = e.node? q ∨ Reached e' target assets q :=
  (h.node? q).imp_right fun ⟨_, _, path, hpath, hl⟩ =>
    ⟨names, hmem, Or.inr ⟨path, hpath, canonical_eq_ok_iff.2 ⟨_, hl⟩⟩⟩

theorem lands_set {e : Disk} (h : e.filePlace (target.join (relative names)) = .ok q)
    (b : ByteArray) : Lands (e.set q (.file b)) target q names :=
  canonical_eq_ok_iff.2 ⟨_, pathLeads_set h b⟩

theorem reached_of_copied {source : Path} {assets : List Place} (hmem : names ∈ assets)
    (h : Copied source (target.join (relative names)) e e') (q : Place) :
    e'.node? q = e.node? q ∨ Reached e' target assets q := by
  obtain ⟨d₁, s, p, b, hdirs, -, hplace, rfl⟩ := h
  rw [node?_set (ne_nil_of_filePlace hplace)]
  by_cases hqp : q = p
  · subst hqp
    exact Or.inr ⟨names, hmem, Or.inl (lands_set hplace _)⟩
  · rw [if_neg hqp]
    exact (reached_of_dirsMade hmem hdirs q).imp_right (Reached.grows (grows_of_filePlace hplace _))

/-- A run keeps the frame. -/
theorem Walked.framed {assets : List Place} {ok : Bool} (h : Walked d top root target l e ok e')
    (hsub : l ⊆ assets) (hframed : Framed d top target assets e) :
    Framed d top target assets e' := by
  induction h with
  | done _ | stop _ _ => exact hframed
  | fail _ h =>
    exact hframed.step h.grows (reached_of_dirsMade (hsub (List.mem_cons_self ..)) h)
  | copy h _ ih =>
    exact ih (List.subset_of_cons_subset hsub)
      (hframed.step h.grows (reached_of_copied (hsub (List.mem_cons_self ..)) h))
  | @spoilt _ e e' _ hnew h =>
    simp only [NothingNew, not_forall] at hnew
    obtain ⟨q, hq, hnone, hsome⟩ := hnew
    have hbroken : ∃ q, top <+: q ∧ d.node? q = none ∧ e.node? q ≠ none ∧
        Reached e target assets q := by
      rcases hframed with hframed | hframed
      · refine ⟨q, hq, hnone, hsome, (hframed q).resolve_left fun heq => ?_⟩
        exact hsome (heq.trans hnone)
      · exact hframed
    obtain ⟨q, hq, hnone, hsome, hr⟩ := hbroken
    exact Or.inr ⟨q, hq, hnone, fun hnone' => hsome (h.node?_eq_none hnone'), hr.grows h⟩

/-- Assets are unharmed just if no place of theirs that is reached has changed. -/
theorem Framed.unharmed_iff {assets : List Place} (h : Framed d top target assets d')
    (hgrows : Grows d d') :
    Unharmed d d' top ↔
      ∀ q, Belongs d top q → Reached d' target assets q → d'.node? q = d.node? q := by
  rw [unharmed_iff_of_grows hgrows]
  constructor
  · exact fun hsame q hq _ => hsame q hq
  · intro hsame q hq
    rcases h with h | ⟨p, hp, hnone, hsome, hr⟩
    · exact (h q).elim id (hsame q hq)
    · exact absurd ((hsame p (Or.inl ⟨hp, hnone⟩) hr).trans hnone) hsome

/-- If no place of the assets is reached, all that has changed is reached, and nothing is new. -/
theorem Framed.of_apart {assets : List Place} (h : Framed d top target assets e)
    (hapart : ∀ q, Belongs d top q → ¬ Reached e target assets q) :
    (∀ q, e.node? q = d.node? q ∨ Reached e target assets q) ∧ NothingNew d e top := by
  have hall := h.resolve_right fun ⟨q, hq, hnone, _, hr⟩ => hapart q (Or.inl ⟨hq, hnone⟩) hr
  refine ⟨hall, fun q hq hnone => ?_⟩
  rw [(hall q).resolve_right (hapart q (Or.inl ⟨hq, hnone⟩)), hnone]

/-! ## What is delivered -/

theorem lastLanding_cons (names : Place) (l : List Place) (q : Place) :
    lastLanding d target (names :: l) q =
      (lastLanding d target l q).or (if Lands d target q names then some names else none) := by
  rw [lastLanding, lastLanding, List.filter_cons]
  by_cases h : Lands d target q names
  · rw [if_pos (decide_eq_true h), if_pos h, List.getLast?_cons]
    cases (l.filter fun names => decide (Lands d target q names)).getLast? <;> rfl
  · rw [if_neg (by simpa using h), if_neg h, Option.or_none]

theorem lands_of_leads
    (h : ∃ b, PathLeads d (target.join (relative names)) (.found q (.file b))) :
    Lands d target q names := by
  obtain ⟨b, hl⟩ := h
  exact canonical_eq_ok_iff.2 ⟨_, hl⟩

theorem exists_lastLanding (hmem : names ∈ l) (h : Lands d target q names) :
    ∃ last, lastLanding d target l q = some last := by
  cases hlast : lastLanding d target l q with
  | some last => exact ⟨last, rfl⟩
  | none =>
    rw [lastLanding, List.getLast?_eq_none_iff, List.filter_eq_nil_iff] at hlast
    exact absurd (decide_eq_true h) (hlast names hmem)

/-- An asset is copied to a place, and other files are as they were. An asset that could be read has
the same bytes when it is copied, if its own place is not reached. -/
theorem Copied.node? {assets : List Place} (hmem : names ∈ assets)
    (h : Copied (root.join (relative names)) (target.join (relative names)) e e₁)
    (hgrows : Grows d e) (hend : Grows e₁ e') :
    ∃ q, (∃ b, PathLeads e' (target.join (relative names)) (.found q (.file b))) ∧
      (∀ p, p ≠ q → ∀ b, e.node? p = some (.file b) → e₁.node? p = some (.file b)) ∧
      ∀ s b, PathLeads d (root.join (relative names)) (.found s (.file b)) →
        ¬ Reached e' target assets s → (e.node? s = d.node? s ∨ Reached e' target assets s) →
        e₁.node? q = some (.file b) := by
  obtain ⟨d₁, s, q, b, hdirs, hsource, hplace, rfl⟩ := h
  have hleads : ∃ b, PathLeads e' (target.join (relative names)) (.found q (.file b)) := by
    obtain ⟨n, hl, hlike⟩ := hend.pathLeads_found (pathLeads_set hplace _)
    cases hlike with
    | file _ b' => exact ⟨b', hl⟩
  -- a file is kept when directories are made
  have hkept : ∀ p b, e.node? p = some (.file b) → d₁.node? p = some (.file b) := by
    intro p b hp
    rcases hdirs.node? p with heq | ⟨hnone, -⟩
    · rw [heq, hp]
    · rw [hp] at hnone
      cases hnone
  refine ⟨q, hleads, fun p hp b' hfile => ?_, fun s' b' hs' hnot hframed => ?_⟩
  · rw [node?_set (ne_nil_of_filePlace hplace), if_neg hp]
    exact hkept p b' hfile
  · obtain ⟨n, hl, hlike⟩ := (hgrows.trans hdirs.grows).pathLeads_found hs'
    obtain ⟨rfl, -⟩ := Target.found.inj (hl.unique hsource)
    have hold : e.node? s' = some (.file b') := by
      rw [hframed.resolve_right hnot, hs'.2.node?_file.2]
    have hb : b = b' := by
      have := (hkept s' b' hold).symm.trans hsource.2.node?_file.2
      exact (Node.file.inj (Option.some.inj this)).symm
    have hsq : s' ≠ q := by
      rintro rfl
      exact hnot ⟨names, hmem, Or.inl (lands_of_leads hleads)⟩
    rw [node?_set (ne_nil_of_filePlace hplace), if_pos rfl, if_neg hsq, hb]

/-- A run that succeeds without putting anything new into the tree of the assets copies every asset
to a file, and a file to which no asset is copied is as it was. -/
theorem Walked.lands (h : Walked d top root target l e true e') (hgrows : Grows d e)
    (hnew : NothingNew d e' top) :
    (∀ names ∈ l, ∃ q b, PathLeads e' (target.join (relative names)) (.found q (.file b))) ∧
      ∀ q, lastLanding e' target l q = none →
        ∀ b, e.node? q = some (.file b) → e'.node? q = some (.file b) := by
  generalize htrue : true = done at h
  induction h with
  | done e => exact ⟨by simp, fun q _ b hb => hb⟩
  | stop _ _ | fail _ _ => cases htrue
  | spoilt _ _ hspoilt h => exact absurd (hnew.of_grows h) hspoilt
  | @copy names l e e₁ e' ok h hrest ih =>
    obtain ⟨q, hleads, hother, -⟩ := h.node? (List.mem_singleton_self names) hgrows hrest.grows
    obtain ⟨hall, hnone⟩ := ih (hgrows.trans h.grows) hnew htrue
    refine ⟨fun m hm => ?_, fun p hp b hb => ?_⟩
    · rcases List.mem_cons.1 hm with rfl | hm
      · exact ⟨q, hleads⟩
      · exact hall m hm
    · rw [lastLanding_cons, Option.or_eq_none_iff] at hp
      obtain ⟨hl, hp⟩ := hp
      refine hnone p hl b (hother p ?_ b hb)
      rintro rfl
      rw [if_pos (lands_of_leads hleads)] at hp
      cases hp

/-- In a run that succeeds without putting anything new into the tree of the assets, a file to which
assets are copied has the bytes of the last one of them, if the place of that one is not reached. -/
theorem Walked.delivers {assets : List Place} (h : Walked d top root target l e true e')
    (hsub : l ⊆ assets) (hgrows : Grows d e) (hnew : NothingNew d e' top)
    (hframed : ∀ q, e.node? q = d.node? q ∨ Reached e' target assets q) {q last s : Place}
    (hlast : lastLanding e' target l q = some last) {b : ByteArray}
    (hl : PathLeads d (root.join (relative last)) (.found s (.file b)))
    (hnot : ¬ Reached e' target assets s) : e'.node? q = some (.file b) := by
  generalize htrue : true = done at h
  induction h with
  | done e => simp [lastLanding] at hlast
  | stop _ _ | fail _ _ => cases htrue
  | spoilt _ _ hspoilt h => exact absurd (hnew.of_grows h) hspoilt
  | @copy names l e e₁ e' ok h hrest ih =>
    subst htrue
    have hmem := hsub (List.mem_cons_self ..)
    obtain ⟨p, hleads, -, hbytes⟩ := h.node? hmem hgrows hrest.grows
    have hframed₁ : ∀ q, e₁.node? q = d.node? q ∨ Reached e' target assets q := fun q => by
      rcases reached_of_copied hmem h q with heq | hr
      · rw [heq]
        exact hframed q
      · exact Or.inr (hr.grows hrest.grows)
    rw [lastLanding_cons] at hlast
    cases hrestLast : lastLanding e' target l q with
    | some m =>
      rw [hrestLast, Option.some_or] at hlast
      exact ih (List.subset_of_cons_subset hsub) (hgrows.trans h.grows) hnew hframed₁
        (hrestLast.trans hlast) hnot rfl
    | none =>
      rw [hrestLast, Option.none_or] at hlast
      split_ifs at hlast with hpl
      obtain rfl := Option.some.inj hlast
      obtain rfl := Except.ok.inj ((lands_of_leads hleads).symm.trans hpl)
      exact (hrest.lands (hgrows.trans h.grows) hnew).2 p hrestLast b
        (hbytes s b hl hnot (hframed s))

end Assets

end Lectern
