import Lectern.Proofs.Compile.ReadBack
import Lectern.Proofs.Disk.Plain

/-!
# What a run writes

A page is written when it has been rendered as a whole, so a run that fails before has changed
nothing, and one that cannot write the page has made directories at most. A run that succeeds writes
one file, and that is never its source. `compile_renderFile_written` says all this.
-/

namespace Lectern

open Disk Assets

variable {d d' : Disk} {c : Compiler} {t : Theme} {input path : Path} {output : Option Path}
  {html : List Char} {why : Failure}

/-- The run failed before anything could be written. -/
def Failure.IsEarly : Failure → Prop
  | .source _ | .unsupportedKind _ | .templateLoad _ _ | .render _ => True
  | .assetCopy _ _ | .outputWrite _ _ => False

/-! ## Failures -/

/-- A failure that has changed the disk at most by directories above the page, and only if the page
could not be written. -/
structure Harmless (path : Path) (why : Failure) (d d' : Disk) : Prop where
  early : why.IsEarly → d' = d
  late : ∀ p cause, why = .outputWrite p cause → DirsMade (upwards path.parent) d d'

theorem harmless_refl (path : Path) (why : Failure) (d : Disk) : Harmless path why d d :=
  ⟨fun _ => rfl, fun _ _ _ => .refl _ d⟩

theorem harmless_writePage (h : runOn d (writePage path html) = (.error why, d')) :
    Harmless path why d d' := by
  obtain ⟨d₁, hdirs, ⟨⟨cause, hwhy⟩, rfl⟩ | ⟨hok, -⟩⟩ := writePage_cases h
  · obtain rfl := Except.error.inj hwhy
    exact ⟨nofun, fun _ _ _ => hdirs⟩
  · cases hok

theorem harmless_renderFile (h : runOn d (renderFile c t input output) = (.error why, d')) :
    Harmless (outputPath input output) why d d' := by
  rcases renderFile_cases h with ⟨why, -, -, rfl⟩ | ⟨html, s, -, hwrite, hs⟩
  · exact harmless_refl _ _ _
  cases s with
  | error why' =>
    obtain rfl : why = why' := Except.error.inj hs
    exact harmless_writePage hwrite
  | ok u => cases hs

/-- Copying assets fails for reasons of its own. -/
theorem harmless_of_isAssetCopy (h : IsAssetCopy why) (path : Path) (d d' : Disk) :
    Harmless path why d d' := by
  obtain ⟨p, cause, rfl⟩ := h
  exact ⟨nofun, nofun⟩

theorem failsOnly_replicateAssets (c : Compiler) (page : Path) :
    FailsOnly IsAssetCopy (c.replicateAssets page) := by
  rw [Compiler.replicateAssets]
  split
  · exact failsOnly_replicate _ _
  · exact (failsOnly_replicateBundled _).mono fun _ => IsDiskCopy.isAssetCopy

theorem harmless_compile (h : runOn d (compile c input output) = (.error why, d')) :
    Harmless (outputPath input output) why d d' := by
  rw [runOn_compile] at h
  cases hpage : c.page d input with
  | error why' =>
    rw [hpage] at h
    obtain ⟨-, rfl⟩ := Prod.mk.inj h
    exact harmless_refl _ _ _
  | ok html =>
  rw [hpage] at h
  rcases runOn_bind_eq h with ⟨why', hwrite, hwhy⟩ | ⟨u, d₁, -, hcopy⟩
  · obtain rfl := Except.error.inj hwhy
    exact harmless_writePage hwrite
  · refine harmless_of_isAssetCopy (FailsOnly.of_runOn ?_ hcopy) _ _ _
    exact (failsOnly_replicateAssets c _).bind fun _ => failsOnly_pure _

/-! ## Failures before anything is written -/

/-- Its failures are those of a run that has written nothing yet. -/
def EarlyOnly {α : Type} (x : Except Failure α) : Prop := ∀ why, x = .error why → why.IsEarly

theorem earlyOnly_ok {α : Type} (a : α) : EarlyOnly (.ok a) := by
  intro why h
  cases h

theorem EarlyOnly.bind {α β : Type} {x : Except Failure α} {f : α → Except Failure β}
    (h : EarlyOnly x) (hf : ∀ a, EarlyOnly (f a)) : EarlyOnly (x >>= f) := by
  intro why hwhy
  cases x with
  | error why' =>
    obtain rfl := Except.error.inj hwhy
    exact h _ rfl
  | ok a => exact hf a why hwhy

theorem earlyOnly_load (files : Source.Files) (dir : Path) : EarlyOnly (Theme.load files dir) := by
  have htext (name : String) : EarlyOnly (Theme.textOf files dir name) := by
    intro why h
    rw [Theme.textOf] at h
    split at h
    · cases h
    · obtain rfl := Except.error.inj h
      trivial
  have hread (name text : String) : EarlyOnly (Theme.readTemplate dir name text) := by
    intro why h
    rw [Theme.readTemplate] at h
    split at h
    · cases h
    · obtain rfl := Except.error.inj h
      trivial
  refine (htext _).bind fun _ => (htext _).bind fun _ => (hread _ _).bind fun _ =>
    (hread _ _).bind fun _ => (htext _).bind fun _ => (hread _ _).bind fun _ => earlyOnly_ok _

theorem earlyOnly_renderPage (c : Compiler) (t : Theme) (d : Disk) (input : Path) :
    EarlyOnly (renderPage c t d input) := by
  intro why h
  rw [renderPage] at h
  split at h
  · obtain rfl := Except.error.inj h
    trivial
  split at h
  · obtain rfl := Except.error.inj h
    trivial
  rw [Theme.page] at h
  split at h
  · cases h
  · obtain rfl := Except.error.inj h
    trivial

/-- A page that cannot be rendered fails before anything is written. -/
theorem earlyOnly_page (c : Compiler) (d : Disk) (input : Path) : EarlyOnly (c.page d input) := by
  refine EarlyOnly.bind ?_ fun t => earlyOnly_renderPage c t d input
  rw [Compiler.theme]
  split
  · exact earlyOnly_load _ _
  · exact earlyOnly_load _ _

/-! ## The path of the page -/

/-- The kind of a source is told by its extension. -/
theorem extension?_of_kind {k : Kind} (h : Kind.ofPath input = .ok k) :
    ∃ ext, input.extension? = some ext ∧ '.' :: ext = k.extension := by
  rw [Kind.ofPath] at h
  split at h
  · rename_i ext hext
    rw [Kind.ofExtension] at h
    split at h
    · rename_i k' hk
      obtain rfl := Except.ok.inj h
      have hfind := List.find?_some hk
      exact ⟨ext, hext, (of_decide_eq_true hfind).symm⟩
    · cases h
  · cases h

theorem kind_of_renderPage (h : renderPage c t d input = .ok html) :
    ∃ k, Kind.ofPath input = .ok k := by
  rw [renderPage] at h
  split at h
  · cases h
  · rename_i k hk
    exact ⟨k, hk⟩

/-- The path is that of the source with another extension. -/
structure Renamed (input path : Path) : Prop where
  root : path.isAbsolute = input.isAbsolute
  parts : ∃ init stem ext, input.parts = init ++ [stem ++ '.' :: ext] ∧ stem ≠ [] ∧ '.' ∉ ext ∧
    path.parts = init ++ [stem ++ ".html".toList]

/-- The path at which the page of a source can be written is that of the source with another
extension, and it is written for another place. -/
theorem renamed_of_filePlace {k : Kind} {q : Place} (hkind : Kind.ofPath input = .ok k)
    (hplace : d.filePlace (input.withExtension "html".toList) = .ok q) :
    Renamed input (input.withExtension "html".toList) ∧
      d.lexical input ≠ d.lexical (input.withExtension "html".toList) := by
  obtain ⟨ext, hext, hk⟩ := extension?_of_kind hkind
  obtain ⟨init, stem, hparts, hstem, hdot, ⟨hroot, hparts'⟩ | ⟨-, hnone⟩⟩ :=
    Path.parts_withExtension hext (by decide : '/' ∉ "html".toList)
  swap
  · obtain ⟨s, hs⟩ := fileName?_of_filePlace hplace
    rw [hnone] at hs
    cases hs
  refine ⟨⟨hroot, init, stem, ext, hparts, hstem, hdot, hparts'⟩, fun hsame => ?_⟩
  have hname : ∀ ext : List Char, ext ≠ [] → stem ++ '.' :: ext ≠ ['.', '.'] := by
    intro ext hne e
    obtain ⟨c, stem, rfl⟩ := List.exists_cons_of_ne_nil hstem
    rw [List.cons_append, List.cons.injEq, List.append_eq_singleton_iff] at e
    obtain ⟨-, ⟨-, e⟩ | ⟨-, e⟩⟩ := e
    · exact hne (List.cons.inj e).2
    · cases e
  have hne : ext ≠ [] ∧ ext ≠ "html".toList := by
    constructor <;> rintro rfl <;> cases k <;> exact absurd hk (by decide)
  rw [lexical_eq, lexical_eq, Path.moves_of_parts hparts, Path.moves_of_parts hparts', hroot,
    Path.stepOf_eq_name_iff.2 ⟨rfl, hname _ hne.1⟩,
    Path.stepOf_eq_name_iff.2 ⟨rfl, hname "html".toList (by decide)⟩,
    placeAlong_append, placeAlong_append _ _ [_]] at hsame
  have hlast := List.append_cancel_left hsame
  rw [List.singleton_inj] at hlast
  exact hne.2 (List.cons.inj (List.append_cancel_left hlast)).2

/-! ## A page that is written -/

/-- A page has been written: its path leads to it, and nothing else has changed but for directories
above. -/
structure Written (path : Path) (html : List Char) (q : Place) (d d' : Disk) : Prop where
  canonical : d'.canonical path = .ok q
  readText : d'.readText path = .ok (String.ofList html)
  kept : ∀ p, p ≠ q → d'.node? p = d.node? p ∨ d.node? p = none ∧ d'.node? p = some .dir ∧
    ∃ above ∈ upwards path.parent, d'.canonical above = .ok p

theorem written_of_writePage (h : runOn d (writePage path html) = (.ok (), d')) :
    ∃ d₁ q, Grows d d₁ ∧ d₁.filePlace path = .ok q ∧ Written path html q d d' := by
  obtain ⟨d₁, q, hdirs, hplace, rfl⟩ := exists_set_of_writePage h
  have hl := pathLeads_set hplace (String.ofList html).toUTF8
  refine ⟨d₁, q, hdirs.grows, hplace, canonical_eq_ok_iff.2 ⟨_, hl⟩,
    readText_eq_ok_iff.2 (openFile_eq_bytes_iff.2 ⟨q, hl⟩), fun p hp => ?_⟩
  rw [node?_set (ne_nil_of_filePlace hplace), if_neg hp]
  refine (hdirs.node? p).imp_right fun ⟨hnone, hdir, above, habove, hl⟩ =>
    ⟨hnone, hdir, above, habove, ?_⟩
  exact (grows_of_filePlace hplace _).canonical (canonical_eq_ok_iff.2 ⟨_, hl⟩)

/-- Without links the source leads to another place than the page that is written next to it. -/
theorem canonical_ne_of_renamed {d₁ : Disk} {q s : Place} {k : Kind} (hd : d.NoLinks)
    (hgrows : Grows d d₁) (hkind : Kind.ofPath input = .ok k)
    (hplace : d₁.filePlace (input.withExtension "html".toList) = .ok q)
    (hs : d.canonical input = .ok s) : s ≠ q := by
  obtain ⟨n, hl⟩ := canonical_eq_ok_iff.1 hs
  have hs : s = d.lexical input := hl.place_eq hd
  rw [hs, eq_lexical_of_filePlace hplace (hd.of_grows hgrows), hgrows.lexical, ← hgrows.lexical,
    ← hgrows.lexical]
  exact (renamed_of_filePlace hkind hplace).2

/-- A run that fails before the page can be written leaves the disk as it was. One that cannot write
the page has made directories above it and no more. A page that is rendered into a file is put where
its path leads, and nothing else changes but for directories above. The path is the one that is
asked for, or that of the source with another extension, and then the page does not replace its
source, unless there are links. -/
theorem compile_renderFile_written (c : Compiler) (d : Disk) (input : Path)
    (output : Option Path) :
    (∀ why d', (runOn d (compile c input output) = (.error why, d') ∨
        ∃ t, runOn d (renderFile c t input output) = (.error why, d')) →
      (why.IsEarly → d' = d) ∧
      ∀ p cause, why = .outputWrite p cause →
        DirsMade (upwards (outputPath input output).parent) d d') ∧
    ∀ t path d', runOn d (renderFile c t input output) = (.ok path, d') →
      (∀ p, output = some p → path = p) ∧
      (output = none → path = input.withExtension "html".toList ∧ Renamed input path) ∧
      ∃ html q, renderPage c t d input = .ok html ∧ Written path html q d d' ∧
        (output = none → d.NoLinks → ∀ s, d.canonical input = .ok s → s ≠ q) := by
  refine ⟨fun why d' h => ?_, fun t path d' h => ?_⟩
  · have hharmless : Harmless (outputPath input output) why d d' := by
      rcases h with h | ⟨t, h⟩
      · exact harmless_compile h
      · exact harmless_renderFile h
    exact ⟨hharmless.early, hharmless.late⟩
  · rcases renderFile_cases h with ⟨why, -, herr, -⟩ | ⟨html, s, hrender, hwrite, hs⟩
    · cases herr
    cases s with
    | error why => cases hs
    | ok u =>
      obtain rfl := Except.ok.inj hs
      obtain ⟨d₁, q, hgrows, hplace, hwritten⟩ := written_of_writePage hwrite
      obtain ⟨k, hkind⟩ := kind_of_renderPage hrender
      refine ⟨?_, ?_, html, q, hrender, hwritten, ?_⟩
      · rintro p rfl
        rfl
      · rintro rfl
        exact ⟨rfl, (renamed_of_filePlace hkind hplace).1⟩
      · rintro rfl hd s hs
        exact canonical_ne_of_renamed hd hgrows hkind hplace hs

/-- A source of another kind leaves the disk as it was, and the page of a deck is written next to
it. -/
theorem compile_renderFile_written_crowded :
    (∃ why, why.IsEarly ∧
      runOn crowded (compile based (.ofString "talk.txt") none) = (.error why, crowded)) ∧
    Renamed (.ofString "talk.slide") (.ofString "talk.html") ∧
    ∃ q, Written (.ofString "talk.html") "page".toList q crowded crowdedWithPage ∧
      q ≠ ["talk.slide".toList] := by
  have hfail : (runOn crowded (compile based (.ofString "talk.txt") none)).1 =
      .error (.unsupportedKind ".txt".toList) := by
    have hext : (Path.ofString "talk.txt").extension? = some "txt".toList := by cbv
    have hkind : Kind.ofPath (.ofString "talk.txt") = .error ".txt".toList := by
      rw [Kind.ofPath, hext]
      rfl
    rw [compile, runOn_get_bind, runOn_bind, runOn_mk_pure, theme_crowded]
    dsimp only
    rw [runOn_bind, renderFile, runOn_get_bind, runOn_bind, runOn_mk_pure, renderPage, hkind]
  cases hrun : runOn crowded (compile based (.ofString "talk.txt") none) with
  | mk r d' =>
  rw [hrun] at hfail
  obtain rfl : r = _ := hfail
  have hearly : (Failure.unsupportedKind ".txt".toList).IsEarly := trivial
  obtain rfl := ((compile_renderFile_written based crowded (.ofString "talk.txt") none).1 _ _
    (Or.inl hrun)).1 hearly
  refine ⟨⟨_, hearly, rfl⟩, ?_⟩
  have hrender : renderPage based crowdedTheme crowded (.ofString "talk.slide") =
      .ok "page".toList := by
    have hpage := page_crowded
    rw [Compiler.page, theme_crowded] at hpage
    exact hpage
  have hrun : runOn crowded (renderFile based crowdedTheme (.ofString "talk.slide") none) =
      (.ok (outputPath (.ofString "talk.slide") none), crowdedWithPage) :=
    renderFile_of_steps hrender (outputPath_talk.symm ▸ writePage_crowded)
  obtain ⟨-, hrenamed, html, q, hhtml, hwritten, hne⟩ :=
    (compile_renderFile_written based crowded (.ofString "talk.slide") none).2 _ _ _ hrun
  obtain rfl := Except.ok.inj (hrender.symm.trans hhtml)
  rw [outputPath_talk] at hrenamed hwritten
  have hlinks : crowded.NoLinks := by
    simp [NoLinks, crowded, Node.IsLink]
  have hsource : crowded.canonical (.ofString "talk.slide") = .ok ["talk.slide".toList] := by cbv
  exact ⟨(hrenamed rfl).2, q, hwritten, (hne rfl hlinks _ hsource).symm⟩

end Lectern
