import Lectern.Proofs.Assets.Overlay
import Lectern.Proofs.Compile.NotesOff
import Lectern.Proofs.Compile.Writing

/-!
# Pages with the bundled assets next to them

A compilation with the bundled theme puts the page at its path and the bundled assets below the
directory of the page, one after the other. On a disk without links these are different places
(`places_nodup`), so each file keeps what has been written, and nothing else changes but for
directories above the files (`compile_furnished`). If an asset cannot be written, this holds of the
page and the assets in front.
-/

namespace Lectern

open Disk Assets

variable {d d' e e' : Disk} {c : Compiler} {input path root : Path} {output : Option Path}
  {html : List Char} {text : String} {tried : List Path} {files : List (Path × String)}

/-! ## One file -/

/-- A text has been put where its path leads, and directories above may have been made for it. -/
inductive FilePut (path : Path) (text : String) (d d' : Disk) : Prop
  | intro (d₁ : Disk) (q : Place) (hdirs : DirsMade (upwards path.parent) d d₁)
      (hplace : d₁.filePlace path = .ok q) (heq : d' = d₁.set q (.file text.toUTF8))

theorem filePut_of_writePage (h : runOn d (writePage path html) = (.ok (), d')) :
    FilePut path (String.ofList html) d d' := by
  obtain ⟨d₁, q, hdirs, hplace, heq⟩ := exists_set_of_writePage h
  exact ⟨d₁, q, hdirs, hplace, heq⟩

/-- The directories that are made for a file are those above it. -/
theorem pathsAbove_subset (path : Path) : pathsAbove path ⊆ upwards path.parent := by
  rw [pathsAbove, Path.parent]
  cases path.parent? with
  | none => exact List.nil_subset _
  | some parent => exact List.Subset.refl _

/-- A bundled asset at its path below a root. -/
def below (root : Path) (asset : Path × String) : Path × String := (root.join asset.1, asset.2)

/-- Writing a bundled asset makes directories above it and fails, or then puts it where its path
leads. -/
theorem writeBundled_cases {asset : Path × String} {r : Except Failure Unit}
    (h : runOn d (writeBundled root asset) = (r, d')) :
    (∃ cause, r = .error (.assetCopy (below root asset).1 cause) ∧
        DirsMade (upwards (below root asset).1.parent) d d') ∨
      r = .ok () ∧ FilePut (below root asset).1 asset.2 d d' := by
  rcases runOn_bind_eq h with ⟨why, hparent, rfl⟩ | ⟨u, d₁, hparent, hwrite⟩
  · have hdirs := (makeParent_made hparent).mono (pathsAbove_subset _)
    rw [makeParent] at hparent
    split at hparent
    · obtain ⟨s, -, hs⟩ := runOn_adapt_eq hparent
      cases s with
      | error cause =>
        obtain rfl := Except.error.inj hs
        exact Or.inl ⟨_, rfl, hdirs⟩
      | ok u => cases hs
    · cases (Prod.mk.inj hparent).1
  · have hdirs := (makeParent_made hparent).mono (pathsAbove_subset _)
    obtain ⟨s, hrun, rfl⟩ := runOn_adapt_eq hwrite
    rcases writeText_cases hrun with ⟨⟨cause, rfl⟩, rfl⟩ | ⟨rfl, q, hplace, heq⟩
    · exact Or.inl ⟨_, rfl, hdirs⟩
    · exact Or.inr ⟨rfl, d₁, q, hdirs, hplace, heq⟩

/-! ## Files one after the other -/

/-- A path above that of one of the files leads to the place. Paths are taken as they are written:
`new` is above `new/../talk.html`, and is made for it. -/
def LiesAbove (d : Disk) (paths : List Path) (p : Place) : Prop :=
  ∃ path ∈ paths, ∃ above ∈ upwards path.parent, d.canonical above = .ok p

theorem LiesAbove.of_grows {paths : List Path} {p : Place} (h : LiesAbove d paths p)
    (hgrows : Grows d d') : LiesAbove d' paths p := by
  obtain ⟨path, hpath, above, habove, hp⟩ := h
  exact ⟨path, hpath, above, habove, hgrows.canonical hp⟩

/-- A path still leads to a file that has not changed. -/
theorem pathLeads_file_of_grows {q : Place} {b : ByteArray} (hgrows : Grows d d')
    (hl : PathLeads d path (.found q (.file b))) (hq : d'.node? q = d.node? q) :
    PathLeads d' path (.found q (.file b)) := by
  obtain ⟨n, hl', hlike⟩ := hgrows.pathLeads_found hl
  cases hlike with
  | file _ b' =>
    rw [hl'.2.node?_file.2, hl.2.node?_file.2] at hq
    rwa [Node.file.inj (Option.some.inj hq)] at hl'

/-- The files have been written and are there, each at the place that its path is written for; and
nothing else has changed but for directories above the files that were to be written. -/
structure Supplied (d : Disk) (tried : List Path) (files : List (Path × String)) (d' : Disk) :
    Prop where
  grows : Grows d d'
  leads : ∀ f ∈ files, PathLeads d' f.1 (.found (d.lexical f.1) (.file f.2.toUTF8))
  kept : ∀ p, (∀ f ∈ files, p ≠ d.lexical f.1) → d'.node? p = d.node? p ∨
    d.node? p = none ∧ d'.node? p = some .dir ∧ LiesAbove d' tried p

namespace Supplied

theorem refl (d : Disk) (tried : List Path) : Supplied d tried [] d :=
  ⟨.refl d, by simp, fun _ _ => Or.inl rfl⟩

/-- A new directory lies above one of the files. -/
theorem liesAbove {p : Place} (h : Supplied d tried files d') (hnone : d.node? p = none)
    (hdir : d'.node? p = some .dir) : LiesAbove d' tried p := by
  have hother : ∀ f ∈ files, p ≠ d.lexical f.1 := by
    rintro f hf rfl
    rw [(h.leads f hf).2.node?_file.2] at hdir
    cases hdir
  rcases h.kept p hother with hsame | ⟨-, -, habove⟩
  · rw [hsame, hnone] at hdir
    cases hdir
  · exact habove

/-- Directories that are made above a file leave the files as they are. -/
theorem makeDirs (h : Supplied d tried files e) (hmem : path ∈ tried)
    (hdirs : DirsMade (upwards path.parent) e e') : Supplied d tried files e' := by
  refine ⟨h.grows.trans hdirs.grows, fun f hf => ?_, fun p hp => ?_⟩
  · have hl := h.leads f hf
    refine pathLeads_file_of_grows hdirs.grows hl ((hdirs.node? _).resolve_right fun hnew => ?_)
    rw [hl.2.node?_file.2] at hnew
    cases hnew.1
  · rcases hdirs.node? p with heq | ⟨hnone, hdir, above, habove, hl⟩
    · rw [heq]
      exact (h.kept p hp).imp_right fun ⟨hnone, hdir, habove⟩ =>
        ⟨hnone, hdir, habove.of_grows hdirs.grows⟩
    · exact Or.inr ⟨h.grows.node?_eq_none hnone, hdir, path, hmem, above, habove,
        canonical_eq_ok_iff.2 ⟨_, hl⟩⟩

/-- A file that is put at a place of its own leaves the others as they are. -/
theorem put (hd : d.NoLinks) (h : Supplied d tried files e) (hmem : path ∈ tried)
    (hne : ∀ f ∈ files, d.lexical f.1 ≠ d.lexical path) (hput : FilePut path text e e') :
    Supplied d tried (files ++ [(path, text)]) e' := by
  obtain ⟨e₁, q, hdirs, hplace, rfl⟩ := hput
  have h₁ := h.makeDirs hmem hdirs
  have hq : q = d.lexical path := by
    rw [eq_lexical_of_filePlace hplace (hd.of_grows h₁.grows), h₁.grows.lexical]
  have hgrows := grows_of_filePlace hplace text.toUTF8
  have hnode := node?_set (d := e₁) (ne_nil_of_filePlace hplace) (.file text.toUTF8)
  refine ⟨h₁.grows.trans hgrows, fun f hf => ?_, fun p hp => ?_⟩
  · rcases List.mem_append.1 hf with hf | hf
    · refine pathLeads_file_of_grows hgrows (h₁.leads f hf) ?_
      rw [hnode, if_neg (hq ▸ hne f hf)]
    · rw [List.mem_singleton.1 hf, ← hq]
      exact pathLeads_set hplace _
  · have hpq : p ≠ q := hq ▸ hp (path, text) (by simp)
    rw [hnode, if_neg hpq]
    exact (h₁.kept p fun f hf => hp f (List.mem_append_left _ hf)).imp_right
      fun ⟨hnone, hdir, habove⟩ => ⟨hnone, hdir, habove.of_grows hgrows⟩

/-- Assets that are written one after the other to different places are all there in the end, or
those in front of the first one that cannot be written. -/
theorem forM (hd : d.NoLinks) {l : List (Path × String)} {r : Except Failure PUnit}
    (h : Supplied d tried files e) (hsub : (l.map fun asset => root.join asset.1) ⊆ tried)
    (hplaces : ((files ++ l.map (below root)).map fun f => d.lexical f.1).Nodup)
    (hrun : runOn e (l.forM (writeBundled root)) = (r, e')) :
    r = .ok () ∧ Supplied d tried (files ++ l.map (below root)) e' ∨
      ∃ written next rest cause, l = written ++ next :: rest ∧
        r = .error (.assetCopy (below root next).1 cause) ∧
        Supplied d tried (files ++ written.map (below root)) e' := by
  induction l generalizing files e with
  | nil =>
    obtain ⟨rfl, rfl⟩ := Prod.mk.inj hrun
    exact Or.inl ⟨rfl, by rwa [List.map_nil, List.append_nil]⟩
  | cons asset l ih =>
    obtain ⟨hasset, hsub⟩ := List.cons_subset.1 hsub
    rcases runOn_bind_eq hrun with ⟨why, hwrite, rfl⟩ | ⟨u, e₁, hwrite, hrest⟩
    · rcases writeBundled_cases hwrite with ⟨cause, hcause, hdirs⟩ | ⟨hok, -⟩
      · refine Or.inr ⟨[], asset, l, cause, rfl, hcause, ?_⟩
        rw [List.map_nil, List.append_nil]
        exact h.makeDirs hasset hdirs
      · cases hok
    rcases writeBundled_cases hwrite with ⟨cause, hcause, -⟩ | ⟨-, hput⟩
    · cases hcause
    have hne : ∀ f ∈ files, d.lexical f.1 ≠ d.lexical (below root asset).1 := by
      rw [List.map_append, List.map_cons, List.nodup_append] at hplaces
      exact fun f hf => hplaces.2.2 _ (List.mem_map_of_mem hf) _ (List.mem_cons_self ..)
    have h₁ : Supplied d tried (files ++ [below root asset]) e₁ := h.put hd hasset hne hput
    rw [List.map_cons, List.append_cons] at hplaces ⊢
    rcases ih h₁ hsub hplaces hrest with hall | ⟨written, next, rest, cause, rfl, hr, hsome⟩
    · exact Or.inl hall
    · refine Or.inr ⟨asset :: written, next, rest, cause, rfl, hr, ?_⟩
      rwa [List.map_cons, List.append_cons]

end Supplied

/-! ## The places of a page and its assets -/

/-- The names of a path without dots. -/
def namesOf (path : Path) : Place := path.chars.splitOn '/'

theorem moves_destination (path : Path) : (destination path).moves = path.parent.moves := by
  have hdestination : destination path = orHere path.parent := by
    rw [destination, Path.parent]
    cases path.parent? <;> rfl
  rw [hdestination, moves_orHere]

theorem lexical_destination (d : Disk) (path : Path) :
    d.lexical (destination path) = d.lexical path.parent := by
  rw [lexical_eq, moves_destination, lexical_eq]

/-- The bundled assets lie in one directory, under different names. -/
theorem assets_names : (∀ asset ∈ Bundled.assets, asset.1 = relative (namesOf asset.1) ∧
      (∀ s ∈ namesOf asset.1, ProperName s) ∧ (namesOf asset.1).dropLast = ["static".toList]) ∧
    (Bundled.assets.map fun asset => namesOf asset.1).Nodup := by
  refine ⟨?_, ?_⟩
  · unfold Bundled.assets
    simp only [List.forall_mem_cons]
    decide
  · decide

theorem namesOf_ne_nil {asset : Path × String} (h : asset ∈ Bundled.assets) :
    namesOf asset.1 ≠ [] := by
  intro e
  have hdir := (assets_names.1 asset h).2.2
  rw [e] at hdir
  cases hdir

theorem moves_below {asset : Path × String} (h : asset ∈ Bundled.assets) :
    (below root asset).1.moves = root.moves ++ (namesOf asset.1).map .name := by
  obtain ⟨hrelative, hproper, -⟩ := assets_names.1 asset h
  have hpath : (below root asset).1 = root.join (relative (namesOf asset.1)) :=
    congrArg root.join hrelative
  rw [hpath, moves_join_relative root hproper (namesOf_ne_nil h)]

theorem lexical_below {asset : Path × String} (h : asset ∈ Bundled.assets) :
    d.lexical (below root asset).1 = d.lexical root ++ namesOf asset.1 := by
  rw [lexical_eq, moves_below h, placeAlong_append, placeAlong_names, lexical_eq]

theorem moves_parent_below {asset : Path × String} (h : asset ∈ Bundled.assets) :
    (below root asset).1.parent.moves = root.moves ++ [.name "static".toList] := by
  obtain ⟨s, hs⟩ : ∃ s, namesOf asset.1 = ["static".toList] ++ [s] := by
    refine ⟨(namesOf asset.1).getLast (namesOf_ne_nil h), ?_⟩
    rw [← (assets_names.1 asset h).2.2, List.dropLast_concat_getLast]
  have hmoves : (below root asset).1.moves =
      root.moves ++ [.name "static".toList] ++ [.name s] := by
    rw [moves_below h, hs, List.append_assoc]
    rfl
  have hname : (below root asset).1.fileName? = some s :=
    Path.fileName?_of_moves (by rw [hmoves, List.getLast?_concat])
  rw [Path.moves_parent hname, hmoves, List.dropLast_concat]

/-- The page and the bundled assets are written for different places. -/
theorem places_nodup {s : Name} (hname : path.fileName? = some s) (text : String) :
    ([(path, text)] ++ Bundled.assets.map (below (destination path))
      |>.map fun f => d.lexical f.1).Nodup := by
  have hplaces : (Bundled.assets.map (below (destination path))).map (fun f => d.lexical f.1) =
      (Bundled.assets.map fun asset => namesOf asset.1).map
        (d.lexical (destination path) ++ ·) := by
    rw [List.map_map, List.map_map]
    exact List.map_congr_left fun _ h => lexical_below h
  rw [List.map_append, hplaces]
  refine List.nodup_append.2 ⟨List.nodup_singleton _,
    assets_names.2.map (List.append_right_injective _), fun p hp q hq => ?_⟩
  obtain ⟨names, hnames, rfl⟩ := List.mem_map.1 hq
  obtain ⟨asset, hasset, rfl⟩ := List.mem_map.1 hnames
  obtain rfl : p = d.lexical path := List.mem_singleton.1 hp
  rw [lexical_eq_concat hname, lexical_destination]
  intro heq
  have hdir := (assets_names.1 asset hasset).2.2
  rw [← List.append_cancel_left heq] at hdir
  cases hdir

/-! ## A whole compilation -/

/-- The paths of a page and its bundled assets. -/
def pathsOf (path : Path) : List Path :=
  path :: Bundled.assets.map fun asset => (destination path).join asset.1

/-- The directories above the page and the assets are that of the assets and those that hold it, if
there is no step up in the path of the page. -/
theorem LiesAbove.isPrefix {s : Name} {p : Place} (h : LiesAbove d (pathsOf path) p)
    (hd : d.NoLinks) (hname : path.fileName? = some s) (hup : .up ∉ path.moves) :
    p <+: d.lexical path.parent ++ ["static".toList] := by
  obtain ⟨file, hfile, above, habove, hp⟩ := h
  obtain ⟨n, hl⟩ := canonical_eq_ok_iff.1 hp
  obtain rfl : p = d.lexical above := hl.place_eq hd
  have hupward : .up ∉ path.parent.moves := by
    rw [Path.moves_parent hname]
    exact fun hmem => hup (List.mem_of_mem_dropLast hmem)
  rcases List.mem_cons.1 hfile with rfl | hfile
  · exact (lexical_prefix_of_mem_ancestorsWithin habove hupward).trans (List.prefix_append ..)
  · obtain ⟨asset, hasset, rfl⟩ := List.mem_map.1 hfile
    have hmoves : (below (destination path) asset).1.parent.moves =
        path.parent.moves ++ [.name "static".toList] := by
      rw [moves_parent_below hasset, moves_destination]
    have hdir : d.lexical (below (destination path) asset).1.parent =
        d.lexical path.parent ++ ["static".toList] := by
      rw [lexical_eq, hmoves, placeAlong_append, ← lexical_eq]
      rfl
    rw [← hdir]
    exact lexical_prefix_of_mem_ancestorsWithin habove (by simp [hmoves, hupward])

/-- A page and some bundled assets are there, the assets below the directory of the page, and
nothing else has changed but for directories above the page and the assets. If there is no step up
in the path of the page, these are the directory of the assets and those that hold it. -/
structure Furnished (d : Disk) (path : Path) (html : List Char) (written : List (Path × String))
    (d' : Disk) : Prop where
  page : d'.readText path = .ok (String.ofList html)
  assets : ∀ asset ∈ written, d'.readText ((destination path).join asset.1) = .ok asset.2
  places : ∃ dir name, d'.canonical path = .ok (dir ++ [name]) ∧
    (∀ asset ∈ written,
      d'.canonical ((destination path).join asset.1) = .ok (dir ++ namesOf asset.1)) ∧
    (.up ∉ path.components → ∀ p, d.node? p = none → d'.node? p = some .dir →
      p <+: dir ++ ["static".toList])
  kept : ∀ p, d'.canonical path ≠ .ok p →
    (∀ asset ∈ written, d'.canonical ((destination path).join asset.1) ≠ .ok p) →
    d'.node? p = d.node? p ∨
      d.node? p = none ∧ d'.node? p = some .dir ∧ LiesAbove d' (pathsOf path) p

theorem Supplied.furnished {s : Name} {written : List (Path × String)}
    (h : Supplied d (pathsOf path)
      ([(path, String.ofList html)] ++ written.map (below (destination path))) d')
    (hd : d.NoLinks) (hname : path.fileName? = some s) (hsub : written ⊆ Bundled.assets) :
    Furnished d path html written d' := by
  have hpage := h.leads (path, String.ofList html) (by simp)
  have hasset (asset) (hmem : asset ∈ written) := h.leads (below (destination path) asset)
    (List.mem_append_right _ (List.mem_map_of_mem hmem))
  have hread {f : Path × String}
      (hl : PathLeads d' f.1 (.found (d.lexical f.1) (.file f.2.toUTF8))) :
      d'.readText f.1 = .ok f.2 :=
    readText_eq_ok_iff.2 (openFile_eq_bytes_iff.2 ⟨_, hl⟩)
  refine ⟨hread hpage, fun asset hmem => hread (hasset asset hmem),
    ⟨d.lexical path.parent, s, ?_, fun asset hmem => ?_, fun hup p hnone hdir => ?_⟩,
    fun p hp hassets => ?_⟩
  · rw [← lexical_eq_concat hname]
    exact canonical_eq_ok_iff.2 ⟨_, hpage⟩
  · rw [← lexical_destination, ← lexical_below (hsub hmem)]
    exact canonical_eq_ok_iff.2 ⟨_, hasset asset hmem⟩
  · rw [← h.grows.lexical]
    exact (h.liesAbove hnone hdir).isPrefix (hd.of_grows h.grows) hname fun hmem =>
      hup (List.mem_of_mem_filter hmem)
  · refine h.kept p fun f hf => ?_
    rintro rfl
    rcases List.mem_append.1 hf with hf | hf
    · obtain rfl := List.mem_singleton.1 hf
      exact hp (canonical_eq_ok_iff.2 ⟨_, hpage⟩)
    · obtain ⟨asset, hmem, rfl⟩ := List.mem_map.1 hf
      exact hassets asset hmem (canonical_eq_ok_iff.2 ⟨_, hasset asset hmem⟩)

/-- With the bundled theme the page and the assets are written if the page can be rendered. -/
theorem runOn_compile_bundled (hbase : c.base = none) :
    runOn d (compile c input output) =
      match c.page d input with
      | .error why => (.error why, d)
      | .ok html => runOn d (do
          writePage (outputPath input output) html
          Bundled.assets.forM (writeBundled (destination (outputPath input output)))
          pure (outputPath input output)) := by
  rw [runOn_compile, Compiler.replicateAssets, Compiler.assetsDir, hbase]
  cases c.page d input with
  | error why => rfl
  | ok html => simp only [Option.map_none, replicateBundled, bind_assoc, pure_bind]

/-- After the page all bundled assets are written, or those in front of one that cannot be. -/
theorem furnished_of_writes {d₁ : Disk} {s : Except Failure PUnit} (hd : d.NoLinks)
    (hwrite : runOn d (writePage path html) = (.ok (), d₁))
    (hcopy : runOn d₁ (Bundled.assets.forM (writeBundled (destination path))) = (s, d')) :
    s = .ok () ∧ Furnished d path html Bundled.assets d' ∨
      ∃ written next rest cause, Bundled.assets = written ++ next :: rest ∧
        s = .error (.assetCopy ((destination path).join next.1) cause) ∧
        Furnished d path html written d' := by
  obtain ⟨name, hname⟩ : ∃ name, path.fileName? = some name := by
    obtain ⟨d₀, q, -, hplace, -⟩ := written_of_writePage hwrite
    exact fileName?_of_filePlace hplace
  have hwritten := (Supplied.refl d (pathsOf path)).put hd (List.mem_cons_self ..) (by simp)
    (filePut_of_writePage hwrite)
  rcases hwritten.forM hd (List.subset_cons_self ..) (places_nodup hname _) hcopy with
    ⟨hs, hall⟩ | ⟨written, next, rest, cause, hsplit, hs, hsome⟩
  · exact Or.inl ⟨hs, hall.furnished hd hname (List.Subset.refl _)⟩
  · exact Or.inr ⟨written, next, rest, cause, hsplit, hs,
      hsome.furnished hd hname (hsplit ▸ List.subset_append_left ..)⟩

/-- A compilation with the bundled theme that succeeds has written the page and all bundled assets,
which then are all there, and has changed nothing else but for directories above. If it fails at an
asset, this holds of the page and the assets in front. -/
theorem compile_furnished (hd : d.NoLinks) (hbase : c.base = none) {r : Except Failure Path}
    (h : runOn d (compile c input output) = (r, d')) :
    (∀ path, r = .ok path → path = outputPath input output ∧
      ∃ html, c.page d input = .ok html ∧ Furnished d path html Bundled.assets d') ∧
    ∀ p cause, r = .error (.assetCopy p cause) →
      ∃ html written next rest, c.page d input = .ok html ∧
        Bundled.assets = written ++ next :: rest ∧
        p = (destination (outputPath input output)).join next.1 ∧
        Furnished d (outputPath input output) html written d' := by
  rw [runOn_compile_bundled hbase] at h
  cases hpage : c.page d input with
  | error why =>
    rw [hpage] at h
    obtain ⟨rfl, -⟩ := Prod.mk.inj h
    refine ⟨nofun, fun p cause he => ?_⟩
    obtain rfl := Except.error.inj he
    exact (earlyOnly_page c d input _ hpage).elim
  | ok html =>
  rw [hpage] at h
  rcases runOn_bind_eq h with ⟨why, hwrite, rfl⟩ | ⟨u, d₁, hwrite, hrest⟩
  · obtain ⟨-, -, ⟨⟨cause, hwhy⟩, -⟩ | ⟨hok, -⟩⟩ := writePage_cases hwrite
    · obtain rfl := Except.error.inj hwhy
      exact ⟨nofun, nofun⟩
    · cases hok
  rcases runOn_bind_eq hrest with ⟨why, hcopy, rfl⟩ | ⟨u, d₂, hcopy, hpure⟩
  · rcases furnished_of_writes hd hwrite hcopy with
      ⟨hok, -⟩ | ⟨written, next, rest, cause, hsplit, hwhy, hsome⟩
    · cases hok
    refine ⟨nofun, fun p cause' he => ?_⟩
    obtain rfl := Except.error.inj hwhy
    obtain ⟨rfl, -⟩ := Failure.assetCopy.inj (Except.error.inj he)
    exact ⟨html, written, next, rest, rfl, hsplit, rfl, hsome⟩
  · obtain ⟨rfl, rfl⟩ := Prod.mk.inj hpure
    rcases furnished_of_writes hd hwrite hcopy with ⟨-, hall⟩ | ⟨_, _, _, _, -, hwhy, -⟩
    · refine ⟨fun path hpath => ?_, nofun⟩
      obtain rfl := Except.ok.inj hpath
      exact ⟨rfl, html, rfl, hall⟩
    · cases hwhy

/-- The page of a title. -/
def titlePage : List Char :=
  Markup.doctype ++ Markup.printAll (({ title := "T" } : Document).trees {} .slides)

theorem page_title : ({} : Compiler).page (diskWith "T\n\n") (.ofString "talk.slide") =
    .ok titlePage := by
  have htext : (diskWith "T\n\n").readText (.ofString "talk.slide") = .ok "T\n\n" := by cbv
  have hread (files : Source.Files) :
      Source.read files (.ofString "talk.slide") .full "T\n\n" = .ok { title := "T" } := by cbv
  have hnested : ({ title := "T" } : Document).NestedWithin Theme.deepest :=
    ⟨fun _ h => absurd h List.not_mem_nil, fun _ h => absurd h List.not_mem_nil⟩
  have hdoc := (readDocument_eq_read htext).trans (hread _)
  rw [page_eq (theme_bundled _) kind_talk hdoc, Theme.page_ofBundled, if_pos hnested]
  rfl

/-- Next to a deck the page and the assets are written. In place of the directory of the assets a
page is written as well, but then they are not. -/
theorem compile_furnished_title :
    (diskWith "T\n\n").NoLinks ∧
    (∃ d', runOn (diskWith "T\n\n") (compile {} (.ofString "talk.slide") none) =
        (.ok (.ofString "talk.html"), d') ∧
      Furnished (diskWith "T\n\n") (.ofString "talk.html") titlePage Bundled.assets d') ∧
    ∃ d' written,
      runOn (diskWith "T\n\n") (compile {} (.ofString "talk.slide") (some (.ofString "static"))) =
        (.error (.assetCopy (.ofString "./static/article.css") (.disk .alreadyExists)), d') ∧
      Furnished (diskWith "T\n\n") (.ofString "static") titlePage written d' := by
  have hd : (diskWith "T\n\n").NoLinks := List.forall_mem_singleton.2 id
  refine ⟨hd, ?_, ?_⟩
  · have hfirst : (runOn (diskWith "T\n\n") (compile {} (.ofString "talk.slide") none)).1 =
        .ok (.ofString "talk.html") := by
      rw [runOn_compile_bundled rfl, page_title, outputPath_talk, Bundled.assets]
      -- what is written has no influence on where it is written
      generalize titlePage = html, Bundled.articleStyle = a, Bundled.playScript = b,
        Bundled.slidesScript = c, Bundled.slidesStyle = e
      cbv
    cases hrun : runOn (diskWith "T\n\n") (compile {} (.ofString "talk.slide") none) with
    | mk r d' =>
    rw [hrun] at hfirst
    obtain rfl : r = _ := hfirst
    obtain ⟨-, html, hpage, hall⟩ := (compile_furnished hd rfl hrun).1 _ rfl
    obtain rfl := Except.ok.inj (hpage.symm.trans page_title)
    exact ⟨d', rfl, hall⟩
  · have hfirst : (runOn (diskWith "T\n\n")
          (compile {} (.ofString "talk.slide") (some (.ofString "static")))).1 =
        .error (.assetCopy (.ofString "./static/article.css") (.disk .alreadyExists)) := by
      rw [runOn_compile_bundled rfl, page_title, Bundled.assets]
      generalize titlePage = html, Bundled.articleStyle = a, Bundled.playScript = b,
        Bundled.slidesScript = c, Bundled.slidesStyle = e
      cbv
    cases hrun : runOn (diskWith "T\n\n")
      (compile {} (.ofString "talk.slide") (some (.ofString "static"))) with
    | mk r d' =>
    rw [hrun] at hfirst
    obtain rfl : r = _ := hfirst
    obtain ⟨html, written, -, -, hpage, -, -, hsome⟩ := (compile_furnished hd rfl hrun).2 _ _ rfl
    obtain rfl := Except.ok.inj (hpage.symm.trans page_title)
    exact ⟨d', written, rfl, hsome⟩

end Lectern
