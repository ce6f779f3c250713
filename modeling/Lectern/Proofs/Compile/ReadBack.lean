import Lectern.Compile
import Lectern.Proofs.Assets.Replicating

/-!
# Reading a compiled page back

A page is written before the assets are copied next to it, so an asset may be copied onto it.
`compile_page_kept` says just when the page is still there in the end.
-/

namespace Lectern

open Disk Assets

variable {d d₁ d' : Disk} {c : Compiler} {base input path : Path} {output : Option Path}
  {html : List Char}

/-! ## Reading text -/

/-- The text of some bytes is the one that they spell. -/
theorem text_bytes_eq_ok_iff {b : ByteArray} {text : String} :
    Content.text (.bytes b) = .ok text ↔ b = text.toUTF8 := by
  constructor
  · intro h
    rw [Content.text] at h
    split at h
    · rename_i s hs
      obtain rfl := Except.ok.inj h
      rw [String.fromUTF8?, Option.dite_none_right_eq_some] at hs
      obtain ⟨hvalid, hs⟩ := hs
      obtain rfl := Option.some.inj hs
      rfl
    · cases h
  · rintro rfl
    rw [Content.text, String.fromUTF8?, String.toUTF8_eq_toByteArray, dif_pos text.isValidUTF8]
    rfl

/-- The text that is read is the one that the bytes of the file spell. -/
theorem readText_eq_ok_iff {text : String} :
    d.readText path = .ok text ↔ d.openFile path = .ok (.bytes text.toUTF8) := by
  have hread : d.readText path = d.openFile path >>= Content.text := rfl
  rw [hread]
  cases d.openFile path with
  | error why => exact iff_of_false nofun nofun
  | ok content =>
    cases content with
    | directory => exact iff_of_false nofun nofun
    | bytes b =>
      have htext : ((.ok (.bytes b) : Except Fault Content) >>= Content.text) =
        Content.text (.bytes b) := rfl
      rw [htext, text_bytes_eq_ok_iff, Except.ok.injEq, Content.bytes.injEq]

/-! ## Writing a page -/

/-- Writing a text fails and changes nothing, or puts the text where the path leads. -/
theorem writeText_cases {text : String} {r : Except Fault Unit}
    (h : runOn d (writeText path text) = (r, d')) :
    (∃ why, r = .error why) ∧ d' = d ∨
      r = .ok () ∧ ∃ q, d.filePlace path = .ok q ∧ d' = d.set q (.file text.toUTF8) := by
  rw [writeText, runOn_writeFile] at h
  cases hplace : d.filePlace path with
  | error why =>
    rw [hplace] at h
    obtain ⟨rfl, rfl⟩ := Prod.mk.inj h
    exact Or.inl ⟨⟨why, rfl⟩, rfl⟩
  | ok q =>
    rw [hplace] at h
    obtain ⟨rfl, rfl⟩ := Prod.mk.inj h
    exact Or.inr ⟨rfl, q, rfl, rfl⟩

/-- Writing a page makes directories above it and fails, or then puts the page where its path
leads. -/
theorem writePage_cases {r : Except Failure Unit} (h : runOn d (writePage path html) = (r, d')) :
    ∃ d₁, DirsMade (upwards path.parent) d d₁ ∧
      ((∃ why, r = .error (.outputWrite path why)) ∧ d' = d₁ ∨
        r = .ok () ∧ ∃ q, d₁.filePlace path = .ok q ∧
          d' = d₁.set q (.file (String.ofList html).toUTF8)) := by
  obtain ⟨s, hrun, rfl⟩ := runOn_adapt_eq h
  have hmade : (∃ why, s = .error why) ∧ DirsMade (upwards path.parent) d d' ∨
      ∃ d₁, DirsMade (upwards path.parent) d d₁ ∧
        runOn d₁ (writeText path (String.ofList html)) = (s, d') := by
    dsimp only at hrun
    split at hrun
    · rcases runOn_bind_eq hrun with ⟨why, hdirs, hs⟩ | ⟨u, d₁, hdirs, hwrite⟩
      · exact Or.inl ⟨⟨why, hs⟩, makeDirs_made hdirs⟩
      · exact Or.inr ⟨d₁, makeDirs_made hdirs, hwrite⟩
    · exact Or.inr ⟨d, .refl _ _, hrun⟩
  rcases hmade with ⟨⟨why, rfl⟩, hdirs⟩ | ⟨d₁, hdirs, hwrite⟩
  · exact ⟨d', hdirs, Or.inl ⟨⟨why, rfl⟩, rfl⟩⟩
  rcases writeText_cases hwrite with ⟨⟨why, rfl⟩, hsame⟩ | ⟨rfl, hq⟩
  · exact ⟨d₁, hdirs, Or.inl ⟨⟨why, rfl⟩, hsame⟩⟩
  · exact ⟨d₁, hdirs, Or.inr ⟨rfl, hq⟩⟩

/-- A page that is written is put where its path leads, once the directories above it are made. -/
theorem exists_set_of_writePage (h : runOn d (writePage path html) = (.ok (), d')) :
    ∃ d₁ q, DirsMade (upwards path.parent) d d₁ ∧ d₁.filePlace path = .ok q ∧
      d' = d₁.set q (.file (String.ofList html).toUTF8) := by
  obtain ⟨d₁, hdirs, ⟨⟨why, herr⟩, -⟩ | ⟨-, q, hplace, heq⟩⟩ := writePage_cases h
  · cases herr
  · exact ⟨d₁, q, hdirs, hplace, heq⟩

/-- A page that is written is found at its path, on a disk that stays proper. -/
theorem writePage_found (hd : d.Proper) (h : runOn d (writePage path html) = (.ok (), d')) :
    d'.Proper ∧ ∃ q, PathLeads d' path (.found q (.file (String.ofList html).toUTF8)) := by
  obtain ⟨d₁, q, hdirs, hplace, rfl⟩ := exists_set_of_writePage h
  have hl := pathLeads_set hplace (String.ofList html).toUTF8
  refine ⟨hd.of_grows (hdirs.grows.trans (grows_of_filePlace hplace _)) fun p => ?_, q, hl⟩
  rw [node?_set (ne_nil_of_filePlace hplace)]
  by_cases hp : p = q
  · subst hp
    exact Or.inr ⟨path, _, hl⟩
  · rw [if_neg hp]
    refine (hdirs.node? p).imp_right fun ⟨_, _, above, _, hdir⟩ => ?_
    obtain ⟨n, hl', -⟩ := (grows_of_filePlace hplace _).pathLeads_found hdir
    exact ⟨above, n, hl'⟩

/-! ## Compiling -/

/-- The document of a source is read from its text. -/
theorem readDocument_eq_read {mode : Source.Mode} {text : String} (h : d.readText path = .ok text) :
    readDocument d mode path = Source.read d.readText path mode text := by
  rw [readDocument, readText_eq_ok_iff.1 h]
  dsimp only
  rw [readContent, text_bytes_eq_ok_iff.2 rfl]

theorem page_eq_renderPage {t : Theme} (htheme : c.theme d = .ok t) (input : Path) :
    c.page d input = renderPage c t d input := by
  rw [Compiler.page, htheme]
  rfl

/-- The page of a source shows its document in the theme. -/
theorem page_eq {t : Theme} {k : Kind} {doc : Document} (htheme : c.theme d = .ok t)
    (hkind : Kind.ofPath input = .ok k) (hdoc : documentFor d c.document input = .ok doc) :
    c.page d input = t.page k doc c.options := by
  rw [page_eq_renderPage htheme, renderPage, hkind]
  dsimp only
  rw [hdoc]

/-- A page that cannot be rendered is not written. -/
theorem renderFile_cases {t : Theme} {r : Except Failure Path}
    (h : runOn d (renderFile c t input output) = (r, d')) :
    (∃ why, renderPage c t d input = .error why ∧ r = .error why ∧ d' = d) ∨
      ∃ html s, renderPage c t d input = .ok html ∧
        runOn d (writePage (outputPath input output) html) = (s, d') ∧
        r = s.map fun _ => outputPath input output := by
  rw [renderFile, runOn_get_bind] at h
  rcases runOn_bind_eq h with ⟨why, hrendered, rfl⟩ | ⟨html, d₁, hrendered, h⟩
  · obtain ⟨hrender, rfl⟩ := Prod.mk.inj hrendered
    exact Or.inl ⟨why, hrender, rfl, rfl⟩
  obtain ⟨hrender, rfl⟩ := Prod.mk.inj hrendered
  refine Or.inr ⟨html, ?_⟩
  rcases runOn_bind_eq h with ⟨why, hwrite, rfl⟩ | ⟨u, d₂, hwrite, hpure⟩
  · exact ⟨_, hrender, hwrite, rfl⟩
  · obtain ⟨rfl, rfl⟩ := Prod.mk.inj hpure
    exact ⟨_, hrender, hwrite, rfl⟩

theorem renderFile_of_steps {t : Theme} (hrender : renderPage c t d input = .ok html)
    (hwrite : runOn d (writePage (outputPath input output) html) = (.ok (), d')) :
    runOn d (renderFile c t input output) = (.ok (outputPath input output), d') := by
  rw [renderFile, runOn_get_bind, runOn_bind, runOn_mk_pure, hrender]
  dsimp only
  rw [runOn_bind, hwrite]
  rfl

/-- Copies the assets next to a page: those of the base directory, or the bundled ones. -/
def Compiler.replicateAssets (c : Compiler) (page : Path) : DiskM Failure Nat :=
  match c.assetsDir with
  | some root => replicate root page
  | none => replicateBundled page

theorem replicateAssets_of_base (hbase : c.base = some base) (page : Path) :
    c.replicateAssets page = replicate (base.join directory) page := by
  rw [Compiler.replicateAssets, Compiler.assetsDir, hbase, Option.map_some]

/-- A compilation writes the page, if it can be rendered, and then copies the assets. -/
theorem runOn_compile (c : Compiler) (d : Disk) (input : Path) (output : Option Path) :
    runOn d (compile c input output) =
      match c.page d input with
      | .error why => (.error why, d)
      | .ok html => runOn d (do
          writePage (outputPath input output) html
          let _ ← c.replicateAssets (outputPath input output)
          pure (outputPath input output)) := by
  rw [compile, runOn_get_bind, runOn_bind, runOn_mk_pure]
  cases htheme : c.theme d with
  | error why =>
    rw [Compiler.page, htheme]
    rfl
  | ok t =>
    rw [page_eq_renderPage htheme]
    dsimp only
    rw [renderFile, bind_assoc, runOn_get_bind, bind_assoc, runOn_bind, runOn_mk_pure]
    cases renderPage c t d input with
    | error why => rfl
    | ok html =>
      rw [Compiler.replicateAssets]
      cases c.assetsDir <;> simp only [bind_assoc, pure_bind]

/-- Once the page has been written, a compilation goes as the copying of the assets. -/
theorem compile_of_steps {r : Except Failure Nat} (hpage : c.page d input = .ok html)
    (hwrite : runOn d (writePage (outputPath input output) html) = (.ok (), d₁))
    (hcopy : runOn d₁ (c.replicateAssets (outputPath input output)) = (r, d')) :
    runOn d (compile c input output) = (r.map fun _ => outputPath input output, d') := by
  rw [runOn_compile, hpage]
  dsimp only
  rw [runOn_bind, hwrite]
  dsimp only
  rw [runOn_bind, hcopy]
  cases r <;> rfl

/-- A compilation that succeeds has written the page and replicated the assets. -/
theorem compile_cases (hbase : c.base = some base)
    (h : runOn d (compile c input output) = (.ok path, d')) :
    ∃ html d₁ n, c.page d input = .ok html ∧ path = outputPath input output ∧
      runOn d (writePage path html) = (.ok (), d₁) ∧
      runOn d₁ (replicate (base.join directory) path) = (.ok n, d') := by
  rw [runOn_compile] at h
  cases hpage : c.page d input with
  | error why =>
    rw [hpage] at h
    cases (Prod.mk.inj h).1
  | ok html =>
  rw [hpage] at h
  rcases runOn_bind_eq h with ⟨why, -, he⟩ | ⟨u, d₁, hwrite, hrest⟩
  · cases he
  rcases runOn_bind_eq hrest with ⟨why, -, he⟩ | ⟨n, d₂, hcopy, hend⟩
  · cases he
  obtain ⟨hpath, rfl⟩ := Prod.mk.inj hend
  obtain rfl := Except.ok.inj hpath
  rw [replicateAssets_of_base hbase] at hcopy
  exact ⟨html, d₁, n, rfl, rfl, hwrite, hcopy⟩

/-- A page that is compiled is written, and is still there in the end just if the last asset that
is copied onto it has the same bytes. This is said for assets among which nothing new has come, of
which the last one is not written over itself. -/
theorem compile_page_kept (hd : d.Proper) (hbase : c.base = some base)
    (h : runOn d (compile c input output) = (.ok path, d')) :
    ∃ html d₁ q, c.page d input = .ok html ∧ path = outputPath input output ∧
      runOn d (writePage path html) = (.ok (), d₁) ∧ d₁.canonical path = .ok q ∧
      d₁.readText path = .ok (String.ofList html) ∧
      ((∀ top, d₁.resolve true (base.join directory) ≠ .ok (.found top .dir)) →
        d'.readText path = .ok (String.ofList html)) ∧
      ∀ top, d₁.resolve true (base.join directory) = .ok (.found top .dir) →
        NothingNew d₁ d' top →
        (lastLanding d' (destination path) (assetsBelow d₁ top) q = none →
          d'.readText path = .ok (String.ofList html)) ∧
        ∀ last s b,
          lastLanding d' (destination path) (assetsBelow d₁ top) q = some last →
          d₁.canonical ((base.join directory).join (relative last)) = .ok s →
          d₁.openFile ((base.join directory).join (relative last)) = .ok (.bytes b) →
          ¬ Reached d' (destination path) (assetsBelow d₁ top) s →
          (d'.readText path = .ok (String.ofList html) ↔ b = (String.ofList html).toUTF8) := by
  obtain ⟨html, d₁, n, hpage, hpath, hwrite, hcopy⟩ := compile_cases hbase h
  obtain ⟨hproper, q, hl⟩ := writePage_found hd hwrite
  have hread : d₁.readText path = .ok (String.ofList html) :=
    readText_eq_ok_iff.2 (openFile_eq_bytes_iff.2 ⟨q, hl⟩)
  refine ⟨html, d₁, q, hpage, hpath, hwrite, canonical_eq_ok_iff.2 ⟨_, hl⟩, hread,
    fun hroot => ?_, fun top hroot hnew => ?_⟩
  · rw [replicate_disk_of_no_dir hroot hcopy, hread]
  have hwalked := walked_replicate hproper hroot hcopy
  -- what is read in the end is what the place of the page holds
  have hend : ∀ b, d'.node? q = some (.file b) →
      (d'.readText path = .ok (String.ofList html) ↔ b = (String.ofList html).toUTF8) := by
    intro b hb
    obtain ⟨m, hl', hlike⟩ := hwalked.grows.pathLeads_found hl
    cases hlike with
    | file _ b' =>
      obtain rfl := Node.file.inj (Option.some.inj (hb.symm.trans hl'.2.node?_file.2))
      rw [readText_eq_ok_iff, openFile_eq_bytes_iff]
      constructor
      · rintro ⟨q', hq'⟩
        exact Node.file.inj (Target.found.inj (hl'.unique hq')).2
      · rintro rfl
        exact ⟨q, hl'⟩
  refine ⟨fun hnone => ?_, fun last s b hlast hs hopen hnot => ?_⟩
  · have hkept := (hwalked.lands (.refl d₁) hnew).2 q hnone _ hl.2.node?_file.2
    exact (hend _ hkept).2 rfl
  · obtain ⟨s', hs'⟩ := openFile_eq_bytes_iff.1 hopen
    obtain rfl := Except.ok.inj (hs.symm.trans (canonical_eq_ok_iff.2 ⟨_, hs'⟩))
    exact hend b (hwalked.delivers (List.Subset.refl _) (.refl d₁) hnew (fun _ => Or.inl rfl) hlast
      hs' hnot)

/-! ## A page that is lost -/

/-- A disk on which an asset has the name of the page. -/
def crowded : Disk where
  table := [
    (["base".toList], .dir),
    (["base".toList, "assets".toList], .dir),
    (["base".toList, "assets".toList, "talk.html".toList], .file "asset".toUTF8),
    (["base".toList, "templates".toList], .dir),
    (["base".toList, "templates".toList, "action.tmpl".toList], .file "".toUTF8),
    (["base".toList, "templates".toList, "article.tmpl".toList], .file "".toUTF8),
    (["base".toList, "templates".toList, "slides.tmpl".toList], .file "page".toUTF8),
    (["talk.slide".toList], .file "T\n\n".toUTF8)]

/-- Compiles with the templates and assets of a base directory. -/
def based : Compiler where
  base := some (.ofString "base")

/-- The templates of the crowded disk. -/
def crowdedTheme : Theme := ⟨[], [.text "page".toList], []⟩

theorem outputPath_talk : outputPath (.ofString "talk.slide") none = .ofString "talk.html" := by cbv

theorem theme_crowded : based.theme crowded = .ok crowdedTheme := by cbv

theorem kind_talk : Kind.ofPath (.ofString "talk.slide") = .ok .slides := by
  have hext : (Path.ofString "talk.slide").extension? = some "slide".toList := by cbv
  rw [Kind.ofPath, hext]
  exact Kind.ofExtension_extension .slides

theorem documentFor_crowded :
    documentFor crowded based.document (.ofString "talk.slide") = .ok { title := "T" } := by
  have htext : crowded.readText (.ofString "talk.slide") = .ok "T\n\n" := by cbv
  have hread (files : Source.Files) :
      Source.read files (.ofString "talk.slide") .full "T\n\n" = .ok { title := "T" } := by cbv
  exact (readDocument_eq_read htext).trans (hread _)

theorem page_crowded : based.page crowded (.ofString "talk.slide") = .ok "page".toList := by
  have hpage : crowdedTheme.page .slides { title := "T" } based.options = .ok "page".toList := by
    cbv
  exact (page_eq theme_crowded kind_talk documentFor_crowded).trans hpage

/-- The crowded disk with the page. -/
def crowdedWithPage : Disk :=
  (runOn crowded (writePage (.ofString "talk.html") "page".toList)).2

/-- The disk on which the assets have been copied next to the page. -/
def crowdedWithAssets : Disk :=
  (runOn crowdedWithPage (replicate (.ofString "base/assets") (.ofString "talk.html"))).2

theorem writePage_crowded :
    runOn crowded (writePage (.ofString "talk.html") "page".toList) =
      (.ok (), crowdedWithPage) := by
  refine Prod.ext ?_ rfl
  cbv

theorem compile_crowded :
    runOn crowded (compile based (.ofString "talk.slide") none) =
      (.ok (.ofString "talk.html"), crowdedWithAssets) := by
  have hwrite := writePage_crowded
  have hcopy : runOn crowdedWithPage (replicate (.ofString "base/assets") (.ofString "talk.html")) =
      (.ok 1, crowdedWithAssets) := by
    refine Prod.ext ?_ rfl
    cbv
  have hroot : (Path.ofString "base").join directory = .ofString "base/assets" := by cbv
  rw [← outputPath_talk] at hwrite hcopy ⊢
  rw [← hroot, ← replicateAssets_of_base (c := based) rfl] at hcopy
  exact compile_of_steps page_crowded hwrite hcopy

theorem crowdedWithPage_eq :
    crowdedWithPage = crowded.set ["talk.html".toList] (.file "page".toUTF8) := by
  rw [crowdedWithPage]
  cbv

theorem crowdedWithAssets_eq :
    crowdedWithAssets = crowdedWithPage.set ["talk.html".toList] (.file "asset".toUTF8) := by
  rw [crowdedWithAssets, crowdedWithPage_eq]
  cbv

theorem assetsBelow_crowded :
    assetsBelow crowdedWithPage ["base".toList, "assets".toList] = [["talk.html".toList]] := by
  rw [crowdedWithPage_eq]
  cbv

/-- The asset lands on the page. -/
theorem lands_crowded :
    Lands crowdedWithAssets (destination (.ofString "talk.html")) ["talk.html".toList]
      ["talk.html".toList] := by
  rw [Lands, crowdedWithAssets_eq, crowdedWithPage_eq]
  cbv

/-- Nothing has come into the directory of the assets. -/
theorem nothingNew_crowded :
    NothingNew crowdedWithPage crowdedWithAssets ["base".toList, "assets".toList] := by
  intro q hq hnone
  have hne : q ≠ ["talk.html".toList] := by
    rintro rfl
    exact absurd hq (by decide)
  rw [crowdedWithAssets_eq, node?_set (List.cons_ne_nil _ _), if_neg hne, hnone]

/-- The asset is not written over itself: its copy lands on the page, and of the paths above the
page one leads home and the empty one nowhere. -/
theorem not_reached_crowded :
    ¬ Reached crowdedWithAssets (destination (.ofString "talk.html"))
      (assetsBelow crowdedWithPage ["base".toList, "assets".toList])
      ["base".toList, "assets".toList, "talk.html".toList] := by
  have habove : pathsAbove ((destination (.ofString "talk.html")).join
      (relative ["talk.html".toList])) = [⟨['.']⟩, ⟨[]⟩] := by cbv
  have hhome : crowdedWithAssets.canonical ⟨['.']⟩ = .ok [] := by
    rw [crowdedWithAssets_eq, crowdedWithPage_eq]
    cbv
  have hempty : crowdedWithAssets.canonical ⟨[]⟩ = .error .notFound := by
    rw [crowdedWithAssets_eq, crowdedWithPage_eq]
    cbv
  rw [assetsBelow_crowded]
  rintro ⟨names, hnames, hreached⟩
  obtain rfl := List.mem_singleton.1 hnames
  rcases hreached with hlands | ⟨path, hpath, hleads⟩
  · exact absurd (hlands.symm.trans lands_crowded) (by decide)
  · rw [habove] at hpath
    rcases List.mem_pair.1 hpath with rfl | rfl
    · exact absurd (hleads.symm.trans hhome) (by decide)
    · exact absurd (hleads.symm.trans hempty) (by decide)

theorem compile_page_kept_crowded :
    ∃ html d₁ q, based.page crowded (.ofString "talk.slide") = .ok html ∧
      runOn crowded (writePage (.ofString "talk.html") html) = (.ok (), d₁) ∧
      d₁.canonical (.ofString "talk.html") = .ok q ∧
      d₁.readText (.ofString "talk.html") = .ok (String.ofList html) ∧
      lastLanding crowdedWithAssets (destination (.ofString "talk.html"))
        (assetsBelow d₁ ["base".toList, "assets".toList]) q = some ["talk.html".toList] ∧
      d₁.openFile (((Path.ofString "base").join directory).join (relative ["talk.html".toList])) =
        .ok (.bytes "asset".toUTF8) ∧
      (crowdedWithAssets.readText (.ofString "talk.html") = .ok (String.ofList html) ↔
        "asset".toUTF8 = (String.ofList html).toUTF8) := by
  have hproper : crowded.Proper := by decide
  obtain ⟨html, d₁, q, hpage, -, hwrite, hplace, hread, -, hassets⟩ :=
    compile_page_kept hproper rfl compile_crowded
  obtain rfl : "page".toList = html := Except.ok.inj (page_crowded.symm.trans hpage)
  obtain rfl : crowdedWithPage = d₁ := (Prod.mk.inj (writePage_crowded.symm.trans hwrite)).2
  have hq : crowdedWithPage.canonical (.ofString "talk.html") = .ok ["talk.html".toList] := by
    rw [crowdedWithPage_eq]
    cbv
  obtain rfl : ["talk.html".toList] = q := Except.ok.inj (hq.symm.trans hplace)
  have hroot : crowdedWithPage.resolve true ((Path.ofString "base").join directory) =
      .ok (.found ["base".toList, "assets".toList] .dir) := by
    rw [crowdedWithPage_eq]
    cbv
  have hlast : lastLanding crowdedWithAssets (destination (.ofString "talk.html"))
      (assetsBelow crowdedWithPage ["base".toList, "assets".toList]) ["talk.html".toList] =
        some ["talk.html".toList] := by
    have hall : ∀ names ∈ [["talk.html".toList]], decide (Lands crowdedWithAssets
        (destination (.ofString "talk.html")) ["talk.html".toList] names) = true :=
      List.forall_mem_singleton.2 (decide_eq_true lands_crowded)
    rw [assetsBelow_crowded, lastLanding, List.filter_eq_self.2 hall, List.getLast?_singleton]
  have hsource : crowdedWithPage.canonical
      (((Path.ofString "base").join directory).join (relative ["talk.html".toList])) =
        .ok ["base".toList, "assets".toList, "talk.html".toList] := by
    rw [crowdedWithPage_eq]
    cbv
  have hopen : crowdedWithPage.openFile
      (((Path.ofString "base").join directory).join (relative ["talk.html".toList])) =
        .ok (.bytes "asset".toUTF8) := by
    rw [crowdedWithPage_eq]
    cbv
  exact ⟨_, _, _, hpage, hwrite, hplace, hread, hlast, hopen,
    (hassets _ hroot nothingNew_crowded).2 _ _ _ hlast hsource hopen not_reached_crowded⟩

/-- The page is compiled, but at its path the asset is found. -/
theorem compile_loses_page_crowded :
    crowded.Proper ∧
    (runOn crowded (compile based (.ofString "talk.slide") none)).1 = .ok (.ofString "talk.html") ∧
    based.page crowded (.ofString "talk.slide") = .ok "page".toList ∧
    (runOn crowded (compile based (.ofString "talk.slide") none)).2.readText
      (.ofString "talk.html") = .ok "asset" := by
  rw [compile_crowded]
  refine ⟨by decide, rfl, page_crowded, ?_⟩
  rw [crowdedWithAssets, crowdedWithPage]
  cbv

end Lectern
