import Lectern.Proofs.Assets.Overlay
import Lectern.Proofs.Compile.Writing

/-!
# Pages inside the directory of the assets

A page must not lie inside the directory of the assets. This is found out when the assets are to be
copied, and the page has then been written: no asset is copied, and nothing but the page and the
directories above it has changed (`compile_refused_written`). The page may have replaced an asset
(`compile_overwrites_asset`).
-/

namespace Lectern

open Disk Assets

variable {d d' : Disk} {c : Compiler} {input path root : Path} {output : Option Path}

/-- Only the assets of a base directory refuse a page for lying inside them, and they do so before
anything is copied. -/
theorem replicateAssets_insideAssets {page : Path}
    (h : runOn d (c.replicateAssets page) = (.error (.assetCopy path (.insideAssets root)), d')) :
    c.assetsDir = some root ∧ path = page ∧ d' = d := by
  rw [Compiler.replicateAssets] at h
  split at h
  · rename_i root' hroot
    obtain ⟨hdisk, hpath, rfl⟩ := replicate_insideAssets h
    exact ⟨hroot, hpath, hdisk⟩
  · obtain ⟨_, _, hdisk⟩ := (failsOnly_replicateBundled page).of_runOn h
    cases hdisk

/-- A run that is refused because the page lies inside the directory of the assets has written the
page at its path. It has copied no asset: nothing else has changed, in this directory or elsewhere,
but for directories above the page that were missing. -/
theorem compile_refused_written
    (h : runOn d (compile c input output) =
      (.error (.assetCopy path (.insideAssets root)), d')) :
    c.assetsDir = some root ∧ path = outputPath input output ∧
      ∃ html q, c.page d input = .ok html ∧ Written path html q d d' := by
  rw [runOn_compile] at h
  cases hpage : c.page d input with
  | error why =>
    rw [hpage] at h
    obtain ⟨hwhy, -⟩ := Prod.mk.inj h
    obtain rfl := Except.error.inj hwhy
    exact (earlyOnly_page c d input _ hpage).elim
  | ok html =>
  rw [hpage] at h
  rcases runOn_bind_eq h with ⟨why, hwrite, hwhy⟩ | ⟨u, d₁, hwrite, hrest⟩
  · obtain rfl := Except.error.inj hwhy
    obtain ⟨-, -, ⟨⟨cause, hlate⟩, -⟩ | ⟨hok, -⟩⟩ := writePage_cases hwrite
    · cases hlate
    · cases hok
  rcases runOn_bind_eq hrest with ⟨why, hcopy, hwhy⟩ | ⟨n, d₂, -, hpure⟩
  · obtain rfl := Except.error.inj hwhy
    obtain ⟨hroot, rfl, rfl⟩ := replicateAssets_insideAssets hcopy
    obtain ⟨-, q, -, -, hwritten⟩ := written_of_writePage hwrite
    exact ⟨hroot, rfl, html, q, rfl, hwritten⟩
  · cases (Prod.mk.inj hpure).1

/-! ## An asset that is replaced -/

/-- A page in the directory of the assets, under the name of one of them. -/
def pageInAssets : Path := .ofString "base/assets/talk.html"

/-- The crowded disk with the page in place of the asset. -/
def crowdedInAssets : Disk := (runOn crowded (writePage pageInAssets "page".toList)).2

theorem compile_crowdedInAssets :
    runOn crowded (compile based (.ofString "talk.slide") (some pageInAssets)) =
      (.error (.assetCopy pageInAssets (.insideAssets (.ofString "base/assets"))),
        crowdedInAssets) := by
  have hwrite : runOn crowded (writePage (outputPath (.ofString "talk.slide") (some pageInAssets))
      "page".toList) = (.ok (), crowdedInAssets) := by
    refine Prod.ext ?_ rfl
    cbv
  have hroot : crowdedInAssets.canonical (.ofString "base/assets") =
      .ok ["base".toList, "assets".toList] := by
    rw [crowdedInAssets]
    cbv
  have hplace : futurePlace crowdedInAssets (upwards (destination pageInAssets)) =
      .ok ["base".toList, "assets".toList] := by
    rw [crowdedInAssets]
    cbv
  have hcopy : runOn crowdedInAssets
      (based.replicateAssets (outputPath (.ofString "talk.slide") (some pageInAssets))) =
        (.error (.assetCopy pageInAssets (.insideAssets (.ofString "base/assets"))),
          crowdedInAssets) := by
    have hjoin : (Path.ofString "base").join directory = .ofString "base/assets" := by cbv
    have hguard := runOn_guardOutside hroot hplace
    rw [if_pos List.prefix_rfl] at hguard
    rw [replicateAssets_of_base rfl, hjoin, replicate, runOn_bind,
      show outputPath (.ofString "talk.slide") (some pageInAssets) = pageInAssets from rfl, hguard]
  exact compile_of_steps page_crowded hwrite hcopy

theorem compile_refused_written_crowded :
    based.assetsDir = some (.ofString "base/assets") ∧
    ∃ html q, based.page crowded (.ofString "talk.slide") = .ok html ∧
      Written pageInAssets html q crowded crowdedInAssets := by
  obtain ⟨hroot, -, hwritten⟩ := compile_refused_written compile_crowdedInAssets
  exact ⟨hroot, hwritten⟩

/-- A page is refused for lying inside the directory of the assets, and has replaced an asset. -/
theorem compile_overwrites_asset :
    (runOn crowded (compile based (.ofString "talk.slide") (some pageInAssets))).1 =
      .error (.assetCopy pageInAssets (.insideAssets (.ofString "base/assets"))) ∧
    crowded.readText pageInAssets = .ok "asset" ∧
    (runOn crowded (compile based (.ofString "talk.slide") (some pageInAssets))).2.readText
      pageInAssets = .ok "page" := by
  rw [compile_crowdedInAssets]
  refine ⟨rfl, by cbv, ?_⟩
  rw [crowdedInAssets]
  cbv

end Lectern
