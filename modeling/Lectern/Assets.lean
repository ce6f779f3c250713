import Lectern.Bundled.Assets
import Lectern.Disk.Access
import Lectern.Failure

/-!
# Assets

The assets that a page uses are copied into the directory of the page, either from a directory of
assets or from the bundled ones. A page must not lie inside the directory that is copied.
-/

namespace Lectern

open Disk

namespace Assets

/-- The directory of assets below a base directory. -/
def directory : Path := .ofString "assets"

/-- The directory that holds a page. -/
def destination (page : Path) : Path :=
  match page.parent? with
  | some p => if p.chars.isEmpty then .ofString "." else p
  | none => .ofString "."

/-- An action on the disk, of which a refusal is reported for a path. -/
def reporting {α : Type} (path : Path) (x : DiskM Fault α) : DiskM Failure α :=
  ExceptT.adapt (fun why => .assetCopy path (.disk why)) x

/-- Makes the directory that is to hold a file. -/
def makeParent (path : Path) : DiskM Failure Unit :=
  match path.parent? with
  | some p => reporting path (makeDirs p)
  | none => pure ()

/-- Writes an asset of the bundled ones. -/
def writeBundled (root : Path) (asset : Path × String) : DiskM Failure Unit := do
  let target := root.join asset.1
  makeParent target
  reporting target (writeText target asset.2)

/-- Writes the bundled assets into the directory of a page, and counts them. -/
def replicateBundled (page : Path) : DiskM Failure Nat := do
  Bundled.assets.forM (writeBundled (destination page))
  pure Bundled.assets.length

/-- The place that a path will lead to once its directories are made: its longest existing part is
followed, and the names behind that are appended. -/
def futurePlace (d : Disk) : List Path → Except Fault Place
  | [] => .error .notFound
  | p :: parents =>
      match d.canonical (if p.chars.isEmpty then .ofString "." else p) with
      | .ok q => .ok q
      | .error why =>
          match p.fileName? with
          | some name =>
              match parents with
              | [] => .error why
              | _ => (futurePlace d parents).map (· ++ [name])
          | none => .error why

/-- Refuses to copy the assets below a root if the directory of the page lies inside it. -/
def guardOutside (root page : Path) : DiskM Failure Unit := do
  let d ← get
  let rootPlace ← reporting root (ExceptT.mk (pure (d.canonical root)))
  let target := destination page
  let place ← reporting target (ExceptT.mk (pure
    (futurePlace d (ancestorsWithin (target.chars.length + 1) target))))
  if rootPlace.isPrefixOf place then throw (.assetCopy page (.insideAssets root))

/-- Copies one asset from the directory `source` into the directory `target`. -/
def copyAsset (source target name : Path) : DiskM Failure Unit := do
  makeParent (target.join name)
  reporting (source.join name) (copyFile (source.join name) (target.join name))

/-- A file name as a path. -/
def pathOf (name : Name) : Path := ⟨name⟩

/-- Copies the entries of a directory, those of subdirectories with them, and counts the files.
The entries are listed when their directory is entered; links are not entered but copied as what
they lead to. `fuel` bounds the depth; the limit on the length of paths is always enough. -/
def copyEntries (root target : Path) : Nat → Path → List (Name × Node) → DiskM Failure Nat
  | 0, _, _ => pure 0
  | fuel + 1, below, entries => do
      let counts ← entries.mapM fun (name, n) => do
        let path := below.join (pathOf name)
        if n.isDir then do
          match (← get).resolve true (root.join path) with
          | .ok (.found q .dir) => copyEntries root target fuel path ((← get).children q)
          | .ok _ => throw (.assetCopy (root.join path) (.disk .notDirectory))
          | .error why => throw (.assetCopy (root.join path) (.disk why))
        else do
          copyAsset root target path
          pure 1
      pure (counts.foldl (· + ·) 0)

/-- Copies all assets below a root into the directory of a page, and counts them. -/
def replicate (root page : Path) : DiskM Failure Nat := do
  guardOutside root page
  let d ← get
  match d.resolve true root with
  | .ok (.found q .dir) =>
      copyEntries root (destination page) pathLimit ⟨[]⟩ (d.children q)
  | _ => pure 0

end Assets

end Lectern
