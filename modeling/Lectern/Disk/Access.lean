import Lectern.Disk.Resolve

/-!
# Reading and changing a disk

The operations of a program on a disk. One that changes the disk runs in `DiskM`, which hands on
the disk also when it fails, with the changes made so far. An operation fails only for where its
paths lead and for what stands there; the refusals that a disk leaves out are listed in
`Lectern.Disk.Basic`.
-/

namespace Lectern

/-- A computation that may fail for the reasons `ε` and may change a disk, also if it fails. -/
abbrev DiskM (ε : Type) : Type → Type := ExceptT ε (StateM Disk)

namespace Disk

/-! ## Reading -/

/-- What an opened path gives to read. -/
inductive Content where
  | directory
  | bytes (b : ByteArray)

/-- Opens a path for reading. -/
def openFile (d : Disk) (p : Path) : Except Fault Content := do
  match ← d.resolve true p with
  | .found _ (.file b) => pure (.bytes b)
  | .found _ _ => pure .directory
  | .free _ => throw .notFound

/-- The text of what was opened. -/
def Content.text : Content → Except Fault String
  | directory => .error .isDirectory
  | bytes b =>
      match String.fromUTF8? b with
      | some s => .ok s
      | none => .error .notText

/-- The text of the file at a path. -/
def readText (d : Disk) (p : Path) : Except Fault String := do
  (← d.openFile p).text

/-! ## Writing files -/

/-- The path without slashes at its end. -/
def withoutSlashes (p : Path) : List Char :=
  (p.chars.reverse.dropWhile (· = '/')).reverse

/-- The place where a file is put that is written at a path: an existing file, or a free place. -/
def filePlace (d : Disk) (p : Path) : Except Fault Place := do
  checkPath p
  match (steps ⟨withoutSlashes p⟩).getLast? with
  | some (.name _) =>
      if p.chars.getLast? = some '/' then
        let way := (steps ⟨withoutSlashes p⟩).dropLast
        match ← d.walk true linkLimit d.home way with
        | .found _ .dir => throw .isDirectory
        | .found _ _ => throw .notDirectory
        | .free _ => throw .notFound
      else
        match ← d.walk true linkLimit d.home (steps p) with
        | .found q (.file _) => pure q
        | .found _ _ => throw .isDirectory
        | .free q => pure q
  | _ => do
      match ← d.walk true linkLimit d.home (steps p) with
      | .free _ => throw .notFound
      | .found _ _ => throw .isDirectory

/-- Writes a file, in place of the one that is there. -/
def writeFile (p : Path) (bytes : ByteArray) : DiskM Fault Unit := do
  let q ← (← get).filePlace p
  modify fun d => d.set q (.file bytes)

/-- Writes a text file, in place of the one that is there. -/
def writeText (p : Path) (text : String) : DiskM Fault Unit := writeFile p text.toUTF8

/-- Copies the bytes of a file. The target is emptied before the source is read, so a file copied
onto itself is lost. -/
def copyFile (source target : Path) : DiskM Fault Unit := do
  match ← (← get).openFile source with
  | .directory => throw .notRegular
  | .bytes _ =>
      writeFile target ByteArray.empty
      match ← (← get).openFile source with
      | .directory => throw .notRegular
      | .bytes b => writeFile target b

/-! ## Making directories -/

/-- The place of a directory that is to be made at a path. -/
def newDirPlace (d : Disk) (p : Path) : Except Fault Place := do
  checkPath p
  let way := steps ⟨withoutSlashes p⟩
  match way.getLast? with
  | some (.name s) =>
      match ← d.walk true linkLimit d.home way.dropLast with
      | .found q .dir =>
          if nameLimit < byteLength s then throw .nameTooLong
          else if (d.node? (q ++ [s])).isSome then throw .alreadyExists
          else pure (q ++ [s])
      | .found _ _ => throw .notDirectory
      | .free _ => throw .notFound
  | _ => do
      match ← d.walk true linkLimit d.home way with
      | .found _ _ => throw .alreadyExists
      | .free _ => throw .notFound

/-- Makes a directory in an existing one. -/
def makeDir (p : Path) : DiskM Fault Unit := do
  let q ← (← get).newDirPlace p
  modify fun d => d.set q .dir

/-- Makes a directory, or finds that it is there. -/
def makeOrFindDir (p : Path) : DiskM Fault Unit :=
  tryCatch (makeDir p) fun e => do
    if (← get).isDir p then pure () else throw e

/-- Makes the first of some paths a directory, where each path is the parent of the one before
it: if its parent is missing, the parent is made first. -/
def makeDirsFrom : List Path → DiskM Fault Unit
  | [] => pure ()
  | p :: parents =>
      if p.chars.isEmpty then pure ()
      else
        tryCatch (makeOrFindDir p) fun e =>
          if e = .notFound then do
            makeDirsFrom parents
            makeOrFindDir p
          else throw e

/-- The path and its parents, the nearest first; `fuel` bounds their number. -/
def ancestorsWithin : Nat → Path → List Path
  | 0, _ => []
  | fuel + 1, p =>
      match p.parent? with
      | some q => p :: ancestorsWithin fuel q
      | none => [p]

/-- Makes a directory and the directories above it that are missing. -/
def makeDirs (p : Path) : DiskM Fault Unit := makeDirsFrom (ancestorsWithin (p.chars.length + 1) p)

end Disk

end Lectern
