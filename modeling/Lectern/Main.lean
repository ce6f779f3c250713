import Lectern.CommandLine

/-!
# The program

The program takes in the directories that a request is about, carries the request out on them, and
writes back what has changed.
-/

open Lectern Lectern.CommandLine

namespace Lectern.Program

/-- The place of an absolute path. -/
def placeOf (path : String) : Place := (path.toList.splitOn '/').filter (!·.isEmpty)

/-- The absolute path of a place. -/
def pathOf (p : Place) : String := String.ofList (p.flatMap ('/' :: ·))

/-- A place and the places around it, as directories, outermost first. -/
def around (p : Place) : List (Place × Node) :=
  (List.range p.length).map fun i => (p.take (i + 1), .dir)

/-- The directories that a request is about. -/
def directories : Option Request → List Path
  | some (.compile c input output) =>
      c.base.toList ++ [input.parent, (outputPath input output).parent]
  | _ => []

/-- What stands below a directory; a link is taken in with the place that it leads to. -/
partial def entriesBelow (place : Place) : IO (List (Place × Node)) := do
  let mut found := []
  for e in ← (← IO.FS.realPath (pathOf place)).readDir do
    let here := place ++ [e.fileName.toList]
    match (← e.path.symlinkMetadata).type with
    | .dir => found := found ++ (here, .dir) :: (← entriesBelow here)
    | .file => found := found ++ [(here, .file (← IO.FS.readBinFile e.path))]
    | .symlink =>
        if ← e.path.pathExists then
          let target ← IO.FS.realPath e.path
          found := found ++ [(here, .link (.ofString target.toString))]
    | .other => pure ()
  return found

/-- The disk as far as a request is about it, seen from a directory. -/
def takeIn (home : String) (request : Option Request) : IO Disk := do
  let mut disk : Disk := { table := around (placeOf home), home := placeOf home }
  for d in directories request do
    let path := ((Path.ofString home).join d).toString
    try
      let place := placeOf (← IO.FS.realPath path).toString
      for (p, n) in around place ++ (← entriesBelow place) do
        disk := disk.set p n
    catch _ => pure ()
  return disk

/-- Is a file with these bytes there? -/
def holds (bytes : ByteArray) : Option Node → Bool
  | some (.file old) => old.data == bytes.data
  | _ => false

/-- Writes back the directories and files that have changed. -/
def writeBack (before after : Disk) : IO Unit := do
  for (p, n) in after.table do
    match n with
    | .dir => IO.FS.createDirAll (pathOf p)
    | .file bytes =>
        if !holds bytes (before.node? p) then IO.FS.writeBinFile (pathOf p) bytes
    | .link _ => pure ()

/-- The environment of the program. -/
def surroundings : IO Environment := do
  let names := [baseVariable, playVariable, "CLICOLOR", "CLICOLOR_FORCE", "NO_COLOR"]
  let values ← names.mapM fun name => do return (name, ← IO.getEnv name)
  return { lookup := fun name => (values.lookup name).join
           terminal := ← (← IO.getStdout).isTty }

end Lectern.Program

/-- Carries out the request of the arguments. -/
def main (arguments : List String) : IO UInt32 := do
  let env ← Program.surroundings
  let home ← IO.currentDir
  let before ← Program.takeIn home.toString (Request.ofArguments? env arguments)
  let (outcome, after) := (CommandLine.run env arguments).run before
  Program.writeBack before after
  (← IO.getStdout).putStr outcome.stdout
  (← IO.getStderr).putStr outcome.stderr
  return outcome.exitCode.toUInt32
