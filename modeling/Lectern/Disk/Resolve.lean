import Lectern.Disk.Basic

/-!
# Where a path leads

A path is followed from name to name. A symbolic link on the way is replaced by its target; after
forty links the way is given up. A link that stands last is followed as well where `follow` asks
for it.
-/

namespace Lectern

namespace Disk

/-- The greatest number of bytes of a name. -/
def nameLimit : Nat := 255

/-- The number of bytes from which on a path is too long. -/
def pathLimit : Nat := 4096

/-- The number of links that are followed on the way. -/
def linkLimit : Nat := 40

/-- The number of bytes of a text. -/
def byteLength : List Char → Nat
  | [] => 0
  | c :: r => c.utf8Size + byteLength r

@[simp] theorem byteLength_append (s t : List Char) :
    byteLength (s ++ t) = byteLength s + byteLength t := by
  induction s with
  | nil => simp [byteLength]
  | cons c r ih => simp [byteLength, ih, Nat.add_assoc]

/-- The steps of a path as it is written: `.` asks for a directory, and so does a slash at the
end. -/
def steps (p : Path) : List Component :=
  let lead := if p.isAbsolute then [Component.root] else []
  let texts := p.chars.splitOn '/'
  let names := (texts.filter fun s => !s.isEmpty).map fun s =>
    if s = ['.'] then .here else Path.stepOf s
  let last := if p.chars.getLast? = some '/' then [Component.here] else []
  lead ++ names ++ last

/-- The end of a way: a place with its node, or a free place in a directory. -/
inductive Target where
  | found (p : Place) (n : Node)
  | free (p : Place)

/-- Follows steps from a directory; at most `links` links are followed. -/
def walk (d : Disk) (follow : Bool) (links : Nat) (at_ : Place) (way : List Component) :
    Except Fault Target :=
  match way with
  | [] => .ok (.found at_ .dir)
  | .root :: rest => d.walk follow links [] rest
  | .here :: rest => d.walk follow links at_ rest
  | .up :: rest => d.walk follow links at_.dropLast rest
  | .name s :: rest =>
      let p := at_ ++ [s]
      if nameLimit < byteLength s then .error .nameTooLong
      else
        match d.node? p with
        | none => if rest.isEmpty then .ok (.free p) else .error .notFound
        | some .dir => d.walk follow links p rest
        | some (.file bytes) =>
            if rest.isEmpty then .ok (.found p (.file bytes)) else .error .notDirectory
        | some (.link target) =>
            if rest.isEmpty && !follow then .ok (.found p (.link target))
            else
              match links with
              | 0 => .error .tooManyLinks
              | links + 1 => d.walk follow links at_ (steps target ++ rest)
termination_by (links, way.length)

/-- Refuses paths that name nothing: empty ones, too long ones, and those with a NUL. -/
def checkPath (p : Path) : Except Fault Unit :=
  if p.chars.any (·.toNat = 0) then .error .nulInPath
  else if p.chars.isEmpty then .error .notFound
  else if pathLimit ≤ byteLength p.chars then .error .nameTooLong
  else .ok ()

/-- Where a path leads. -/
def resolve (d : Disk) (follow : Bool) (p : Path) : Except Fault Target := do
  checkPath p
  d.walk follow linkLimit d.home (steps p)

/-- The place that an existing path leads to, without links. -/
def canonical (d : Disk) (p : Path) : Except Fault Place := do
  match ← d.resolve true p with
  | .found q _ => pure q
  | .free _ => throw .notFound

/-- Does the path lead to a directory? -/
def isDir (d : Disk) (p : Path) : Bool :=
  match d.resolve true p with
  | .ok (.found _ n) => n.isDir
  | _ => false

end Disk

end Lectern
