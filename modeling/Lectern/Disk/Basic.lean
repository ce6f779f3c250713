import Lectern.Path

/-!
# A disk

A disk is a tree of directories, files and symbolic links, kept as a finite table from places to
nodes. A place is the list of names that leads from the root to a node. The root is always a
directory; paths that are not absolute start at the place `home`.

A disk is less than what an operating system keeps. It leaves out:

* owners, times and permission bits: no operation is forbidden, neither reading nor looking up where
  a path leads, and a file is copied without the permission bits that a system copies with it;
* room: a write that has found its place succeeds, so no file is left empty or half written because
  the disk is full;
* hard links: every place has a file of its own, and what is written at one place changes no other;
* devices, pipes and sockets: what is no directory and no link is a file with bytes;
* names that are not text;
* the length of places: only paths as they are written can be too long, not the absolute path of
  `home` or of a place that a path leads to;
* other programs: a disk changes only by the operations that run on it.
-/

namespace Lectern

/-- A name in a directory. -/
abbrev Name := List Char

/-- The names that lead from the root to a node. -/
abbrev Place := List Name

/-- Why the disk refuses an operation. -/
inductive Fault where
  | notFound
  | alreadyExists
  | notDirectory
  | isDirectory
  | nameTooLong
  | tooManyLinks
  | nulInPath
  | notText
  | notRegular
deriving DecidableEq, Repr

/-- The wording of a refusal. -/
def Fault.message : Fault → String
  | notFound => "No such file or directory (os error 2)"
  | alreadyExists => "File exists (os error 17)"
  | notDirectory => "Not a directory (os error 20)"
  | isDirectory => "Is a directory (os error 21)"
  | nameTooLong => "File name too long (os error 36)"
  | tooManyLinks => "Too many levels of symbolic links (os error 40)"
  | nulInPath => "file name contained an unexpected NUL byte"
  | notText => "stream did not contain valid UTF-8"
  | notRegular => "the source path is neither a regular file nor a symlink to a regular file"

/-- What stands at a place. -/
inductive Node where
  | file (bytes : ByteArray)
  | dir
  | link (target : Path)

/-- Is the node a directory? -/
def Node.isDir : Node → Bool
  | dir => true
  | _ => false

/-- A tree of directories, files and links. -/
structure Disk where
  table : List (Place × Node) := []
  home : Place := []

namespace Disk

/-- What stands at a place, if anything does. -/
def node? (d : Disk) (p : Place) : Option Node :=
  if p.isEmpty then some .dir else d.table.lookup p

/-- The table with the node at a place set. -/
def setIn (p : Place) (n : Node) : List (Place × Node) → List (Place × Node)
  | [] => [(p, n)]
  | e :: r => if e.1 = p then (p, n) :: r else e :: setIn p n r

/-- The disk with the node at a place set. -/
def set (d : Disk) (p : Place) (n : Node) : Disk := { d with table := setIn p n d.table }

/-- The disk without a place and all that lies below it. -/
def erase (d : Disk) (p : Place) : Disk :=
  { d with table := d.table.filter fun e => !p.isPrefixOf e.1 }

/-- Does the name come before the other or equal it, by code points? -/
def nameLe : Name → Name → Bool
  | [], _ => true
  | _ :: _, [] => false
  | a :: r, b :: s => if a = b then nameLe r s else a.toNat < b.toNat

/-- The names in a directory with their nodes, sorted. -/
def children (d : Disk) (p : Place) : List (Name × Node) :=
  let here := d.table.filterMap fun (q, n) =>
    match p.isPrefixOf? q with
    | some [name] => some (name, n)
    | _ => none
  here.mergeSort fun a b => nameLe a.1 b.1

theorem lookup_setIn (p q : Place) (n : Node) (t : List (Place × Node)) :
    (setIn p n t).lookup q = if q = p then some n else t.lookup q := by
  induction t with
  | nil =>
      by_cases h : q = p
      · simp [setIn, h]
      · have hb : (q == p) = false := by simpa using h
        simp [setIn, List.lookup_cons, h, hb]
  | cons e r ih =>
      obtain ⟨a, m⟩ := e
      by_cases ha : a = p
      · subst ha
        by_cases h : q = a
        · simp [setIn, h]
        · have hb : (q == a) = false := by simpa using h
          simp [setIn, List.lookup_cons, h, hb]
      · by_cases h : q = a
        · subst h; simp [setIn, ha]
        · have hb : (q == a) = false := by simpa using h
          simp [setIn, List.lookup_cons, ha, hb, ih]

/-- Setting a node changes what stands at its place, and nothing else. -/
theorem node?_set {d : Disk} {p : Place} (hp : p ≠ []) (n : Node) (q : Place) :
    (d.set p n).node? q = if q = p then some n else d.node? q := by
  by_cases hq : q = []
  · subst hq; simp [node?, Ne.symm hp]
  · simp [node?, set, lookup_setIn, List.isEmpty_iff, hq]

@[simp] theorem node?_root (d : Disk) : d.node? [] = some .dir := rfl

end Disk

end Lectern
