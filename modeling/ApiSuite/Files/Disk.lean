import ApiSuite.Files.Path
import ApiSuite.Files.Tree

/-!
A disk: a tree and a directory in it that relative paths start from. Only a directory has anything in
it, itself and the directory above it included; the directory above the root is the root.
-/

namespace ApiSuite.Files

structure Disk where
  root : Tree
  home : List String

namespace Disk

/-- The entries that a way passes through, the last one first. -/
abbrev Trail := List (String × Tree)

def Trail.names (trail : Trail) : List String :=
  (trail.map (·.1)).reverse

def nameLimit : Nat :=
  255

def pathLimit : Nat :=
  4095

def allow (path : String) : Except Fault Unit :=
  if pathLimit < path.utf8ByteSize then .error .nameTooLong else .ok ()

def endOf (disk : Disk) (trail : Trail) : Tree :=
  (trail.head?.map (·.2)).getD disk.root

def follow (disk : Disk) (trail : Trail) (piece : List Char) : Except Fault Trail :=
  match disk.endOf trail, piece with
  | .file _, _ => .error .notDirectory
  | .dir _, [] | .dir _, ['.'] => .ok trail
  | .dir _, ['.', '.'] => .ok (trail.drop 1)
  | .dir entries, piece =>
    let name := String.ofList piece
    if nameLimit < name.utf8ByteSize then .error .nameTooLong
    else
      match entries.lookup name with
      | some tree => .ok ((name, tree) :: trail)
      | none => .error .notFound

def check (path : String) : Except Fault Unit :=
  if path.toList.contains '\x00' then .error .nulInPath
  else if path.isEmpty then .error .notFound
  else .ok ()

def start (disk : Disk) (path : String) : List (List Char) :=
  if isAbsolute path then [] else disk.home.map (·.toList)

/-- The trail of a path that is to be opened. -/
def locate (disk : Disk) (path : String) : Except Fault Trail := do
  check path
  allow path
  (disk.start path ++ pieces path).foldlM disk.follow []

def find (disk : Disk) (path : String) : Except Fault Tree :=
  disk.endOf <$> disk.locate path

/-- Follows one piece of a path and looks at the entry that it leads to. -/
def resolve (disk : Disk) (trail : Trail) (piece : List Char) : Except Fault Trail := do
  let next ← disk.follow trail piece
  if trail.length < next.length then allow (absolute (Trail.names next))
  return next

/-- The trail of a path that is resolved piece by piece. The path itself is not opened and may be of any
length. -/
def canonical (disk : Disk) (path : String) : Except Fault Trail := do
  check path
  let trail ← (disk.start path).foldlM disk.follow []
  (pieces path).foldlM disk.resolve trail

/-- The files that a walk from a path finds, unless it comes to a directory that cannot be opened. -/
def scan (disk : Disk) (walk : Walk) (path : String) :
    Except (String × Fault) (List (List String)) := do
  let tree ← (disk.find path).mapError (path, ·)
  (tree.opened walk).forM fun names =>
    let dir := names.foldl join path
    (allow dir).mapError (dir, ·)
  return tree.files walk

/-- The disk as a file system that answers at once. -/
def system (disk : Disk) : System Id where
  isFile path :=
    match disk.find path with
    | .ok (.file _) => true
    | _ => false
  read path :=
    match disk.find path with
    | .ok (.file bytes) => .ok bytes
    | .ok (.dir _) => .error .isDirectory
    | .error fault => .error fault
  names? path := (disk.canonical path).toOption.map Trail.names
  walk := disk.scan

end Disk

end ApiSuite.Files
