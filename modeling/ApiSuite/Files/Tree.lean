import ApiSuite.Files.System

/-!
Files and directories as trees. The names of entries are texts in Unicode, and the entries of a directory
stand in the order in which they are listed.
-/

namespace ApiSuite.Files

inductive Tree where
  | file (bytes : List UInt8)
  | dir (entries : List (String × Tree))
  deriving Repr, Inhabited

namespace Tree

def isFile : Tree → Bool
  | .file _ => true
  | .dir _ => false

mutual

/-- What a walk comes to in a tree, the tree itself before what is in it. The entries are looked at if the
walk `enters` the tree. -/
def visits (walk : Walk) (enters : Bool) : Tree → List (List String × Tree)
  | .file bytes => [([], .file bytes)]
  | .dir entries => ([], .dir entries) :: if enters then visitsAmong walk entries else []

def visitsAmong (walk : Walk) : List (String × Tree) → List (List String × Tree)
  | [] => []
  | (name, tree) :: rest =>
    (if walk.takes name then
      (tree.visits walk walk.deep).map fun visit => (name :: visit.1, visit.2)
    else []) ++ visitsAmong walk rest

end

def files (walk : Walk) (tree : Tree) : List (List String) :=
  ((tree.visits walk true).filter (·.2.isFile)).map (·.1)

def opened (walk : Walk) (tree : Tree) : List (List String) :=
  ((tree.visits walk true).filter fun visit =>
    !visit.2.isFile && (walk.deep || visit.1.isEmpty)).map (·.1)

def put (name : String) (tree : Tree) : List (String × Tree) → List (String × Tree)
  | [] => [(name, tree)]
  | entry :: rest => if entry.1 = name then (name, tree) :: rest else entry :: put name tree rest

/-- The tree with another tree at the end of a way from the root, made of directories as far as it is
new. A directory is not put in place of anything. -/
def insert (tree : Tree) (added : Tree) : List String → Tree
  | [] =>
    match tree, added with
    | .dir entries, .dir [] => .dir entries
    | _, _ => added
  | name :: names =>
    match tree with
    | .file bytes => .file bytes
    | .dir entries => .dir (put name (((entries.lookup name).getD (.dir [])).insert added names) entries)

end Tree

end ApiSuite.Files
