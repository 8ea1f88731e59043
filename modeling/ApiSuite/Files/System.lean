import ApiSuite.Files.Fault

/-!
What the program asks of a file system.
-/

namespace ApiSuite.Files

/-- How far a walk through a directory goes. Entries with a skipped name are left out with all that is
below them, and directories in the directory are entered only if the walk is `deep`. -/
structure Walk where
  skipped : List String
  deep : Bool
  deriving DecidableEq, Repr

def Walk.takes (walk : Walk) (name : String) : Bool :=
  !walk.skipped.contains name

/-- A file system that answers in `m`. `isFile` says whether a path leads to a file and not a directory,
`read` gives the content of a file, `names?` the names that lead from the root to where a path leads, and
`walk` the files at or below a path, each by the names that lead there from the path, in any order. A walk
fails at a path that it cannot open. -/
structure System (m : Type → Type) where
  isFile : String → m Bool
  read : String → m (Except Fault (List UInt8))
  names? : String → m (Option (List String))
  walk : Walk → String → m (Except (String × Fault) (List (List String)))

end ApiSuite.Files
