import ApiSuite.Files.Path

/-!
Which files count as suites and where to look for them. Each setting comes from the command line, else
from a settings file, else from the defaults.
-/

namespace ApiSuite

/-- `testPattern` is matched against file names, `root` is the directory to scan, `exclude` holds the names
that are skipped. -/
structure Settings where
  testPattern : String
  root : Option String
  recursive : Bool
  exclude : List String
  deriving DecidableEq, Repr

structure PartialSettings where
  testPattern : Option String
  root : Option String
  recursive : Option Bool
  exclude : Option (List String)
  deriving DecidableEq, Repr

structure Overrides where
  pattern : Option String
  root : Option String
  noRecursive : Bool
  deriving DecidableEq, Repr

namespace Settings

def fileName : String :=
  ".stepcheck.yaml"

def default : Settings where
  testPattern := "*.suite.\x7byaml,yml\x7d"
  root := none
  recursive := true
  exclude := ["target", "node_modules", ".git"]

def override (settings : Settings) (overrides : Overrides) : Settings :=
  { settings with
    testPattern := overrides.pattern.getD settings.testPattern
    root := overrides.root.or settings.root
    recursive := settings.recursive && !overrides.noRecursive }

/-- The directory to scan. A root is taken from the directory of the settings file if there is one, and else
from `base`. -/
def searchDir (settings : Settings) (base : String) (fileDir : Option String) : String :=
  match settings.root with
  | some root => Files.join (fileDir.getD base) root
  | none => base

end Settings

namespace PartialSettings

protected def none : PartialSettings :=
  ⟨.none, .none, .none, .none⟩

def resolve (settings : PartialSettings) (base : Settings) : Settings where
  testPattern := settings.testPattern.getD base.testPattern
  root := settings.root.or base.root
  recursive := settings.recursive.getD base.recursive
  exclude := settings.exclude.getD base.exclude

end PartialSettings

end ApiSuite
