import ApiSuite.Files.System
import ApiSuite.Glob.Matcher
import ApiSuite.Settings.Basic

/-!
The suite files of a directory: those whose names fit the pattern of the settings, in the order of
their paths.
-/

namespace ApiSuite.Discovery

/-- A directory is unscanned if one at or below it, that at `path`, cannot be opened. -/
inductive Failure where
  | badPattern (pattern : String) (error : Glob.Error)
  | unscanned (dir path : String) (fault : Files.Fault)
  deriving DecidableEq, Repr

def Failure.messages : Failure → List String
  | .badPattern pattern error => ["Invalid test pattern: " ++ pattern, error.message]
  | .unscanned dir path fault =>
    ["Failed to scan " ++ dir, "IO error for operation on " ++ path ++ ": " ++ fault.message,
      fault.message]

def matcher (pattern : String) : Except Failure Glob.Matcher :=
  (Glob.Matcher.ofText? pattern).mapError (.badPattern pattern)

def walk (settings : Settings) : Files.Walk :=
  ⟨settings.exclude, settings.recursive⟩

def select (matcher : Glob.Matcher) (dir : String) (found : List (List String)) : List String :=
  Files.sortPaths ((found.map (·.foldl Files.join dir)).filter matcher.fits)

/-- The paths of the suite files at or below a path. -/
def discover [Monad m] (files : Files.System m) (settings : Settings) (dir : String) :
    m (Except Failure (List String)) := do
  match matcher settings.testPattern with
  | .error failure => return .error failure
  | .ok matcher =>
    let found ← files.walk (walk settings) dir
    return (found.mapError fun (path, fault) => .unscanned dir path fault).map (select matcher dir)

end ApiSuite.Discovery
