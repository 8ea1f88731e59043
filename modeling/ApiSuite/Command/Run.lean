import ApiSuite.Command.Outcome
import ApiSuite.Load

/-!
Running commands on a file system.
-/

namespace ApiSuite

def Scope.overrides (scope : Scope) : Overrides :=
  ⟨scope.pattern, scope.root, scope.noRecursive⟩

/-- The settings for a path and the directory to scan, given the settings that were found with the
directory of their file. -/
def Scope.resolve (scope : Scope) (path : String) (found : Option (Settings × String)) :
    Settings × String :=
  let settings := ((found.map (·.1)).getD Settings.default).override scope.overrides
  (settings, settings.searchDir path (found.map (·.2)))

namespace Command

variable [Monad m] (files : Files.System m)

def findSettings (path : String) (scope : Scope) :
    m (Except Settings.Failure (Option (Settings × String))) := do
  match scope.config with
  | some config => return some <$> (← Settings.load files config)
  | none => Settings.discover files path

def suitePaths (path : String) (scope : Scope) : m (Except Failure (List String)) := do
  match ← findSettings files path scope with
  | .error failure => return .error (.settings failure)
  | .ok found =>
    let (settings, dir) := scope.resolve path found
    return (← Discovery.discover files settings dir).mapError .discovery

/-- The paths to check: that of a file alone, whatever the scope. -/
def checkPaths (path : String) (scope : Scope) : m (Except Failure (List String)) := do
  if ← files.isFile path then return .ok [path] else suitePaths files path scope

def loadAll : List String → m (List (String × Except ParseError Suite))
  | [] => return []
  | path :: rest => do return (path, ← load files path) :: (← loadAll rest)

def run (colours : Bool) : Command → m Outcome
  | .check path outline scope => do
    match ← checkPaths files path scope with
    | .error failure => return .ofFailure failure
    | .ok paths => return .ofCheck ⟨outline, 60, colours⟩ (← loadAll files paths)
  | .dump path => return .ofDump path (← load files path)
  | .list path scope => do
    match ← suitePaths files path scope with
    | .error failure => return .ofFailure failure
    | .ok paths => return .ofList paths
  | .plugins => return .plugins

end Command

/-- What the program does with some arguments, its output going to a terminal or not. -/
def Outcome.ofArguments [Monad m] (files : Files.System m) (terminal : Bool)
    (arguments : List String) : m Outcome :=
  match Invocation.ofArguments arguments with
  | .ok invocation => invocation.command.run files (terminal && !invocation.plain)
  | .error advice => return .ofAdvice advice

end ApiSuite
