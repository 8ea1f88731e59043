import ApiSuite.Files.System
import ApiSuite.Settings.Read

/-!
Settings files on disk: one that is named, or the nearest one at or above a path.
-/

namespace ApiSuite.Settings

inductive Failure where
  | unread (path : String) (fault : Files.Fault)
  | malformed (path : String) (error : Yaml.Error)

def Failure.messages : Failure → List String
  | .unread path fault => ["Failed to read config file: " ++ path, fault.message]
  | .malformed path error => ["Failed to parse config file: " ++ path, error.text]

def ofContent (path : String) (bytes : List UInt8) : Except Failure Settings :=
  match String.fromUTF8? ⟨bytes.toArray⟩ with
  | none => .error (.unread path .notText)
  | some _ => (ofBytes bytes).mapError (.malformed path)

def ofFile (path : String) (content : Except Files.Fault (List UInt8)) :
    Except Failure (Settings × String) := do
  let bytes ← content.mapError (.unread path)
  return (← ofContent path bytes, (Files.parent? path).getD ".")

/-- A list and its beginnings, the longest first. -/
def beginnings : List α → List (List α)
  | [] => [[]]
  | a :: rest => (beginnings rest).map (a :: ·) ++ [[]]

/-- The paths at which the settings for a place may stand, the nearest first. -/
def candidates (names : List String) : List String :=
  (beginnings names).map fun names => Files.join (Files.absolute names) fileName

variable [Monad m] (files : Files.System m)

def load (path : String) : m (Except Failure (Settings × String)) :=
  ofFile path <$> files.read path

def firstFile? : List String → m (Option String)
  | [] => return none
  | path :: rest => do if ← files.isFile path then return some path else firstFile? rest

/-- The nearest settings file at or above a path. -/
def findFile? (start : String) : m (Option String) := do
  match ← files.names? start with
  | some names => firstFile? files (candidates names)
  | none => return none

def discover (start : String) : m (Except Failure (Option (Settings × String))) := do
  match ← findFile? files start with
  | some path => return some <$> (← load files path)
  | none => return .ok none

end ApiSuite.Settings
