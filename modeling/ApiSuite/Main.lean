import ApiSuite.Command.Run

/-!
The program: it answers for the file system of the machine, prints and exits.
-/

namespace ApiSuite

def Files.Fault.ofError : IO.Error → Files.Fault
  | .noFileOrDirectory .. => .notFound
  | .inappropriateType _ code _ => if code = 21 then .isDirectory else .notDirectory
  | .invalidArgument _ 36 _ => .nameTooLong
  | error => .other (toString error)

namespace Machine

def attempt (action : IO α) : IO (Except Files.Fault α) := do
  return (← action.toBaseIO).mapError .ofError

def metadata (path : String) : IO IO.FS.Metadata :=
  (IO.FS.DirEntry.mk path "").root.metadata

def entries (path : String) : IO (List IO.FS.DirEntry) := do
  return (← (IO.FS.DirEntry.mk path "").root.readDir).toList

def attemptAt (path : String) (action : IO α) : ExceptT (String × Files.Fault) IO α :=
  ExceptT.mk do return (← attempt action).mapError (path, ·)

/-- The files that a walk finds in a directory. An entry is looked at where the directory really is, since
only what is opened has to be at a short path. -/
partial def filesIn (walk : Files.Walk) (dir : String) :
    ExceptT (String × Files.Fault) IO (List (List String)) := do
  let found ← attemptAt dir (entries dir)
  let real ← attemptAt dir (IO.FS.realPath dir)
  let files ← (found.filter fun entry => walk.takes entry.fileName).mapM fun entry => do
    let path := Files.join dir entry.fileName
    match (← attemptAt path (real / entry.fileName).symlinkMetadata).type with
    | .file => return [[entry.fileName]]
    | .dir => if walk.deep then return (← filesIn walk path).map (entry.fileName :: ·) else return []
    | _ => return []
  return files.flatten

def namesOf (path : String) : List String :=
  (Files.components path).filterMap fun
    | .name name => some name
    | _ => none

def system : Files.System IO where
  isFile path := do
    match ← attempt do return (← metadata path).type with
    | .ok .file => return true
    | _ => return false
  read path := attempt do return (← IO.FS.readBinFile path).toList
  names? path := do
    match ← attempt (IO.FS.realPath path) with
    | .ok real => return some (namesOf real.toString)
    | .error _ => return none
  walk walk path := ExceptT.run do
    match (← attemptAt path (metadata path)).type with
    | .file => return [[]]
    | .dir => filesIn walk path
    | _ => return []

end Machine

end ApiSuite

def main (arguments : List String) : IO UInt32 := do
  let terminal ← (← IO.getStdout).isTty
  let outcome ← ApiSuite.Outcome.ofArguments ApiSuite.Machine.system terminal arguments
  IO.print outcome.output
  IO.eprint outcome.errors
  return outcome.status.toUInt32
