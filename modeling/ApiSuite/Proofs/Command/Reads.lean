import ApiSuite.Command.Run
import ApiSuite.Files.Disk

/-!
# The files that a command reads

A disk that keeps a record of what is read from it gives the same answers as it does without, so a
command comes to the same outcome on it. A list reads at most a settings file. A check reads that file
and then, unless it fails before, every file that it reports on.
-/

namespace ApiSuite

open Files (Disk System)

abbrev Recording := StateM (List String)

/-- The disk as a file system that keeps a record of what is read. -/
def Files.Disk.recorder (disk : Disk) : System Recording where
  isFile path := pure (disk.system.isFile path).run
  read path := do
    modify (· ++ [path])
    return (disk.system.read path).run
  names? path := pure (disk.system.names? path).run
  walk walk path := pure (disk.system.walk walk path).run

/-- Whether a computation comes to the same as one without a record, and reads the files at some paths
in their order. -/
def Records {α : Type} (x : Recording α) (y : Id α) (reads : List String) : Prop :=
  ∀ before, (x.run before).run = (y.run, before ++ reads)

namespace Records

variable {α β : Type} {x : Recording α} {y : Id α} {f : α → Recording β} {g : α → Id β}
  {reads reads' : List String}

theorem pure (a : α) : Records (Pure.pure a) (Pure.pure a) [] := by
  intro before
  rw [List.append_nil]
  rfl

theorem bind (hx : Records x y reads) (hf : Records (f y.run) (g y.run) reads') :
    Records (x >>= f) (y >>= g) (reads ++ reads') := by
  intro before
  have hstep : ((x >>= f).run before).run = ((f (x.run before).run.1).run (x.run before).run.2).run := rfl
  rw [hstep, hx before, hf, List.append_assoc]
  rfl

theorem bind_silent (hx : Records x y reads) (hf : Records (f y.run) (g y.run) []) :
    Records (x >>= f) (y >>= g) reads := by
  rw [← List.append_nil reads]
  exact hx.bind hf

end Records

variable {disk : Disk} {path : String} {paths : List String}

theorem records_read : Records (disk.recorder.read path) (disk.system.read path) [path] :=
  fun _ => rfl

theorem records_isFile : Records (disk.recorder.isFile path) (disk.system.isFile path) [] :=
  .pure _

theorem records_load : Records (load disk.recorder path) (load disk.system path) [path] :=
  records_read.bind_silent (.pure _)

namespace Settings

theorem records_load : Records (load disk.recorder path) (load disk.system path) [path] :=
  fun _ => rfl

theorem records_firstFile? :
    Records (firstFile? disk.recorder paths) (firstFile? disk.system paths) [] := by
  induction paths with
  | nil => exact .pure none
  | cons path paths ih =>
      apply records_isFile.bind_silent
      split
      · exact .pure (some path)
      · exact ih

theorem records_findFile? :
    Records (findFile? disk.recorder path) (findFile? disk.system path) [] := by
  apply (Records.pure (disk.system.names? path).run).bind_silent
  cases (disk.system.names? path).run with
  | none => exact .pure none
  | some names => exact records_firstFile?

end Settings

namespace Command

variable {scope : Scope} {colours outline : Bool}

/-- The settings file that is read for a scope, if there is one. -/
def settingsPath? (disk : Disk) (path : String) (scope : Scope) : Option String :=
  match scope.config with
  | some config => some config
  | none => (Settings.findFile? disk.system path).run

theorem records_findSettings :
    Records (findSettings disk.recorder path scope) (findSettings disk.system path scope)
      (settingsPath? disk path scope).toList := by
  unfold findSettings settingsPath?
  cases scope.config with
  | some config => exact Settings.records_load.bind_silent (.pure _)
  | none =>
      rw [← List.nil_append (Option.toList _)]
      apply Settings.records_findFile?.bind
      simp only
      cases (Settings.findFile? disk.system path).run with
      | none => exact .pure _
      | some config => exact Settings.records_load.bind_silent (.pure _)

theorem records_discover {settings : Settings} {dir : String} :
    Records (Discovery.discover disk.recorder settings dir)
      (Discovery.discover disk.system settings dir) [] := by
  unfold Discovery.discover
  cases Discovery.matcher settings.testPattern with
  | error failure => exact .pure _
  | ok matcher => exact Records.bind_silent (.pure (disk.system.walk _ dir).run) (.pure _)

theorem records_suitePaths :
    Records (suitePaths disk.recorder path scope) (suitePaths disk.system path scope)
      (settingsPath? disk path scope).toList := by
  apply records_findSettings.bind_silent
  cases (findSettings disk.system path scope).run with
  | error failure => exact .pure _
  | ok found => exact records_discover.bind_silent (.pure _)

theorem records_loadAll :
    Records (loadAll disk.recorder paths) (loadAll disk.system paths) paths := by
  induction paths with
  | nil => exact .pure []
  | cons path paths ih =>
      rw [loadAll, loadAll, ← List.singleton_append]
      apply records_load.bind
      exact ih.bind_silent (.pure _)

theorem records_checkPaths :
    Records (checkPaths disk.recorder path scope) (checkPaths disk.system path scope)
      (if (disk.system.isFile path).run then [] else (settingsPath? disk path scope).toList) := by
  rw [← List.nil_append (ite _ _ _)]
  apply records_isFile.bind
  split
  · exact .pure _
  · exact records_suitePaths

theorem records_check :
    Records ((check path outline scope).run disk.recorder colours)
      ((check path outline scope).run disk.system colours)
      ((if (disk.system.isFile path).run then [] else (settingsPath? disk path scope).toList) ++
        match (checkPaths disk.system path scope).run with
        | .error _ => []
        | .ok paths => paths) := by
  apply records_checkPaths.bind
  cases (checkPaths disk.system path scope).run with
  | error failure => exact .pure _
  | ok paths => exact records_loadAll.bind_silent (.pure _)

theorem records_list :
    Records ((list path scope).run disk.recorder colours) ((list path scope).run disk.system colours)
      (settingsPath? disk path scope).toList := by
  apply records_suitePaths.bind_silent
  cases (suitePaths disk.system path scope).run with
  | error failure => exact .pure _
  | ok paths => exact .pure _

theorem records_dump :
    Records ((dump path).run disk.recorder colours) ((dump path).run disk.system colours) [path] :=
  ApiSuite.records_load.bind_silent (.pure _)

/-- What a command comes to, with the paths that it reads in their order. -/
def observe (disk : Disk) (colours : Bool) (command : Command) : Outcome × List String :=
  ((command.run disk.recorder colours).run []).run

/-- To keep a record makes no difference to what a command comes to. -/
theorem observe_fst (disk : Disk) (colours : Bool) (command : Command) :
    (observe disk colours command).1 = (command.run disk.system colours).run := by
  cases command with
  | check path outline scope => exact congrArg Prod.fst (records_check [])
  | dump path => exact congrArg Prod.fst (records_dump [])
  | list path scope => exact congrArg Prod.fst (records_list [])
  | plugins => rfl

end Command

end ApiSuite
