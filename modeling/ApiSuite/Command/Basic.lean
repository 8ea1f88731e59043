/-!
What the program can be asked to do.
-/

namespace ApiSuite

/-- Where suite files are looked for. What is left out comes from the settings file `config`, or from the
nearest one if that is left out too. -/
structure Scope where
  pattern : Option String
  root : Option String
  noRecursive : Bool
  config : Option String
  deriving DecidableEq, Repr

inductive Command where
  | check (path : String) (outline : Bool) (scope : Scope)
  | dump (path : String)
  | list (path : String) (scope : Scope)
  | plugins
  deriving DecidableEq, Repr

/-- A command, without colours if it is `plain`. -/
structure Invocation where
  plain : Bool
  command : Command
  deriving DecidableEq, Repr

end ApiSuite
