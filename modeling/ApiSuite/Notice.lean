import ApiSuite.Parse

/-!
What is noted while a suite is parsed.
-/

namespace ApiSuite

inductive Notice where
  | read (bytes : Nat)
  | unknownField (path : FieldPath)
  | checked (violations : Nat)
  | built (suite : Suite)

inductive Notice.Level where
  | debug
  | warn
  deriving DecidableEq, Repr

def Notice.Level.name : Notice.Level → String
  | .debug => "debug"
  | .warn => "warn"

namespace Notice

def level : Notice → Level
  | .unknownField _ => .warn
  | _ => .debug

def message : Notice → String
  | .read _ => "YAML syntax parsed"
  | .unknownField _ => "ignoring unknown field"
  | .checked _ => "structural validation finished"
  | .built _ => "suite built"

def details : Notice → List (String × String)
  | .read bytes => [("bytes", toString bytes)]
  | .unknownField path => [("field", path.text)]
  | .checked violations => [("violations", toString violations)]
  | .built suite => [
      ("suite", suite.name),
      ("tests", toString suite.tests.length),
      ("steps", toString suite.stepCount)]

def ofCheck (document : Value) : List Notice :=
  (Schema.unknownFields document).map .unknownField ++
    [.checked (Schema.violations document).length]

/-- The notices of parsing a text, each stage being noted once it is complete. -/
def ofParse (bytes : List UInt8) : List Notice :=
  match Yaml.read bytes with
  | .error _ => []
  | .ok document =>
    .read bytes.length :: ofCheck document ++
      match parse bytes with
      | .ok suite => [.built suite]
      | .error _ => []

end Notice

end ApiSuite
