import ApiSuite.Command.Arguments
import ApiSuite.Command.Failure
import ApiSuite.Report

/-!
What commands print and the status that they end with.
-/

namespace ApiSuite

structure Outcome where
  status : Nat
  output : String
  errors : String
  deriving DecidableEq, Repr

namespace Outcome

def ofFailure (failure : Command.Failure) : Outcome :=
  ⟨1, "", Text.page failure.lines⟩

def manual : List String := [
  "Validate declarative YAML API test suites",
  "",
  "Commands:",
  "  check PATH [--outline]  Validate a suite file, or every suite file under a directory",
  "  dump FILE               Parse a suite file and print the typed model as JSON",
  "  list PATH               List suite files discovered under a directory",
  "  plugins                 List known plugins and assertion types with their fields",
  "",
  "Options:",
  "  -v, --verbose           Show debug logging",
  "      --no-color          Disable ANSI colors",
  "  -h, --help              Print help",
  "",
  "Options of check and list:",
  "  -p, --pattern PATTERN   Suite file pattern (overrides config)",
  "  -r, --root DIRECTORY    Root directory for discovery (overrides config)",
  "      --no-recursive      Disable recursive directory scanning",
  "  -c, --config FILE       Path to config file (default: auto-discover)"]

def ofAdvice : Command.Advice → Outcome
  | .help => ⟨0, Text.page manual, ""⟩
  | .complaint misuse => ⟨2, "", Text.page (("error: " ++ misuse.message) :: "" :: manual)⟩

def checkLines (report : Report) (results : List (String × Except ParseError Suite)) : List String :=
  if results.isEmpty then ["", "No suite files found.", ""]
  else
    let passed := results.countP (·.2.isOk)
    "" :: results.flatMap (fun (path, result) => report.fileLines path result) ++
      ["", report.summaryLine passed (results.length - passed)]

/-- A check succeeds if all files hold suites. -/
def ofCheck (report : Report) (results : List (String × Except ParseError Suite)) : Outcome :=
  ⟨if results.all (·.2.isOk) then 0 else 1, Text.page (checkLines report results), ""⟩

def ofList (paths : List String) : Outcome :=
  ⟨0,
    Text.page (["", "Discovered " ++ toString paths.length ++ " suite file(s):", ""] ++
      paths.map ("  " ++ ·) ++ [""]),
    ""⟩

def ofDump (path : String) : Except ParseError Suite → Outcome
  | .ok suite =>
    match suite.dump with
    | .ok text => ⟨0, Text.page [text], ""⟩
    | .error fault => ofFailure (.unwritable fault)
  | .error error => ⟨1, "", Text.page [path ++ ": " ++ error.text]⟩

def ruleText (rule : Schema.FieldRule) : String :=
  rule.name ++ (if rule.required then "" else "?") ++ " (" ++ rule.shape.phrase ++ ")"

def rulesLine (name : String) (rules : List Schema.FieldRule) : String :=
  name ++ ": " ++ String.intercalate ", " (rules.map ruleText)

def plugins : Outcome :=
  ⟨0,
    Text.page (["", "Plugins (config fields):"] ++
      Plugin.all.map (fun plugin => "  - " ++ rulesLine plugin.name (Schema.configRules plugin)) ++
      ["", "Assertion types (fields besides \x60type\x60):"] ++
      AssertionKind.all.map (fun kind => "  - " ++ rulesLine kind.name (Schema.assertionRules kind)) ++
      ["", rulesLine "Save directives" Schema.captureRules, ""]),
    ""⟩

end Outcome

end ApiSuite
