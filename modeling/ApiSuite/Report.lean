import ApiSuite.Json.Encode
import ApiSuite.Parse

/-!
The lines that tell how the check of suite files went.
-/

namespace ApiSuite

inductive Colour where
  | red
  | green
  | yellow
  | cyan
  deriving DecidableEq, Repr

def Colour.code : Colour → String
  | .red => "\x1b[31m"
  | .green => "\x1b[32m"
  | .yellow => "\x1b[33m"
  | .cyan => "\x1b[36m"

def Colour.reset : String :=
  "\x1b[0m"

/-- What a report shows and how: whether the tests of good suites are listed, how many characters of a
value are shown, and whether there are colours. -/
structure Report where
  outline : Bool
  width : Nat
  colours : Bool
  deriving DecidableEq, Repr

namespace Report

def paint (report : Report) (colour : Colour) (text : String) : String :=
  if report.colours then colour.code ++ text ++ Colour.reset else text

/-- The text if it fits, and else its beginning with three dots. -/
def shorten (report : Report) (text : String) : String :=
  if text.length ≤ report.width then text
  else String.ofList (text.toList.take (report.width - 3)) ++ "..."

def showValue (report : Report) : Value → String
  | .str s => "\"" ++ report.shorten s ++ "\""
  | value =>
    report.shorten <|
      match value.toJson with
      | .ok json => json.line
      | .error _ => "?"

def showConfig (report : Report) (config : Config) : String :=
  String.intercalate ", " (config.entries.map fun (key, value) => key ++ "=" ++ report.showValue value)

def showStep (report : Report) (step : Step) : String :=
  step.name ++ " [" ++ report.paint .cyan step.plugin.name ++ "] " ++ report.showConfig step.config ++
    (if step.assertions.isEmpty then ""
      else " (" ++ toString step.assertions.length ++ " assertion(s))") ++
    (if step.captures.isEmpty then ""
      else " -> " ++ String.intercalate ", " (step.captures.map (·.name)))

def passLine (report : Report) (path : String) (suite : Suite) : String :=
  "  " ++ report.paint .green "✓" ++ " " ++ path ++ " (" ++ suite.name ++ ": " ++
    toString suite.tests.length ++ " test(s), " ++ toString suite.stepCount ++ " step(s))"

def violationLine (report : Report) (violation : Schema.Violation) : String :=
  "       - " ++ report.paint .yellow violation.path.text ++ ": " ++ violation.message

def failureLines (report : Report) (path : String) (error : ParseError) : List String :=
  ("  " ++ report.paint .red "✗" ++ " " ++ path) ::
    match error with
    | .rejected violations =>
      ("    └─ " ++ Schema.rejectionMarker ++ " (" ++ toString violations.length ++
        " violation(s))") :: violations.map report.violationLine
    | error => ["    └─ " ++ error.text]

def stepLine (report : Report) (index : Nat) (step : Step) : String :=
  "        " ++ toString (index + 1) ++ ". " ++ report.showStep step

def testLines (report : Report) (test : Test) : List String :=
  ("      " ++ test.name) :: test.steps.mapIdx report.stepLine

/-- A line for every test and every step, the steps of a test being numbered from one. -/
def outlineLines (report : Report) (suite : Suite) : List String :=
  suite.tests.flatMap report.testLines

def summaryLine (report : Report) (passed failed : Nat) : String :=
  report.paint (if failed = 0 then .green else .red) <|
    "Results: " ++ toString passed ++ "/" ++ toString (passed + failed) ++ " suite file(s) valid"

def fileLines (report : Report) (path : String) : Except ParseError Suite → List String
  | .ok suite =>
    report.passLine path suite :: if report.outline then report.outlineLines suite else []
  | .error error => report.failureLines path error

end Report

end ApiSuite
