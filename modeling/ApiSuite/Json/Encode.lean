import ApiSuite.Json.Basic
import ApiSuite.Suite.Basic

/-!
Values and suites as JSON. Every value has a JSON form unless a mapping in it has a key that no
string can stand for.
-/

namespace ApiSuite

inductive EncodeFault where
  | keyNotText
  | keyNotFinite
  deriving DecidableEq, Repr

def EncodeFault.message : EncodeFault → String
  | .keyNotText => "key must be a string"
  | .keyNotFinite => "float key must be finite (got NaN or +/-inf)"

namespace Value

/-- A mapping key as a string; whole numbers, booleans and finite numbers are written out. -/
def jsonKey : Value → Except EncodeFault String
  | .str s => .ok s
  | .int n => .ok (toString n)
  | .bool b => .ok (toString b)
  | .float x => if x.isFinite then .ok (x.text Json.numberStyle) else .error .keyNotFinite
  | _ => .error .keyNotText

mutual

/-- The JSON form; a tagged value becomes an object with the tag as its one key. -/
def toJson : Value → Except EncodeFault Json
  | .null => .ok .null
  | .bool b => .ok (.bool b)
  | .int n => .ok (.int n)
  | .float x => .ok (.real x)
  | .str s => .ok (.str s)
  | .seq items => .arr <$> itemsToJson items
  | .map entries => .obj <$> entriesToJson entries
  | .tagged tag content => do return .obj [("!" ++ tag, ← content.toJson)]

def itemsToJson : List Value → Except EncodeFault (List Json)
  | [] => .ok []
  | item :: rest => do return (← item.toJson) :: (← itemsToJson rest)

def entriesToJson : List (Value × Value) → Except EncodeFault (List (String × Json))
  | [] => .ok []
  | (key, value) :: rest => do
    let name ← key.jsonKey
    return (name, ← value.toJson) :: (← entriesToJson rest)

end

end Value

abbrev Encoded := Except EncodeFault

def Config.toJson (config : Config) : Encoded Json :=
  .obj <$> config.entries.mapM fun (key, value) => do return (key, ← value.toJson)

def Assertion.toJson (assertion : Assertion) : Encoded Json := do
  let payload ← match assertion with
    | .statusCode expected => pure [("expected", Json.int expected.toNat)]
    | .jsonPath path expected => do
      pure [("path", .str path), ("expected", ← expected.toJson)]
    | .header name expected => pure [("name", .str name), ("expected", .str expected)]
    | .bodyContains expected => pure [("expected", .str expected)]
  return .obj (("type", .str assertion.kind.name) :: payload)

def Capture.toJson (capture : Capture) : Json :=
  .obj [("json_path", .str capture.jsonPath), ("as", .str capture.name)]

def Step.toJson (step : Step) : Encoded Json := do
  return .obj [
    ("name", .str step.name),
    ("plugin", .str step.plugin.name),
    ("config", ← step.config.toJson),
    ("assertions", .arr (← step.assertions.mapM (·.toJson))),
    ("save", .arr (step.captures.map (·.toJson)))]

def headingJson (name : String) (description : Option String) : List (String × Json) :=
  ("name", .str name) :: (description.map fun text => ("description", .str text)).toList

def Test.toJson (test : Test) : Encoded Json := do
  let steps ← test.steps.mapM (·.toJson)
  return .obj (headingJson test.name test.description ++ [("steps", .arr steps)])

def Suite.toJson (suite : Suite) : Encoded Json := do
  let tests ← suite.tests.mapM (·.toJson)
  return .obj (headingJson suite.name suite.description ++ [("tests", .arr tests)])

def Suite.dump (suite : Suite) : Encoded String :=
  Json.page <$> suite.toJson

end ApiSuite
