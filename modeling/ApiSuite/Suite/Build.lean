import ApiSuite.FieldPath
import ApiSuite.Suite.Basic
import ApiSuite.Text.Blank
import ApiSuite.Text.Uppercase

/-!
The suite that a document stands for. Names lose the blanks at their ends, method names become
capitals, absent assertions and captures become empty lists, and all else is kept as written. Errors
carry paths that start at the part being built.
-/

namespace ApiSuite

inductive BuildFault where
  | notMapping
  | notText
  | notSequence
  | missing
  | keyNotText
  | codeOutOfRange
  | unknownPlugin (name : String)
  | unknownAssertion (name : String)
  deriving DecidableEq, Repr

def BuildFault.message : BuildFault → String
  | .notMapping => "expected a mapping"
  | .notText => "expected a string"
  | .notSequence => "expected a sequence"
  | .missing => "field is missing"
  | .keyNotText => "config key is not a string"
  | .codeOutOfRange => "status code out of range"
  | .unknownPlugin name => "unknown plugin '" ++ name ++ "'"
  | .unknownAssertion name => "unknown assertion type '" ++ name ++ "'"

structure BuildError where
  path : FieldPath
  fault : BuildFault
  deriving DecidableEq, Repr

abbrev Built := Except BuildError

namespace Built

def fail (fault : BuildFault) : Built α :=
  .error ⟨.root, fault⟩

def under (base : FieldPath) (result : Built α) : Built α :=
  result.mapError fun error => { error with path := base.under error.path }

def atKey (name : String) (result : Built α) : Built α :=
  under (FieldPath.root.key name) result

def ofOption (fault : BuildFault) : Option α → Built α
  | some a => .ok a
  | none => fail fault

/-- Builds every item, `start` being the index of the first. -/
def ofItems (build : Value → Built α) (start : Nat) : List Value → Built (List α)
  | [] => .ok []
  | item :: rest => do
    let first ← under (FieldPath.root.index start) (build item)
    return first :: (← ofItems build (start + 1) rest)

end Built

namespace Suite

def needMapping (value : Value) : Built Entries :=
  .ofOption .notMapping value.map?

def needField (entries : Entries) (name : String) : Built Value :=
  .atKey name (.ofOption .missing (entries.field? name))

def textField (entries : Entries) (name : String) : Built String := do
  let value ← needField entries name
  .atKey name (.ofOption .notText value.str?)

def nameField (entries : Entries) : Built String :=
  Text.trim <$> textField entries "name"

def descriptionField (entries : Entries) : Option String :=
  entries.field? "description" >>= Value.str?

def someItems (entries : Entries) (name : String) (build : Value → Built α) : Built (List α) := do
  let value ← needField entries name
  .atKey name (Built.ofOption .notSequence value.seq? >>= .ofItems build 0)

/-- The items of a field that may be left out; what is no sequence has none. -/
def anyItems (entries : Entries) (name : String) (build : Value → Built α) : Built (List α) :=
  .atKey name (.ofItems build 0 ((entries.field? name >>= Value.seq?).getD []))

def mapText (change : String → String) : Value → Value
  | .str s => .str (change s)
  | value => value

/-- The spelling that a plugin expects of its settings. -/
def normalize : Plugin → Config → Config
  | .http, config => config.modify "method" (mapText fun s => Text.upper (Text.trim s))
  | .delay, config => config.modify "duration" (mapText Text.trim)

/-- Enters settings one by one; of two with the same key the later stays. -/
def collectSettings (config : Config) : Entries → Built Config
  | [] => .ok config
  | (key, value) :: rest =>
    match key.str? with
    | some name => collectSettings (config.insert name value) rest
    | none => .fail .keyNotText

def buildConfig (plugin : Plugin) (value : Value) : Built Config := do
  let entries ← needMapping value
  normalize plugin <$> collectSettings .empty entries

def buildAssertion (value : Value) : Built Assertion := do
  let entries ← needMapping value
  let type ← textField entries "type"
  match ← Built.atKey "type" (.ofOption (.unknownAssertion type) (AssertionKind.ofName? type)) with
  | .statusCode =>
    let expected ← needField entries "expected"
    match expected.nat? with
    | some code =>
      if code < UInt16.size then return .statusCode (UInt16.ofNat code)
      else .atKey "expected" (.fail .codeOutOfRange)
    | none => .atKey "expected" (.fail .codeOutOfRange)
  | .jsonPath =>
    let path ← textField entries "path"
    return .jsonPath path (← .atKey "expected" (.ofOption .missing (entries.get? "expected")))
  | .header =>
    let name ← textField entries "name"
    return .header name (← textField entries "expected")
  | .bodyContains => return .bodyContains (← textField entries "expected")

def buildCapture (value : Value) : Built Capture := do
  let entries ← needMapping value
  let jsonPath ← textField entries "json_path"
  return ⟨jsonPath, ← textField entries "as"⟩

def buildStep (value : Value) : Built Step := do
  let entries ← needMapping value
  let pluginName ← textField entries "plugin"
  let plugin ← Built.atKey "plugin" (.ofOption (.unknownPlugin pluginName) (Plugin.ofName? pluginName))
  let settings ← needField entries "config"
  let config ← Built.atKey "config" (buildConfig plugin settings)
  let assertions ← anyItems entries "assertions" buildAssertion
  let captures ← anyItems entries "save" buildCapture
  let name ← nameField entries
  return { name, plugin, config, assertions, captures }

def buildTest (value : Value) : Built Test := do
  let entries ← needMapping value
  let steps ← someItems entries "steps" buildStep
  let name ← nameField entries
  return { name, description := descriptionField entries, steps }

/-- The suite of a document, or the first part that cannot be built. -/
def build (document : Value) : Built Suite := do
  let entries ← needMapping document
  let tests ← someItems entries "tests" buildTest
  let name ← nameField entries
  return { name, description := descriptionField entries, tests }

end Suite

end ApiSuite
