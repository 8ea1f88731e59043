import ApiSuite.Json.Encode
import ApiSuite.Proofs.Suite.Faithful

/-!
# The document of a suite

A suite written as a document value, with the layout that its JSON form has: fields in their order,
no description where there is none, an assertion with its type first, values within settings and
assertions as they are. The JSON form of the suite is the JSON form of its document.
-/

namespace ApiSuite

/-- A mapping with untagged string keys. -/
def Entries.ofFields (fields : List (String × Value)) : Entries :=
  fields.map fun field => (.str field.1, field.2)

def Value.ofFields (fields : List (String × Value)) : Value :=
  .map (Entries.ofFields fields)

def Config.toValue (config : Config) : Value :=
  .ofFields config.entries

def Assertion.payload : Assertion → List (String × Value)
  | .statusCode expected => [("expected", .int expected.toNat)]
  | .jsonPath path expected => [("path", .str path), ("expected", expected)]
  | .header name expected => [("name", .str name), ("expected", .str expected)]
  | .bodyContains expected => [("expected", .str expected)]

def Assertion.toValue (assertion : Assertion) : Value :=
  .ofFields (("type", .str assertion.kind.name) :: assertion.payload)

def Capture.toValue (capture : Capture) : Value :=
  .ofFields [("json_path", .str capture.jsonPath), ("as", .str capture.name)]

def Step.toValue (step : Step) : Value :=
  .ofFields [
    ("name", .str step.name),
    ("plugin", .str step.plugin.name),
    ("config", step.config.toValue),
    ("assertions", .seq (step.assertions.map (·.toValue))),
    ("save", .seq (step.captures.map (·.toValue)))]

/-- A name, and a description where there is one. -/
def headingFields (name : String) (description : Option String) : List (String × Value) :=
  ("name", .str name) :: (description.map fun text => ("description", .str text)).toList

def Test.toValue (test : Test) : Value :=
  .ofFields (headingFields test.name test.description ++
    [("steps", .seq (test.steps.map (·.toValue)))])

def Suite.toValue (suite : Suite) : Value :=
  .ofFields (headingFields suite.name suite.description ++
    [("tests", .seq (suite.tests.map (·.toValue)))])

/-! ### Its JSON form -/

namespace Value

def fieldToJson (field : String × Value) : Encoded (String × Json) := do
  return (field.1, ← field.2.toJson)

theorem toJson_ofFields (fields : List (String × Value)) :
    (ofFields fields).toJson = .obj <$> fields.mapM fieldToJson := by
  rw [ofFields, toJson]
  congr 1
  induction fields with
  | nil => rfl
  | cons field rest ih =>
      rw [Entries.ofFields, List.map_cons, entriesToJson, List.mapM_cons, ← ih]
      simp only [jsonKey, fieldToJson, Entries.ofFields, bind_assoc, pure_bind]
      rfl

theorem toJson_seq_map {α : Type} (toValue : α → Value) (parts : List α) :
    (Value.seq (parts.map toValue)).toJson
      = .arr <$> parts.mapM fun part => (toValue part).toJson := by
  rw [toJson]
  congr 1
  induction parts with
  | nil => rfl
  | cons part rest ih => rw [List.map_cons, itemsToJson, List.mapM_cons, ih]

end Value

open Value (toJson_ofFields toJson_seq_map)

theorem Config.toJson_toValue (config : Config) : config.toValue.toJson = config.toJson :=
  toJson_ofFields config.entries

theorem Assertion.toJson_toValue (assertion : Assertion) :
    assertion.toValue.toJson = assertion.toJson := by
  rw [toValue, toJson_ofFields]
  cases assertion with
  | jsonPath path expected =>
      simp only [payload, List.mapM_cons, List.mapM_nil, Value.fieldToJson, toJson, map_bind,
        bind_assoc, pure_bind]
      rfl
  | _ => rfl

theorem Capture.toJson_toValue (capture : Capture) :
    capture.toValue.toJson = pure capture.toJson := by
  rw [toValue, toJson_ofFields]
  rfl

theorem Step.toJson_toValue (step : Step) : step.toValue.toJson = step.toJson := by
  rw [toValue, toJson_ofFields]
  simp only [List.mapM_cons, Value.fieldToJson, toJson_seq_map, Config.toJson_toValue,
    Assertion.toJson_toValue, Capture.toJson_toValue, List.mapM_pure]
  simp [toJson, Value.toJson]
  rfl

theorem mapM_headingFields (name : String) (description : Option String) :
    (headingFields name description).mapM Value.fieldToJson
      = pure (headingJson name description) := by
  cases description <;> rfl

theorem Test.toJson_toValue (test : Test) : test.toValue.toJson = test.toJson := by
  rw [toValue, toJson_ofFields, List.mapM_append, mapM_headingFields]
  simp only [List.mapM_cons, Value.fieldToJson, toJson_seq_map, Step.toJson_toValue]
  simp [toJson]

/-- The JSON form of a suite is that of its document, and fails where that fails. -/
theorem Suite.toJson_toValue (suite : Suite) : suite.toValue.toJson = suite.toJson := by
  rw [toValue, toJson_ofFields, List.mapM_append, mapM_headingFields]
  simp only [List.mapM_cons, Value.fieldToJson, toJson_seq_map, Test.toJson_toValue]
  simp [toJson]

end ApiSuite
