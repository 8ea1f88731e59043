import ApiSuite.Schema.Shape

/-!
The fields that a suite document has, with the shapes of their values.
-/

namespace ApiSuite.Schema

/-- Where `nullable` holds, an explicit null is a value; elsewhere it is an absent field. -/
structure FieldRule where
  name : String
  required : Bool
  nullable : Bool
  shape : Shape
  deriving DecidableEq, Repr

namespace FieldRule

def mandatory (name : String) (shape : Shape) : FieldRule :=
  ⟨name, true, false, shape⟩

def elective (name : String) (shape : Shape) : FieldRule :=
  ⟨name, false, false, shape⟩

def value? (rule : FieldRule) (entries : Entries) : Option Value :=
  if rule.nullable then entries.get? rule.name else entries.field? rule.name

end FieldRule

open FieldRule

def nameRule : FieldRule :=
  mandatory "name" .nonBlankText

def descriptionRule : FieldRule :=
  elective "description" .text

def configRules : Plugin → List FieldRule
  | .delay => [mandatory "duration" .duration]
  | .http => [
      mandatory "url" .nonBlankText,
      elective "method" .httpMethod,
      elective "headers" .scalarMap,
      elective "body" .body]

def assertionRules : AssertionKind → List FieldRule
  | .statusCode => [mandatory "expected" .statusCode]
  | .jsonPath => [mandatory "path" .nonBlankText, ⟨"expected", true, true, .any⟩]
  | .header => [mandatory "name" .nonBlankText, mandatory "expected" .text]
  | .bodyContains => [mandatory "expected" .nonBlankText]

def captureRules : List FieldRule :=
  [mandatory "json_path" .nonBlankText, mandatory "as" .identifier]

/-- The keys of a suite; `version` is accepted for older documents and ignored. -/
def suiteKeys : List String :=
  ["name", "description", "tests", "version"]

def testKeys : List String :=
  ["name", "description", "steps"]

def stepKeys : List String :=
  ["name", "plugin", "config", "assertions", "save"]

def configKeys (plugin : Plugin) : List String :=
  (configRules plugin).map (·.name)

def assertionKeys (kind : AssertionKind) : List String :=
  "type" :: (assertionRules kind).map (·.name)

def captureKeys : List String :=
  captureRules.map (·.name)

end ApiSuite.Schema
