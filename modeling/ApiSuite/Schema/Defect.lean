import ApiSuite.Suite.Basic

/-!
What can be wrong with a value of a suite document, and how it is said.
-/

namespace ApiSuite.Schema

inductive Wanted where
  | text
  | mapping
  | sequence
  | statusCode
  | body
  deriving DecidableEq, Repr

def Wanted.phrase : Wanted → String
  | .text => "a string"
  | .mapping => "a mapping"
  | .sequence => "a sequence"
  | .statusCode => "an integer status code"
  | .body => "a string, mapping or sequence"

inductive Defect where
  | missing (field : String)
  | mismatch (wanted : Wanted) (found : Value)
  | blankText
  | noItems
  | keyNotText (key : Value)
  | notScalar (key : String) (value : Value)
  | notDuration (text : String)
  | notMethod (text : String)
  | notIdentifier (text : String)
  | codeOutOfRange (code : Nat)
  | unknownPlugin (name : String)
  | unknownAssertion (name : String)

def oneOf (choices : List String) : String :=
  "(expected one of: " ++ String.intercalate ", " choices ++ ")"

def Defect.message : Defect → String
  | .missing field => "missing required field '" ++ field ++ "'"
  | .mismatch wanted found => "expected " ++ wanted.phrase ++ ", found " ++ found.describe
  | .blankText => "must not be empty"
  | .noItems => "must contain at least one item"
  | .keyNotText key => "keys must be strings, found " ++ key.describe
  | .notScalar key value =>
    "value of '" ++ key ++ "' must be a scalar, found " ++ value.describe
  | .notDuration text => "invalid duration '" ++ text ++ "' (expected e.g. 250ms, 5s, 1m30s)"
  | .notMethod text => "unknown HTTP method '" ++ text ++ "' " ++ oneOf httpMethods
  | .notIdentifier text =>
    "'" ++ text ++
      "' is not a valid variable name (letters, digits and '_', not starting with a digit)"
  | .codeOutOfRange code => "status code " ++ toString code ++ " is outside 100..=599"
  | .unknownPlugin name => "unknown plugin '" ++ name ++ "' " ++ oneOf (Plugin.all.map (·.name))
  | .unknownAssertion name =>
    "unknown assertion type '" ++ name ++ "' " ++ oneOf (AssertionKind.all.map (·.name))

end ApiSuite.Schema
