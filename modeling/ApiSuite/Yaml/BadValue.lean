import ApiSuite.Binary64.Decimal
import ApiSuite.Text.Quoted
import ApiSuite.Value

/-!
What can be wrong with a value that is well spelled.
-/

namespace ApiSuite.Yaml

inductive Expected where
  | anyValue
  | boolean
  | integer
  | float
  | null
  | text
  | path
  | sequence
  | fieldName
  | settings
  deriving DecidableEq, Repr

def Expected.phrase : Expected → String
  | .anyValue => "any YAML value"
  | .boolean => "a boolean"
  | .integer => "an integer"
  | .float => "a float"
  | .null => "null"
  | .text => "a string"
  | .path => "path string"
  | .sequence => "a sequence"
  | .fieldName => "field identifier"
  | .settings => "struct PartialConfig"

inductive Found where
  | unit
  | bool (b : Bool)
  | int (n : Int)
  | wideInt (n : Int)
  | float (x : Binary64)
  | text (s : String)
  | sequence
  | map
  deriving DecidableEq, Repr

/-- Numbers in messages are written out in full, however long. -/
def fullNumberStyle : NumberStyle :=
  ⟨fun _ => true, ""⟩

/-- Numbers in duplicate keys have an exponent from ten to the sixteenth on and below a ten-thousandth
of a tenth. -/
def keyNumberStyle : NumberStyle :=
  ⟨fun point => -5 < point && point ≤ 16, ""⟩

def floatText (x : Binary64) : String :=
  if x.isNaN then "NaN"
  else if x.isInfinite then if x.isNegative then "-inf" else "inf"
  else x.text fullNumberStyle

def Found.phrase : Found → String
  | .unit => "unit value"
  | .bool b => "boolean `" ++ toString b ++ "`"
  | .int n => "integer `" ++ toString n ++ "`"
  | .wideInt n => "integer `" ++ toString n ++ (if n < 0 then "` as i128" else "` as u128")
  | .float x => "floating point `" ++ floatText x ++ "`"
  | .text s => "string " ++ Text.quoted s
  | .sequence => "sequence"
  | .map => "map"

def keyFloatText (x : Binary64) : String :=
  if x.isNaN then ".nan"
  else if x.isInfinite then if x.isNegative then "-.inf" else ".inf"
  else x.text keyNumberStyle

def repeatedKeyPhrase : Value → String
  | .null => "with null key"
  | .bool b => "with key `" ++ toString b ++ "`"
  | .int n => "with key " ++ toString n
  | .float x => "with key " ++ keyFloatText x
  | .str s => "with key " ++ Text.quoted s
  | _ => "in YAML map"

inductive BadValue where
  | repeatedKey (key : Value)
  | notOfTag (text : String) (expected : Expected)
  | mistyped (found : Found) (expected : Expected)
  | unknownField (name : String) (known : List String)
  | repeatedField (name : String)

def BadValue.message : BadValue → String
  | .repeatedKey key => "duplicate entry " ++ repeatedKeyPhrase key
  | .notOfTag text expected =>
    "invalid value: string " ++ Text.quoted text ++ ", expected " ++ expected.phrase
  | .mistyped found expected => "invalid type: " ++ found.phrase ++ ", expected " ++ expected.phrase
  | .unknownField name known =>
    "unknown field `" ++ name ++ "`, expected one of " ++
      String.intercalate ", " (known.map fun field => "`" ++ field ++ "`")
  | .repeatedField name => "duplicate field `" ++ name ++ "`"

end ApiSuite.Yaml
