import ApiSuite.Duration
import ApiSuite.Schema.Defect
import ApiSuite.Text.Blank
import ApiSuite.Text.Uppercase

/-!
The shapes that a field's value may be asked to have.
-/

namespace ApiSuite.Schema

inductive Shape where
  | any
  | text
  | nonBlankText
  | duration
  | httpMethod
  | statusCode
  | identifier
  | scalarMap
  | body
  deriving DecidableEq, Repr

def Shape.phrase : Shape → String
  | .any => "any value"
  | .text => "string"
  | .nonBlankText => "non-empty string"
  | .duration => "duration"
  | .httpMethod => "HTTP method"
  | .statusCode => "status code"
  | .identifier => "identifier"
  | .scalarMap => "mapping of scalars"
  | .body => "string, mapping or sequence"

/-- A method name in any letter case, blanks around it aside. -/
def isHttpMethod (s : String) : Bool :=
  httpMethods.contains (Text.upper (Text.trim s))

def isIdentifier (s : String) : Bool :=
  match s.toList with
  | [] => false
  | first :: rest =>
    (first.isAlpha || first == '_') && rest.all fun c => c.isAlphanum || c == '_'

def isScalar : Value → Bool
  | .bool _ | .int _ | .float _ | .str _ => true
  | _ => false

def needText (value : Value) : Except Defect String :=
  match value.str? with
  | some s => .ok s
  | none => .error (.mismatch .text value)

def needNonBlank (value : Value) : Except Defect String :=
  needText value >>= fun s => if (Text.trim s).isEmpty then .error .blankText else .ok s

/-- The first entry of a mapping whose key is no string or whose value is no scalar decides. -/
def checkScalars : Entries → Except Defect Unit
  | [] => .ok ()
  | (key, value) :: rest =>
    match key.str? with
    | none => .error (.keyNotText key)
    | some name => if isScalar value then checkScalars rest else .error (.notScalar name value)

def Shape.check : Shape → Value → Except Defect Unit
  | .any, _ => .ok ()
  | .text, value => do let _ ← needText value
  | .nonBlankText, value => do let _ ← needNonBlank value
  | .duration, value => do
    let s ← needNonBlank value
    if isDuration (Text.trim s) then .ok () else .error (.notDuration s)
  | .httpMethod, value => do
    let s ← needNonBlank value
    if isHttpMethod s then .ok () else .error (.notMethod s)
  | .statusCode, value =>
    match value.nat? with
    | some code => if 100 ≤ code && code ≤ 599 then .ok () else .error (.codeOutOfRange code)
    | none => .error (.mismatch .statusCode value)
  | .identifier, value => do
    let s ← needText value
    if isIdentifier s then .ok () else .error (.notIdentifier s)
  | .scalarMap, value =>
    match value.map? with
    | some entries => checkScalars entries
    | none => .error (.mismatch .mapping value)
  | .body, value =>
    match value with
    | .str _ | .map _ | .seq _ => .ok ()
    | _ => .error (.mismatch .body value)

end ApiSuite.Schema
