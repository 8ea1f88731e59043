import ApiSuite.FieldPath

/-!
Broken rules as they are reported: where, and what is wrong there.
-/

namespace ApiSuite.Schema

structure Violation where
  path : FieldPath
  message : String
  deriving DecidableEq, Repr

def Violation.text (violation : Violation) : String :=
  violation.path.text ++ ": " ++ violation.message

/-- The words that begin every report of broken rules. -/
def rejectionMarker : String :=
  "schema validation failed"

def rejectionText (violations : List Violation) : String :=
  rejectionMarker ++ ": " ++ toString violations.length ++ " violation(s)" ++
    String.join (violations.map fun violation => "\n  - " ++ violation.text)

/-- Whether a violation is reported at the path that is displayed as `text`. -/
def mentions (violations : List Violation) (text : String) : Bool :=
  violations.any fun violation => violation.path.text == text

end ApiSuite.Schema
