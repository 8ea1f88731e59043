import ApiSuite.Files.Fault
import ApiSuite.Schema.Check
import ApiSuite.Suite.Build
import ApiSuite.Yaml.Merge

/-!
From the bytes of a suite file to the suite: the YAML text is read, checked against the format, and
built. A suite is only ever handed out whole.
-/

namespace ApiSuite

inductive ParseError where
  | unread (fault : Files.Fault)
  | malformed (error : Yaml.Error)
  | rejected (violations : List Schema.Violation)
  | unbuilt (error : BuildError)

def ParseError.text : ParseError → String
  | .unread fault => "IO error: " ++ fault.message
  | .malformed error => "YAML syntax error: " ++ error.text
  | .rejected violations => Schema.rejectionText violations
  | .unbuilt error =>
    "internal error: validated document could not be built at " ++ error.path.text ++ ": " ++
      error.fault.message

def validate (bytes : List UInt8) : Except ParseError Unit := do
  let document ← (Yaml.read bytes).mapError .malformed
  (Schema.validate document).mapError .rejected

/-- Reads the text, checks the document and builds the suite. -/
def parse (bytes : List UInt8) : Except ParseError Suite := do
  let document ← (Yaml.read bytes).mapError .malformed
  (Schema.validate document).mapError .rejected
  (Suite.build document).mapError .unbuilt

def unknownFields (bytes : List UInt8) : List FieldPath :=
  match Yaml.read bytes with
  | .ok document => Schema.unknownFields document
  | .error _ => []

end ApiSuite
