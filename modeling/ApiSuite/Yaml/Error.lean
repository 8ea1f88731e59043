import ApiSuite.Yaml.BadValue
import ApiSuite.Yaml.Mark
import ApiSuite.Yaml.Problem

/-!
The errors of reading a YAML text and how they are displayed.
-/

namespace ApiSuite.Yaml

structure Context where
  activity : Activity
  mark : Mark
  deriving DecidableEq, Repr

inductive MergeFault where
  | scalar
  | tagged
  | scalarItem
  | sequenceItem
  deriving DecidableEq, Repr

def MergeFault.message : MergeFault → String
  | .scalar => "expected a mapping or list of mappings for merging, but found scalar"
  | .tagged => "unexpected tagged value in merge"
  | .scalarItem => "expected a mapping for merging, but found scalar"
  | .sequenceItem => "expected a mapping for merging, but found sequence"

inductive TextError where
  | unreadable (cause : Unreadable) (offset : Nat)
  | ungrammatical (problem : Problem) (mark : Mark) (context : Option Context)
  deriving DecidableEq, Repr

/-- An error of the text, of the document it spells, or of its merge keys. An error in a value says by
`path` which value it was. -/
inductive Error where
  | badText (error : TextError)
  | unknownAnchor (mark : Mark)
  | tooDeep (mark : Mark)
  | tooManyAliases
  | severalDocuments
  | badValue (cause : BadValue) (path : String) (mark : Mark)
  | badMerge (fault : MergeFault)

/-- A context is followed by its place unless that is the place of the problem. -/
def Context.suffix (context : Context) (problem : Mark) : String :=
  ", " ++ context.activity.phrase ++
    if context.mark.sameLineAndColumn problem then "" else context.mark.suffix

def TextError.text : TextError → String
  | .unreadable cause offset =>
    cause.message ++ if offset = 0 then "" else " at position " ++ toString offset
  | .ungrammatical problem mark context =>
    problem.message ++ mark.suffix ++ (context.map (·.suffix mark)).getD ""

def Error.text : Error → String
  | .badText error => error.text
  | .unknownAnchor mark => "unknown anchor" ++ mark.suffix
  | .tooDeep mark => "recursion limit exceeded" ++ mark.suffix
  | .tooManyAliases => "repetition limit exceeded"
  | .severalDocuments => "deserializing from YAML containing more than one document is not supported"
  | .badValue cause path mark =>
    (if path = "." then "" else path ++ ": ") ++ cause.message ++ mark.suffix
  | .badMerge fault => fault.message

end ApiSuite.Yaml
