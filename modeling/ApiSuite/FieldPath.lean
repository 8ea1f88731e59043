/-!
Places in a document: the keys and indexes that lead to them from its root.
-/

namespace ApiSuite

inductive Segment where
  | key (name : String)
  | index (n : Nat)
  deriving DecidableEq, Repr

/-- A path from the root, outermost segment first. -/
structure FieldPath where
  segments : List Segment
  deriving DecidableEq, Repr, Inhabited

namespace FieldPath

def root : FieldPath :=
  ⟨[]⟩

def key (path : FieldPath) (name : String) : FieldPath :=
  ⟨path.segments ++ [.key name]⟩

def index (path : FieldPath) (n : Nat) : FieldPath :=
  ⟨path.segments ++ [.index n]⟩

/-- The place that `path` names when its root is the place `base`. -/
def under (base path : FieldPath) : FieldPath :=
  ⟨base.segments ++ path.segments⟩

def isRoot (path : FieldPath) : Bool :=
  path.segments.isEmpty

end FieldPath

def Segment.text : Segment → String
  | .key name => "." ++ name
  | .index n => "[" ++ toString n ++ "]"

/-- The path in one line, such as `tests[0].steps[1].name`. -/
def FieldPath.text (path : FieldPath) : String :=
  match path.segments with
  | [] => "<root>"
  | .key name :: rest => name ++ String.join (rest.map Segment.text)
  | first :: rest => first.text ++ String.join (rest.map Segment.text)

end ApiSuite
