/-!
Places in a text, counted in characters.
-/

namespace ApiSuite.Yaml

/-- Index, line and column of a character, each counted from zero. -/
structure Mark where
  index : Nat
  line : Nat
  column : Nat
  deriving DecidableEq, Repr, Inhabited

namespace Mark

def start : Mark :=
  ⟨0, 0, 0⟩

/-- Whether this is the first column of the first line, a place that messages leave out. -/
def isOrigin (mark : Mark) : Bool :=
  mark.line == 0 && mark.column == 0

def sameLineAndColumn (first second : Mark) : Bool :=
  first.line == second.line && first.column == second.column

def advance (mark : Mark) (n : Nat) : Mark :=
  ⟨mark.index + n, mark.line, mark.column + n⟩

def nextLine (mark : Mark) (width : Nat) : Mark :=
  ⟨mark.index + width, mark.line + 1, 0⟩

def text (mark : Mark) : String :=
  "line " ++ toString (mark.line + 1) ++ " column " ++ toString (mark.column + 1)

def suffix (mark : Mark) : String :=
  if mark.isOrigin then "" else " at " ++ mark.text

end Mark

end ApiSuite.Yaml
