import ApiSuite.Text.Pieces

/-!
Paths as text. Slashes separate components; empty components and dots that do not stand first mean
nothing.
-/

namespace ApiSuite.Files

inductive Component where
  | root
  | here
  | up
  | name (name : String)
  deriving DecidableEq, Repr

def isAbsolute (path : String) : Bool :=
  path.toList.head? == some '/'

def pieces (path : String) : List (List Char) :=
  Text.pieces '/' path.toList

/-- The component that a piece is, a dot being one only at the start. -/
def component? (first : Bool) (piece : List Char) : Option Component :=
  match piece with
  | [] => none
  | ['.'] => if first then some .here else none
  | ['.', '.'] => some .up
  | piece => some (.name (String.ofList piece))

/-- The pieces after the root of a path, each with the component that it is. -/
def body (path : String) : List (List Char × Option Component) :=
  match pieces path with
  | [] => []
  | first :: rest =>
    let others := rest.map fun piece => (piece, component? false piece)
    if isAbsolute path then others else (first, component? true first) :: others

def components (path : String) : List Component :=
  (if isAbsolute path then [.root] else []) ++ (body path).filterMap (·.2)

def fileName? (path : String) : Option String :=
  match (components path).getLast? with
  | some (.name name) => some name
  | _ => none

/-- The path of `path` as seen from `base`: an absolute path stands alone, any other follows a slash. -/
def join (base path : String) : String :=
  if isAbsolute path then path
  else if base.isEmpty || base.toList.getLast? == some '/' then base ++ path
  else base ++ "/" ++ path

def absolute (names : List String) : String :=
  "/" ++ String.intercalate "/" names

/-- The path without its last component, if it has one. -/
def parent? (path : String) : Option String :=
  match (body path).reverse.dropWhile (·.2.isNone) with
  | [] => none
  | _ :: outer =>
    let kept := (outer.dropWhile (·.2.isNone)).reverse
    some ((if isAbsolute path then "/" else "") ++
      String.intercalate "/" (kept.map fun piece => String.ofList piece.1))

def Component.rank : Component → Nat
  | .root => 0
  | .here => 1
  | .up => 2
  | .name _ => 3

def Component.isBefore : Component → Component → Bool
  | .name first, .name second => first < second
  | first, second => first.rank < second.rank

/-- The order of paths, component by component. -/
def isUpTo : List Component → List Component → Bool
  | [], _ => true
  | _ :: _, [] => false
  | first :: rest, other :: others =>
    first.isBefore other || (first == other && isUpTo rest others)

def sortPaths (paths : List String) : List String :=
  paths.mergeSort fun first second => isUpTo (components first) (components second)

end ApiSuite.Files
