import ApiSuite.Yaml.Document
import ApiSuite.Yaml.Scalar

/-!
Moving through the parts of a document while its values are read.
-/

namespace ApiSuite.Yaml

/-- A step from a collection to one of its values. Only a scalar key has a text. -/
inductive Step where
  | item (index : Nat)
  | field (key : String)
  | unknown
  deriving DecidableEq, Repr

/-- The steps from the root to a value, the last one first. -/
abbrev Trail := List Step

def Trail.text : Trail → String
  | [] => "."
  | .item index :: outer => Trail.text outer ++ "[" ++ toString index ++ "]"
  | .field key :: outer => lead outer ++ key
  | .unknown :: outer => lead outer ++ "?"
where
    lead : Trail → String
    | [] => ""
    | outer => Trail.text outer ++ "."

def depthLimit : Nat :=
  128

structure Progress where
  position : Nat
  jumps : Nat

abbrev Reading := StateT Progress (Except Error)

namespace Reading

def peek (document : Document) : Reading (Part × Mark) := do
  match document.parts[(← get).position]?, document.error with
  | some part, _ => return part
  | none, some error => throw error
  | none, none => return (.absent, .start)

def skip : Reading Unit :=
  modify fun progress => { progress with position := progress.position + 1 }

def next (document : Document) : Reading (Part × Mark) := do
  let part ← peek document
  skip
  return part

def bad (trail : Trail) (mark : Mark) (cause : BadValue) : Reading α :=
  throw (.badValue cause trail.text mark)

def orBad (trail : Trail) (mark : Mark) : Except BadValue α → Reading α
  | .ok a => return a
  | .error cause => bad trail mark cause

/-- Reads the node of an anchor and comes back. Aliases are followed at most a hundred times for every part
of the document. -/
def follow (document : Document) (anchor : Nat) (read : Reading α) : Reading α := do
  let progress ← get
  if 100 * document.parts.size < progress.jumps + 1 then throw .tooManyAliases
  set (Progress.mk ((document.anchor? anchor).getD progress.position) (progress.jumps + 1))
  let a ← read
  modify ({ · with position := progress.position })
  return a

def descend (mark : Mark) (depth : Nat) : Reading Nat :=
  match depth with
  | 0 => throw (.tooDeep mark)
  | depth + 1 => return depth

def keyStep (document : Document) : Reading Step := do
  match ← peek document with
  | (.scalar _ text _, _) => return .field text
  | _ => return .unknown

def atEnd (document : Document) : Reading Bool := do
  match (← peek document).1 with
  | .sequenceEnd | .mappingEnd | .absent => return true
  | _ => return false

end Reading

/-- The result of reading a whole text as one document. -/
def Document.readAll (bytes : List UInt8) (read : Document → Reading α) : Except Error α :=
  let (document, more) := Document.ofBytes bytes
  match (read document).run ⟨0, 0⟩, document.error with
  | .error error, _ => .error error
  | .ok _, some error => .error error
  | .ok (a, _), none => if more then .error .severalDocuments else .ok a

end ApiSuite.Yaml
