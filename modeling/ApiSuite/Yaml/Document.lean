import ApiSuite.Yaml.Event
import ApiSuite.Yaml.Token.Scan

/-!
The first document of a text, with its aliases resolved to anchors. An anchor is numbered by how many
names had been given before it. A name that is given again keeps its place among them, so the next new
name has the same number, and an alias goes to the last anchor that has the number of its own.
-/

namespace ApiSuite.Yaml

/-- The parts of a document. An alias holds the number of its anchor. -/
inductive Part where
  | alias (anchor : Nat)
  | scalar (tag : Option Tag) (text : String) (style : ScalarStyle)
  | sequenceStart (tag : Option Tag)
  | sequenceEnd
  | mappingStart (tag : Option Tag)
  | mappingEnd
  | absent
  deriving DecidableEq, Repr, Inhabited

/-- The parts with their places, where each anchor stands, and the error that cut the document off. -/
structure Document where
  parts : Array (Part × Mark)
  anchors : List (Nat × Nat)
  error : Option Error

namespace Document

abbrev Names := List (String × Nat)

def empty : Document :=
  ⟨#[], [], none⟩

def push (document : Document) (part : Part) (mark : Mark) : Document :=
  { document with parts := document.parts.push (part, mark) }

def anchor? (document : Document) (number : Nat) : Option Nat :=
  document.anchors.lookup number

def nameNext (document : Document) (names : Names) : Option String → Document × Names
  | none => (document, names)
  | some name =>
    ({ document with anchors := (names.length, document.parts.size) :: document.anchors },
      (name, names.length) :: names.filter (·.1 != name))

/-- Reads the events up to the end of the first document. Also says whether there is another one, be it
well-formed or not. -/
def load (document : Document) (names : Names) (error : Option TextError) :
    List (Event × Mark) → Document × Bool
  | [] => ({ document with error := error.map .badText }, false)
  | (event, mark) :: rest =>
    let go (properties : Properties) (part : Part) :=
      let (document, names) := document.nameNext names properties.anchor
      load (document.push part mark) names error rest
    match event with
    | .streamStart | .documentStart => load document names error rest
    | .streamEnd => (if document.parts.isEmpty then document.push .absent mark else document, false)
    | .documentEnd => (document, (rest.head?.map (·.1)) != some .streamEnd)
    | .alias name =>
      match names.lookup name with
      | some number => load (document.push (.alias number) mark) names error rest
      | none => ({ document with error := some (.unknownAnchor mark) }, false)
    | .scalar properties text style => go properties (.scalar properties.tag text style)
    | .sequenceStart properties => go properties (.sequenceStart properties.tag)
    | .sequenceEnd => load (document.push .sequenceEnd mark) names error rest
    | .mappingStart properties => go properties (.mappingStart properties.tag)
    | .mappingEnd => load (document.push .mappingEnd mark) names error rest

def ofBytes (bytes : List UInt8) : Document × Bool :=
  let (tokens, error) := Token.ofSource (.ofBytes bytes)
  let (events, error) := Event.ofTokens tokens error
  load empty [] error events

end Document

end ApiSuite.Yaml
