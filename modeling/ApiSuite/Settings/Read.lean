import ApiSuite.Settings.Basic
import ApiSuite.Text.Page
import ApiSuite.Yaml.Reading

/-!
The settings in a YAML text. The document is a mapping of known keys, each at most once; a null in
place of a setting leaves it out. Tags that begin with an exclamation mark do not count.
-/

namespace ApiSuite.Settings

open Yaml Yaml.Reading

inductive Field where
  | testPattern
  | root
  | recursive
  | exclude
  deriving DecidableEq, Repr

namespace Field

def all : List Field :=
  [.testPattern, .root, .recursive, .exclude]

def name : Field → String
  | .testPattern => "test_pattern"
  | .root => "root"
  | .recursive => "recursive"
  | .exclude => "exclude"

def ofName? (name : String) : Option Field :=
  all.find? (·.name == name)

end Field

def mistyped (trail : Trail) (mark : Mark) (expected : Expected) : Part → Reading α
  | .scalar tag text style => do
    let found ← orBad trail mark (scalarValue tag text style false)
    bad trail mark (.mistyped found expected)
  | .mappingStart _ => bad trail mark (.mistyped .map expected)
  | _ => bad trail mark (.mistyped .sequence expected)

def readPart (document : Document) (read : Part → Mark → Reading α) : Reading α := do
  let (part, mark) ← next document
  match part with
  | .alias anchor =>
    follow document anchor do
      let (part, mark) ← next document
      read part mark
  | part => read part mark

def readText (document : Document) (trail : Trail) (expected : Expected) : Reading String :=
  readPart document fun part mark =>
    match part with
    | .scalar _ text _ => return text
    | part => mistyped trail mark expected part

/-- A plain word for a boolean; one in a literal block needs the tag. -/
def readBool (document : Document) (trail : Trail) : Reading Bool :=
  readPart document fun part mark =>
    match part with
    | .scalar tag text style =>
      let spelled := style = .plain || (style = .literal && tag.any (·.isCore "bool"))
      match boolWord? text with
      | some b => if spelled then return b else mistyped trail mark .boolean part
      | none => mistyped trail mark .boolean part
    | part => mistyped trail mark .boolean part

def readItems (document : Document) (trail : Trail) : Nat → Nat → Reading (List String)
  | 0, _ => return []
  | rounds + 1, index => do
    if ← atEnd document then
      skip
      return []
    let text ← readText document (.item index :: trail) .text
    return text :: (← readItems document trail rounds (index + 1))

def readTexts (document : Document) (trail : Trail) (depth : Nat) : Reading (List String) :=
  readPart document fun part mark =>
    match part with
    | .sequenceStart _ => do
      discard (descend mark depth)
      readItems document trail (document.parts.size + 1) 0
    | part => mistyped trail mark .sequence part

def isAbsent (tag : Option Tag) (text : String) (style : ScalarStyle) : Except BadValue Bool :=
  if style != .plain then .ok false
  else
    match tag with
    | none => .ok (text.isEmpty || isNullWord text)
    | some tag =>
      if tag.isCore "null" then
        if isNullWord text then .ok true else .error (.notOfTag text .null)
      else .ok text.isEmpty

/-- Reads a setting that may be left out. A wrong null is a fault of the mapping, which began at `start`. -/
def readOption (document : Document) (start : Mark) (read : Reading α) : Reading (Option α) := do
  match ← peek document with
  | (.alias anchor, _) =>
    skip
    follow document anchor do readHere (← peek document).1
  | (part, _) => readHere part
where
  readHere (part : Part) : Reading (Option α) := do
    match part with
    | .scalar tag text style =>
      if ← orBad [] start (isAbsent tag text style) then
        skip
        return none
      else some <$> read
    | .absent => return none
    | _ => some <$> read

def readKey (document : Document) : Reading Field :=
  readPart document fun part mark =>
    match part with
    | .scalar _ text _ =>
      match Field.ofName? text with
      | some field => return field
      | none => bad [] mark (.unknownField text (Field.all.map (·.name)))
    | part => mistyped [] mark .fieldName part

def readValue (document : Document) (start : Mark) (depth : Nat) (trail : Trail)
    (settings : PartialSettings) : Field → Reading PartialSettings
  | .testPattern => do
    let testPattern ← readOption document start (readText document trail .text)
    return { settings with testPattern }
  | .root => do
    let root ← readOption document start (readText document trail .path)
    return { settings with root }
  | .recursive => do
    let recursive ← readOption document start (readBool document trail)
    return { settings with recursive }
  | .exclude => do
    let exclude ← readOption document start (readTexts document trail depth)
    return { settings with exclude }

def readFields (document : Document) (start : Mark) (depth : Nat) :
    Nat → List Field → PartialSettings → Reading PartialSettings
  | 0, _, settings => return settings
  | rounds + 1, seen, settings => do
    if ← atEnd document then
      skip
      return settings
    let step ← keyStep document
    let field ← readKey document
    if field ∈ seen then bad [] start (.repeatedField field.name)
    let settings ← readValue document start depth [step] settings field
    readFields document start depth rounds (field :: seen) settings

/-- The settings of a document. One that is empty has none. -/
def readDocument (document : Document) : Reading PartialSettings :=
  readPart document fun part mark =>
    match part with
    | .mappingStart _ => do
      let depth ← descend mark depthLimit
      readFields document mark depth (document.parts.size + 1) [] .none
    | .absent | .scalar _ "" .plain => return .none
    | part => mistyped [] mark .settings part

/-- The settings in the bytes of a file, those left out being the default ones. -/
def ofBytes (bytes : List UInt8) : Except Yaml.Error Settings :=
  (·.resolve .default) <$> Document.readAll bytes readDocument

/-- The settings file that comes with the program. -/
def shipped : List UInt8 :=
  asciiOctets (Text.page [
    "# Default discovery settings for stepcheck.",
    "# Place a .stepcheck.yaml in your project to override any of these.",
    "test_pattern: \"*.suite.\x7byaml,yml\x7d\"",
    "recursive: true",
    "exclude:",
    "  - target",
    "  - node_modules",
    "  - .git"]).toList

end ApiSuite.Settings
