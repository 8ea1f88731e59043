import ApiSuite.Yaml.Reading

/-!
The value that a document spells.
-/

namespace ApiSuite.Yaml

def Found.value : Found → Except BadValue Value
  | .unit => .ok .null
  | .bool b => .ok (.bool b)
  | .int n => .ok (.int n)
  | .float x => .ok (.float x)
  | .text s => .ok (.str s)
  | found => .error (.mistyped found .anyValue)

def withTag (name : Option String) (value : Value) : Value :=
  match name with
  | some name => .tagged name value
  | none => value

def shownTag (tag : Option Tag) (tagSeen : Bool) : Option String :=
  if tagSeen then none else tag >>= Tag.name?

namespace Reading

mutual

/-- Reads a node. If `tagSeen` holds, its tag is of no account: so it is for the keys of a tagged mapping.
The first number bounds the recursion. -/
def value (document : Document) : Nat → Trail → Nat → Bool → Reading Value
  | 0, _, _, _ => throw .tooManyAliases
  | fuel + 1, trail, depth, tagSeen => do
    let (part, mark) ← next document
    match part with
    | .alias anchor => follow document anchor (value document fuel trail depth false)
    | .scalar tag text style =>
      let name := shownTag tag tagSeen
      let found ← orBad trail mark (scalarValue tag text style (tagSeen || name.isSome))
      withTag name <$> orBad trail mark found.value
    | .sequenceStart tag =>
      let depth ← descend mark depth
      withTag (shownTag tag tagSeen) <$> .seq <$> items document fuel trail depth 0
    | .mappingStart tag =>
      let name := shownTag tag tagSeen
      let depth ← descend mark depth
      withTag name <$> .map <$> entries document fuel trail depth (tagSeen || name.isSome) mark []
    | .sequenceEnd | .mappingEnd | .absent => return .null

def items (document : Document) : Nat → Trail → Nat → Nat → Reading (List Value)
  | 0, _, _, _ => throw .tooManyAliases
  | fuel + 1, trail, depth, index => do
    if ← atEnd document then
      skip
      return []
    let item ← value document fuel (.item index :: trail) depth false
    return item :: (← items document fuel trail depth (index + 1))

/-- Reads the entries of a mapping that began at `mark`, after those in `before`, which are in reverse. No
key may be repeated. -/
def entries (document : Document) : Nat → Trail → Nat → Bool → Mark → Entries → Reading Entries
  | 0, _, _, _, _, _ => throw .tooManyAliases
  | fuel + 1, trail, depth, tagSeen, mark, before => do
    if ← atEnd document then
      skip
      return before.reverse
    let step ← keyStep document
    let key ← value document fuel trail depth tagSeen
    match before.find? (·.1.same key) with
    | some entry => bad trail mark (.repeatedKey entry.1)
    | none =>
      let value ← value document fuel (step :: trail) depth false
      entries document fuel trail depth tagSeen mark ((key, value) :: before)

end

/-- Enough for the recursion: each level of depth has at most as many values as the document has parts. -/
def fuel (document : Document) : Nat :=
  (depthLimit + 2) * (document.parts.size + 4)

end Reading

/-- The value of the one document of a text. -/
def compose (bytes : List UInt8) : Except Error Value :=
  Document.readAll bytes fun document =>
    Reading.value document (Reading.fuel document) [] depthLimit false

end ApiSuite.Yaml
