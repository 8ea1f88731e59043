import ApiSuite.Yaml.Token.Basic

/-!
The events of a YAML text: its nodes in order, with the start and the end of each collection and of
each document. Some nodes are not written but understood, as an empty scalar where a value is left out.
-/

namespace ApiSuite.Yaml

structure Tag where
  octets : List UInt8
  deriving DecidableEq, Repr

structure Properties where
  anchor : Option String
  tag : Option Tag
  deriving DecidableEq, Repr

inductive Event where
  | streamStart
  | streamEnd
  | documentStart
  | documentEnd
  | alias (name : String)
  | scalar (properties : Properties) (text : String) (style : ScalarStyle)
  | sequenceStart (properties : Properties)
  | sequenceEnd
  | mappingStart (properties : Properties)
  | mappingEnd
  deriving DecidableEq, Repr

inductive Expect where
  | stream
  | document (first : Bool)
  | content
  | contentEnd
  | blockNode
  | blockItem
  | indentlessItem
  | blockKey
  | blockValue
  | flowItem (first : Bool)
  | pairKey
  | pairValue
  | pairEnd
  | flowKey (first : Bool)
  | flowValue
  | noFlowValue
  | nothing
  deriving DecidableEq, Repr

structure TagHandle where
  handle : List Char
  start : List UInt8
  deriving DecidableEq, Repr

def defaultHandles : List TagHandle :=
  [⟨['!'], asciiOctets ['!']⟩, ⟨['!', '!'], asciiOctets "tag:yaml.org,2002:".toList⟩]

/-- The tokens left and the error behind them, what is expected now and after the nodes that are open, the
places where the open collections began, and the handles of the document. -/
structure Grammar where
  tokens : List Token
  error : Option TextError
  expect : Expect
  after : List Expect
  openings : List Mark
  handles : List TagHandle

abbrev Parse := StateT Grammar (Except TextError)

namespace Parse

/-- The next token. Past the last one the stream has ended, unless an error stopped the scan. -/
def peek : Parse Token := do
  let grammar ← get
  match grammar.tokens, grammar.error with
  | token :: _, _ => return token
  | [], some error => throw error
  | [], none => return ⟨.streamEnd, .start, .start⟩

def skip : Parse Unit :=
  modify fun grammar => { grammar with tokens := grammar.tokens.drop 1 }

def expect (expect : Expect) : Parse Unit :=
  modify ({ · with expect })

def afterNode (expect : Expect) : Parse Unit :=
  modify fun grammar => { grammar with after := expect :: grammar.after }

def complete : Parse Unit :=
  modify fun grammar =>
    match grammar.after with
    | [] => { grammar with expect := .nothing }
    | expect :: after => { grammar with expect, after }

def openCollection : Parse Unit := do
  let token ← peek
  modify fun grammar => { grammar with openings := token.start :: grammar.openings }
  skip

def closeCollection (event : Event) : Parse (Event × Mark) := do
  let token ← peek
  complete
  modify fun grammar => { grammar with openings := grammar.openings.drop 1 }
  skip
  return (event, token.start)

def fail (problem : Problem) (context : Option Context) : Parse α := do
  throw (.ungrammatical problem (← peek).start context)

def failIn (activity : Activity) (problem : Problem) : Parse α := do
  let opening := (← get).openings.head?.getD .start
  fail problem (some ⟨activity, opening⟩)

def emptyScalar (mark : Mark) : Parse (Event × Mark) :=
  return (.scalar ⟨none, none⟩ "" .plain, mark)

def addHandle (mark : Mark) (handle : TagHandle) : Parse Unit := do
  if (← get).handles.any (·.handle == handle.handle) then
    throw (.ungrammatical .repeatedTagHandle mark none)
  modify fun grammar => { grammar with handles := grammar.handles ++ [handle] }

/-- Reads directives. There is at most one of a version, which must be 1.1 or 1.2. -/
def directives : Nat → Bool → Parse Unit
  | 0, _ => return
  | rounds + 1, versionGiven => do
    let token ← peek
    match token.lexeme with
    | .directive (.version major minor) =>
      if versionGiven then fail .repeatedVersion none
      if major != 1 || (minor != 1 && minor != 2) then fail .foreignVersion none
      skip
      directives rounds true
    | .directive (.tag handle start) =>
      addHandle token.start ⟨handle, start⟩
      skip
      directives rounds versionGiven
    | _ => return

def documentDirectives : Parse Unit := do
  modify ({ · with handles := [] })
  directives (← get).tokens.length false
  modify fun grammar => { grammar with handles := grammar.handles ++ defaultHandles }

def skipDocumentEnds : Parse Unit :=
  modify fun grammar =>
    { grammar with tokens := grammar.tokens.dropWhile (·.lexeme == .documentEnd) }

def isDirective : Lexeme → Bool
  | .directive _ => true
  | _ => false

/-- The start of a document, or the end of the stream. Only the first document may begin without a
marker. -/
def document (first : Bool) : Parse (Event × Mark) := do
  if !first then skipDocumentEnds
  let token ← peek
  let explicit := isDirective token.lexeme || token.lexeme == .documentStart
  if token.lexeme == .streamEnd then
    expect .nothing
    skip
    return (.streamEnd, token.start)
  documentDirectives
  if first && !explicit then
    afterNode .contentEnd
    expect .blockNode
    return (.documentStart, token.start)
  if (← peek).lexeme != .documentStart then fail .noDocumentStart none
  afterNode .contentEnd
  expect .content
  skip
  return (.documentStart, token.start)

def contentEnd : Parse (Event × Mark) := do
  let token ← peek
  if token.lexeme == .documentEnd then skip
  expect (.document false)
  return (.documentEnd, token.start)

def anchor : Parse (Option String) := do
  match (← peek).lexeme with
  | .anchor name =>
    skip
    return some name
  | _ => return none

def tagName : Parse (Option (TagName × Mark)) := do
  let token ← peek
  match token.lexeme with
  | .tag name =>
    skip
    return some (name, token.start)
  | _ => return none

def resolveTag (nodeStart : Mark) (name : TagName) (mark : Mark) : Parse Tag := do
  if name.handle.isEmpty then return ⟨name.suffix⟩
  match (← get).handles.find? (·.handle == name.handle) with
  | some handle => return ⟨handle.start ++ name.suffix⟩
  | none => throw (.ungrammatical .unknownTagHandle mark (some ⟨.node, nodeStart⟩))

def properties : Parse Properties := do
  let start := (← peek).start
  let first ← anchor
  let tag ← tagName
  let anchor ← if first.isSome || tag.isNone then pure first else anchor
  discard peek
  match tag with
  | some (name, mark) => return ⟨anchor, some (← resolveTag start name mark)⟩
  | none => return ⟨anchor, none⟩

def collection (event : Event) (first : Expect) (start : Mark) : Parse (Event × Mark) := do
  expect first
  return (event, start)

/-- A node, with properties or an alias. Where a block collection may stand on the level of its key,
`indentless` holds. -/
def node (block indentless : Bool) : Parse (Event × Mark) := do
  let start := (← peek).start
  match (← peek).lexeme with
  | .alias name =>
    complete
    skip
    return (.alias name, start)
  | _ =>
    let properties ← properties
    match (← peek).lexeme, block with
    | .scalar text style, _ =>
      complete
      skip
      return (.scalar properties text style, start)
    | .flowSequenceStart, _ =>
      openCollection
      collection (.sequenceStart properties) (.flowItem true) start
    | .flowMappingStart, _ =>
      openCollection
      collection (.mappingStart properties) (.flowKey true) start
    | .blockSequenceStart, true =>
      openCollection
      collection (.sequenceStart properties) .blockItem start
    | .blockMappingStart, true =>
      openCollection
      collection (.mappingStart properties) .blockKey start
    | lexeme, _ =>
      if indentless && lexeme == .blockEntry then
        collection (.sequenceStart properties) .indentlessItem start
      else if properties.anchor.isSome || properties.tag.isSome then
        complete
        return (.scalar properties "" .plain, start)
      else fail .noNodeContent (some ⟨if block then .blockNode else .flowNode, start⟩)

/-- A node, or an empty scalar at `mark` where one of the lexemes follows that no node begins with. -/
def nodeUnless (stops : List Lexeme) (block indentless : Bool) (next : Expect) (mark : Mark) :
    Parse (Event × Mark) := do
  if stops.contains (← peek).lexeme then
    expect next
    emptyScalar mark
  else
    afterNode next
    node block indentless

def content : Parse (Event × Mark) := do
  let token ← peek
  if isDirective token.lexeme ||
      [.documentStart, .documentEnd, .streamEnd].contains token.lexeme then
    complete
    emptyScalar token.start
  else node true false

def blockItem : Parse (Event × Mark) := do
  let token ← peek
  match token.lexeme with
  | .blockEntry =>
    skip
    nodeUnless [.blockEntry, .blockEnd] true false .blockItem token.stop
  | .blockEnd => closeCollection .sequenceEnd
  | _ => failIn .blockCollection .noDash

def indentlessItem : Parse (Event × Mark) := do
  let token ← peek
  match token.lexeme with
  | .blockEntry =>
    skip
    nodeUnless [.blockEntry, .key, .value, .blockEnd] true false .indentlessItem token.stop
  | _ =>
    complete
    return (.sequenceEnd, token.start)

def blockKey : Parse (Event × Mark) := do
  let token ← peek
  match token.lexeme with
  | .key =>
    skip
    nodeUnless [.key, .value, .blockEnd] true true .blockValue token.stop
  | .blockEnd => closeCollection .mappingEnd
  | _ => failIn .blockMapping .noKey

def blockValue : Parse (Event × Mark) := do
  let token ← peek
  match token.lexeme with
  | .value =>
    skip
    nodeUnless [.key, .value, .blockEnd] true true .blockKey token.stop
  | _ =>
    expect .blockKey
    emptyScalar token.start

def comma (first : Bool) (closing : Lexeme) (activity : Activity) (problem : Problem) :
    Parse Unit := do
  let token ← peek
  if !first && token.lexeme != closing then
    if token.lexeme == .flowEntry then skip else failIn activity problem

def flowItem (first : Bool) : Parse (Event × Mark) := do
  comma first .flowSequenceEnd .flowSequence .noCommaOrBracket
  let token ← peek
  match token.lexeme with
  | .key =>
    expect .pairKey
    skip
    return (.mappingStart ⟨none, none⟩, token.start)
  | .flowSequenceEnd => closeCollection .sequenceEnd
  | _ =>
    afterNode (.flowItem false)
    node false false

/-- The key of a pair that stands alone in a sequence. Where there is none, the token there is left out. -/
def pairKey : Parse (Event × Mark) := do
  let token ← peek
  if [.value, .flowEntry, .flowSequenceEnd].contains token.lexeme then
    skip
    expect .pairValue
    emptyScalar token.stop
  else
    afterNode .pairValue
    node false false

def pairValue : Parse (Event × Mark) := do
  let token ← peek
  if token.lexeme == .value then
    skip
    nodeUnless [.flowEntry, .flowSequenceEnd] false false .pairEnd (← peek).start
  else
    expect .pairEnd
    emptyScalar token.start

def pairEnd : Parse (Event × Mark) := do
  expect (.flowItem false)
  return (.mappingEnd, (← peek).start)

def flowKey (first : Bool) : Parse (Event × Mark) := do
  comma first .flowMappingEnd .flowMapping .noCommaOrBrace
  match (← peek).lexeme with
  | .key =>
    skip
    nodeUnless [.value, .flowEntry, .flowMappingEnd] false false .flowValue (← peek).start
  | .flowMappingEnd => closeCollection .mappingEnd
  | _ =>
    afterNode .noFlowValue
    node false false

def flowValue : Parse (Event × Mark) := do
  let token ← peek
  if token.lexeme == .value then
    skip
    nodeUnless [.flowEntry, .flowMappingEnd] false false (.flowKey false) (← peek).start
  else
    expect (.flowKey false)
    emptyScalar token.start

def noFlowValue : Parse (Event × Mark) := do
  expect (.flowKey false)
  emptyScalar (← peek).start

def stream : Parse (Event × Mark) := do
  let token ← peek
  expect (.document true)
  skip
  return (.streamStart, token.start)

def next : Parse (Event × Mark) := do
  match (← get).expect with
  | .stream => stream
  | .document first => document first
  | .content => content
  | .contentEnd => contentEnd
  | .blockNode => node true false
  | .blockItem => blockItem
  | .indentlessItem => indentlessItem
  | .blockKey => blockKey
  | .blockValue => blockValue
  | .flowItem first => flowItem first
  | .pairKey => pairKey
  | .pairValue => pairValue
  | .pairEnd => pairEnd
  | .flowKey first => flowKey first
  | .flowValue => flowValue
  | .noFlowValue => noFlowValue
  | .nothing => return (.streamEnd, (← peek).start)

def all : Nat → Grammar → List (Event × Mark) × Option TextError
  | 0, _ => ([], none)
  | rounds + 1, grammar =>
    match next.run grammar with
    | .error error => ([], some error)
    | .ok (event, grammar) =>
      if event.1 = .streamEnd then ([event], none)
      else
        let (events, error) := all rounds grammar
        (event :: events, error)

end Parse

/-- The events of a text, up to the error at which no more can be had. No token brings more than four. -/
def Event.ofTokens (tokens : List Token) (error : Option TextError) :
    List (Event × Mark) × Option TextError :=
  Parse.all (4 * tokens.length + 8)
    { tokens, error, expect := .stream, after := [], openings := [], handles := [] }

end ApiSuite.Yaml
