import ApiSuite.Yaml.Lexeme.Block
import ApiSuite.Yaml.Lexeme.Plain
import ApiSuite.Yaml.Lexeme.Quoted
import ApiSuite.Yaml.Token.Basic

/-!
From characters to tokens.

That a node is the key of a mapping shows only at the colon after it. So the scanner remembers where
such a node began and, at the colon, inserts the key token there. A node stays a candidate on its own
line for at most 1024 characters. While it is one, no token from it on is final; if the scan fails then,
the tokens before it are all that can be used.
-/

namespace ApiSuite.Yaml

/-- A node that may turn out to be a key: the number of its first token, its place, and whether it stands
where a block mapping goes on, so that it has to be one. -/
structure KeyCandidate where
  number : Nat
  mark : Mark
  required : Bool

def keyReach : Nat :=
  1024

/-- The state of a scan. `margin` is the first column inside the innermost block collection, zero outside
of all, and `margins` are those around it. `candidate` belongs to the innermost flow collection, or
to the block level, and `outerCandidates` has one place for each level around it. -/
structure Scanner where
  cursor : Cursor
  reversed : List Token
  count : Nat
  margin : Nat
  margins : List Nat
  candidate : Option KeyCandidate
  outerCandidates : List (Option KeyCandidate)
  keyAllowed : Bool

abbrev Scan := StateT Scanner (Except TextError)

namespace Scanner

def inFlow (scanner : Scanner) : Bool :=
  !scanner.outerCandidates.isEmpty

def push (scanner : Scanner) (token : Token) : Scanner :=
  { scanner with reversed := token :: scanner.reversed, count := scanner.count + 1 }

def insertAt (scanner : Scanner) (number : Nat) (token : Token) : Scanner :=
  let (later, earlier) := scanner.reversed.splitAt (scanner.count - number)
  { scanner with reversed := later ++ token :: earlier, count := scanner.count + 1 }

def candidates (scanner : Scanner) : List KeyCandidate :=
  (scanner.candidate :: scanner.outerCandidates).filterMap id

/-- The tokens before every candidate, in their order. -/
def finalTokens (scanner : Scanner) : List Token :=
  let first := scanner.candidates.foldl (fun least key => min least key.number) scanner.count
  (scanner.reversed.drop (scanner.count - first)).reverse

def isDone (scanner : Scanner) : Bool :=
  match scanner.reversed with
  | token :: _ => token.lexeme == .streamEnd
  | [] => false

/-- Opens a block collection at a column, if that is further in than the innermost one. -/
def indent (scanner : Scanner) (column : Nat) (place : Scanner → Token → Scanner) (opening : Lexeme)
    (mark : Mark) : Scanner :=
  if scanner.inFlow || column < scanner.margin then scanner
  else
    { place scanner ⟨opening, mark, mark⟩ with
      margin := column + 1
      margins := scanner.margin :: scanner.margins }

def closeBlocks (limit : Nat) : List Nat → Scanner → Scanner
  | margins, scanner =>
    if scanner.margin ≤ limit then { scanner with margins }
    else
      match margins with
      | [] => scanner
      | outer :: rest =>
        let mark := scanner.cursor.mark
        closeBlocks limit rest { scanner.push ⟨.blockEnd, mark, mark⟩ with margin := outer }

def unindent (scanner : Scanner) (limit : Nat) : Scanner :=
  if scanner.inFlow then scanner else scanner.closeBlocks limit scanner.margins

def key? (scanner : Scanner) : Option KeyCandidate :=
  let mark := scanner.cursor.mark
  if scanner.keyAllowed then
    some ⟨scanner.count, mark, !scanner.inFlow && scanner.margin == mark.column + 1⟩
  else none

end Scanner

namespace Scan

def lexer (read : Lexer α) : Scan α := do
  let scanner ← get
  let (a, cursor) ← read.run scanner.cursor
  set { scanner with cursor }
  return a

def mark : Scan Mark :=
  return (← get).cursor.mark

def allowKey (keyAllowed : Bool) : Scan Unit :=
  modify ({ · with keyAllowed })

def inFlow : Scan Bool :=
  return (← get).inFlow

def noColon (key : KeyCandidate) : Scan α :=
  lexer (Lexer.fail .noColon .simpleKey key.mark)

def dropCandidate : Scan Unit := do
  match (← get).candidate with
  | some key => if key.required then noColon key
  | none => return
  modify ({ · with candidate := none })

def saveCandidate : Scan Unit := do
  match (← get).key? with
  | some key =>
    dropCandidate
    modify ({ · with candidate := some key })
  | none => return

def current (mark : Mark) : Option KeyCandidate → Scan (Option KeyCandidate)
  | none => return none
  | some key =>
    if key.mark.line < mark.line || key.mark.index + keyReach < mark.index then
      if key.required then noColon key else return none
    else return some key

/-- Gives up the candidates that began too far back, from the outermost on. -/
def dropStale : Scan Unit := do
  let scanner ← get
  let outer ← scanner.outerCandidates.reverse.mapM (current scanner.cursor.mark)
  let candidate ← current scanner.cursor.mark scanner.candidate
  modify ({ · with candidate, outerCandidates := outer.reverse })

def emit (lexeme : Lexeme) (start : Mark) : Scan Unit := do
  let stop ← mark
  modify (·.push ⟨lexeme, start, stop⟩)

def emitChars (lexeme : Lexeme) (n : Nat) : Scan Unit := do
  let start ← mark
  lexer (Lexer.skip n)
  emit lexeme start

def emitRead (read : Lexer α) (lexeme : α → Lexeme) : Scan Unit := do
  let start ← mark
  let a ← lexer read
  emit (lexeme a) start

/-- Moves to the next token. In a block a line break makes a key possible again, and where one is possible
a tab is no indentation. -/
def skipToToken : Nat → Scan Unit
  | 0 => return
  | rounds + 1 => do
    lexer (Lexer.need 1)
    let scanner ← get
    if scanner.cursor.mark.index == 0 && scanner.cursor.peek 0 == '\ufeff' then lexer (Lexer.skip 1)
    lexer (Lexer.need 1)
    let tabs := scanner.inFlow || !scanner.keyAllowed
    lexer (Lexer.skipWhile fun c => c == ' ' || (tabs && c == '\t'))
    lexer Lexer.skipComment
    if isBreak (← lexer (Lexer.peek 0)) then
      lexer (Lexer.need 2)
      lexer Lexer.skipBreak
      if !scanner.inFlow then allowKey true
      skipToToken rounds

def startStream : Scan Unit := do
  allowKey true
  emitChars .streamStart 0

def endStream : Scan Unit := do
  let mark ← mark
  if mark.column != 0 then
    modify fun scanner =>
      { scanner with cursor := { scanner.cursor with mark := mark.nextLine 0 } }
  modify (·.unindent 0)
  dropCandidate
  allowKey false
  emitChars .streamEnd 0

def endBlocks : Scan Unit := do
  modify (·.unindent 0)
  dropCandidate
  allowKey false

def scanDirective : Scan Unit := do
  endBlocks
  emitRead readDirective .directive

def scanDocumentIndicator (lexeme : Lexeme) : Scan Unit := do
  endBlocks
  emitChars lexeme 3

def openFlow (lexeme : Lexeme) : Scan Unit := do
  saveCandidate
  modify fun scanner =>
    { scanner with
      candidate := none
      outerCandidates := scanner.candidate :: scanner.outerCandidates }
  allowKey true
  emitChars lexeme 1

def closeFlow (lexeme : Lexeme) : Scan Unit := do
  dropCandidate
  modify fun scanner =>
    match scanner.outerCandidates with
    | [] => scanner
    | candidate :: outerCandidates => { scanner with candidate, outerCandidates }
  allowKey false
  emitChars lexeme 1

def scanFlowEntry : Scan Unit := do
  dropCandidate
  allowKey true
  emitChars .flowEntry 1

/-- Opens a block collection here, for an indicator that needs a line where keys are allowed. -/
def openBlock (problem : Problem) (opening : Lexeme) : Scan Unit := do
  let scanner ← get
  if !scanner.inFlow then
    if !scanner.keyAllowed then lexer (Lexer.failHere problem)
    let mark := scanner.cursor.mark
    set (scanner.indent mark.column Scanner.push opening mark)

def scanBlockEntry : Scan Unit := do
  openBlock .blockEntryHere .blockSequenceStart
  dropCandidate
  allowKey true
  emitChars .blockEntry 1

def scanKey : Scan Unit := do
  openBlock .blockKeyHere .blockMappingStart
  dropCandidate
  allowKey (!(← inFlow))
  emitChars .key 1

/-- At a colon the candidate becomes a key; without one the key is empty. -/
def scanValue : Scan Unit := do
  match (← get).candidate with
  | some key =>
    modify fun scanner =>
      { (scanner.insertAt key.number ⟨.key, key.mark, key.mark⟩).indent key.mark.column
          (·.insertAt key.number) .blockMappingStart key.mark with
        candidate := none
        keyAllowed := false }
  | none =>
    openBlock .blockValueHere .blockMappingStart
    allowKey (!(← inFlow))
  emitChars .value 1

/-- Adds the token of a node, or of a property of one, after which no key may begin on the line. -/
def scanNode (read : Lexer α) (lexeme : α → Lexeme) : Scan Unit := do
  saveCandidate
  allowKey false
  emitRead read lexeme

def scanBlockScalar (style : ScalarStyle) : Scan Unit := do
  dropCandidate
  allowKey true
  emitRead (readBlock (style == .folded) (← get).margin) (.scalar · style)

def scanPlain : Scan Unit := do
  let scanner ← get
  saveCandidate
  allowKey false
  let start ← mark
  let (text, broken) ← lexer (readPlain scanner.inFlow scanner.margin)
  emit (.scalar text .plain) start
  if broken then allowKey true

def startsPlain (inFlow : Bool) (c next : Char) : Bool :=
  let indicators := ['-', '?', ':', ',', '[', ']', '\x7b', '\x7d', '#', '&', '*', '!', '|', '>', '\'', '"',
    '%', '@', '\x60']
  !(isBoundary c || indicators.contains c) ||
    (c == '-' && !isBlank next) ||
    (!inFlow && (c == '?' || c == ':') && !isBoundary next)

def scanNext : Scan Unit := do
  lexer (Lexer.need 1)
  if (← get).count = 0 then startStream
  else
    skipToToken (← lexer Lexer.rounds)
    dropStale
    modify fun scanner => scanner.unindent (scanner.cursor.mark.column + 1)
    lexer (Lexer.need 4)
    let scanner ← get
    let inFlow := scanner.inFlow
    let c := scanner.cursor.peek 0
    let next := scanner.cursor.peek 1
    let indicates := inFlow || isBoundary next
    if c == textEnd then endStream
    else if c == '%' && scanner.cursor.mark.column == 0 then scanDirective
    else if ← lexer (Lexer.atIndicator '-') then scanDocumentIndicator .documentStart
    else if ← lexer (Lexer.atIndicator '.') then scanDocumentIndicator .documentEnd
    else if c == '[' then openFlow .flowSequenceStart
    else if c == '\x7b' then openFlow .flowMappingStart
    else if c == ']' then closeFlow .flowSequenceEnd
    else if c == '\x7d' then closeFlow .flowMappingEnd
    else if c == ',' then scanFlowEntry
    else if c == '-' && isBoundary next then scanBlockEntry
    else if c == '?' && indicates then scanKey
    else if c == ':' && indicates then scanValue
    else if c == '*' then scanNode (readAnchorName .alias) .alias
    else if c == '&' then scanNode (readAnchorName .anchor) .anchor
    else if c == '!' then scanNode (readTag inFlow) .tag
    else if c == '|' && !inFlow then scanBlockScalar .literal
    else if c == '>' && !inFlow then scanBlockScalar .folded
    else if c == '\'' then scanNode (readQuoted .single) (.scalar · .quoted)
    else if c == '"' then scanNode (readQuoted .double) (.scalar · .quoted)
    else if startsPlain inFlow c next then scanPlain
    else lexer (do Lexer.fail .noTokenStart .nextToken (← Lexer.mark))

def scanAll : Nat → Scanner → List Token × Option TextError
  | 0, scanner => (scanner.finalTokens, none)
  | rounds + 1, scanner =>
    if scanner.isDone then (scanner.finalTokens, none)
    else
      match (do scanNext; dropStale : Scan Unit).run scanner with
      | .ok (_, scanner) => scanAll rounds scanner
      | .error error => (scanner.finalTokens, some error)

end Scan

/-- The tokens of a text, up to the error at which no more can be had. Each round but the first and the last
moves over a character. -/
def Token.ofSource (source : Source) : List Token × Option TextError :=
  Scan.scanAll (source.chars.length + 3)
    { cursor := .ofSource source
      reversed := []
      count := 0
      margin := 0
      margins := []
      candidate := none
      outerCandidates := []
      keyAllowed := false }

end ApiSuite.Yaml
