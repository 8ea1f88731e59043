import ApiSuite.Yaml.Cursor

/-!
Block scalars: indented lines after `|`, which keeps their line breaks, or after `>`, which folds them.
The header may give the depth of the indentation, and say whether line breaks at the end are dropped,
kept, or, without a sign, reduced to one.
-/

namespace ApiSuite.Yaml

inductive Chomping where
  | strip
  | clip
  | keep
  deriving DecidableEq, Repr

def chomping? : Char → Option Chomping
  | '+' => some .keep
  | '-' => some .strip
  | _ => none

def readChomping : Lexer (Option Chomping) := do
  match chomping? (← Lexer.peek 0) with
  | some chomping =>
    Lexer.skip 1
    return some chomping
  | none => return none

def readIncrement (start : Mark) : Lexer Nat := do
  let c ← Lexer.peek 0
  if !c.isDigit then return 0
  if c == '0' then Lexer.fail .zeroIndentation .blockScalar start
  Lexer.skip 1
  return c.toNat - '0'.toNat

def readBlockHeader (start : Mark) : Lexer (Chomping × Nat) := do
  Lexer.need 1
  match ← readChomping with
  | some chomping =>
    Lexer.need 1
    return (chomping, ← readIncrement start)
  | none =>
    let increment ← readIncrement start
    if increment = 0 then return (.clip, 0)
    Lexer.need 1
    return ((← readChomping).getD .clip, increment)

/-- Reads empty lines and the indentation after them onto `breaks`, in reverse. An `indent` of zero is
still to be found out: it will be the depth of the deepest of these lines, but at least `least`. -/
def readBlockBreaks (start : Mark) (least : Nat) :
    Nat → Nat → Nat → List Char → Lexer (Nat × List Char)
  | 0, indent, _, breaks => return (indent, breaks)
  | rounds + 1, indent, deepest, breaks => do
    let cursor ← get
    let spaces := (cursor.rest.takeWhile (· == ' ')).length
    Lexer.skip (if indent = 0 then spaces else min spaces (indent - cursor.mark.column))
    Lexer.need 1
    let column := (← Lexer.mark).column
    let deepest := max deepest column
    let c ← Lexer.peek 0
    if (indent = 0 || column < indent) && c == '\t' then
      Lexer.fail .tabForIndentation .blockScalar start
    if isBreak c then
      Lexer.need 2
      let lineBreak ← Lexer.takeBreak
      readBlockBreaks start least rounds indent deepest (lineBreak ++ breaks)
    else return (if indent = 0 then max deepest least else indent, breaks)

/-- The text so far and the line breaks that wait for the next line, all in reverse. -/
structure BlockText where
  text : List Char
  firstBreak : List Char
  moreBreaks : List Char
  afterBlank : Bool

/-- The text with its waiting line breaks before a line that does or does not begin with a blank. Between
two lines that do not, folding turns a single line break into a space and drops the first of several. -/
def BlockText.joined (block : BlockText) (folded blank : Bool) : List Char :=
  let firstBreak :=
    if folded && block.firstBreak = ['\n'] && !block.afterBlank && !blank then
      if block.moreBreaks.isEmpty then [' '] else []
    else block.firstBreak
  block.moreBreaks ++ firstBreak ++ block.text

def readBlockLines (folded : Bool) (start : Mark) (least indent : Nat) :
    Nat → BlockText → Lexer BlockText
  | 0, block => return block
  | rounds + 1, block => do
    let c ← Lexer.peek 0
    if (← Lexer.mark).column != indent || c == textEnd then return block
    let line ← Lexer.takeWhile (!isLineEnd ·)
    Lexer.need 2
    let firstBreak ← Lexer.takeBreak
    let (_, moreBreaks) ← readBlockBreaks start least (← Lexer.rounds) indent 0 []
    readBlockLines folded start least indent rounds
      ⟨line.reverse ++ block.joined folded (isBlank c), firstBreak, moreBreaks, isBlank c⟩

def readBlock (folded : Bool) (margin : Nat) : Lexer String := do
  let start ← Lexer.mark
  Lexer.skip 1
  let (chomping, increment) ← readBlockHeader start
  Lexer.need 1
  Lexer.skipWhile isBlank
  Lexer.skipComment
  if !isLineEnd (← Lexer.peek 0) then Lexer.fail .noCommentOrBreak .blockScalar start
  if isBreak (← Lexer.peek 0) then
    Lexer.need 2
    Lexer.skipBreak
  let indent := if increment = 0 then 0 else margin - 1 + increment
  let least := max margin 1
  let (indent, breaks) ← readBlockBreaks start least (← Lexer.rounds) indent 0 []
  Lexer.need 1
  let block ← readBlockLines folded start least indent (← Lexer.rounds) ⟨[], [], breaks, false⟩
  let ending := match chomping with
    | .strip => []
    | .clip => block.firstBreak
    | .keep => block.moreBreaks ++ block.firstBreak
  return String.ofList (ending ++ block.text).reverse

end ApiSuite.Yaml
