import ApiSuite.Text.Hex
import ApiSuite.Yaml.Lexeme.Gap

/-!
Quoted scalars. In single quotes a quote is written twice; in double quotes a backslash begins an
escape sequence, or joins a line to the next one.
-/

namespace ApiSuite.Yaml

inductive Quote where
  | single
  | double
  deriving DecidableEq, Repr

def Quote.char : Quote → Char
  | .single => '\''
  | .double => '"'

def escapedChar? : Char → Option Char
  | '0' => some '\x00'
  | 'a' => some '\x07'
  | 'b' => some '\x08'
  | 't' => some '\t'
  | '\t' => some '\t'
  | 'n' => some '\n'
  | 'v' => some '\x0b'
  | 'f' => some '\x0c'
  | 'r' => some '\r'
  | 'e' => some '\x1b'
  | ' ' => some ' '
  | '"' => some '"'
  | '/' => some '/'
  | '\\' => some '\\'
  | 'N' => some '\x85'
  | '_' => some '\xa0'
  | 'L' => some '\u2028'
  | 'P' => some '\u2029'
  | _ => none

def escapedDigits? : Char → Option Nat
  | 'x' => some 2
  | 'u' => some 4
  | 'U' => some 8
  | _ => none

def readEscape (start : Mark) : Lexer Char := do
  let letter ← Lexer.peek 1
  match escapedChar? letter, escapedDigits? letter with
  | some c, _ =>
    Lexer.skip 2
    return c
  | none, some count =>
    Lexer.skip 2
    Lexer.need count
    let cursor ← get
    match Text.hexNumber? ((List.range count).map cursor.peek) with
    | some code =>
      if isSurrogate code || 0x10FFFF < code then Lexer.fail .notScalarValue .escapeSequence start
      Lexer.skip count
      return Char.ofNat code
    | none => Lexer.fail .noHexDigit .escapeSequence start
  | none, none => Lexer.fail .unknownEscape .escapeSequence start

/-- Reads characters onto `word`, in reverse, up to white space or the closing quote. Also says whether
it was left past an escaped line break. -/
def readQuotedWord (quote : Quote) (start : Mark) : Nat → List Char → Lexer (List Char × Gap)
  | 0, word => return (word, .empty)
  | rounds + 1, word => do
    let c ← Lexer.peek 0
    let next ← Lexer.peek 1
    if isBoundary c then return (word, .empty)
    else if quote = .single && c == '\'' && next == '\'' then
      Lexer.skip 2
      Lexer.need 2
      readQuotedWord quote start rounds (c :: word)
    else if c == quote.char then return (word, .empty)
    else if quote = .double && c == '\\' && isBreak next then
      Lexer.need 3
      Lexer.skip 1
      Lexer.skipBreak
      return (word, .escapedBreak)
    else if quote = .double && c == '\\' then
      let escaped ← readEscape start
      Lexer.need 2
      readQuotedWord quote start rounds (escaped :: word)
    else
      Lexer.skip 1
      Lexer.need 2
      readQuotedWord quote start rounds (c :: word)

def readQuotedWords (quote : Quote) (start : Mark) : Nat → List Char → Lexer (List Char)
  | 0, text => return text
  | rounds + 1, text => do
    Lexer.need 4
    if (← Lexer.atDocumentIndicator) then Lexer.fail .documentIndicator .quotedScalar start
    if (← Lexer.peek 0) == textEnd then Lexer.fail .endOfStream .quotedScalar start
    Lexer.need 2
    let (text, gap) ← readQuotedWord quote start (← Lexer.rounds) text
    Lexer.need 1
    if (← Lexer.peek 0) == quote.char then return text
    let gap ← readGap start 0 (← Lexer.rounds) gap
    readQuotedWords quote start rounds (gap.reversedText ++ text)

def readQuoted (quote : Quote) : Lexer String := do
  let start ← Lexer.mark
  Lexer.skip 1
  let text ← readQuotedWords quote start (← Lexer.rounds) []
  Lexer.skip 1
  return String.ofList text.reverse

end ApiSuite.Yaml
