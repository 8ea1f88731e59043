import ApiSuite.Yaml.Lexeme.Gap

/-!
Plain scalars: words without quotes. They end before a colon that ends a word, before a comment, where
a line is indented too little, and inside brackets before the characters that structure these.
-/

namespace ApiSuite.Yaml

def isFlowIndicator (c : Char) : Bool :=
  c == ',' || c == '[' || c == ']' || c == '\x7b' || c == '\x7d'

def readPlainWord (inFlow : Bool) (start : Mark) : Nat → List Char → Lexer (List Char)
  | 0, word => return word
  | rounds + 1, word => do
    let c ← Lexer.peek 0
    let next ← Lexer.peek 1
    if isBoundary c then return word
    else if inFlow && c == ':' && (isFlowIndicator next || next == '?') then
      Lexer.fail .colonInFlow .plainScalar start
    else if (c == ':' && isBoundary next) || (inFlow && isFlowIndicator c) then return word
    else
      Lexer.skip 1
      Lexer.need 2
      readPlainWord inFlow start rounds (c :: word)

/-- Reads words onto `text`, which is in reverse and ends with `gap`. Also says whether the scalar was
left after a line break. -/
def readPlainWords (inFlow : Bool) (margin : Nat) (start : Mark) :
    Nat → List Char → Gap → Lexer (List Char × Bool)
  | 0, text, gap => return (text, gap.broken)
  | rounds + 1, text, gap => do
    Lexer.need 4
    if (← Lexer.atDocumentIndicator) || (← Lexer.peek 0) == '#' then return (text, gap.broken)
    let word ← readPlainWord inFlow start (← Lexer.rounds) []
    let (text, gap) :=
      if word.isEmpty then (text, gap) else (word ++ gap.reversedText ++ text, .empty)
    let c ← Lexer.peek 0
    if !isBlank c && !isBreak c then return (text, gap.broken)
    Lexer.need 1
    let gap ← readGap start margin (← Lexer.rounds) gap
    if !inFlow && (← Lexer.mark).column < margin then return (text, gap.broken)
    readPlainWords inFlow margin start rounds text gap

/-- Reads a plain scalar whose lines must reach the column `margin` outside brackets. Also says whether
a line break was read after its last word. -/
def readPlain (inFlow : Bool) (margin : Nat) : Lexer (String × Bool) := do
  let (text, broken) ← readPlainWords inFlow margin (← Lexer.mark) (← Lexer.rounds) [] .empty
  return (String.ofList text.reverse, broken)

end ApiSuite.Yaml
