import ApiSuite.Yaml.Cursor

/-!
The white space between two words of a plain or quoted scalar. Blanks on one line stay as they are.
Blanks around a line break are dropped, a single line feed becomes a space, and of several line feeds
all but the first stay.
-/

namespace ApiSuite.Yaml

/-- White space that has been read: the blanks before the first line break and the further line breaks
in reverse. -/
structure Gap where
  broken : Bool
  blanks : List Char
  firstBreak : List Char
  moreBreaks : List Char

namespace Gap

def empty : Gap :=
  ⟨false, [], [], []⟩

/-- The gap after an escaped line break, which itself leaves nothing. -/
def escapedBreak : Gap :=
  ⟨true, [], [], []⟩

def addBlank (gap : Gap) (c : Char) : Gap :=
  if gap.broken then gap else { gap with blanks := c :: gap.blanks }

def addBreak (gap : Gap) (lineBreak : List Char) : Gap :=
  if gap.broken then { gap with moreBreaks := lineBreak ++ gap.moreBreaks }
  else ⟨true, [], lineBreak, []⟩

def reversedText (gap : Gap) : List Char :=
  if !gap.broken then gap.blanks
  else if gap.firstBreak = ['\n'] then
    if gap.moreBreaks.isEmpty then [' '] else gap.moreBreaks
  else gap.moreBreaks ++ gap.firstBreak

end Gap

/-- Reads white space. After a line break no tab may stand before the column `margin`. -/
def readGap (start : Mark) (margin : Nat) : Nat → Gap → Lexer Gap
  | 0, gap => return gap
  | rounds + 1, gap => do
    let c ← Lexer.peek 0
    if isBlank c then
      if gap.broken && c == '\t' && (← Lexer.mark).column < margin then
        Lexer.fail .tabBelowIndentation .plainScalar start
      Lexer.skip 1
      Lexer.need 1
      readGap start margin rounds (gap.addBlank c)
    else if isBreak c then
      Lexer.need 2
      let lineBreak ← Lexer.takeBreak
      Lexer.need 1
      readGap start margin rounds (gap.addBreak lineBreak)
    else return gap

end ApiSuite.Yaml
