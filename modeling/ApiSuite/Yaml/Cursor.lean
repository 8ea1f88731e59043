import ApiSuite.Yaml.Source

/-!
A place in the characters of a text, and the steps by which lexemes are read from it. Past the end
stands the character NUL, which no text contains.
-/

namespace ApiSuite.Yaml

/-- The character that stands past the end. -/
def textEnd : Char :=
  '\x00'

def isBlank (c : Char) : Bool :=
  c == ' ' || c == '\t'

def isBreak (c : Char) : Bool :=
  c == '\n' || c == '\r' || c == '\x85' || c == '\u2028' || c == '\u2029'

def isLineEnd (c : Char) : Bool :=
  isBreak c || c == textEnd

def isBoundary (c : Char) : Bool :=
  isBlank c || isLineEnd c

def isWordChar (c : Char) : Bool :=
  c.isAlphanum || c == '_' || c == '-'

/-- The characters still to be read, the place of the first, and the fault that follows the last. -/
structure Cursor where
  rest : List Char
  mark : Mark
  fault : Option ReadFault

namespace Cursor

def ofSource (source : Source) : Cursor :=
  ⟨source.chars, .start, source.fault⟩

def peek (cursor : Cursor) (n : Nat) : Char :=
  cursor.rest.getD n textEnd

/-- Moves over `n` characters that are no line breaks. -/
def advance (cursor : Cursor) (n : Nat) : Cursor :=
  { cursor with rest := cursor.rest.drop n, mark := cursor.mark.advance n }

/-- Moves over a line break, if one stands here. It reads as a line feed, unless it is one of the
separators, which stay. -/
def takeBreak (cursor : Cursor) : List Char × Cursor :=
  let next (read : Char) (width : Nat) :=
    ([read], { cursor with rest := cursor.rest.drop width, mark := cursor.mark.nextLine width })
  match cursor.rest with
  | '\r' :: '\n' :: _ => next '\n' 2
  | '\u2028' :: _ => next '\u2028' 1
  | '\u2029' :: _ => next '\u2029' 1
  | c :: _ => if isBreak c then next '\n' 1 else ([], cursor)
  | [] => ([], cursor)

end Cursor

abbrev Lexer := StateT Cursor (Except TextError)

namespace Lexer

/-- Makes sure that `n` characters can be looked at. The end of the text is no hindrance, a fault is. -/
def need (n : Nat) : Lexer Unit := do
  let cursor ← get
  match cursor.fault with
  | some fault => if (cursor.rest.take n).length < n then throw (.unreadable fault.cause fault.offset)
  | none => return

def peek (n : Nat) : Lexer Char :=
  return (← get).peek n

def mark : Lexer Mark :=
  return (← get).mark

/-- A number of rounds that no loop exceeds which reads a character in each. -/
def rounds : Lexer Nat :=
  return (← get).rest.length + 1

def skip (n : Nat) : Lexer Unit :=
  modify (·.advance n)

def takeBreak : Lexer (List Char) :=
  modifyGet (·.takeBreak)

def skipBreak : Lexer Unit :=
  discard takeBreak

def takeWhile (p : Char → Bool) : Lexer (List Char) := do
  let taken := (← get).rest.takeWhile p
  skip taken.length
  need 1
  return taken

def skipWhile (p : Char → Bool) : Lexer Unit :=
  discard (takeWhile p)

def skipComment : Lexer Unit := do
  if (← peek 0) == '#' then skipWhile (!isLineEnd ·)

def fail (problem : Problem) (activity : Activity) (start : Mark) : Lexer α := do
  throw (.ungrammatical problem (← mark) (some ⟨activity, start⟩))

def failHere (problem : Problem) : Lexer α := do
  throw (.ungrammatical problem (← mark) none)

def atIndicator (c : Char) : Lexer Bool := do
  let cursor ← get
  return cursor.mark.column == 0 && cursor.peek 0 == c && cursor.peek 1 == c &&
    cursor.peek 2 == c && isBoundary (cursor.peek 3)

def atDocumentIndicator : Lexer Bool :=
  return (← atIndicator '-') || (← atIndicator '.')

end Lexer

end ApiSuite.Yaml
