import ApiSuite.Yaml.Lexeme.Tag

/-!
Directives: lines before a document that give the version of the language or name a handle for tags.
-/

namespace ApiSuite.Yaml

inductive Directive where
  | version (major minor : Nat)
  | tag (handle : List Char) (start : List UInt8)
  deriving DecidableEq, Repr

def readDirectiveName (start : Mark) : Lexer (List Char) := do
  let name ← Lexer.takeWhile isWordChar
  if name.isEmpty then Lexer.fail .noDirectiveName .directive start
  if !isBoundary (← Lexer.peek 0) then Lexer.fail .nonAlphabetic .directive start
  return name

def readVersionNumber (start : Mark) : Lexer Nat := do
  let digits := (← get).rest.takeWhile Char.isDigit
  Lexer.skip (min digits.length 9)
  Lexer.need 1
  if 9 < digits.length then Lexer.fail .longVersion .versionDirective start
  if digits.isEmpty then Lexer.fail .noVersionNumber .versionDirective start
  return digits.foldl (fun number c => number * 10 + (c.toNat - '0'.toNat)) 0

def readVersion (start : Mark) : Lexer Directive := do
  Lexer.skipWhile isBlank
  let major ← readVersionNumber start
  if (← Lexer.peek 0) != '.' then Lexer.fail .noVersionDot .versionDirective start
  Lexer.skip 1
  return .version major (← readVersionNumber start)

def readTagDirective (start : Mark) : Lexer Directive := do
  Lexer.skipWhile isBlank
  let handle ← readHandle .tagDirectiveHandle start
  if handle != ['!'] && !isFullHandle handle then
    Lexer.fail .noHandleEnd .tagDirectiveHandleEnd start
  Lexer.need 1
  if !isBlank (← Lexer.peek 0) then Lexer.fail .noBlank .tagDirective start
  Lexer.skipWhile isBlank
  let uri ← readSomeUri isVerbatimUriChar .tagDirectiveUri start
  Lexer.need 1
  if !isBoundary (← Lexer.peek 0) then Lexer.fail .noBlankOrBreak .tagDirective start
  return .tag handle uri

def readDirective : Lexer Directive := do
  let start ← Lexer.mark
  Lexer.skip 1
  let name ← readDirectiveName start
  let directive ←
    if name = ['Y', 'A', 'M', 'L'] then readVersion start
    else if name = ['T', 'A', 'G'] then readTagDirective start
    else Lexer.fail .unknownDirective .directive start
  Lexer.need 1
  Lexer.skipWhile isBlank
  Lexer.skipComment
  if !isLineEnd (← Lexer.peek 0) then Lexer.fail .noCommentOrBreak .directive start
  if isBreak (← Lexer.peek 0) then
    Lexer.need 2
    Lexer.skipBreak
  return directive

end ApiSuite.Yaml
