import ApiSuite.Text.Hex
import ApiSuite.Yaml.Cursor

/-!
Tags and anchors. A tag is written in full between angle brackets, or as a handle between exclamation
marks and a suffix. Octets outside ASCII are written as escapes, so a tag is a list of octets.
-/

namespace ApiSuite.Yaml

/-- The characters that stand for themselves in a tag. -/
def isUriChar (c : Char) : Bool :=
  isWordChar c || [';', '/', '?', ':', '@', '&', '=', '+', '$', '.', '!', '~', '*', '\'', '(', ')'].contains c

/-- The characters that also do between angle brackets and in directives. -/
def isVerbatimUriChar (c : Char) : Bool :=
  isUriChar c || c == ',' || c == '[' || c == ']'

def octet (c : Char) : UInt8 :=
  UInt8.ofNat c.toNat

def asciiOctets (cs : List Char) : List UInt8 :=
  cs.map octet

def readOctet (activity : Activity) (start : Mark) : Lexer Nat := do
  Lexer.need 3
  let cursor ← get
  match cursor.peek 0 == '%', Text.hexNumber? [cursor.peek 1, cursor.peek 2] with
  | true, some number => return number
  | _, _ => Lexer.fail .noUriEscape activity start

def readTrailingOctets (activity : Activity) (start : Mark) : Nat → Lexer (List UInt8)
  | 0 => return []
  | count + 1 => do
    let number ← readOctet activity start
    if !isTrailing number then Lexer.fail .uriTrailingOctet activity start
    Lexer.skip 3
    return UInt8.ofNat number :: (← readTrailingOctets activity start count)

def readEscapedChar (activity : Activity) (start : Mark) : Lexer (List UInt8) := do
  let number ← readOctet activity start
  let length := sequenceLength number
  if length = 0 then Lexer.fail .uriLeadingOctet activity start
  Lexer.skip 3
  return UInt8.ofNat number :: (← readTrailingOctets activity start (length - 1))

def readUri (isOwn : Char → Bool) (activity : Activity) (start : Mark) : Nat → Lexer (List UInt8)
  | 0 => return []
  | rounds + 1 => do
    Lexer.need 1
    let c ← Lexer.peek 0
    if c == '%' then
      let first ← readEscapedChar activity start
      return first ++ (← readUri isOwn activity start rounds)
    else if isOwn c then
      Lexer.skip 1
      return octet c :: (← readUri isOwn activity start rounds)
    else return []

/-- The octets before the first that is zero, which ends a tag's text. -/
def untilZero (octets : List UInt8) : List UInt8 :=
  octets.takeWhile (· != 0)

def readSomeUri (isOwn : Char → Bool) (activity : Activity) (start : Mark) : Lexer (List UInt8) := do
  let uri ← readUri isOwn activity start (← Lexer.rounds)
  if uri.isEmpty then Lexer.fail .noTagUri activity start
  return untilZero uri

/-- Reads an exclamation mark and the word after it, up to a second mark if there is one. -/
def readHandle (activity : Activity) (start : Mark) : Lexer (List Char) := do
  Lexer.need 1
  if (← Lexer.peek 0) != '!' then Lexer.fail .noHandleEnd activity start
  Lexer.skip 1
  let word ← Lexer.takeWhile isWordChar
  if (← Lexer.peek 0) == '!' then
    Lexer.skip 1
    return '!' :: word ++ ['!']
  return '!' :: word

/-- A tag as written: a handle, empty for a tag in full, and what follows it. -/
structure TagName where
  handle : List Char
  suffix : List UInt8
  deriving DecidableEq, Repr

def isFullHandle (handle : List Char) : Bool :=
  2 ≤ handle.length && handle.getLast? == some '!'

/-- Reads a tag, its exclamation mark standing here. A lone mark is a tag of its own. -/
def readTag (inFlow : Bool) : Lexer TagName := do
  let start ← Lexer.mark
  Lexer.need 2
  let tag ← if (← Lexer.peek 1) == '<' then do
      Lexer.skip 2
      let uri ← readSomeUri isVerbatimUriChar .tagUri start
      if (← Lexer.peek 0) != '>' then Lexer.fail .noTagEnd .tag start
      Lexer.skip 1
      pure ⟨[], uri⟩
    else do
      let handle ← readHandle .tag start
      if isFullHandle handle then pure ⟨handle, ← readSomeUri isUriChar .tagUri start⟩
      else
        let rest ← readUri isUriChar .tagUri start (← Lexer.rounds)
        let uri := asciiOctets (handle.drop 1) ++ untilZero rest
        pure (if uri.isEmpty then ⟨[], [octet '!']⟩ else ⟨['!'], uri⟩)
  Lexer.need 1
  let c ← Lexer.peek 0
  if !isBoundary c && !(inFlow && c == ',') then Lexer.fail .noBlankOrBreak .tag start
  return tag

def endsAnchor (c : Char) : Bool :=
  isBoundary c || ['?', ':', ',', ']', '\x7d', '%', '@', '\x60'].contains c

def readAnchorName (activity : Activity) : Lexer String := do
  let start ← Lexer.mark
  Lexer.skip 1
  let name ← Lexer.takeWhile isWordChar
  if name.isEmpty || !endsAnchor (← Lexer.peek 0) then Lexer.fail .noAnchorName activity start
  return String.ofList name

end ApiSuite.Yaml
