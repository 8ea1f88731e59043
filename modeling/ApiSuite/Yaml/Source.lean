import ApiSuite.Yaml.Error

/-!
From bytes to characters. The text is read in blocks of sixteen thousand bytes, and a fault in a
block hides all of it: the characters of the block are never seen, so the fault is met as soon as a
character past the blocks before is asked for. Only a character that is cut off by the end of the
text leaves those before it readable.
-/

namespace ApiSuite.Yaml

structure ReadFault where
  cause : Unreadable
  offset : Nat
  deriving DecidableEq, Repr

structure Source where
  chars : List Char
  fault : Option ReadFault

def blockSize : Nat :=
  16384

def sequenceLength (byte : Nat) : Nat :=
  if byte < 0x80 then 1
  else if byte < 0xC0 then 0
  else if byte < 0xE0 then 2
  else if byte < 0xF0 then 3
  else if byte < 0xF8 then 4
  else 0

def leadingBits (length byte : Nat) : Nat :=
  if length = 1 then byte else byte % (0x80 >>> length)

def isTrailing (byte : Nat) : Bool :=
  0x80 ≤ byte && byte < 0xC0

/-- The code that the trailing bytes complete, or the number of the first byte that is none. -/
def trailingCode (code : Nat) (position : Nat) : List Nat → Except Nat Nat
  | [] => .ok code
  | byte :: rest =>
    if isTrailing byte then trailingCode (code * 64 + byte % 64) (position + 1) rest
    else .error position

def leastCode : Nat → Nat
  | 2 => 0x80
  | 3 => 0x800
  | 4 => 0x10000
  | _ => 0

def isSurrogate (code : Nat) : Bool :=
  0xD800 ≤ code && code ≤ 0xDFFF

/-- The characters that may stand in a text: no control characters but tab, line breaks and the next-line
mark. -/
def isAllowed (code : Nat) : Bool :=
  code == 0x09 || code == 0x0A || code == 0x0D || (0x20 ≤ code && code ≤ 0x7E) || code == 0x85 ||
    (0xA0 ≤ code && code ≤ 0xFFFD) || 0x10000 ≤ code

def readChar (offset length : Nat) (bytes : List Nat) : Except ReadFault Char :=
  match bytes.take length with
  | [] => .error ⟨.leadingOctet, offset⟩
  | first :: trailing =>
    match trailingCode (leadingBits length first) 1 trailing with
    | .error position => .error ⟨.trailingOctet, offset + position⟩
    | .ok code =>
      if code < leastCode length then .error ⟨.overlong, offset⟩
      else if isSurrogate code || 0x10FFFF < code then .error ⟨.notScalarValue, offset⟩
      else if isAllowed code then .ok (Char.ofNat code)
      else .error ⟨.controlCharacter, offset⟩

/-- Where reading stands: the bytes left, the places of the first of them, of the end of its block and of
the end of the text, and the characters of this block and of those before, both in reverse. -/
structure Decoding where
  bytes : List Nat
  offset : Nat
  blockEnd : Nat
  textEnd : Nat
  block : List Char
  before : List Char

namespace Decoding

def nextBlock (state : Decoding) : Decoding :=
  { state with
    blockEnd := state.offset + blockSize
    block := []
    before := state.block ++ state.before }

def source (state : Decoding) (fault : Option ReadFault) : Source :=
  ⟨state.before.reverse, fault⟩

/-- Reads to the end of the bytes. Each round reads a character or opens a block, so there are at most
two for a byte. -/
def run : Nat → Decoding → Source
  | 0, state => state.nextBlock.source none
  | fuel + 1, state =>
    match state.bytes with
    | [] => state.nextBlock.source none
    | first :: _ =>
      if state.blockEnd ≤ state.offset then run fuel state.nextBlock
      else
        let length := sequenceLength first
        if state.blockEnd < state.offset + length && state.blockEnd < state.textEnd then
          run fuel state.nextBlock
        else if state.textEnd < state.offset + length then
          state.nextBlock.source (some ⟨.incomplete, state.offset⟩)
        else
          match readChar state.offset length state.bytes with
          | .error fault => state.source (some fault)
          | .ok c =>
            run fuel
              { state with
                bytes := state.bytes.drop length
                offset := state.offset + length
                block := c :: state.block }

end Decoding

def Source.ofBytes (bytes : List UInt8) : Source :=
  Decoding.run (2 * bytes.length + 1) ⟨bytes.map (·.toNat), 0, blockSize, bytes.length, [], []⟩

end ApiSuite.Yaml
