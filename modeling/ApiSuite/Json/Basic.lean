import ApiSuite.Binary64.Decimal
import ApiSuite.Text.Quoted

/-!
JSON documents and their text, in one line or with one value a line.
-/

namespace ApiSuite

/-- A JSON document. The members of an object stand in order and may repeat a key. -/
inductive Json where
  | null
  | bool (b : Bool)
  | int (n : Int)
  | real (x : Binary64)
  | str (s : String)
  | arr (items : List Json)
  | obj (members : List (String × Json))
  deriving Repr, Inhabited

namespace Json

/-- Numbers are written out up to sixteen digits before the point and four zeros after it; a larger
exponent has a plus sign. -/
def numberStyle : NumberStyle :=
  ⟨fun point => -5 < point && point ≤ 16, "+"⟩

def escapeChar (c : Char) : List Char :=
  if c = '"' then ['\\', '"']
  else if c = '\\' then ['\\', '\\']
  else if c = '\x08' then ['\\', 'b']
  else if c = '\t' then ['\\', 't']
  else if c = '\n' then ['\\', 'n']
  else if c = '\x0c' then ['\\', 'f']
  else if c = '\r' then ['\\', 'r']
  else if c.toNat < 16 then ['\\', 'u', '0', '0', '0'] ++ Text.hex c.toNat
  else if c.toNat < 32 then ['\\', 'u', '0', '0'] ++ Text.hex c.toNat
  else [c]

def stringText (s : String) : List Char :=
  '"' :: s.toList.flatMap escapeChar ++ ['"']

/-- The text of a value that holds no other; what is no finite number is written as null. -/
def scalarText : Json → List Char
  | .bool true => ['t', 'r', 'u', 'e']
  | .bool false => ['f', 'a', 'l', 's', 'e']
  | .int n => (toString n).toList
  | .real x => if x.isFinite then (x.text numberStyle).toList else ['n', 'u', 'l', 'l']
  | .str s => stringText s
  | _ => ['n', 'u', 'l', 'l']

def commaSeparated : List (List Char) → List Char
  | [] => []
  | [part] => part
  | part :: rest => part ++ ',' :: commaSeparated rest

mutual

def compact : Json → List Char
  | .arr items => '[' :: commaSeparated (compactItems items) ++ [']']
  | .obj members => '\x7b' :: commaSeparated (compactMembers members) ++ ['\x7d']
  | scalar => scalarText scalar

def compactItems : List Json → List (List Char)
  | [] => []
  | item :: rest => item.compact :: compactItems rest

def compactMembers : List (String × Json) → List (List Char)
  | [] => []
  | (key, value) :: rest => (stringText key ++ ':' :: value.compact) :: compactMembers rest

end

def newLine (level : Nat) : List Char :=
  '\n' :: List.replicate (2 * level) ' '

def block (level : Nat) (opening closing : Char) (parts : List (List Char)) : List Char :=
  if parts.isEmpty then [opening, closing]
  else
    opening :: commaSeparated (parts.map (newLine (level + 1) ++ ·)) ++ newLine level ++ [closing]

mutual

def pretty (level : Nat) : Json → List Char
  | .arr items => block level '[' ']' (prettyItems (level + 1) items)
  | .obj members => block level '\x7b' '\x7d' (prettyMembers (level + 1) members)
  | scalar => scalarText scalar

def prettyItems (level : Nat) : List Json → List (List Char)
  | [] => []
  | item :: rest => item.pretty level :: prettyItems level rest

def prettyMembers (level : Nat) : List (String × Json) → List (List Char)
  | [] => []
  | (key, value) :: rest =>
    (stringText key ++ ':' :: ' ' :: value.pretty level) :: prettyMembers level rest

end

def line (json : Json) : String :=
  String.ofList json.compact

def page (json : Json) : String :=
  String.ofList (json.pretty 0)

end Json

end ApiSuite
