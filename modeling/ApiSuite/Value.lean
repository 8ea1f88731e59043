import ApiSuite.Binary64.Basic

/-!
Document values. Strings, sequences, mappings, whole numbers and nulls are recognised through any
number of tags; a field of a mapping is looked up by an untagged string key.
-/

namespace ApiSuite

/-- A document value. A tag is kept without its leading `!`. -/
inductive Value where
  | null
  | bool (b : Bool)
  | int (n : Int)
  | float (x : Binary64)
  | str (s : String)
  | seq (items : List Value)
  | map (entries : List (Value × Value))
  | tagged (tag : String) (content : Value)
  deriving Repr, Inhabited

abbrev Entries := List (Value × Value)

namespace Value

/-- The value below all tags. -/
def untag : Value → Value
  | .tagged _ content => content.untag
  | value => value

def str? (value : Value) : Option String :=
  match value.untag with
  | .str s => some s
  | _ => none

def seq? (value : Value) : Option (List Value) :=
  match value.untag with
  | .seq items => some items
  | _ => none

def map? (value : Value) : Option Entries :=
  match value.untag with
  | .map entries => some entries
  | _ => none

def nat? (value : Value) : Option Nat :=
  match value.untag with
  | .int n => if 0 ≤ n then some n.toNat else none
  | _ => none

def isNull (value : Value) : Bool :=
  match value.untag with
  | .null => true
  | _ => false

/-- Whether the value is the untagged string `name`. -/
def isKey (name : String) : Value → Bool
  | .str s => s == name
  | _ => false

def describe : Value → String
  | .null => "null"
  | .bool _ => "a boolean"
  | .int _ | .float _ => "a number"
  | .str _ => "a string"
  | .seq _ => "a sequence"
  | .map _ => "a mapping"
  | .tagged _ _ => "a tagged value"

mutual

/-- Equality as keys: numbers by value, mappings without regard to the order of their entries. -/
def same : Value → Value → Bool
  | .null, .null => true
  | .bool a, .bool b => a == b
  | .int a, .int b => a == b
  | .float a, .float b => a.same b
  | .str a, .str b => a == b
  | .seq xs, .seq ys => sameItems xs ys
  | .map xs, .map ys => xs.length == ys.length && entriesAmong xs ys
  | .tagged t a, .tagged u b => t == u && a.same b
  | _, _ => false

def sameItems : List Value → List Value → Bool
  | [], [] => true
  | x :: xs, y :: ys => x.same y && sameItems xs ys
  | _, _ => false

def entriesAmong : List (Value × Value) → List (Value × Value) → Bool
  | [], _ => true
  | (key, value) :: rest, entries =>
    entries.any (fun entry => key.same entry.1 && value.same entry.2) && entriesAmong rest entries

end

end Value

namespace Entries

def get? (entries : Entries) (name : String) : Option Value :=
  (entries.find? fun entry => entry.1.isKey name).map (·.2)

/-- The value of a field, an explicit null being no value. -/
def field? (entries : Entries) (name : String) : Option Value :=
  (entries.get? name).filter fun value => !value.isNull

def insert : Entries → Value → Value → Entries
  | [], key, value => [(key, value)]
  | entry :: rest, key, value =>
    if entry.1.same key then (entry.1, value) :: rest else entry :: insert rest key value

end Entries

end ApiSuite
