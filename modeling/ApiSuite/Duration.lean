import ApiSuite.Text.Digit

/-!
Durations such as `250ms`, `5s` or `1m30s`: one or more groups, each a number followed by a unit.
The `m` of a group is read together with an `s` right after it, since no group starts with a unit.
-/

namespace ApiSuite.Duration

inductive Scale where
  | milliseconds
  | seconds
  | minutes
  | hours
  deriving DecidableEq, Repr

def Scale.text : Scale → List Char
  | .milliseconds => ['m', 's']
  | .seconds => ['s']
  | .minutes => ['m']
  | .hours => ['h']

structure Group where
  digits : List Char
  unit : Scale
  deriving DecidableEq, Repr

def Scale.ofChar? : Char → Option Scale
  | 's' => some .seconds
  | 'm' => some .minutes
  | 'h' => some .hours
  | _ => none

/-- Closes a group whose digits were collected in reverse; a group without digits is none. -/
def closeGroup (digits : List Char) (unit : Scale) (groups : List Group) : Option (List Group) :=
  if digits.isEmpty then none else some (⟨digits.reverse, unit⟩ :: groups)

/-- Reads groups to the end of the text, after the digits of an open group in reverse. -/
def readGroups? (digits : List Char) : List Char → Option (List Group)
  | [] => if digits.isEmpty then some [] else none
  | 'm' :: 's' :: rest => readGroups? [] rest >>= closeGroup digits .milliseconds
  | c :: rest =>
    if Text.isDigit c then readGroups? (c :: digits) rest
    else Scale.ofChar? c >>= fun unit => readGroups? [] rest >>= closeGroup digits unit

def groups? (text : List Char) : Option (List Group) :=
  (readGroups? [] text).filter (!·.isEmpty)

end ApiSuite.Duration

namespace ApiSuite

def isDuration (s : String) : Bool :=
  (Duration.groups? s.toList).isSome

end ApiSuite
