import ApiSuite.Yaml.Error
import ApiSuite.Yaml.Event

/-!
What a scalar stands for. A plain scalar may spell a null, a boolean or a number; a tag of the core set
asks for one of these; all other scalars are text.
-/

namespace ApiSuite.Yaml

/-- The words for null. An empty plain scalar is null too. -/
def isNullWord (s : String) : Bool :=
  ["null", "Null", "NULL", "~"].contains s

def boolWord? (s : String) : Option Bool :=
  if ["true", "True", "TRUE"].contains s then some true
  else if ["false", "False", "FALSE"].contains s then some false
  else none

def digitValue? (radix : Nat) (c : Char) : Option Nat :=
  (Text.hexValue? c).filter (· < radix)

def natural? (radix : Nat) (digits : List Char) : Option Nat :=
  if digits.isEmpty then none
  else digits.foldlM (fun number c => (number * radix + ·) <$> digitValue? radix c) 0

/-- Digits after a leading zero, which make no number, with or without a sign. -/
def isPadded : List Char → Bool
  | '-' :: '0' :: rest | '+' :: '0' :: rest | '0' :: rest =>
    !rest.isEmpty && rest.all Char.isDigit
  | _ => false

def marked? : List Char → Option Nat
  | '0' :: 'x' :: rest => natural? 16 rest
  | '0' :: 'o' :: rest => natural? 8 rest
  | '0' :: 'b' :: rest => natural? 2 rest
  | _ => none

def unsigned? (scalar : List Char) : Option Nat :=
  if isPadded scalar then none else natural? 10 scalar

def integer? : List Char → Option Int
  | '-' :: rest => ((marked? rest).or (unsigned? rest)).map fun n => -n
  | '+' :: rest => ((marked? rest).or (unsigned? rest)).map Int.ofNat
  | scalar => ((marked? scalar).or (unsigned? scalar)).map Int.ofNat

/-- The whole numbers that are values: those of sixty-four bits, with or without a sign. -/
def isSmall (n : Int) : Bool :=
  -0x8000000000000000 ≤ n && n ≤ 0xFFFFFFFFFFFFFFFF

/-- The whole numbers that are recognised as such: those of a hundred and twenty-eight bits. -/
def isWide (n : Int) : Bool :=
  -0x80000000000000000000000000000000 ≤ n && n ≤ 0xFFFFFFFFFFFFFFFFFFFFFFFFFFFFFFFF

def exponent? : List Char → Option Int
  | [] => some 0
  | e :: rest =>
    if e != 'e' && e != 'E' then none
    else
      match rest with
      | '-' :: digits => (natural? 10 digits).map fun n => -n
      | '+' :: digits => (natural? 10 digits).map Int.ofNat
      | digits => (natural? 10 digits).map Int.ofNat

def decimal? (scalar : List Char) : Option Decimal := do
  let whole := scalar.takeWhile Char.isDigit
  let rest := scalar.drop whole.length
  let (fraction, rest) :=
    match rest with
    | '.' :: rest => (rest.takeWhile Char.isDigit, rest.dropWhile Char.isDigit)
    | _ => ([], rest)
  let digits ← natural? 10 (whole ++ fraction)
  return ⟨digits, (← exponent? rest) - fraction.length⟩

def infinityWords : List String :=
  [".inf", ".Inf", ".INF"]

def nanWords : List String :=
  [".nan", ".NaN", ".NAN"]

def finite? (negative : Bool) (scalar : List Char) : Option Binary64 :=
  (decimal? scalar).map (Binary64.ofDecimal negative) |>.filter (·.isFinite)

def float? (scalar : List Char) : Option Binary64 :=
  if nanWords.contains (String.ofList scalar) then some .nan
  else
    let (negative, magnitude) :=
      match scalar with
      | '-' :: rest => (true, rest)
      | '+' :: rest => (false, rest)
      | _ => (false, scalar)
    if infinityWords.contains (String.ofList magnitude) then some (.infinity negative)
    else finite? negative magnitude

def plainValue (s : String) : Found :=
  if s.isEmpty || isNullWord s then .unit
  else
    match boolWord? s with
    | some b => .bool b
    | none =>
      let chars := s.toList
      match (integer? chars).filter isWide with
      | some n => if isSmall n then .int n else .wideInt n
      | none =>
        if isPadded chars then .text s
        else
          match float? chars with
          | some x => .float x
          | none => .text s

namespace Tag

def isCore (tag : Tag) (name : String) : Bool :=
  tag.octets == asciiOctets ("tag:yaml.org,2002:" ++ name).toList

/-- The text without an exclamation mark at its start, unless that is all of it. -/
def unmarked : List Char → List Char
  | '!' :: c :: rest => c :: rest
  | text => text

/-- The name of a tag that is shown with its value: one that begins with an exclamation mark, which is not
part of the name. A second mark is not either. -/
def name? (tag : Tag) : Option String :=
  match (String.fromUTF8? ⟨tag.octets.toArray⟩).map String.toList with
  | some ('!' :: rest) => some (String.ofList (unmarked (unmarked ('!' :: rest))))
  | _ => none

def isLocal (tag : Tag) : Bool :=
  tag.octets.head? == some (octet '!')

end Tag

def coreValue? (tag : Tag) (s : String) : Option (Except BadValue Found) :=
  let orNot (expected : Expected) (found : Option Found) : Except BadValue Found :=
    match found with
    | some found => .ok found
    | none => .error (.notOfTag s expected)
  if tag.isCore "bool" then some (orNot .boolean ((boolWord? s).map .bool))
  else if tag.isCore "int" then
    some (orNot .integer (((integer? s.toList).filter isWide).map fun n =>
      if isSmall n then .int n else .wideInt n))
  else if tag.isCore "float" then some (orNot .float ((float? s.toList).map .float))
  else if tag.isCore "null" then some (orNot .null (if isNullWord s then some .unit else none))
  else none

/-- What a scalar is, its tag being of no account if `tagSeen` holds. -/
def scalarValue (tag : Option Tag) (s : String) (style : ScalarStyle) (tagSeen : Bool) :
    Except BadValue Found :=
  match if tagSeen then none else tag with
  | none => .ok (if style = .plain then plainValue s else .text s)
  | some tag =>
    match coreValue? tag s with
    | some result => result
    | none => .ok (if style = .plain && tag.isLocal then plainValue s else .text s)

end ApiSuite.Yaml
