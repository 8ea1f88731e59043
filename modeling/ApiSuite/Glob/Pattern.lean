/-!
Patterns for names. A question mark stands for any character, a star for any run of them, two stars
for whole components of a path, and brackets for one character of a set.
-/

namespace ApiSuite.Glob

structure Span where
  first : Char
  last : Char
  deriving DecidableEq, Repr

def Span.has (span : Span) (c : Char) : Bool :=
  span.first ≤ c && c ≤ span.last

inductive Token where
  | char (c : Char)
  | anyChar
  | oneOf (spans : List Span)
  | noneOf (spans : List Span)
  | anyRun
  | anyComponents
  deriving DecidableEq, Repr

abbrev Pattern := List Token

inductive Fault where
  | manyStars
  | partialComponent
  | badRange
  deriving DecidableEq, Repr

def Fault.message : Fault → String
  | .manyStars => "wildcards are either regular \x60*\x60 or recursive \x60**\x60"
  | .partialComponent => "recursive wildcards must form a single path component"
  | .badRange => "invalid range pattern"

/-- What is wrong with a pattern, and near which of its characters. -/
structure Error where
  position : Nat
  fault : Fault
  deriving DecidableEq, Repr

def Error.message (error : Error) : String :=
  "Pattern syntax error near position " ++ toString error.position ++ ": " ++ error.fault.message

def spans : List Char → List Span
  | first :: '-' :: last :: rest => ⟨first, last⟩ :: spans rest
  | c :: rest => ⟨c, c⟩ :: spans rest
  | [] => []

/-- The text up to a closing bracket, which may not come first, and what follows. -/
def bracketed? : List Char → Option (List Char × List Char)
  | [] => none
  | c :: rest =>
    match rest.dropWhile (· != ']') with
    | [] => none
    | _ :: after => some (c :: rest.takeWhile (· != ']'), after)

theorem length_eq_of_bracketed? {cs inside after : List Char} (h : bracketed? cs = some (inside, after)) :
    cs.length = inside.length + after.length + 1 := by
  unfold bracketed? at h
  split at h
  · cases h
  · rename_i rest
    split at h
    · cases h
    · rename_i hafter
      cases h
      have := congrArg List.length (List.takeWhile_append_dropWhile (p := (· != ']')) (l := rest))
      simp only [hafter, List.length_append, List.length_cons] at this ⊢
      omega

def set? (cs : List Char) : Option (Token × List Char) :=
  match cs with
  | '!' :: rest => (bracketed? rest).map fun (inside, after) => (.noneOf (spans inside), after)
  | cs => (bracketed? cs).map fun (inside, after) => (.oneOf (spans inside), after)

theorem length_lt_of_set? {cs after : List Char} {token : Token} (h : set? cs = some (token, after)) :
    after.length < cs.length := by
  unfold set? at h
  split at h <;>
  · obtain ⟨⟨inside, after⟩, hinside, heq⟩ := Option.map_eq_some_iff.1 h
    cases heq
    have := length_eq_of_bracketed? hinside
    simp only [List.length_cons] at *
    omega

/-- Reads a pattern from the character at `position` on, which comes after `before`. -/
def Pattern.read (before : Option Char) (position : Nat) (cs : List Char) : Except Error Pattern :=
  match cs with
  | [] => .ok []
  | '?' :: rest => do return .anyChar :: (← read '?' (position + 1) rest)
  | '*' :: '*' :: '*' :: _ => .error ⟨position + 2, .manyStars⟩
  | '*' :: '*' :: rest =>
    if before.all (· == '/') then
      match rest with
      | [] => .ok [.anyComponents]
      | '/' :: rest => do return .anyComponents :: (← read '/' (position + 3) rest)
      | _ => .error ⟨position + 2, .partialComponent⟩
    else .error ⟨position - 1, .partialComponent⟩
  | '*' :: rest => do return .anyRun :: (← read '*' (position + 1) rest)
  | '[' :: rest =>
    match h : set? rest with
    | none => .error ⟨position, .badRange⟩
    | some (token, after) =>
      have := length_lt_of_set? h
      do return token :: (← read ']' (position + 1 + (rest.length - after.length)) after)
  | c :: rest => do return .char c :: (← read c (position + 1) rest)
termination_by cs.length

def Pattern.ofText? (text : String) : Except Error Pattern :=
  Pattern.read none 0 text.toList

def suffixes : List Char → List (List Char)
  | [] => [[]]
  | c :: rest => (c :: rest) :: suffixes rest

def componentSuffixes (cs : List Char) : List (List Char) :=
  cs :: afterSlashes cs ++ [[]]
where
  afterSlashes : List Char → List (List Char)
    | [] => []
    | c :: rest => if c = '/' then rest :: afterSlashes rest else afterSlashes rest

/-- The texts that may be left once a token has taken its share. -/
def Token.rests : Token → List Char → List (List Char)
  | .anyRun, cs => suffixes cs
  | .anyComponents, cs => componentSuffixes cs
  | _, [] => []
  | .anyChar, _ :: rest => [rest]
  | .char c, d :: rest => if c = d then [rest] else []
  | .oneOf spans, c :: rest => if spans.any (·.has c) then [rest] else []
  | .noneOf spans, c :: rest => if spans.any (·.has c) then [] else [rest]

def Pattern.fits : Pattern → List Char → Bool
  | [], cs => cs.isEmpty
  | token :: pattern, cs => (token.rests cs).any (Pattern.fits pattern)

end ApiSuite.Glob
