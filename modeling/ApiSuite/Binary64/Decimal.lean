import ApiSuite.Binary64.Basic

/-!
Between double-precision numbers and decimal digits. Reading rounds to the nearest number, ties
to the even one; writing takes the fewest digits that read back, and the nearest of those.
-/

namespace ApiSuite

structure Decimal where
  digits : Nat
  exponent : Int
  deriving DecidableEq, Repr

def powerRatio (base : Nat) (exponent : Int) : Nat × Nat :=
  (Nat.pow base exponent.toNat, Nat.pow base (-exponent).toNat)

def roundHalfEven (num den : Nat) : Nat :=
  let quotient := num / den
  let rest := 2 * (num % den)
  if rest < den || (rest == den && quotient % 2 == 0) then quotient else quotient + 1

namespace Binary64

def ofRatio (negative : Bool) (num den : Nat) : Binary64 :=
  let estimate : Int := max ((Nat.log2 num : Int) - Nat.log2 den - 53) (-1074)
  let quotientAt (scale : Int) : Nat × Nat :=
    let (up, down) := powerRatio 2 scale
    (num * down, den * up)
  let (n, d) := quotientAt estimate
  let scale := if 2 * exponentWeight ≤ n / d then estimate + 1 else estimate
  let (n, d) := quotientAt scale
  let rounded := roundHalfEven n d
  let magnitude := rounded + (scale + 1074).toNat * exponentWeight
  if 2047 * exponentWeight ≤ magnitude then infinity negative else ofFields negative magnitude

/-- The number nearest to a decimal. Far outside the range of exponents the answer is known without
computing the power. -/
def ofDecimal (negative : Bool) (d : Decimal) : Binary64 :=
  let point : Int := (Nat.toDigits 10 d.digits).length + d.exponent
  if d.digits = 0 || point < -330 then ofFields negative 0
  else if 310 < point then infinity negative
  else
    let (up, down) := powerRatio 10 d.exponent
    ofRatio negative (d.digits * up) down

/-- The multiple of `10 ^ exponent` that reads back as `x` and lies nearest to it, if one does. All is
counted in quarters of `x`'s last place, where the neighbours' midpoints are whole. -/
def onGrid? (x : Binary64) (exponent : Int) : Option Nat :=
  let m := x.significand
  let (twoUp, twoDown) := powerRatio 2 (x.scale - 2)
  let (tenUp, tenDown) := powerRatio 10 exponent
  let place := twoUp * tenDown
  let step := tenUp * twoDown
  let value := 4 * m * place
  let low := (4 * m - if x.fraction = 0 && 1 < x.biased then 1 else 2) * place
  let high := (4 * m + 2) * place
  let readsBack (c : Nat) : Bool :=
    if m % 2 = 0 then low ≤ c * step && c * step ≤ high else low < c * step && c * step < high
  let below := value / step
  let above := below + 1
  match readsBack below, readsBack above with
  | true, true =>
    let down := value - below * step
    let up := above * step - value
    some (if down < up || (down == up && below % 2 == 0) then below else above)
  | true, false => some below
  | false, true => some above
  | false, false => none

def coarsest (x : Binary64) : Nat → Int → Decimal
  | 0, exponent => ⟨0, exponent⟩
  | fuel + 1, exponent =>
    match x.onGrid? exponent with
    | some digits => ⟨digits, exponent⟩
    | none => coarsest x fuel (exponent - 1)

def shortest (x : Binary64) : Decimal :=
  if x.significand = 0 then ⟨0, 0⟩
  else coarsest x 32 (((Nat.log2 x.significand + 1 + x.scale) * 3).fdiv 10 + 3)

end Binary64

/-- How a finite number is laid out: which positions of the decimal point are written without an
exponent, and what stands before an exponent that is not negative. -/
structure NumberStyle where
  plain : Int → Bool
  exponentSign : String

private def zeros (n : Nat) : List Char :=
  List.replicate n '0'

def Decimal.text (style : NumberStyle) (d : Decimal) : String :=
  let digits := Nat.toDigits 10 d.digits
  let point : Int := digits.length + d.exponent
  if style.plain point then
    String.ofList <|
      if 0 ≤ d.exponent then digits ++ zeros d.exponent.toNat ++ ['.', '0']
      else if 0 < point then digits.take point.toNat ++ '.' :: digits.drop point.toNat
      else '0' :: '.' :: zeros (-point).toNat ++ digits
  else
    let leading := digits.take 1 ++ if digits.length = 1 then [] else '.' :: digits.drop 1
    let exponent := point - 1
    String.ofList leading ++ "e" ++ (if exponent < 0 then "" else style.exponentSign) ++
      toString exponent

def Binary64.text (style : NumberStyle) (x : Binary64) : String :=
  (if x.isNegative then "-" else "") ++ x.shortest.text style

end ApiSuite
