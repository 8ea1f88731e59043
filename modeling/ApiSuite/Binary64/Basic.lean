/-!
Double-precision numbers by their sixty-four bits: sign, eleven bits of exponent, fifty-two bits
of fraction. A finite number is `significand · 2 ^ scale`, with its sign.
-/

namespace ApiSuite

structure Binary64 where
  bits : UInt64
  deriving DecidableEq, Repr, Inhabited

namespace Binary64

def signWeight : Nat :=
  0x8000000000000000

def exponentWeight : Nat :=
  0x10000000000000

def isNegative (x : Binary64) : Bool :=
  signWeight ≤ x.bits.toNat

def biased (x : Binary64) : Nat :=
  x.bits.toNat / exponentWeight % 2048

def fraction (x : Binary64) : Nat :=
  x.bits.toNat % exponentWeight

def isNaN (x : Binary64) : Bool :=
  x.biased == 2047 && x.fraction != 0

def isInfinite (x : Binary64) : Bool :=
  x.biased == 2047 && x.fraction == 0

def isFinite (x : Binary64) : Bool :=
  x.biased != 2047

def significand (x : Binary64) : Nat :=
  if x.biased = 0 then x.fraction else exponentWeight + x.fraction

def scale (x : Binary64) : Int :=
  max x.biased 1 - 1075

/-- Equality as numbers, except that all that is not a number is one. -/
def same (x y : Binary64) : Bool :=
  if x.isNaN || y.isNaN then x.isNaN && y.isNaN
  else if x.isFinite && x.significand == 0 then y.isFinite && y.significand == 0
  else x == y

def ofFields (negative : Bool) (magnitude : Nat) : Binary64 :=
  ⟨UInt64.ofNat (if negative then signWeight + magnitude else magnitude)⟩

def infinity (negative : Bool) : Binary64 :=
  ofFields negative (2047 * exponentWeight)

def nan : Binary64 :=
  ofFields false (2047 * exponentWeight + exponentWeight / 2)

end Binary64

end ApiSuite
