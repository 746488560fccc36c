/-!
# Binary64 numbers

A binary64 number is kept as its sixty-four bits, and everything about it is computed
from them in exact integer arithmetic. The unit is `2 ^ -1074`, the smallest positive
number: every finite number is a whole count of units, so comparison and rounding are
questions about integers.

## Main definitions

* `Binary64.units`: the value as a signed count of units.
* `Binary64.compare?`: the numerical order, undefined on NaN.
* `Binary64.ofRatio`, `Binary64.ofInt`, `Binary64.ofDecimal`: rounding
  to nearest, ties to even.
-/
namespace RoleQuery

/-- A binary64 number as its bit pattern: a sign, eleven bits of exponent,
fifty-two of fraction. -/
structure Binary64 where
  /-- The sixty-four bits. -/
  bits : UInt64
  deriving DecidableEq, Repr, Inhabited

namespace Binary64

/-- Whether the sign bit is set. -/
def isNegative (x : Binary64) : Bool := decide (1 <<< 63 ≤ x.bits.toNat)

/-- The eleven bits of the exponent. -/
def exponentField (x : Binary64) : Nat := (x.bits.toNat >>> 52) % (1 <<< 11)

/-- The fifty-two bits of the fraction. -/
def fractionField (x : Binary64) : Nat := x.bits.toNat % (1 <<< 52)

/-- A number with the largest exponent and a fraction is no number at all. -/
def isNaN (x : Binary64) : Bool := x.exponentField == 2047 && x.fractionField != 0

/-- Finite numbers are those without the largest exponent. -/
def isFinite (x : Binary64) : Bool := x.exponentField != 2047

/-- The integer that the scale multiplies: the fraction, with the hidden
bit of a normal number. -/
def significand (x : Binary64) : Nat :=
  if x.exponentField = 0 then x.fractionField else 1 <<< 52 + x.fractionField

/-- The power of two, counted in units, that the significand is multiplied by. -/
def scale (x : Binary64) : Nat := x.exponentField - 1

/-- The magnitude in units of `2 ^ -1074`. An infinity lies above every finite number. -/
def magnitude (x : Binary64) : Nat := x.significand <<< x.scale

/-- The value in units of `2 ^ -1074`. -/
def units (x : Binary64) : Int := if x.isNegative then -(x.magnitude : Int) else x.magnitude

/-- The numerical order; a NaN compares with nothing, and the two zeros are equal. -/
def compare? (x y : Binary64) : Option Ordering :=
  if x.isNaN || y.isNaN then none else some (compare x.units y.units)

/-- Numerical equality: a NaN equals nothing, and the two zeros are equal. -/
def same (x y : Binary64) : Bool := x.compare? y == some .eq

/-- The pattern of a magnitude with the sign bit set or cleared. -/
def withSign (negative : Bool) (magnitudeBits : Nat) : Binary64 :=
  ⟨UInt64.ofNat (if negative then 1 <<< 63 + magnitudeBits else magnitudeBits)⟩

/-- Positive and negative infinity. -/
def infinity (negative : Bool) : Binary64 := withSign negative (2047 <<< 52)

/-- The quiet NaN with no payload. -/
def nan : Binary64 := ⟨0x7ff8000000000000⟩

/-- The integer nearest to `num / den`, a half going to the even neighbour. -/
def roundHalfEven (num den : Nat) : Nat :=
  let q := num / den
  let twice := 2 * (num % den)
  if twice < den then q
  else if den < twice then q + 1
  else if q % 2 = 0 then q else q + 1

/-- The pattern of the number nearest to `num / den`, ties to even; too large a ratio gives
the pattern of infinity. A magnitude `m * 2 ^ e` units with `m ≤ 2 ^ 53` has the pattern
`e * 2 ^ 52 + m`, also where rounding carries into the next exponent. -/
def ratioBits (num den : Nat) : Nat :=
  let exact := num <<< 1074
  let whole := exact / den
  let e := if whole = 0 then 0 else Nat.log2 whole - 52
  let m := roundHalfEven exact (den <<< e)
  min (e <<< 52 + m) (2047 <<< 52)

/-- The number nearest to `± num / den`, ties to even. -/
def ofRatio (negative : Bool) (num den : Nat) : Binary64 :=
  withSign negative (ratioBits num den)

/-- The number nearest to an integer, ties to even. -/
def ofInt (n : Int) : Binary64 := ofRatio (decide (n < 0)) n.natAbs 1

/-- The number nearest to `± digits * 10 ^ exponent`, ties to even. An exponent beyond the
range of the format is decided without computing the power. -/
def ofDecimal (negative : Bool) (digits : Nat) (exponent : Int) : Binary64 :=
  let size : Int := exponent + (Nat.toDigits 10 digits).length
  if digits = 0 ∨ size < -400 then withSign negative 0
  else if 400 < size then infinity negative
  else match exponent with
    | .ofNat e => ofRatio negative (digits * Nat.pow 10 e) 1
    | .negSucc e => ofRatio negative digits (Nat.pow 10 (e + 1))

end Binary64

end RoleQuery
