import RoleQuery.Binary64.Basic

/-!
# Decimal texts of binary64 numbers

The digits written are the fewest that read back as the same number, and among those the
nearest. A number is read back from every decimal in its rounding interval, whose ends belong
to it exactly when the significand is even. For one digit, two digits, and so on, the two
neighbours of the number on that decimal grid are tested in exact arithmetic: if any point of
a grid lies in the interval, one of the two neighbours does.
-/
namespace RoleQuery

/-- Which neighbour is written when both are equally near. -/
inductive TieRule where
  /-- The neighbour whose last digit is even. -/
  | even
  /-- The neighbour further from zero. -/
  | away
  deriving DecidableEq, Repr

/-- A positive decimal `digits * 10 ^ exponent`. -/
structure Decimal where
  /-- The digits as one integer. -/
  digits : Nat
  /-- The power of ten of the last digit. -/
  exponent : Int
  deriving DecidableEq, Repr

namespace Decimal

/-- Drop up to `n` trailing zeros. -/
def dropZeros : Nat → Decimal → Decimal
  | 0, d => d
  | n + 1, d =>
    if d.digits != 0 && d.digits % 10 == 0 then dropZeros n ⟨d.digits / 10, d.exponent + 1⟩ else d

def chars (d : Decimal) : List Char := Nat.toDigits 10 d.digits

/-- The power of ten of the first digit. -/
def leading (d : Decimal) : Int := d.exponent + d.chars.length - 1

/-- The text without an exponent; `keepPoint` writes `.0` after a whole number. -/
def positional (keepPoint : Bool) (d : Decimal) : List Char :=
  let whole (cs : List Char) := if keepPoint then cs ++ ['.', '0'] else cs
  match d.exponent with
  | .ofNat e => whole (d.chars ++ List.replicate e '0')
  | .negSucc e =>
    let places := e + 1
    let padded := List.replicate (places + 1 - d.chars.length) '0' ++ d.chars
    padded.take (padded.length - places) ++ '.' :: padded.drop (padded.length - places)

/-- The text with one digit before the point and a signed exponent. -/
def scientific (d : Decimal) : List Char :=
  let digits := match d.chars with
    | [] => []
    | [c] => [c]
    | c :: rest => c :: '.' :: rest
  let sign := if d.leading < 0 then '-' else '+'
  digits ++ 'e' :: sign :: Nat.toDigits 10 d.leading.natAbs

end Decimal

namespace Binary64

/-- One end of the rounding interval and the value itself, all in quarters of a unit. -/
structure RoundingInterval where
  low : Nat
  value : Nat
  high : Nat
  /-- The ends belong to the interval. -/
  closed : Bool

/-- The decimals that read back as `x`. The gap below a power of two is
half the gap above it. -/
def roundingInterval (x : Binary64) : RoundingInterval where
  low := 4 * x.magnitude -
    (if x.significand = 1 <<< 52 ∧ 1 < x.exponentField then 1 else 2) <<< x.scale
  value := 4 * x.magnitude
  high := 4 * x.magnitude + 2 <<< x.scale
  closed := x.significand % 2 == 0

/-- Whether `num / den` quarters of a unit lie in the interval. -/
def RoundingInterval.contains (i : RoundingInterval) (num den : Nat) : Bool :=
  if i.closed then decide (i.low * den ≤ num ∧ num ≤ i.high * den)
  else decide (i.low * den < num ∧ num < i.high * den)

/-- The number of quarters of a unit in one. -/
def quartersPerOne : Nat := 1 <<< 1076

/-- The power of ten of the first digit of `num / den`. -/
def leadingPower (num den : Nat) : Int :=
  if den ≤ num then ((Nat.toDigits 10 (num / den)).length : Int) - 1
  else
    let q := (den + num - 1) / num
    if q ≤ 1 then 0 else -((Nat.toDigits 10 (q - 1)).length : Int)

/-- The neighbour of the number on the grid `10 ^ exponent` that reads back, if one does. -/
def onGrid? (tie : TieRule) (i : RoundingInterval) (exponent : Int) : Option Decimal :=
  let (mul, div) : Nat × Nat := match exponent with
    | .ofNat e => (Nat.pow 10 e * quartersPerOne, 1)
    | .negSucc e => (quartersPerOne, Nat.pow 10 (e + 1))
  let below := i.value * div / mul
  let rest := i.value * div % mul
  let lowFits := i.contains (below * mul) div
  let highFits := i.contains ((below + 1) * mul) div
  if lowFits && highFits then
    let down := 2 * rest < mul || (2 * rest == mul && tie == .even && below % 2 == 0)
    some ⟨if down then below else below + 1, exponent⟩
  else if lowFits then some ⟨below, exponent⟩
  else if highFits then some ⟨below + 1, exponent⟩
  else none

/-- The fewest digits that read back as the magnitude of `x`, nearest
first, for finite `x ≠ 0`. -/
def shortest (tie : TieRule) (x : Binary64) : Decimal :=
  let i := x.roundingInterval
  let lead := leadingPower i.value quartersPerOne
  let grids := (List.range 18).map fun n : Nat => lead - n
  Decimal.dropZeros 20 ((grids.findSome? (onGrid? tie i)).getD ⟨0, 0⟩)

end Binary64

/-- What a text form of numbers decides beyond the digits. -/
structure DecimalStyle where
  /-- Which of two equally near decimals is written. -/
  tie : TieRule
  /-- Whole numbers end in `.0`. -/
  keepPoint : Bool
  /-- The powers of ten of the first digit that are written without an exponent; `none`
  writes no exponent at all. -/
  positional : Option (Int × Int)
  deriving Repr

namespace DecimalStyle

/-- The form of numbers in JSON: an exponent below `1e-5` and from `1e16` on. -/
def json : DecimalStyle := ⟨.even, true, some (-5, 15)⟩

/-- The form of numbers in messages: never an exponent, and no point in a whole number. -/
def plain : DecimalStyle := ⟨.away, false, none⟩

end DecimalStyle

namespace Binary64

/-- The text of a number in a style. -/
def render (style : DecimalStyle) (x : Binary64) : String :=
  if x.isNaN then "NaN"
  else
    let magnitude : List Char :=
      if !x.isFinite then ['i', 'n', 'f']
      else if x.magnitude = 0 then if style.keepPoint then ['0', '.', '0'] else ['0']
      else
        let d := x.shortest style.tie
        let fits := match style.positional with
          | none => true
          | some (low, high) => decide (low ≤ d.leading ∧ d.leading ≤ high)
        if fits then d.positional style.keepPoint else d.scientific
    String.ofList (if x.isNegative then '-' :: magnitude else magnitude)

end Binary64

end RoleQuery
