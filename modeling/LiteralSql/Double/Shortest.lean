import LiteralSql.Double

/-! The fewest decimal digits that read back as the same double.

Every real within half a gap of a magnitude rounds to it, the two ends only if
the significand is even. For one digit, two digits and so on the two points of
the decimal grid around the magnitude are tried; the first grid with a point
inside wins, and of two such points the nearer. Where both are equally near,
the format decides.
-/

set_option autoImplicit false

namespace LiteralSql

/-- `digits · 10 ^ exponent`. -/
structure Decimal where
  digits : Nat
  exponent : Int
  deriving DecidableEq

/-- Which of two equally near points is taken: the greater one, or the one with
an even last digit. -/
inductive TieRule
  | up
  | even
  deriving DecidableEq

namespace Decimal

def digitCount (number : Nat) : Nat := (Text.ofNat number).length

def floorLog10 (num den : Nat) : Int :=
  if den ≤ num then (digitCount (num / den) : Int) - 1
  else -(digitCount ((den - 1) / num) : Int)

def normalize : Nat → Decimal → Decimal
  | 0, decimal => decimal
  | fuel + 1, decimal =>
    if decimal.digits ≠ 0 ∧ decimal.digits % 10 = 0 then
      normalize fuel ⟨decimal.digits / 10, decimal.exponent + 1⟩
    else decimal

/-- The interval of reals that round to a magnitude, over a common
denominator: lower end, value, upper end, denominator, and whether the ends
belong to it. -/
structure Interval where
  low : Nat
  value : Nat
  high : Nat
  den : Nat
  closed : Bool

def Interval.ofRank (rank : Nat) : Interval :=
  let format := BinaryFormat.double
  let significand := format.significand rank
  let exponent := format.exponent rank
  let below := if significand = 0x10000000000000 ∧ format.lowest < exponent then 1 else 2
  let scale := if 0 ≤ exponent then Nat.pow 2 exponent.toNat else 1
  let den := if 0 ≤ exponent then 4 else 4 * Nat.pow 2 (-exponent).toNat
  ⟨(4 * significand - below) * scale, 4 * significand * scale, (4 * significand + 2) * scale, den,
    significand % 2 = 0⟩

def Interval.contains (interval : Interval) (low value high : Nat) : Bool :=
  if interval.closed then low ≤ value && value ≤ high else low < value && value < high

def nearer (tie : TieRule) (lower below above : Nat) : Nat :=
  if below < above then lower
  else if above < below then lower + 1
  else match tie with
    | .up => lower + 1
    | .even => lower + lower % 2

/-- The point of the grid `10 ^ step` that the interval holds, if there is
one; the nearer one of two. -/
def Interval.gridPoint? (interval : Interval) (tie : TieRule) (step : Int) : Option Nat :=
  -- Both the grid and the interval are scaled to integers.
  let up := if step < 0 then Nat.pow 10 (-step).toNat else 1
  let unit := (if step < 0 then 1 else Nat.pow 10 step.toNat) * interval.den
  let low := interval.low * up
  let value := interval.value * up
  let high := interval.high * up
  let lower := value / unit
  let upper := lower + 1
  let hasLower := interval.contains low (lower * unit) high
  let hasUpper := interval.contains low (upper * unit) high
  if hasLower && hasUpper then
    some (nearer tie lower (value - lower * unit) (upper * unit - value))
  else if hasLower then some lower
  else if hasUpper then some upper
  else none

/-- The shortest decimal of the magnitude of this rank. Seventeen digits always suffice. -/
def ofRank (tie : TieRule) (rank : Nat) : Decimal :=
  if rank = 0 then ⟨0, 0⟩ else
    let interval := Interval.ofRank rank
    let top := floorLog10 interval.value interval.den
    let found := (List.range 17).findSome? fun (extra : Nat) =>
      (interval.gridPoint? tie (top - extra)).map fun point => (⟨point, top - extra⟩ : Decimal)
    normalize 18 (found.getD ⟨0, 0⟩)

def scientificExponent (decimal : Decimal) : Int :=
  decimal.exponent + digitCount decimal.digits - 1

def positional (decimal : Decimal) : Text × Text :=
  let digits := Text.ofNat decimal.digits
  if 0 ≤ decimal.exponent then (digits ++ List.replicate decimal.exponent.toNat '0', [])
  else
    let places := (-decimal.exponent).toNat
    if places < digits.length then digits.splitAt (digits.length - places)
    else (['0'], List.replicate (places - digits.length) '0' ++ digits)

end Decimal

end LiteralSql
