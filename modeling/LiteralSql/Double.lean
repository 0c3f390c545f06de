import LiteralSql.Text

/-! Binary floating point numbers of 64 bits, with exact arithmetic.

A finite magnitude is given by its rank: the number of smaller magnitudes.
Rounding is to nearest, ties to the even significand. All of it is computed on
natural numbers, so the kernel can evaluate it.
-/

set_option autoImplicit false

namespace LiteralSql

/-- A binary format: bits of the significand, exponent of the smallest unit,
and the number of finite magnitudes. -/
structure BinaryFormat where
  precision : Nat
  lowest : Int
  ranks : Nat

def BinaryFormat.double : BinaryFormat := ⟨53, -1074, 2047 * 0x10000000000000⟩

def BinaryFormat.single : BinaryFormat := ⟨24, -149, 255 * 0x800000⟩

def roundHalfEven (num den : Nat) : Nat :=
  let quotient := num / den
  let rest := num % den
  if den < 2 * rest ∨ (2 * rest = den ∧ quotient % 2 = 1) then quotient + 1 else quotient

def floorLog2 (num den : Nat) : Int :=
  let guess : Int := (num.log2 : Int) - den.log2
  if 0 ≤ guess then
    if den * Nat.pow 2 guess.toNat ≤ num then guess else guess - 1
  else
    if den ≤ num * Nat.pow 2 (-guess).toNat then guess else guess - 1

namespace BinaryFormat

/-- The rank of the magnitude nearest to a quotient. Ranks from `ranks` on
stand for values that are too large. -/
def rankOf (format : BinaryFormat) (num den : Nat) : Nat :=
  if num = 0 then 0 else
    let exponent := max format.lowest (floorLog2 num den - (format.precision - 1))
    let significand :=
      if 0 ≤ exponent then roundHalfEven num (den * Nat.pow 2 exponent.toNat)
      else roundHalfEven (num * Nat.pow 2 (-exponent).toNat) den
    (exponent - format.lowest).toNat * Nat.pow 2 (format.precision - 1) + significand

def significand (format : BinaryFormat) (rank : Nat) : Nat :=
  let unit := Nat.pow 2 (format.precision - 1)
  if rank < unit then rank else rank % unit + unit

def exponent (format : BinaryFormat) (rank : Nat) : Int :=
  let unit := Nat.pow 2 (format.precision - 1)
  if rank < unit then format.lowest else (rank / unit - 1 : Nat) + format.lowest

def ratio (format : BinaryFormat) (rank : Nat) : Nat × Nat :=
  let exponent := format.exponent rank
  if 0 ≤ exponent then (format.significand rank * Nat.pow 2 exponent.toNat, 1)
  else (format.significand rank, Nat.pow 2 (-exponent).toNat)

end BinaryFormat

inductive Double
  | finite (negative : Bool) (rank : Fin BinaryFormat.double.ranks)
  | infinite (negative : Bool)
  | nan
  deriving DecidableEq

namespace Double

def isFinite : Double → Bool
  | .finite .. => true
  | _ => false

def ofRank (negative : Bool) (rank : Nat) : Double :=
  if h : rank < BinaryFormat.double.ranks then .finite negative ⟨rank, h⟩
  else .infinite negative

def ofRatio (negative : Bool) (num den : Nat) : Double :=
  ofRank negative (BinaryFormat.double.rankOf num den)

def ofRatioSingle (negative : Bool) (num den : Nat) : Double :=
  let rank := BinaryFormat.single.rankOf num den
  if rank < BinaryFormat.single.ranks then
    let (num, den) := BinaryFormat.single.ratio rank
    ofRatio negative num den
  else .infinite negative

def mulMagnitude (first second : Fin BinaryFormat.double.ranks) : Nat :=
  let (num₁, den₁) := BinaryFormat.double.ratio first
  let (num₂, den₂) := BinaryFormat.double.ratio second
  BinaryFormat.double.rankOf (num₁ * num₂) (den₁ * den₂)

def divMagnitude (first second : Fin BinaryFormat.double.ranks) : Nat :=
  let (num₁, den₁) := BinaryFormat.double.ratio first
  let (num₂, den₂) := BinaryFormat.double.ratio second
  BinaryFormat.double.rankOf (num₁ * den₂) (den₁ * num₂)

end Double

end LiteralSql
