import Mathlib.Algebra.Order.Field.Power
import Mathlib.Data.Rat.Cast.Order
import Mathlib.Tactic.FieldSimp
import Mathlib.Tactic.Linarith
import Mathlib.Tactic.Positivity
import Mathlib.Tactic.Ring
import LiteralSql.Double

/-! Which rationals a binary format rounds to which of its magnitudes.

The gaps between magnitudes double at every power of two, so below such a
magnitude the half gap is a quarter of its unit, and everywhere else it is one
half.
-/

set_option autoImplicit false

namespace LiteralSql

/-- The rational is at most one half away from the integer, and nearer to it if that is odd. -/
def RoundsTo (x : ℚ) (nearest : Nat) : Prop :=
  nearest - 1 / 2 < x ∧ x < nearest + 1 / 2 ∨
    nearest % 2 = 0 ∧ nearest - 1 / 2 ≤ x ∧ x ≤ nearest + 1 / 2

theorem RoundsTo.bounds {x : ℚ} {nearest : Nat} (rounds : RoundsTo x nearest) :
    nearest - 1 / 2 ≤ x ∧ x ≤ nearest + 1 / 2 := by
  obtain ⟨above, below⟩ | ⟨-, bounds⟩ := rounds
  · exact ⟨above.le, below.le⟩
  · exact bounds

theorem RoundsTo.even {x : ℚ} {nearest : Nat} (rounds : RoundsTo x nearest)
    (tie : x = nearest - 1 / 2 ∨ x = nearest + 1 / 2) : nearest % 2 = 0 := by
  obtain ⟨above, below⟩ | ⟨even, -⟩ := rounds
  · obtain rfl | rfl := tie
    · exact absurd above (lt_irrefl _)
    · exact absurd below (lt_irrefl _)
  · exact even

theorem roundHalfEven_eq {num den nearest : Nat} (positive : 0 < den)
    (rounds : RoundsTo ((num : ℚ) / den) nearest) : roundHalfEven num den = nearest := by
  have scale : (0 : ℚ) < den := Nat.cast_pos.mpr positive
  obtain ⟨above, below⟩ := rounds.bounds
  rw [le_div_iff₀ scale] at above
  rw [div_le_iff₀ scale] at below
  have above : 2 * nearest * den ≤ 2 * num + den := by
    have : (2 * nearest * den : ℚ) ≤ 2 * num + den := by linarith
    exact_mod_cast this
  have below : 2 * num ≤ 2 * nearest * den + den := by
    have : (2 * num : ℚ) ≤ 2 * nearest * den + den := by linarith
    exact_mod_cast this
  have split : den * (num / den) + num % den = num := Nat.div_add_mod num den
  have small : num % den < den := Nat.mod_lt num positive
  rw [roundHalfEven]
  generalize num / den = quotient at split
  generalize num % den = rest at split small
  -- The candidates are the quotient and its successor.
  have least : quotient ≤ nearest := by
    by_contra less
    have := Nat.mul_le_mul_left den (show nearest + 1 ≤ quotient by omega)
    nlinarith
  have most : nearest ≤ quotient + 1 := by
    by_contra more
    have := Nat.mul_le_mul_left den (show quotient + 2 ≤ nearest by omega)
    nlinarith
  obtain rfl | rfl : nearest = quotient ∨ nearest = quotient + 1 := by omega
  · rw [if_neg]
    rintro (more | ⟨half, odd⟩)
    · nlinarith
    · refine absurd (rounds.even (.inr ?_)) (by omega)
      rw [div_eq_iff scale.ne', ← split]
      have half : (2 * rest : ℚ) = den := by exact_mod_cast half
      push_cast
      linarith
  · rw [if_pos]
    by_contra less
    obtain ⟨less, even⟩ := not_or.mp less
    have half : 2 * rest = den := by nlinarith
    have odd : (quotient + 1) % 2 = 0 := by
      refine rounds.even (.inl ?_)
      rw [div_eq_iff scale.ne', ← split]
      have half : (2 * rest : ℚ) = den := by exact_mod_cast half
      push_cast
      linarith
    exact even ⟨half, by omega⟩

theorem two_zpow_le_div_iff {num den : Nat} (positive : 0 < den) (exponent : Int) :
    (2 : ℚ) ^ exponent ≤ num / den ↔
      if 0 ≤ exponent then den * Nat.pow 2 exponent.toNat ≤ num else den ≤ num * Nat.pow 2 (-exponent).toNat := by
  rw [le_div_iff₀ (Nat.cast_pos.mpr positive)]
  split
  · next up =>
    obtain ⟨places, rfl⟩ := Int.eq_ofNat_of_zero_le up
    rw [Int.toNat_natCast, zpow_natCast, Nat.pow_eq, mul_comm den, ← Nat.cast_le (α := ℚ)]
    push_cast
    rfl
  · next down =>
    obtain ⟨places, same⟩ := Int.eq_ofNat_of_zero_le (show 0 ≤ -exponent by omega)
    obtain rfl : exponent = -places := by omega
    rw [neg_neg, Int.toNat_natCast, zpow_neg, zpow_natCast, Nat.pow_eq, ← Nat.cast_le (α := ℚ),
      inv_mul_le_iff₀ (by positivity), mul_comm ((2 : ℚ) ^ places)]
    push_cast
    rfl

theorem floorLog2_eq {num den : Nat} (positive : 0 < den) :
    floorLog2 num den =
      if (2 : ℚ) ^ ((num.log2 : Int) - den.log2) ≤ num / den then (num.log2 : Int) - den.log2
      else num.log2 - den.log2 - 1 := by
  rw [floorLog2]
  generalize (num.log2 : Int) - den.log2 = guess
  have decided := @two_zpow_le_div_iff num den positive guess
  split at decided
  · next up =>
    rw [if_pos up]
    exact if_congr decided.symm rfl rfl
  · next down =>
    rw [if_neg down]
    exact if_congr decided.symm rfl rfl

theorem floorLog2_spec {num den : Nat} (some : 0 < num) (positive : 0 < den) :
    (2 : ℚ) ^ floorLog2 num den ≤ num / den ∧ (num : ℚ) / den < 2 ^ (floorLog2 num den + 1) := by
  have scale : (0 : ℚ) < den := Nat.cast_pos.mpr positive
  have numLeast : (2 : ℚ) ^ num.log2 ≤ num := by exact_mod_cast Nat.log2_self_le some.ne'
  have numMost : (num : ℚ) < 2 ^ (num.log2 + 1) := by exact_mod_cast Nat.lt_log2_self
  have denLeast : (2 : ℚ) ^ den.log2 ≤ den := by exact_mod_cast Nat.log2_self_le positive.ne'
  have denMost : (den : ℚ) < 2 ^ (den.log2 + 1) := by exact_mod_cast Nat.lt_log2_self
  rw [floorLog2_eq positive]
  split
  · next least =>
    refine ⟨least, (div_lt_iff₀ scale).mpr (numMost.trans_le ?_)⟩
    calc
      (2 : ℚ) ^ (num.log2 + 1) = 2 ^ ((num.log2 : Int) - den.log2 + 1) * 2 ^ den.log2 := by
        rw [← zpow_natCast, ← zpow_natCast, ← zpow_add₀ two_ne_zero]
        congr 1
        push_cast
        ring
      _ ≤ _ := mul_le_mul_of_nonneg_left denLeast (by positivity)
  · next less =>
    refine ⟨(le_div_iff₀ scale).mpr (le_trans ?_ numLeast), by rwa [sub_add_cancel, ← not_le]⟩
    calc
      (2 : ℚ) ^ ((num.log2 : Int) - den.log2 - 1) * den
          ≤ 2 ^ ((num.log2 : Int) - den.log2 - 1) * 2 ^ (den.log2 + 1) :=
        mul_le_mul_of_nonneg_left denMost.le (by positivity)
      _ = 2 ^ num.log2 := by
        rw [← zpow_natCast, ← zpow_natCast, ← zpow_add₀ two_ne_zero]
        congr 1
        push_cast
        ring

theorem le_floorLog2 {num den : Nat} (some : 0 < num) (positive : 0 < den) {exponent : Int}
    (least : (2 : ℚ) ^ exponent ≤ num / den) : exponent ≤ floorLog2 num den :=
  Int.lt_add_one_iff.mp ((zpow_lt_zpow_iff_right₀ one_lt_two).mp
    (least.trans_lt (floorLog2_spec some positive).2))

theorem floorLog2_lt {num den : Nat} (some : 0 < num) (positive : 0 < den) {exponent : Int}
    (most : (num : ℚ) / den < 2 ^ exponent) : floorLog2 num den < exponent :=
  (zpow_lt_zpow_iff_right₀ one_lt_two).mp ((floorLog2_spec some positive).1.trans_lt most)

theorem roundHalfEven_scaled {num den nearest : Nat} (positive : 0 < den) {exponent : Int}
    (rounds : RoundsTo ((num : ℚ) / den / 2 ^ exponent) nearest) :
    (if 0 ≤ exponent then roundHalfEven num (den * Nat.pow 2 exponent.toNat)
      else roundHalfEven (num * Nat.pow 2 (-exponent).toNat) den) = nearest := by
  split
  · next up =>
    refine roundHalfEven_eq (Nat.mul_pos positive (Nat.two_pow_pos _)) ?_
    obtain ⟨places, rfl⟩ := Int.eq_ofNat_of_zero_le up
    rw [Int.toNat_natCast, Nat.pow_eq]
    push_cast
    rwa [zpow_natCast, div_div] at rounds
  · next down =>
    refine roundHalfEven_eq positive ?_
    obtain ⟨places, same⟩ := Int.eq_ofNat_of_zero_le (show 0 ≤ -exponent by omega)
    obtain rfl : exponent = -places := by omega
    rw [neg_neg, Int.toNat_natCast, Nat.pow_eq]
    push_cast
    rwa [zpow_neg, zpow_natCast, div_inv_eq_mul, div_mul_eq_mul_div] at rounds

namespace BinaryFormat

variable (format : BinaryFormat)

def unit : Nat := 2 ^ (format.precision - 1)

theorem unit_pos : 0 < format.unit := Nat.two_pow_pos _

theorem significand_lt (rank : Nat) : format.significand rank < 2 * format.unit := by
  have := Nat.mod_lt rank format.unit_pos
  change (if rank < format.unit then rank else rank % format.unit + format.unit) < _
  split <;> omega

theorem unit_le_significand {rank : Nat} (higher : format.lowest < format.exponent rank) :
    format.unit ≤ format.significand rank := by
  change format.lowest < (if rank < format.unit then format.lowest else _) at higher
  change _ ≤ if rank < format.unit then rank else rank % format.unit + format.unit
  split at higher
  · exact absurd higher (lt_irrefl _)
  · next large =>
    rw [if_neg large]
    exact Nat.le_add_left _ _

theorem lowest_le_exponent (rank : Nat) : format.lowest ≤ format.exponent rank := by
  change _ ≤ if rank < format.unit then format.lowest else ((rank / format.unit - 1 : Nat) : Int) + format.lowest
  split <;> omega

theorem rank_eq (rank : Nat) :
    (format.exponent rank - format.lowest).toNat * format.unit + format.significand rank = rank := by
  change ((if rank < format.unit then format.lowest
    else ((rank / format.unit - 1 : Nat) : Int) + format.lowest) - format.lowest).toNat * format.unit +
      (if rank < format.unit then rank else rank % format.unit + format.unit) = rank
  split
  · simp
  · next large =>
    have some : 0 < rank / format.unit := Nat.div_pos (not_lt.mp large) format.unit_pos
    obtain ⟨steps, same⟩ := Nat.exists_eq_succ_of_ne_zero some.ne'
    have split := Nat.div_add_mod' rank format.unit
    rw [same] at split ⊢
    rw [add_sub_cancel_right, Int.toNat_natCast, Nat.succ_sub_one]
    rw [Nat.succ_mul] at split
    omega

/-- Half the gap below a magnitude, in its unit: the gap below a power of two is
half as wide as the one above it. -/
def halfBelow (rank : Nat) : ℚ :=
  if format.significand rank = format.unit ∧ format.lowest < format.exponent rank then 1 / 4 else 1 / 2

/-- The rationals that are nearer to a magnitude than to its neighbours, with
both ends if the significand is even. -/
def Nearest (rank : Nat) (x : ℚ) : Prop :=
  let scaled := x / 2 ^ format.exponent rank
  format.significand rank - format.halfBelow rank < scaled ∧ scaled < format.significand rank + 1 / 2 ∨
    format.significand rank % 2 = 0 ∧
      format.significand rank - format.halfBelow rank ≤ scaled ∧ scaled ≤ format.significand rank + 1 / 2

variable {format}

theorem Nearest.bounds {rank : Nat} {x : ℚ} (nearest : format.Nearest rank x) :
    format.significand rank - format.halfBelow rank ≤ x / 2 ^ format.exponent rank ∧
      x / 2 ^ format.exponent rank ≤ format.significand rank + 1 / 2 := by
  obtain ⟨above, below⟩ | ⟨-, bounds⟩ := nearest
  · exact ⟨above.le, below.le⟩
  · exact bounds

theorem halfBelow_le (format : BinaryFormat) (rank : Nat) : format.halfBelow rank ≤ 1 / 2 := by
  rw [halfBelow]
  split <;> norm_num

theorem Nearest.roundsTo {rank : Nat} {x : ℚ} (nearest : format.Nearest rank x) :
    RoundsTo (x / 2 ^ format.exponent rank) (format.significand rank) := by
  have narrow := format.halfBelow_le rank
  obtain ⟨above, below⟩ | ⟨even, above, below⟩ := nearest
  · exact .inl ⟨by linarith, below⟩
  · exact .inr ⟨even, by linarith, below⟩

theorem Nearest.lt {rank : Nat} {x : ℚ} (nearest : format.Nearest rank x) :
    x / 2 ^ format.exponent rank < 2 * format.unit := by
  have most : (format.significand rank : ℚ) + 1 ≤ 2 * format.unit := by
    exact_mod_cast format.significand_lt rank
  linarith [nearest.bounds.2]

theorem Nearest.significand_eq {rank : Nat} {x : ℚ} (nearest : format.Nearest rank x)
    (higher : format.lowest < format.exponent rank) (less : x / 2 ^ format.exponent rank < format.unit) :
    format.significand rank = format.unit := by
  have narrow := format.halfBelow_le rank
  have least := format.unit_le_significand higher
  have most : (format.significand rank : ℚ) < format.unit + 1 := by linarith [nearest.bounds.1]
  have most : format.significand rank < format.unit + 1 := by exact_mod_cast most
  omega

theorem unit_mul_zpow (format : BinaryFormat) (wide : 0 < format.precision) (exponent : Int) :
    (format.unit : ℚ) * 2 ^ exponent = 2 ^ (exponent + format.precision - 1) := by
  rw [unit, Nat.cast_pow, Nat.cast_two, ← zpow_natCast, ← zpow_add₀ two_ne_zero, Nat.cast_sub wide]
  congr 1
  push_cast
  ring

theorem rankOf_eq {num den nearest : Nat} (some : 0 < num) (positive : 0 < den) {exponent : Int}
    (chosen : max format.lowest (floorLog2 num den - (format.precision - 1)) = exponent)
    (rounds : RoundsTo ((num : ℚ) / den / 2 ^ exponent) nearest) :
    format.rankOf num den = (exponent - format.lowest).toNat * format.unit + nearest := by
  rw [rankOf, if_neg some.ne']
  dsimp only
  rw [chosen, roundHalfEven_scaled positive rounds]
  rfl

theorem Nearest.eq_zero {rank : Nat} (nearest : format.Nearest rank 0) : rank = 0 := by
  have narrow := format.halfBelow_le rank
  have above := nearest.bounds.1
  rw [zero_div] at above
  have none : (format.significand rank : ℚ) < 1 := by linarith
  have none : format.significand rank = 0 := by
    have : format.significand rank < 1 := by exact_mod_cast none
    omega
  have low : ¬format.lowest < format.exponent rank := fun higher =>
    absurd (format.unit_le_significand higher) (by have := format.unit_pos; omega)
  have lowest := format.lowest_le_exponent rank
  have same := format.rank_eq rank
  rwa [none, show format.exponent rank - format.lowest = 0 by omega, Int.toNat_zero, zero_mul,
    add_zero, eq_comm] at same

theorem Nearest.rankOf_below {num den rank : Nat} (nearest : format.Nearest rank (num / den))
    (wide : 0 < format.precision) (some : 0 < num) (positive : 0 < den)
    (higher : format.lowest < format.exponent rank)
    (less : (num : ℚ) / den / 2 ^ format.exponent rank < format.unit) : format.rankOf num den = rank := by
  have power : (0 : ℚ) < 2 ^ format.exponent rank := by positivity
  have same := nearest.significand_eq higher less
  have above : format.unit - 1 / 4 ≤ (num : ℚ) / den / 2 ^ format.exponent rank := by
    have above := nearest.bounds.1
    rwa [halfBelow, if_pos ⟨same, higher⟩, same] at above
  have twice : (num : ℚ) / den / 2 ^ (format.exponent rank - 1) = 2 * (num / den / 2 ^ format.exponent rank) := by
    rw [zpow_sub_one₀ two_ne_zero]
    field_simp
  -- The quotient is below the power of two by a quarter of a unit at most, so its scale is one lower.
  have scale : floorLog2 num den = format.exponent rank - 1 + format.precision - 1 := by
    have some' : (1 : ℚ) ≤ format.unit := by exact_mod_cast format.unit_pos
    have most : floorLog2 num den < format.exponent rank + format.precision - 1 := by
      refine floorLog2_lt some positive ?_
      rwa [← format.unit_mul_zpow wide, ← div_lt_iff₀ power]
    have least : format.exponent rank - 1 + format.precision - 1 ≤ floorLog2 num den := by
      refine le_floorLog2 some positive ?_
      rw [← format.unit_mul_zpow wide, ← le_div_iff₀ (by positivity), twice]
      linarith
    omega
  have rounds : RoundsTo ((num : ℚ) / den / 2 ^ (format.exponent rank - 1)) (2 * format.unit) := by
    rw [twice]
    refine .inr ⟨by omega, ?_, ?_⟩ <;> rw [Nat.cast_mul, Nat.cast_two] <;> linarith
  rw [rankOf_eq some positive (by omega) rounds]
  have whole := format.rank_eq rank
  obtain ⟨steps, further⟩ := Int.eq_ofNat_of_zero_le (show 0 ≤ format.exponent rank - 1 - format.lowest by omega)
  rw [same, show format.exponent rank - format.lowest = ((steps + 1 : Nat) : Int) by omega,
    Int.toNat_natCast] at whole
  rw [further, Int.toNat_natCast, ← whole]
  ring

/-- A rational near to a magnitude rounds to it. -/
theorem rankOf_of_nearest (wide : 0 < format.precision) {num den rank : Nat} (positive : 0 < den)
    (nearest : format.Nearest rank (num / den)) : format.rankOf num den = rank := by
  obtain rfl | some := Nat.eq_zero_or_pos num
  · rw [Nat.cast_zero, zero_div] at nearest
    rw [nearest.eq_zero]
    rfl
  have power : (0 : ℚ) < 2 ^ format.exponent rank := by positivity
  have lowest := format.lowest_le_exponent rank
  have most : floorLog2 num den < format.exponent rank + format.precision := by
    refine floorLog2_lt some positive ?_
    have less := (div_lt_iff₀ power).mp nearest.lt
    rwa [mul_assoc, format.unit_mul_zpow wide, ← zpow_one_add₀ two_ne_zero, add_sub_cancel] at less
  have atExponent (chosen : max format.lowest (floorLog2 num den - (format.precision - 1)) =
      format.exponent rank) : format.rankOf num den = rank := by
    rw [rankOf_eq some positive chosen nearest.roundsTo, format.rank_eq]
  -- From a power of two on the scale of the quotient is that of the magnitude.
  obtain least | less := le_or_gt (format.unit : ℚ) (num / den / 2 ^ format.exponent rank)
  · have least : format.exponent rank + format.precision - 1 ≤ floorLog2 num den := by
      refine le_floorLog2 some positive ?_
      rwa [← format.unit_mul_zpow wide, ← le_div_iff₀ power]
    exact atExponent (by omega)
  · have below : floorLog2 num den < format.exponent rank + format.precision - 1 := by
      refine floorLog2_lt some positive ?_
      rwa [← format.unit_mul_zpow wide, ← div_lt_iff₀ power]
    obtain low | higher := lowest.eq_or_lt
    · exact atExponent (by omega)
    · exact nearest.rankOf_below wide some positive higher less

end BinaryFormat

end LiteralSql
