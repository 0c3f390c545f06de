import LiteralSql.Proofs.Json.Numerals

/-! Integers that fill 64 bits, as doubles.

A significand has 53 bits, so such an integer is rounded, and the shortest digits
of the double are at most seventeen with zeros behind them, where the integer has
nineteen or twenty.
-/

set_option autoImplicit false

namespace LiteralSql

/-- The rank of the first magnitude that an unsigned integer of 64 bits may round to but a signed one may not. -/
def BinaryFormat.wide : Nat := 1086 * 0x10000000000000

namespace BinaryFormat

theorem roundHalfEven_bounds (num den : Nat) :
    num / den ≤ roundHalfEven num den ∧ roundHalfEven num den ≤ num / den + 1 := by
  rw [roundHalfEven]
  split <;> omega

theorem rankOf_wide {number : Nat} (least : 0x8000000000000000 ≤ number) (most : number < 0x10000000000000000) :
    wide ≤ double.rankOf number 1 ∧ double.rankOf number 1 < double.ranks := by
  have some : number ≠ 0 := by omega
  have bits : number.log2 = 63 := (Nat.log2_eq_iff some).mpr ⟨least, most⟩
  have power : floorLog2 number 1 = 63 := by
    rw [floorLog2, bits]
    exact if_pos least
  have rank : double.rankOf number 1 = 1085 * 0x10000000000000 + roundHalfEven number 2048 := by
    rw [rankOf, if_neg some, power]
    rfl
  have bounds := roundHalfEven_bounds number 2048
  rw [rank]
  change 1086 * 0x10000000000000 ≤ _ ∧ _ < 2047 * 0x10000000000000
  omega

theorem significand_wide {rank : Nat} (least : wide ≤ rank) :
    0x10000000000000 ≤ double.significand rank ∧ 11 ≤ double.exponent rank := by
  change 1086 * 0x10000000000000 ≤ rank at least
  change 0x10000000000000 ≤ (if rank < 0x10000000000000 then rank else rank % 0x10000000000000 + 0x10000000000000) ∧
    11 ≤ if rank < 0x10000000000000 then (-1074 : Int) else ((rank / 0x10000000000000 - 1 : Nat) : Int) + -1074
  rw [if_neg (by omega), if_neg (by omega)]
  omega

end BinaryFormat

namespace Decimal

theorem le_exponent_normalize (fuel : Nat) (decimal : Decimal) :
    decimal.exponent ≤ (normalize fuel decimal).exponent := by
  induction fuel generalizing decimal with
  | zero => exact le_rfl
  | succ fuel ih =>
    rw [normalize]
    split
    · exact (Int.le_add_one le_rfl).trans (ih _)
    · exact le_rfl

theorem eighteen_le_floorLog10 {rank : Nat} (least : BinaryFormat.wide ≤ rank) :
    18 ≤ floorLog10 (Interval.ofRank rank).value (Interval.ofRank rank).den := by
  obtain ⟨significand, exponent⟩ := BinaryFormat.significand_wide least
  obtain ⟨places, same⟩ := Int.eq_ofNat_of_zero_le (le_trans (by decide) exponent)
  have power : 2 ^ 11 ≤ 2 ^ places := Nat.pow_le_pow_right (by decide) (by omega)
  have whole : (Interval.ofRank rank).value / (Interval.ofRank rank).den =
      BinaryFormat.double.significand rank * 2 ^ places := by
    rw [Interval.ofRank_eq]
    dsimp only
    rw [same, Interval.widen, Interval.divisor, if_pos (Int.natCast_nonneg places), if_pos (Int.natCast_nonneg places),
      Int.toNat_natCast, Nat.mul_assoc, Nat.mul_div_cancel_left _ (by decide)]
  have large : 10 ^ 18 ≤ (Interval.ofRank rank).value / (Interval.ofRank rank).den := by
    rw [whole]
    calc
      10 ^ 18 ≤ 0x10000000000000 * 2 ^ 11 := by decide
      _ ≤ BinaryFormat.double.significand rank * 2 ^ places := Nat.mul_le_mul significand power
  have more : ¬ digitCount ((Interval.ofRank rank).value / (Interval.ofRank rank).den) ≤ 18 := fun few =>
    absurd ((Nat.length_toDigits_le_iff (by decide) (by decide)).mp few) (not_lt.mpr large)
  have fits : (Interval.ofRank rank).den ≤ (Interval.ofRank rank).value := by
    by_contra less
    rw [Nat.div_eq_of_lt (not_le.mp less)] at large
    exact absurd large (by decide)
  rw [floorLog10, if_pos fits]
  omega

theorem two_le_exponent (tie : TieRule) {rank : Nat} (least : BinaryFormat.wide ≤ rank) :
    2 ≤ (ofRank tie rank).exponent := by
  have some : rank ≠ 0 := by
    rintro rfl
    exact absurd least (by decide)
  obtain ⟨extra, few, point, -, same⟩ := ofRank_eq_normalize tie some
  have top := eighteen_le_floorLog10 least
  have kept := le_exponent_normalize 18
    ⟨point, floorLog10 (Interval.ofRank rank).value (Interval.ofRank rank).den - (extra : Nat)⟩
  rw [same]
  dsimp only at kept
  omega

theorem positional_of_zeros {decimal : Decimal} {places : Nat} (zeros : decimal.exponent = places) :
    decimal.positional = (Text.ofNat decimal.digits ++ List.replicate places '0', []) := by
  rw [positional, zeros, if_pos (Int.natCast_nonneg places), Int.toNat_natCast]

end Decimal

/-- The digits of such a double are those of an integer that ends in two zeros, which rounds to the same double. -/
theorem Double.toText_wide (rank : Fin BinaryFormat.double.ranks) (least : BinaryFormat.wide ≤ rank) :
    (Double.finite false rank).toText.Digits ∧ 100 ∣ Text.toNat (Double.finite false rank).toText ∧
      (Text.toNat (Double.finite false rank).toText : ℚ) = (Decimal.ofRank .up rank).value ∧
      ofRatio false (Text.toNat (Double.finite false rank).toText) 1 = .finite false rank := by
  obtain ⟨places, zeros⟩ := Int.eq_ofNat_of_zero_le
    (le_trans (by decide) (Decimal.two_le_exponent .up least) : 0 ≤ (Decimal.ofRank .up rank).exponent)
  have two := Decimal.two_le_exponent .up least
  have written := Decimal.positional_of_zeros zeros
  have text : (Double.finite false rank).toText = (Decimal.ofRank .up rank).positional.1 := by
    rw [toText, written]
    exact List.append_nil _
  have number := (Decimal.ofRank .up rank).value_positional
  have exact : (Text.toNat (Decimal.ofRank .up rank).positional.1 : ℚ) = (Decimal.ofRank .up rank).value := by
    rw [← number, written, Decimal.value, List.append_nil, List.length_nil, Nat.cast_zero, neg_zero, zpow_zero, mul_one]
  rw [text]
  refine ⟨(Decimal.ofRank .up rank).digits_positional.1, ?_, exact, ?_⟩
  · rw [written, Text.toNat_append, Text.toNat_zeros, List.length_replicate, Nat.add_zero]
    have hundred : (100 : Nat) = 10 ^ 2 := rfl
    rw [hundred]
    exact Dvd.dvd.mul_right (pow_dvd_pow 10 (by omega)) _
  · rw [ofRatio, Decimal.rankOf_ofRank .up rank Nat.one_pos (by rw [Nat.cast_one, div_one, exact]), ofRank,
      dif_pos rank.isLt]

end LiteralSql
