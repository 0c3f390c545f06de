import LiteralSql.Double.Shortest
import LiteralSql.Proofs.Double.Rounding

/-! The shortest digits of a magnitude read back as that magnitude.

Every point of a decimal grid that is taken lies in the interval of the
rationals that round to the magnitude. Seventeen digits are enough because
their grid is finer than the interval is wide.
-/

set_option autoImplicit false

namespace LiteralSql

namespace Decimal

def value (decimal : Decimal) : ℚ := decimal.digits * 10 ^ decimal.exponent

theorem value_normalize (fuel : Nat) (decimal : Decimal) : (normalize fuel decimal).value = decimal.value := by
  induction fuel generalizing decimal with
  | zero => rfl
  | succ fuel ih =>
    rw [normalize]
    split
    · next zero =>
      have tens : 10 * (decimal.digits / 10) = decimal.digits := Nat.mul_div_cancel' (Nat.dvd_of_mod_eq_zero zero.2)
      rw [ih]
      calc
        ((decimal.digits / 10 : Nat) : ℚ) * 10 ^ (decimal.exponent + 1)
            = (10 * (decimal.digits / 10) : Nat) * 10 ^ decimal.exponent := by
          rw [zpow_add_one₀ (by norm_num)]
          push_cast
          ring
        _ = decimal.value := by
          rw [tens]
          rfl
    · rfl

theorem digitCount_pos (number : Nat) : 0 < digitCount number := Nat.length_toDigits_pos

theorem lt_pow_digitCount (number : Nat) : number < 10 ^ digitCount number :=
  (Nat.length_toDigits_le_iff (by decide) (digitCount_pos number)).mp le_rfl

theorem pow_digitCount_le {number : Nat} (some : 0 < number) : 10 ^ (digitCount number - 1) ≤ number := by
  obtain one | more := Nat.eq_or_lt_of_le (digitCount_pos number)
  · rw [← one]
    exact some
  · by_contra less
    have fewer := (Nat.length_toDigits_le_iff (by decide) (Nat.sub_pos_of_lt more)).mpr (not_le.mp less)
    change digitCount number ≤ _ at fewer
    omega

theorem pow_floorLog10_le {num den : Nat} (some : 0 < num) (positive : 0 < den) :
    (10 : ℚ) ^ floorLog10 num den ≤ num / den := by
  have scale : (0 : ℚ) < den := Nat.cast_pos.mpr positive
  rw [floorLog10, le_div_iff₀ scale]
  split
  · next large =>
    have least := pow_digitCount_le (Nat.div_pos large positive)
    have count := digitCount_pos (num / den)
    rw [show (digitCount (num / den) : Int) - 1 = (digitCount (num / den) - 1 : Nat) by omega, zpow_natCast]
    exact_mod_cast (Nat.mul_le_mul_right den least).trans (Nat.div_mul_le_self num den)
  · next small =>
    have most := (Nat.div_lt_iff_lt_mul some).mp (lt_pow_digitCount ((den - 1) / num))
    rw [zpow_neg, zpow_natCast, inv_mul_le_iff₀ (by positivity)]
    exact_mod_cast show den ≤ 10 ^ digitCount ((den - 1) / num) * num by omega

namespace Interval

variable {interval : Interval}

def Holds (interval : Interval) (x : ℚ) : Prop :=
  (interval.low : ℚ) / interval.den < x ∧ x < interval.high / interval.den ∨
    interval.closed = true ∧ (interval.low : ℚ) / interval.den ≤ x ∧ x ≤ interval.high / interval.den

theorem contains_iff {low value high : Nat} : interval.contains low value high = true ↔
    low < value ∧ value < high ∨ interval.closed = true ∧ low ≤ value ∧ value ≤ high := by
  rw [contains]
  cases interval.closed with
  | true =>
    simp only [if_true, Bool.and_eq_true, decide_eq_true_eq, true_and]
    omega
  | false => simp

def coarse (step : Int) : Nat := if step < 0 then 1 else 10 ^ step.toNat

def fine (step : Int) : Nat := if step < 0 then 10 ^ (-step).toNat else 1

theorem coarse_eq (step : Int) : (coarse step : ℚ) = 10 ^ step * fine step := by
  rw [coarse, fine]
  split
  · next down =>
    obtain ⟨places, same⟩ := Int.eq_ofNat_of_zero_le (show 0 ≤ -step by omega)
    obtain rfl : step = -places := by omega
    rw [neg_neg, Int.toNat_natCast, zpow_neg, zpow_natCast]
    push_cast
    exact (inv_mul_cancel₀ (by positivity)).symm
  · next up =>
    obtain ⟨places, rfl⟩ := Int.eq_ofNat_of_zero_le (not_lt.mp up)
    rw [Int.toNat_natCast, zpow_natCast]
    push_cast
    ring

theorem fine_pos (step : Int) : 0 < fine step := by
  rw [fine]
  split
  · exact Nat.pow_pos (by decide)
  · exact Nat.one_pos

theorem coarse_pos (step : Int) : 0 < coarse step := by
  rw [coarse]
  split
  · exact Nat.one_pos
  · exact Nat.pow_pos (by decide)

theorem holds_iff (positive : 0 < interval.den) {step : Int} {point : Nat} :
    interval.Holds (point * 10 ^ step) ↔
      interval.contains (interval.low * fine step) (point * (coarse step * interval.den))
        (interval.high * fine step) = true := by
  have den : (0 : ℚ) < interval.den := Nat.cast_pos.mpr positive
  have up : (0 : ℚ) < fine step := Nat.cast_pos.mpr (fine_pos step)
  have scaled : (point : ℚ) * 10 ^ step * interval.den * fine step =
      (point * (coarse step * interval.den) : Nat) := by
    push_cast
    rw [coarse_eq]
    ring
  have above (bound : Nat) : (bound : ℚ) / interval.den < point * 10 ^ step ↔
      bound * fine step < point * (coarse step * interval.den) := by
    rw [div_lt_iff₀ den, ← mul_lt_mul_iff_left₀ up, scaled]
    exact_mod_cast Iff.rfl
  have below (bound : Nat) : (point : ℚ) * 10 ^ step < bound / interval.den ↔
      point * (coarse step * interval.den) < bound * fine step := by
    rw [lt_div_iff₀ den, ← mul_lt_mul_iff_left₀ up, scaled]
    exact_mod_cast Iff.rfl
  simp only [Holds, contains_iff, ← not_lt, above, below]

theorem gridPoint?_eq (tie : TieRule) (step : Int) :
    interval.gridPoint? tie step =
      let lower := interval.value * fine step / (coarse step * interval.den)
      let holds (point : Nat) := interval.contains (interval.low * fine step)
        (point * (coarse step * interval.den)) (interval.high * fine step)
      if holds lower && holds (lower + 1) then
        some (nearer tie lower (interval.value * fine step - lower * (coarse step * interval.den))
          ((lower + 1) * (coarse step * interval.den) - interval.value * fine step))
      else if holds lower then some lower
      else if holds (lower + 1) then some (lower + 1)
      else none := rfl

theorem nearer_cases (tie : TieRule) (lower below above : Nat) :
    nearer tie lower below above = lower ∨ nearer tie lower below above = lower + 1 := by
  unfold nearer
  split
  · exact .inl rfl
  · split
    · exact .inr rfl
    · cases tie with
      | up => exact .inr rfl
      | even =>
        dsimp only
        omega

theorem holds_of_gridPoint? (positive : 0 < interval.den) {tie : TieRule} {step : Int} {point : Nat}
    (found : interval.gridPoint? tie step = some point) : interval.Holds (point * 10 ^ step) := by
  rw [gridPoint?_eq] at found
  dsimp only at found
  split at found
  · next both =>
    obtain ⟨lower, upper⟩ := Bool.and_eq_true_iff.mp both
    cases found
    refine (holds_iff positive).mpr ?_
    obtain same | same := nearer_cases tie _ _ _
    · rwa [same]
    · rwa [same]
  · split at found
    · next lower =>
      cases found
      exact (holds_iff positive).mpr lower
    · split at found
      · next upper =>
        cases found
        exact (holds_iff positive).mpr upper
      · cases found

/-- One of the two points around the value is in the interval if the grid is
finer than the interval is wide. -/
theorem gridPoint?_isSome (positive : 0 < interval.den) (tie : TieRule) {step : Int}
    (low : interval.low < interval.value) (high : interval.value < interval.high)
    (narrow : (10 : ℚ) ^ step * interval.den < interval.high - interval.low) :
    (interval.gridPoint? tie step).isSome = true := by
  have up : (0 : ℚ) < fine step := Nat.cast_pos.mpr (fine_pos step)
  have narrow : interval.low * fine step + coarse step * interval.den < interval.high * fine step := by
    have scaled := (mul_lt_mul_iff_left₀ up).mpr narrow
    rw [mul_right_comm, ← coarse_eq, sub_mul, lt_sub_iff_add_lt'] at scaled
    exact_mod_cast scaled
  have low := Nat.mul_lt_mul_of_pos_right low (fine_pos step)
  have high := Nat.mul_lt_mul_of_pos_right high (fine_pos step)
  have grid : 0 < coarse step * interval.den := Nat.mul_pos (coarse_pos step) positive
  have split := Nat.div_add_mod' (interval.value * fine step) (coarse step * interval.den)
  have rest := Nat.mod_lt (interval.value * fine step) grid
  rw [gridPoint?_eq]
  dsimp only
  generalize interval.value * fine step / (coarse step * interval.den) = lower at split
  split
  · rfl
  · split
    · rfl
    · next none =>
      rw [if_pos]
      · rfl
      rw [contains_iff] at none ⊢
      rw [Nat.succ_mul]
      omega

def below (rank : Nat) : Nat :=
  if BinaryFormat.double.significand rank = 0x10000000000000 ∧
    BinaryFormat.double.lowest < BinaryFormat.double.exponent rank then 1 else 2

def widen (exponent : Int) : Nat := if 0 ≤ exponent then 2 ^ exponent.toNat else 1

def divisor (exponent : Int) : Nat := if 0 ≤ exponent then 4 else 4 * 2 ^ (-exponent).toNat

theorem ofRank_eq (rank : Nat) : ofRank rank =
    let significand := BinaryFormat.double.significand rank
    let exponent := BinaryFormat.double.exponent rank
    ⟨(4 * significand - below rank) * widen exponent, 4 * significand * widen exponent,
      (4 * significand + 2) * widen exponent, divisor exponent, significand % 2 = 0⟩ := rfl

theorem divisor_pos (exponent : Int) : 0 < divisor exponent := by
  rw [divisor]
  split
  · decide
  · exact Nat.mul_pos (by decide) (Nat.two_pow_pos _)

theorem widen_div_divisor (exponent : Int) : (widen exponent : ℚ) / divisor exponent = 2 ^ exponent / 4 := by
  rw [widen, divisor]
  split
  · next up =>
    obtain ⟨places, rfl⟩ := Int.eq_ofNat_of_zero_le up
    rw [Int.toNat_natCast, zpow_natCast]
    push_cast
    rfl
  · next down =>
    obtain ⟨places, same⟩ := Int.eq_ofNat_of_zero_le (show 0 ≤ -exponent by omega)
    obtain rfl : exponent = -places := by omega
    rw [neg_neg, Int.toNat_natCast, zpow_neg, zpow_natCast]
    push_cast
    field_simp

theorem quarters (number : Nat) (exponent : Int) :
    ((number * widen exponent : Nat) : ℚ) / divisor exponent = number / 4 * 2 ^ exponent := by
  rw [Nat.cast_mul, mul_div_assoc, widen_div_divisor]
  ring

theorem halfBelow_eq (rank : Nat) : BinaryFormat.double.halfBelow rank = below rank / 4 := by
  have unit : BinaryFormat.double.unit = 0x10000000000000 := rfl
  rw [BinaryFormat.halfBelow, below, unit]
  split <;> norm_num

theorem below_cases (rank : Nat) :
    below rank = 1 ∧ BinaryFormat.double.significand rank = 0x10000000000000 ∨ below rank = 2 := by
  rw [below]
  split
  · next both => exact .inl ⟨rfl, both.1⟩
  · exact .inr rfl

theorem low_eq {rank : Nat} (some : 0 < BinaryFormat.double.significand rank) :
    ((ofRank rank).low : ℚ) / (ofRank rank).den =
      (BinaryFormat.double.significand rank - BinaryFormat.double.halfBelow rank) *
        2 ^ BinaryFormat.double.exponent rank := by
  have least : below rank ≤ 4 * BinaryFormat.double.significand rank := by
    obtain ⟨one, -⟩ | two := below_cases rank <;> omega
  rw [ofRank_eq]
  dsimp only
  rw [quarters, halfBelow_eq, Nat.cast_sub least]
  push_cast
  ring

theorem high_eq (rank : Nat) : ((ofRank rank).high : ℚ) / (ofRank rank).den =
    (BinaryFormat.double.significand rank + 1 / 2) * 2 ^ BinaryFormat.double.exponent rank := by
  rw [ofRank_eq]
  dsimp only
  rw [quarters]
  push_cast
  ring

theorem nearest_of_holds {rank : Nat} (some : 0 < BinaryFormat.double.significand rank) {x : ℚ}
    (held : (ofRank rank).Holds x) : BinaryFormat.double.Nearest rank x := by
  have power : (0 : ℚ) < 2 ^ BinaryFormat.double.exponent rank := by positivity
  rw [Holds, low_eq some, high_eq] at held
  rw [BinaryFormat.Nearest, lt_div_iff₀ power, div_lt_iff₀ power, le_div_iff₀ power, div_le_iff₀ power]
  exact held.imp id fun closed => ⟨of_decide_eq_true closed.1, closed.2⟩

theorem widen_pos (exponent : Int) : 0 < widen exponent := by
  rw [widen]
  split
  · exact Nat.two_pow_pos _
  · exact Nat.one_pos

theorem gridPoint?_seventeenth {rank : Nat} (some : 0 < BinaryFormat.double.significand rank) (tie : TieRule) :
    ((ofRank rank).gridPoint? tie
      (floorLog10 (ofRank rank).value (ofRank rank).den - (16 : Nat))).isSome = true := by
  have least : below rank ≤ 4 * BinaryFormat.double.significand rank := by
    obtain ⟨one, -⟩ | two := below_cases rank <;> omega
  have most : BinaryFormat.double.significand rank < 2 * 0x10000000000000 :=
    BinaryFormat.double.significand_lt rank
  have scale := widen_pos (BinaryFormat.double.exponent rank)
  have positive := divisor_pos (BinaryFormat.double.exponent rank)
  have less : 4 * BinaryFormat.double.significand rank - below rank < 4 * BinaryFormat.double.significand rank := by
    obtain ⟨one, -⟩ | two := below_cases rank <;> omega
  have low : (ofRank rank).low < (ofRank rank).value := Nat.mul_lt_mul_of_pos_right less scale
  have high : (ofRank rank).value < (ofRank rank).high :=
    Nat.mul_lt_mul_of_pos_right (Nat.lt_add_of_pos_right (by decide)) scale
  refine gridPoint?_isSome positive tie low high ?_
  have top := pow_floorLog10_le (Nat.zero_lt_of_lt low) positive
  have den : (0 : ℚ) < (ofRank rank).den := Nat.cast_pos.mpr positive
  calc
    (10 : ℚ) ^ (floorLog10 (ofRank rank).value (ofRank rank).den - (16 : Nat)) * (ofRank rank).den
        = 10 ^ floorLog10 (ofRank rank).value (ofRank rank).den * (ofRank rank).den / 10 ^ 16 := by
      rw [zpow_sub₀ (by norm_num), zpow_natCast]
      ring
    _ ≤ (ofRank rank).value / 10 ^ 16 := by
      gcongr
      exact (le_div_iff₀ den).mp top
    _ = 4 * BinaryFormat.double.significand rank / 10 ^ 16 * widen (BinaryFormat.double.exponent rank) := by
      rw [ofRank_eq]
      push_cast
      ring
    -- The interval is three quarters wide at a power of two and four elsewhere, and a
    -- significand is below `2 ^ 53`.
    _ < (2 + below rank) * widen (BinaryFormat.double.exponent rank) := by
      have scale : (0 : ℚ) < widen (BinaryFormat.double.exponent rank) := Nat.cast_pos.mpr scale
      refine mul_lt_mul_of_pos_right ?_ scale
      obtain ⟨one, same⟩ | two := below_cases rank
      · rw [one, same]
        norm_num
      · have most : (BinaryFormat.double.significand rank : ℚ) < 2 * 0x10000000000000 := by exact_mod_cast most
        rw [two]
        push_cast
        linarith
    _ = (ofRank rank).high - (ofRank rank).low := by
      rw [ofRank_eq]
      dsimp only
      push_cast [Nat.cast_sub least]
      ring

end Interval

theorem significand_pos {rank : Nat} (some : rank ≠ 0) : 0 < BinaryFormat.double.significand rank := by
  change 0 < if rank < BinaryFormat.double.unit then rank else rank % BinaryFormat.double.unit + BinaryFormat.double.unit
  have unit := BinaryFormat.double.unit_pos
  split <;> omega

/-- The digits are those of the first grid that has a point for the magnitude, which is found among seventeen. -/
theorem ofRank_eq_normalize (tie : TieRule) {rank : Nat} (some : rank ≠ 0) : ∃ extra < 17, ∃ point,
    (Interval.ofRank rank).gridPoint? tie
        (floorLog10 (Interval.ofRank rank).value (Interval.ofRank rank).den - (extra : Nat)) = .some point ∧
      ofRank tie rank =
        normalize 18 ⟨point, floorLog10 (Interval.ofRank rank).value (Interval.ofRank rank).den - (extra : Nat)⟩ := by
  rw [ofRank, if_neg some]
  dsimp only
  cases found : (List.range 17).findSome? fun (extra : Nat) =>
      ((Interval.ofRank rank).gridPoint? tie
        (floorLog10 (Interval.ofRank rank).value (Interval.ofRank rank).den - extra)).map
      fun point => (⟨point, floorLog10 (Interval.ofRank rank).value (Interval.ofRank rank).den - extra⟩ : Decimal) with
  | none =>
    have last := List.findSome?_eq_none_iff.mp found 16 (List.mem_range.mpr (by decide))
    have taken := Interval.gridPoint?_seventeenth (significand_pos some) tie
    rw [Option.map_eq_none_iff.mp last] at taken
    cases taken
  | some decimal =>
    obtain ⟨extra, listed, found⟩ := List.exists_of_findSome?_eq_some found
    obtain ⟨point, taken, rfl⟩ := Option.map_eq_some_iff.mp found
    exact ⟨extra, List.mem_range.mp listed, point, taken, rfl⟩

theorem nearest_ofRank (tie : TieRule) (rank : Nat) :
    BinaryFormat.double.Nearest rank (ofRank tie rank).value := by
  by_cases zero : rank = 0
  · subst zero
    have none : (ofRank tie 0).value = 0 := by
      change (⟨0, 0⟩ : Decimal).value = 0
      rw [value, Nat.cast_zero, zero_mul]
    have significand : BinaryFormat.double.significand 0 = 0 := rfl
    have half : BinaryFormat.double.halfBelow 0 = 1 / 2 := if_neg fun both => by cases both.1
    rw [none, BinaryFormat.Nearest, significand, half, zero_div, Nat.cast_zero]
    exact .inl (by norm_num)
  · obtain ⟨extra, -, point, taken, same⟩ := ofRank_eq_normalize tie zero
    rw [same, value_normalize]
    exact Interval.nearest_of_holds (significand_pos zero)
      (Interval.holds_of_gridPoint? (Interval.divisor_pos _) taken)

/-- The shortest digits read back, however they are written. -/
theorem rankOf_ofRank (tie : TieRule) (rank : Nat) {num den : Nat} (positive : 0 < den)
    (same : (num : ℚ) / den = (ofRank tie rank).value) : BinaryFormat.double.rankOf num den = rank :=
  BinaryFormat.rankOf_of_nearest (by decide) positive (same ▸ nearest_ofRank tie rank)

end Decimal

end LiteralSql
