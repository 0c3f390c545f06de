import Mathlib.Data.List.TakeWhile
import LiteralSql.Double.Notation
import LiteralSql.Json.Printer
import LiteralSql.Proofs.Double.Shortest
import LiteralSql.Proofs.Json.Lexemes
import LiteralSql.Proofs.Text

/-! Numbers as they are printed, and what a reader makes of them.

A number is read up to the first character that no number contains, so what is
read is the numeral that was printed. Its exact value rounds to the double that
the digits were taken for.
-/

set_option autoImplicit false

namespace LiteralSql

def Text.Digits (text : Text) : Prop := text ≠ [] ∧ ∀ c ∈ text, Text.isDigit c = true

theorem Text.digits_ofNat (number : Nat) : (Text.ofNat number).Digits :=
  ⟨Text.ofNat_ne_nil number, fun _ => Text.isDigit_of_mem_ofNat⟩

def JsonToken.Stops (rest : Text) : Prop := ∀ c ∈ rest.head?, JsonToken.isScalarChar c = false

theorem JsonToken.Stops.cases {rest : Text} (stops : Stops rest) :
    rest = [] ∨ ∃ c others, rest = c :: others ∧ isScalarChar c = false := by
  cases rest with
  | nil => exact .inl rfl
  | cons c others => exact .inr ⟨c, others, rfl, stops c rfl⟩

theorem Text.takeWhile_digits {digits rest : Text} (numeric : ∀ c ∈ digits, Text.isDigit c = true)
    (stops : ∀ c ∈ rest.head?, Text.isDigit c = false) :
    (digits ++ rest).takeWhile Text.isDigit = digits ∧ (digits ++ rest).dropWhile Text.isDigit = rest := by
  rw [List.takeWhile_append_of_pos numeric, List.dropWhile_append_of_pos numeric]
  cases rest with
  | nil => exact ⟨List.append_nil digits, rfl⟩
  | cons c others =>
    have other : ¬Text.isDigit c = true := by simp [stops c rfl]
    rw [List.takeWhile_cons_of_neg other, List.dropWhile_cons_of_neg other, List.append_nil]
    exact ⟨rfl, rfl⟩

namespace JsonNumeral

def fractionText : Option Text → Text
  | none => []
  | some digits => '.' :: digits

def exponentText : Option (Bool × Text) → Text
  | none => []
  | some (negative, digits) => 'e' :: (if negative then '-' else '+') :: digits

def text (numeral : JsonNumeral) : Text :=
  Double.sign numeral.negative ++
    (numeral.whole ++ (fractionText numeral.fraction ++ exponentText numeral.exponent))

/-- There are digits wherever a number has some, and a zero begins no others. -/
structure Written (numeral : JsonNumeral) : Prop where
  whole : numeral.whole.Digits
  zero : numeral.whole.head? = some '0' → numeral.whole = ['0']
  fraction : ∀ digits ∈ numeral.fraction, digits.Digits
  exponent : ∀ part ∈ numeral.exponent, part.2.Digits

end JsonNumeral

namespace JsonToken

open JsonNumeral

theorem Stops.no_digit {rest : Text} (stops : Stops rest) : ∀ c ∈ rest.head?, Text.isDigit c = false := by
  intro c first
  by_contra digit
  exact absurd (isScalarChar_of_isDigit (eq_true_of_ne_false digit)) (by simp [stops c first])

theorem readExponent_written {negative : Bool} {digits rest : Text} (written : digits.Digits) (stops : Stops rest) :
    readExponent ((if negative then '-' else '+') :: (digits ++ rest)) = some ((negative, digits), rest) := by
  obtain ⟨run, behind⟩ := Text.takeWhile_digits written.2 stops.no_digit
  cases negative with
  | true =>
    rw [if_pos rfl, readExponent, run, behind, if_neg (by simpa using written.1)]
  | false =>
    rw [if_neg Bool.false_ne_true, readExponent, run, behind, if_neg (by simpa using written.1)]

theorem readFraction_written {fraction : Option Text} {rest : Text}
    (written : ∀ digits ∈ fraction, digits.Digits) (other : ∀ c ∈ rest.head?, Text.isDigit c = false)
    (point : ∀ c ∈ rest.head?, c ≠ '.') :
    readFraction (fractionText fraction ++ rest) = some (fraction, rest) := by
  cases fraction with
  | none =>
    rw [fractionText, List.nil_append]
    unfold readFraction
    split
    · next others => exact absurd rfl (point '.' rfl)
    · rfl
  | some digits =>
    have written := written digits rfl
    obtain ⟨run, behind⟩ := Text.takeWhile_digits written.2 other
    rw [fractionText, List.cons_append, readFraction, run, behind, if_neg (by simpa using written.1)]

theorem readAfterWhole_written {numeral : JsonNumeral} (written : numeral.Written) {rest : Text} (stops : Stops rest) :
    readAfterWhole numeral.negative numeral.whole
      (fractionText numeral.fraction ++ (exponentText numeral.exponent ++ rest)) = some (numeral, rest) := by
  obtain ⟨negative, whole, fraction, exponent⟩ := numeral
  cases exponent with
  | none =>
    have point : ∀ c ∈ rest.head?, c ≠ '.' := by
      rintro _ first rfl
      cases stops '.' first
    dsimp only [exponentText]
    rw [List.nil_append, readAfterWhole, readFraction_written written.fraction stops.no_digit point]
    obtain rfl | ⟨c, others, rfl, other⟩ := stops.cases
    · rfl
    · dsimp only [Option.bind_eq_bind, Option.bind_some]
      split
      · next same =>
        obtain ⟨rfl, -⟩ := List.cons.inj same
        exact absurd other (by decide)
      · next same =>
        obtain ⟨rfl, -⟩ := List.cons.inj same
        exact absurd other (by decide)
      · rfl
  | some part =>
    obtain ⟨down, digits⟩ := part
    dsimp only [exponentText]
    rw [List.cons_append, readAfterWhole,
      readFraction_written written.fraction (by rintro _ ⟨⟩; rfl) (by rintro _ ⟨⟩; decide)]
    change Option.bind (readExponent ((if down then '-' else '+') :: (digits ++ rest))) _ = _
    rw [readExponent_written (written.exponent _ rfl) stops]
    rfl

theorem no_digit_behind_whole (numeral : JsonNumeral) {rest : Text} (stops : Stops rest) :
    ∀ c ∈ (fractionText numeral.fraction ++ (exponentText numeral.exponent ++ rest)).head?,
      Text.isDigit c = false := by
  obtain ⟨negative, whole, fraction, exponent⟩ := numeral
  cases fraction with
  | some digits =>
    rintro _ ⟨⟩
    rfl
  | none =>
    cases exponent with
    | some part =>
      rintro _ ⟨⟩
      rfl
    | none => exact stops.no_digit

theorem readNumber_written {numeral : JsonNumeral} (written : numeral.Written) {rest : Text} (stops : Stops rest) :
    readNumber numeral.negative
        (numeral.whole ++ (fractionText numeral.fraction ++ (exponentText numeral.exponent ++ rest))) =
      some (numeral, rest) := by
  obtain ⟨run, behind⟩ := Text.takeWhile_digits written.whole.2 (no_digit_behind_whole numeral stops)
  have after := readAfterWhole_written written stops
  rw [readNumber, run]
  split
  · next none => exact absurd none written.whole.1
  · next zero =>
    rw [behind]
    exact after
  · next others notAlone same =>
    have zero := written.zero (congrArg List.head? same)
    exact absurd (List.cons.inj (same.symm.trans zero)).2 notAlone
  · rw [behind]
    exact after

theorem read_digit {c : Char} (digit : Text.isDigit c = true) (rest : Text) :
    read (c :: rest) = (readNumber false (c :: rest)).map fun (numeral, after) => (.number numeral, after) := by
  -- No bracket, quote, sign or keyword begins with a digit.
  unfold read
  split
  case h_12 => rfl
  all_goals
    next same =>
    obtain ⟨rfl, -⟩ := List.cons.inj same
    exact absurd digit (by decide)

theorem read_written {numeral : JsonNumeral} (written : numeral.Written) {rest : Text} (stops : Stops rest) :
    read (numeral.text ++ rest) = some (.number numeral, rest) := by
  have number := readNumber_written written stops
  rw [text, List.append_assoc, List.append_assoc, List.append_assoc]
  cases sign : numeral.negative with
  | true =>
    rw [sign] at number
    change (readNumber true (numeral.whole ++ _)).map _ = _
    rw [number]
    rfl
  | false =>
    rw [sign] at number
    obtain ⟨c, others, same⟩ := List.exists_cons_of_ne_nil written.whole.1
    have digit := written.whole.2 c (same ▸ List.mem_cons_self)
    change read (numeral.whole ++ _) = _
    rw [same] at number ⊢
    rw [List.cons_append, read_digit digit, ← List.cons_append, number]
    rfl

end JsonToken

namespace JsonNumeral

def decimal (numeral : JsonNumeral) : Decimal :=
  let fraction := numeral.fraction.getD []
  let exponent : Int := match numeral.exponent with
    | none => 0
    | some (negative, digits) => if negative then -Text.toNat digits else Text.toNat digits
  ⟨Text.toNat (numeral.whole ++ fraction), exponent - fraction.length⟩

end JsonNumeral

namespace Decimal

def numeral (negative : Bool) (decimal : Decimal) : JsonNumeral :=
  let exponent := decimal.scientificExponent
  if -5 ≤ exponent ∧ exponent < 16 then
    let (whole, fraction) := decimal.positional
    ⟨negative, whole, some (if fraction.isEmpty then ['0'] else fraction), none⟩
  else
    let written := some (decide (exponent < 0), Text.ofNat exponent.natAbs)
    match Text.ofNat decimal.digits with
    | first :: second :: rest => ⟨negative, [first], some (second :: rest), written⟩
    | short => ⟨negative, short, none, written⟩

theorem text_numeral (negative : Bool) (decimal : Decimal) :
    (decimal.numeral negative).text = Double.sign negative ++ decimal.jsonText := by
  rw [numeral, jsonText]
  dsimp only
  split
  · rw [JsonNumeral.text, JsonNumeral.fractionText, JsonNumeral.exponentText, List.append_nil]
  · -- A point is written behind the first digit only if there are more.
    generalize Text.ofNat decimal.digits = digits
    obtain _ | ⟨first, _ | ⟨second, rest⟩⟩ := digits <;>
      simp [JsonNumeral.text, JsonNumeral.fractionText, JsonNumeral.exponentText]

theorem negative_numeral (negative : Bool) (decimal : Decimal) : (decimal.numeral negative).negative = negative := by
  rw [numeral]
  dsimp only
  split
  · rfl
  · split <;> rfl

theorem numeral_not_integral (negative : Bool) (decimal : Decimal) :
    (decimal.numeral negative).fraction.isSome = true ∨ (decimal.numeral negative).exponent.isSome = true := by
  rw [numeral]
  dsimp only
  split
  · exact .inl rfl
  · right
    split <;> rfl

def Written (decimal : Decimal) : Prop := decimal.digits = 0 → decimal.exponent = 0

theorem digits_positional (decimal : Decimal) :
    decimal.positional.1.Digits ∧ ∀ c ∈ decimal.positional.2, Text.isDigit c = true := by
  have digits := Text.digits_ofNat decimal.digits
  have zeros (count : Nat) : ∀ c ∈ List.replicate count '0', Text.isDigit c = true := fun c member => by
    rw [List.eq_of_mem_replicate member]
    rfl
  rw [positional]
  dsimp only
  split
  · refine ⟨⟨List.append_ne_nil_of_left_ne_nil digits.1 _, fun c member => ?_⟩, nofun⟩
    exact (List.mem_append.mp member).elim (digits.2 c) (zeros _ c)
  · split
    · next shorter =>
      rw [List.splitAt_eq]
      refine ⟨⟨fun none => ?_, fun c member => digits.2 c (List.mem_of_mem_take member)⟩,
        fun c member => digits.2 c (List.mem_of_mem_drop member)⟩
      rw [List.take_eq_nil_iff] at none
      obtain none | none := none
      · omega
      · exact digits.1 none
    · refine ⟨⟨nofun, fun c member => by rw [List.mem_singleton.mp member]; rfl⟩, fun c member => ?_⟩
      exact (List.mem_append.mp member).elim (zeros _ c) (digits.2 c)

theorem head?_positional {decimal : Decimal} (written : decimal.Written) :
    decimal.positional.1.head? = some '0' → decimal.positional.1 = ['0'] := by
  intro zero
  obtain none | positive := Nat.eq_zero_or_pos decimal.digits
  · rw [positional, none, written none]
    rfl
  · have digits := Text.head?_ofNat positive
    rw [positional] at zero ⊢
    dsimp only at zero ⊢
    split
    · next up =>
      rw [if_pos up, List.head?_append_of_ne_nil _ (Text.ofNat_ne_nil _)] at zero
      exact absurd zero digits
    · next down =>
      rw [if_neg down] at zero
      split
      · next shorter =>
        rw [if_pos shorter, List.splitAt_eq, List.head?_take, if_neg (by omega)] at zero
        exact absurd zero digits
      · rfl

theorem written_numeral (negative : Bool) {decimal : Decimal} (written : decimal.Written) :
    (decimal.numeral negative).Written := by
  have digits := Text.digits_ofNat decimal.digits
  rw [numeral]
  dsimp only
  split
  · have ⟨whole, fraction⟩ := decimal.digits_positional
    refine ⟨whole, head?_positional written, ?_, nofun⟩
    rintro _ ⟨⟩
    split
    · exact ⟨nofun, fun c member => by rw [List.mem_singleton.mp member]; rfl⟩
    · next some => exact ⟨by simpa using some, fraction⟩
  · next far =>
    -- Far from the point there is one digit before it, or no point at all.
    have exponent : ∀ part ∈ some (decide (decimal.scientificExponent < 0),
        Text.ofNat decimal.scientificExponent.natAbs), part.2.Digits := by
      rintro _ ⟨⟩
      exact Text.digits_ofNat _
    split
    · next first second rest same =>
      rw [same] at digits
      refine ⟨⟨nofun, fun c member => ?_⟩, ?_, ?_, exponent⟩
      · rw [List.mem_singleton.mp member]
        exact digits.2 first List.mem_cons_self
      · rintro ⟨⟩
        rfl
      · rintro _ ⟨⟩
        exact ⟨nofun, fun c member => digits.2 c (List.mem_cons_of_mem first member)⟩
    · next short other =>
      refine ⟨digits, fun zero => ?_, nofun, exponent⟩
      obtain ⟨c, others, same⟩ := List.exists_cons_of_ne_nil digits.1
      rw [same] at zero ⊢
      cases zero
      cases others with
      | nil => rfl
      | cons second rest => exact absurd same (other _ _ _)

theorem value_positional (decimal : Decimal) :
    (⟨Text.toNat (decimal.positional.1 ++ decimal.positional.2), -decimal.positional.2.length⟩ : Decimal).value =
      decimal.value := by
  obtain ⟨digits, exponent⟩ := decimal
  rw [positional]
  dsimp only
  split
  · next up =>
    obtain ⟨places, rfl⟩ := Int.eq_ofNat_of_zero_le up
    rw [value, value, List.append_nil, Text.toNat_append, Text.toNat_zeros, Text.toNat_ofNat, List.length_replicate]
    simp only [List.length_nil, Int.toNat_natCast, zpow_natCast]
    push_cast
    ring
  · next down =>
    obtain ⟨places, same⟩ := Int.eq_ofNat_of_zero_le (show 0 ≤ -exponent by omega)
    obtain rfl : exponent = -places := by omega
    rw [neg_neg, Int.toNat_natCast]
    split
    · next shorter =>
      rw [List.splitAt_eq, List.take_append_drop, Text.toNat_ofNat, List.length_drop]
      congr 2
      omega
    · next longer =>
      -- Zeros in front of the digits do not count.
      have zeros : Text.toNat (['0'] ++ (List.replicate (places - (Text.ofNat digits).length) '0' ++ Text.ofNat digits)) =
          digits := by
        rw [Text.toNat_append, Text.toNat_append, Text.toNat_zeros, Text.toNat_ofNat]
        change _ * 0 + _ = _
        omega
      rw [zeros, List.length_append, List.length_replicate]
      congr 2
      omega

theorem value_numeral (negative : Bool) (decimal : Decimal) :
    (decimal.numeral negative).decimal.value = decimal.value := by
  rw [numeral]
  dsimp only
  split
  · rw [← value_positional decimal]
    generalize decimal.positional = split
    obtain ⟨whole, fraction⟩ := split
    rw [JsonNumeral.decimal]
    dsimp only [Option.getD_some]
    split
    · next none =>
      obtain rfl := List.isEmpty_iff.mp none
      rw [value, value, Text.toNat_append, List.append_nil]
      have zero : Text.toNat ['0'] = 0 := rfl
      have scale : (10 : ℚ) ^ (0 - (1 : Nat) : Int) = 10⁻¹ := by norm_num
      rw [zero, List.length_singleton, List.length_nil, scale]
      push_cast
      norm_num
      ring
    · rw [zero_sub]
  · have count : digitCount decimal.digits = (Text.ofNat decimal.digits).length := rfl
    -- The exponent is written for a point behind the first digit.
    have written : (if decide (decimal.scientificExponent < 0) = true then
        -(Text.toNat (Text.ofNat decimal.scientificExponent.natAbs) : Int)
        else Text.toNat (Text.ofNat decimal.scientificExponent.natAbs)) = decimal.exponent + digitCount decimal.digits - 1 := by
      rw [Text.toNat_ofNat]
      change _ = decimal.scientificExponent
      split
      · next down =>
        have := of_decide_eq_true down
        omega
      · next up =>
        have := of_decide_eq_false (eq_false_of_ne_true up)
        omega
    split
    · next first second rest digits =>
      rw [JsonNumeral.decimal]
      dsimp only [Option.getD_some]
      have whole : Text.toNat ([first] ++ second :: rest) = decimal.digits := by
        rw [List.singleton_append, ← digits, Text.toNat_ofNat]
      have exponent : decimal.exponent + ((first :: second :: rest).length : Int) - 1 - (second :: rest).length =
          decimal.exponent := by
        rw [List.length_cons]
        push_cast
        ring
      rw [written, count, whole, digits, exponent]
    · next short other =>
      rw [JsonNumeral.decimal]
      dsimp only [Option.getD_none]
      have one : (Text.ofNat decimal.digits).length = 1 := by
        obtain ⟨c, others, same⟩ := List.exists_cons_of_ne_nil (Text.ofNat_ne_nil decimal.digits)
        cases others with
        | nil => rw [same, List.length_singleton]
        | cons second rest => exact absurd same (other _ _ _)
      have exponent : decimal.exponent + ((1 : Nat) : Int) - 1 - ((0 : Nat) : Int) = decimal.exponent := by omega
      rw [written, count, one, List.append_nil, Text.toNat_ofNat, List.length_nil, exponent]

def ratio (decimal : Decimal) : Nat × Nat :=
  if 0 ≤ decimal.exponent then (decimal.digits * 10 ^ decimal.exponent.toNat, 1)
  else (decimal.digits, 10 ^ (-decimal.exponent).toNat)

theorem ratio_eq (decimal : Decimal) :
    0 < decimal.ratio.2 ∧ (decimal.ratio.1 : ℚ) / decimal.ratio.2 = decimal.value := by
  obtain ⟨digits, exponent⟩ := decimal
  rw [ratio]
  dsimp only
  split
  · next up =>
    obtain ⟨places, rfl⟩ := Int.eq_ofNat_of_zero_le up
    refine ⟨Nat.one_pos, ?_⟩
    rw [value, Int.toNat_natCast, zpow_natCast]
    push_cast
    rw [div_one]
  · next down =>
    obtain ⟨places, same⟩ := Int.eq_ofNat_of_zero_le (show 0 ≤ -exponent by omega)
    obtain rfl : exponent = -places := by omega
    rw [value, neg_neg, Int.toNat_natCast, zpow_neg, zpow_natCast]
    refine ⟨Nat.pow_pos (by decide), ?_⟩
    push_cast
    rw [div_eq_mul_inv]

theorem written_ofRank (tie : TieRule) (rank : Nat) : (ofRank tie rank).Written := by
  intro none
  have nearest := nearest_ofRank tie rank
  rw [value, none, Nat.cast_zero, zero_mul] at nearest
  rw [nearest.eq_zero]
  rfl

end Decimal

namespace JsonNumeral

/-- The double nearest to a numeral, unless all doubles are too small. -/
def nearest? (numeral : JsonNumeral) : Option Double :=
  let (num, den) := numeral.decimal.ratio
  let rounded := Double.ofRatio numeral.negative num den
  if rounded.isFinite then some rounded else none

def ofInteger (number : JsonInteger) : JsonNumeral :=
  ⟨decide (number.value < 0), Text.ofNat number.value.natAbs, none, none⟩

def ofDouble (negative : Bool) (rank : Nat) : JsonNumeral := (Decimal.ofRank .even rank).numeral negative

theorem text_ofInteger (number : JsonInteger) : (ofInteger number).text = Text.ofInt number.value := by
  rw [text, ofInteger, fractionText, exponentText, List.append_nil, List.append_nil]
  change Double.sign (decide (number.value < 0)) ++ Text.ofNat number.value.natAbs = _
  cases number.value with
  | ofNat value =>
    rw [decide_eq_false (not_lt.mpr (Int.natCast_nonneg value) : ¬Int.ofNat value < 0)]
    rfl
  | negSucc value =>
    rw [decide_eq_true (Int.negSucc_lt_zero value)]
    rfl

theorem written_ofInteger (number : JsonInteger) : (ofInteger number).Written := by
  refine ⟨Text.digits_ofNat _, fun zero => ?_, nofun, nofun⟩
  obtain none | positive := Nat.eq_zero_or_pos number.value.natAbs
  · rw [ofInteger, none]
    rfl
  · exact absurd zero (Text.head?_ofNat positive)

theorem text_ofDouble (negative : Bool) (rank : Fin BinaryFormat.double.ranks) :
    (ofDouble negative rank).text = Json.doubleText (.finite negative rank) :=
  Decimal.text_numeral negative _

theorem written_ofDouble (negative : Bool) (rank : Nat) : (ofDouble negative rank).Written :=
  Decimal.written_numeral negative (Decimal.written_ofRank .even rank)

theorem nearest?_ofDouble (negative : Bool) (rank : Fin BinaryFormat.double.ranks) :
    (ofDouble negative rank).nearest? = some (.finite negative rank) := by
  obtain ⟨positive, value⟩ := (ofDouble negative rank).decimal.ratio_eq
  have same := value.trans (Decimal.value_numeral negative (Decimal.ofRank .even rank))
  have rounded : Double.ofRatio negative (ofDouble negative rank).decimal.ratio.1
      (ofDouble negative rank).decimal.ratio.2 = .finite negative rank := by
    rw [Double.ofRatio, Decimal.rankOf_ofRank .even rank positive same]
    exact dif_pos rank.isLt
  rw [nearest?]
  dsimp only
  rw [ofDouble, Decimal.negative_numeral, ← ofDouble, rounded]
  rfl

end JsonNumeral

end LiteralSql
