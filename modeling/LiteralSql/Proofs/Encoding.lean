import LiteralSql.Text.Hex
import LiteralSql.Text.Utf8
import Mathlib.Data.Option.Basic
import Mathlib.Tactic.SplitIfs

/-! Texts as bytes, and bytes as digits.

What is written is read as what it was. So different texts have different bytes,
and different bytes different digits.
-/

set_option autoImplicit false

namespace LiteralSql

namespace Utf8

theorem toNat_lt (c : Char) : c.toNat < 0x110000 := by
  have valid : c.toNat.isValidChar := c.valid
  obtain low | ⟨-, upper⟩ := valid <;> omega

theorem toNat_toUInt8 {number : Nat} (small : number < 0x100) : number.toUInt8.toNat = number :=
  UInt8.toNat_ofNat_of_lt' small

section
variable {payload low high bits : Nat} (above : low ≤ 0x80 + bits % 0x40) (below : 0x80 + bits % 0x40 ≤ high)
include above below

theorem step_inside_bits (missing : Nat) :
    (State.inside missing payload low high).step (0x80 + bits % 0x40).toUInt8 =
      if missing ≤ 1 then .char (Char.ofNat (payload * 0x40 + bits % 0x40))
      else .pending (.inside (missing - 1) (payload * 0x40 + bits % 0x40) 0x80 0xBF) := by
  have byte : (0x80 + bits % 0x40).toUInt8.toNat = 0x80 + bits % 0x40 := toNat_toUInt8 (by omega)
  rw [State.step, byte, if_pos ⟨above, below⟩, Nat.add_sub_cancel_left]

theorem decodeFrom_last (rest : List UInt8) :
    decodeFrom (.inside 1 payload low high) ((0x80 + bits % 0x40).toUInt8 :: rest) =
      (decodeFrom .boundary rest).map (Char.ofNat (payload * 0x40 + bits % 0x40) :: ·) := by
  rw [decodeFrom, step_inside_bits above below, if_pos (Nat.le_refl 1)]

theorem decodeFrom_further (missing : Nat) (rest : List UInt8) :
    decodeFrom (.inside (missing + 2) payload low high) ((0x80 + bits % 0x40).toUInt8 :: rest) =
      decodeFrom (.inside (missing + 1) (payload * 0x40 + bits % 0x40) 0x80 0xBF) rest := by
  rw [decodeFrom, step_inside_bits above below, if_neg (by omega)]
  rfl

end

theorem decodeFrom_lead {byte : UInt8} {missing payload low high : Nat}
    (lead : lead? byte = some (missing + 1, payload, low, high)) (rest : List UInt8) :
    decodeFrom .boundary (byte :: rest) = decodeFrom (.inside (missing + 1) payload low high) rest := by
  rw [decodeFrom, State.step, lead]
  rfl

theorem lead_two {code : Nat} (least : 0x80 ≤ code) (most : code < 0x800) :
    lead? (0xC0 + code / 0x40).toUInt8 = some (1, code / 0x40, 0x80, 0xBF) := by
  have byte : (0xC0 + code / 0x40).toUInt8.toNat = 0xC0 + code / 0x40 := toNat_toUInt8 (by omega)
  rw [lead?, byte, if_neg (by omega), if_neg (by omega), if_pos (by omega), Nat.add_sub_cancel_left]

theorem lead_three {code : Nat} (least : 0x800 ≤ code) (most : code < 0x10000) (valid : code.isValidChar) :
    ∃ low high, lead? (0xE0 + code / 0x1000).toUInt8 = some (2, code / 0x1000, low, high) ∧
      low ≤ 0x80 + code / 0x40 % 0x40 ∧ 0x80 + code / 0x40 % 0x40 ≤ high := by
  have byte : (0xE0 + code / 0x1000).toUInt8.toNat = 0xE0 + code / 0x1000 := toNat_toUInt8 (by omega)
  rw [lead?, byte, if_neg (by omega), if_neg (by omega), if_neg (by omega)]
  split_ifs
  · have payload : code / 0x1000 = 0 := by omega
    exact ⟨0xA0, 0xBF, by rw [payload], by omega, by omega⟩
  -- The surrogates are the upper half of the codes with this byte.
  · have payload : code / 0x1000 = 0xD := by omega
    have lower : code < 0xD800 := by obtain valid | valid := valid <;> omega
    exact ⟨0x80, 0x9F, by rw [payload], by omega, by omega⟩
  · exact ⟨0x80, 0xBF, by rw [Nat.add_sub_cancel_left], by omega, by omega⟩
  all_goals omega

theorem lead_four {code : Nat} (least : 0x10000 ≤ code) (most : code < 0x110000) :
    ∃ low high, lead? (0xF0 + code / 0x40000).toUInt8 = some (3, code / 0x40000, low, high) ∧
      low ≤ 0x80 + code / 0x1000 % 0x40 ∧ 0x80 + code / 0x1000 % 0x40 ≤ high := by
  have byte : (0xF0 + code / 0x40000).toUInt8.toNat = 0xF0 + code / 0x40000 := toNat_toUInt8 (by omega)
  rw [lead?, byte, if_neg (by omega), if_neg (by omega), if_neg (by omega), if_neg (by omega), if_neg (by omega),
    if_neg (by omega)]
  split_ifs
  · have payload : code / 0x40000 = 0 := by omega
    exact ⟨0x90, 0xBF, by rw [payload], by omega, by omega⟩
  · exact ⟨0x80, 0xBF, by rw [Nat.add_sub_cancel_left], by omega, by omega⟩
  · have payload : code / 0x40000 = 4 := by omega
    exact ⟨0x80, 0x8F, by rw [payload], by omega, by omega⟩
  · omega

theorem decodeFrom_encodeChar (c : Char) (rest : List UInt8) :
    decodeFrom .boundary (encodeChar c ++ rest) = (decodeFrom .boundary rest).map (c :: ·) := by
  have same {code : Nat} (total : code = c.toNat) : Char.ofNat code = c := by rw [total, Char.ofNat_toNat]
  have within (bits : Nat) : 0x80 ≤ 0x80 + bits % 0x40 ∧ 0x80 + bits % 0x40 ≤ 0xBF := by omega
  rw [encodeChar]
  split_ifs with one two three
  · have byte : c.toNat.toUInt8.toNat = c.toNat := toNat_toUInt8 (by omega)
    have lead : lead? c.toNat.toUInt8 = some (0, c.toNat, 0, 0) := by
      rw [lead?, byte]
      exact if_pos one
    rw [List.cons_append, List.nil_append, decodeFrom, State.step, lead]
    exact congrArg (fun d => Option.map (d :: ·) (decodeFrom .boundary rest)) (same rfl)
  · have lead := lead_two (by omega) two
    simp only [List.cons_append, List.nil_append]
    rw [decodeFrom_lead lead, decodeFrom_last (within _).1 (within _).2, same (by omega)]
  · obtain ⟨low, high, lead, above, below⟩ := lead_three (by omega) three c.valid
    simp only [List.cons_append, List.nil_append]
    rw [decodeFrom_lead lead, decodeFrom_further above below, decodeFrom_last (within _).1 (within _).2,
      same (by omega)]
  · obtain ⟨low, high, lead, above, below⟩ := lead_four (by omega) (toNat_lt c)
    simp only [List.cons_append, List.nil_append]
    rw [decodeFrom_lead lead, decodeFrom_further above below, decodeFrom_further (within _).1 (within _).2,
      decodeFrom_last (within _).1 (within _).2, same (by omega)]

theorem decode?_encode (text : Text) : decode? (encode text) = some text := by
  induction text with
  | nil => rfl
  | cons c rest ih =>
    rw [decode?] at ih
    rw [decode?, encode, List.flatMap_cons, decodeFrom_encodeChar, ← encode, ih]
    rfl

theorem encode_injective : Function.Injective encode := by
  have read : decode? ∘ encode = some := funext decode?_encode
  exact .of_comp (read ▸ Option.some_injective Text)

end Utf8

namespace Hex

theorem digitValue_lowerDigit : ∀ value < 16, digitValue? (lowerDigit value) = some value := by decide

theorem decode?_encode (bytes : List UInt8) : decode? (encode bytes) = some bytes := by
  induction bytes with
  | nil => rfl
  | cons byte rest ih =>
    have bound := byte.toNat_lt
    have digits : 16 * (byte.toNat / 16) + byte.toNat % 16 = byte.toNat := Nat.div_add_mod _ _
    have whole : encode (byte :: rest) =
        lowerDigit (byte.toNat / 16) :: lowerDigit (byte.toNat % 16) :: encode rest := rfl
    rw [whole, decode?, digitValue_lowerDigit _ (by omega), digitValue_lowerDigit _ (by omega), ih]
    simp only [bind, Option.bind, digits, Nat.toUInt8_eq, UInt8.ofNat_toNat]

theorem encode_injective : Function.Injective encode := by
  have read : decode? ∘ encode = some := funext decode?_encode
  exact .of_comp (read ▸ Option.some_injective (List UInt8))

theorem take_encode (count : Nat) (bytes : List UInt8) : (encode bytes).take (2 * count) = encode (bytes.take count) := by
  induction bytes generalizing count with
  | nil => simp only [encode, List.flatMap_nil, List.take_nil]
  | cons byte rest ih =>
    cases count with
    | zero => rfl
    | succ count =>
      rw [Nat.mul_succ, List.take_succ_cons]
      exact congrArg (lowerDigit (byte.toNat / 16) :: lowerDigit (byte.toNat % 16) :: ·) (ih count)

end Hex

end LiteralSql
