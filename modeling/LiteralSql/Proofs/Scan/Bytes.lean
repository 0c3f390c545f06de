import LiteralSql.Proofs.Encoding
import LiteralSql.Proofs.Keys
import LiteralSql.Proofs.Rows.Spelling

/-! Reading a text by its bytes.

All marks are characters of ASCII, and the bytes of any other character are none
of these. So a reader that takes the bytes one after the other finds the same
regions and placeholders, and it never cuts a character in two.
-/

set_option autoImplicit false

namespace LiteralSql

namespace Utf8

/-- The bytes of a text, each as the character with its number. -/
def spread (text : Text) : Text := Bytes.toChars (encode text)

theorem spread_cons (c : Char) (rest : Text) : spread (c :: rest) = spread [c] ++ spread rest := by
  simp [spread, encode, Bytes.toChars]

theorem spread_ascii {c : Char} (low : c.toNat < 0x80) : spread [c] = [c] := by
  have byte : c.toNat.toUInt8.toNat = c.toNat := toNat_toUInt8 (by omega)
  simp [spread, encode, encodeChar, low, Bytes.toChars, byte]

theorem high_of_mem_encodeChar {c : Char} (high : 0x80 ≤ c.toNat) : ∀ byte ∈ encodeChar c, 0x80 ≤ byte.toNat := by
  have bound := toNat_lt c
  have upper {number : Nat} (least : 0x80 ≤ number) (most : number < 0x100) : 0x80 ≤ number.toUInt8.toNat := by
    rwa [toNat_toUInt8 most]
  have further (number : Nat) : 0x80 ≤ (0x80 + number % 0x40).toUInt8.toNat := upper (by omega) (by omega)
  rw [encodeChar, if_neg (by omega)]
  split_ifs with two three
  · simp only [List.forall_mem_cons, further, List.not_mem_nil, false_imp_iff, implies_true, and_true]
    exact upper (by omega) (by omega)
  · simp only [List.forall_mem_cons, further, List.not_mem_nil, false_imp_iff, implies_true, and_true]
    exact upper (by omega) (by omega)
  · simp only [List.forall_mem_cons, further, List.not_mem_nil, false_imp_iff, implies_true, and_true]
    exact upper (by omega) (by omega)

theorem high_of_mem_spread {c d : Char} (high : 0x80 ≤ c.toNat) (member : d ∈ spread [c]) : 0x80 ≤ d.toNat := by
  obtain ⟨byte, inside, rfl⟩ := List.mem_map.mp member
  rw [encode, List.flatMap_singleton] at inside
  rw [toNat_ofNat_byte]
  exact high_of_mem_encodeChar high byte inside

theorem spread_ne_nil (c : Char) : spread [c] ≠ [] := by
  rw [spread, encode, List.flatMap_singleton, encodeChar, Bytes.toChars, ne_eq, List.map_eq_nil_iff]
  split_ifs <;> exact not_false

theorem spread_eq_nil {text : Text} : spread text = [] ↔ text = [] := by
  cases text with
  | nil => exact iff_of_true rfl rfl
  | cons c rest =>
    rw [spread_cons, List.append_eq_nil_iff]
    exact iff_of_false (fun both => spread_ne_nil c both.1) (List.cons_ne_nil c rest)

end Utf8

theorem ne_of_high {c mark : Char} (high : 0x80 ≤ c.toNat) (low : mark.toNat < 0x80) : c ≠ mark := by
  rintro rfl
  omega

namespace SqlToken

def spread : SqlToken → List SqlToken
  | .bare c => (Utf8.spread [c]).map .bare
  | .shielded c => (Utf8.spread [c]).map .shielded
  | .value => [.value]
  | .identifier => [.identifier]

theorem spread_of_low {token : SqlToken} (low : ∀ c ∈ token.char?, c.toNat < 0x80) : token.spread = [token] := by
  cases token with
  | bare c | shielded c => rw [spread, Utf8.spread_ascii (low c rfl)]; rfl
  | value | identifier => rfl

end SqlToken

namespace SqlState

theorem isTagChar_of_high {c : Char} (high : 0x80 ≤ c.toNat) : isTagChar c = false := by
  have code : c.val.toNat = c.toNat := rfl
  rw [← Bool.not_eq_true]
  intro letter
  simp only [isTagChar, Text.isDigit, Bool.or_eq_true, Bool.and_eq_true, decide_eq_true_eq, Char.le_def,
    UInt32.le_iff_toNat_le, Char.ext_iff, ← UInt32.toNat_inj] at letter
  simp only [Char.reduceVal, UInt32.reduceToNat] at letter
  omega

theorem settle_settle (state : SqlState) : state.settle.settle = state.settle := by
  cases state <;> rfl

theorem pending_settle (state : SqlState) : state.settle.pending = [] := by
  cases state <;> rfl

theorem step_high {state : SqlState} (regular : state.Regular) {c : Char} (high : 0x80 ≤ c.toNat) :
    state.step c = (state.settle, state.pending ++ [state.settle.plainToken c]) := by
  have plain : Quiet.isPlain c = true :=
    @Quiet.isPlain_of_class (fun c => decide (0x80 ≤ c.toNat)) (by decide) c (decide_eq_true high)
  exact regular.step_foreign plain (isTagChar_of_high high) (ne_of_high high (by decide))
    fun _ => ne_of_high high (by decide)

theorem read_high {state : SqlState} (regular : state.Regular) {text : Text} (some : text ≠ [])
    (high : ∀ c ∈ text, 0x80 ≤ c.toNat) :
    state.read text = (state.settle, state.pending ++ text.map state.settle.plainToken) := by
  induction text generalizing state with
  | nil => exact absurd rfl some
  | cons c rest ih =>
    rw [List.forall_mem_cons] at high
    have step := step_high regular high.1
    rw [read_cons, step]
    by_cases last : rest = []
    · subst last
      simp
    · have further := regular.step c
      rw [step] at further
      rw [ih further last high.2, settle_settle, pending_settle]
      simp

theorem flatMap_spread_step (state : SqlState) {c : Char} (low : c.toNat < 0x80) :
    (state.step c).2.flatMap SqlToken.spread = (state.step c).2 := by
  have keeps {tokens : List SqlToken} (each : ∀ token ∈ tokens, token.spread = [token]) :
      tokens.flatMap SqlToken.spread = tokens := by
    rw [List.flatMap_congr each, List.flatMap_singleton']
  have emitted {outcome : SqlState × List SqlToken} (emits : Emits c outcome) :
      ∀ token ∈ outcome.2, token.spread = [token] := by
    cases emits with
    | char char settled =>
      refine List.forall_mem_singleton.mpr (SqlToken.spread_of_low fun d same => ?_)
      rw [char] at same
      exact Option.some.inj same ▸ low
    | backslash | question => exact fun _ none => absurd none List.not_mem_nil
  have bare := emitted (emits_stepBare c)
  refine keeps ?_
  cases state with
  | backslash =>
    rw [step]
    split
    · exact List.forall_mem_singleton.mpr rfl
    · exact List.forall_mem_cons.mpr ⟨rfl, bare⟩
  | question =>
    rw [step]
    split
    · exact List.forall_mem_singleton.mpr rfl
    · exact List.forall_mem_cons.mpr ⟨rfl, bare⟩
  | _ => exact emitted (emits_step rfl c).1

/-- Byte by byte the reader passes through the same states at the ends of the characters. -/
theorem read_spread {state : SqlState} (regular : state.Regular) (text : Text) :
    state.read (Utf8.spread text) = ((state.read text).1, (state.read text).2.flatMap SqlToken.spread) := by
  induction text generalizing state with
  | nil => rfl
  | cons c rest ih =>
    rw [Utf8.spread_cons, read_append, read_cons, List.flatMap_append]
    by_cases low : c.toNat < 0x80
    · have alone : state.read [c] = state.step c := by rw [read_cons, read_nil, List.append_nil]
      rw [Utf8.spread_ascii low, flatMap_spread_step state low, alone, ih (regular.step c)]
    · have high : 0x80 ≤ c.toNat := Nat.le_of_not_lt low
      have bytes := read_high regular (Utf8.spread_ne_nil c) fun d member => Utf8.high_of_mem_spread high member
      have step := step_high regular high
      have further := regular.step c
      rw [step] at further
      rw [bytes, step, ih further, List.flatMap_append]
      have held : state.pending.flatMap SqlToken.spread = state.pending := by
        cases state <;> rfl
      have plain : [state.settle.plainToken c].flatMap SqlToken.spread =
          (Utf8.spread [c]).map state.settle.plainToken := by
        rw [List.flatMap_singleton]
        unfold plainToken
        cases state.settle.isOutside <;> rfl
      rw [held, plain]

end SqlState

theorem SqlToken.ofText_spread (sql : Text) : ofText (Utf8.spread sql) = (ofText sql).flatMap spread := by
  have regular : SqlState.bare.Regular := trivial
  have held (state : SqlState) : state.pending.flatMap spread = state.pending := by
    cases state <;> rfl
  rw [ofText, ofText, SqlState.read_spread regular, List.flatMap_append, held]

namespace SqlSegment

def spread : SqlSegment → SqlSegment
  | .text sql => .text (Utf8.spread sql)
  | segment => segment

theorem map_spread_addText (text : Text) (segments : List SqlSegment) :
    (addText text segments).map spread = addText (Utf8.spread text) (segments.map spread) := by
  have same : (Utf8.spread text).isEmpty = text.isEmpty := by
    rw [Bool.eq_iff_iff, List.isEmpty_iff, List.isEmpty_iff]
    exact Utf8.spread_eq_nil
  rw [addText, addText, same]
  split <;> rfl

theorem gather_map_shielded (text : Text) (tokens : List SqlToken) :
    gather (text.map .shielded ++ tokens) = (text ++ (gather tokens).1, (gather tokens).2) := by
  induction text with
  | nil => rfl
  | cons c rest ih => rw [List.map_cons, List.cons_append, gather, ih]; rfl

theorem gather_map_bare {text : Text} (unmarked : '?' ∉ text) (tokens : List SqlToken) :
    gather (text.map .bare ++ tokens) = (text ++ (gather tokens).1, (gather tokens).2) := by
  induction text with
  | nil => rfl
  | cons c rest ih =>
    rw [List.mem_cons, not_or] at unmarked
    rw [List.map_cons, List.cons_append, gather, ih unmarked.2]
    exact if_neg (Ne.symm unmarked.1)

theorem gather_spread (tokens : List SqlToken) :
    gather (tokens.flatMap SqlToken.spread) = (Utf8.spread (gather tokens).1, (gather tokens).2.map spread) := by
  induction tokens with
  | nil => rfl
  | cons token rest ih =>
    rw [List.flatMap_cons]
    cases token with
    | bare c =>
      rw [SqlToken.spread, gather]
      dsimp only
      split
      · next mark =>
        subst mark
        rw [Utf8.spread_ascii (by decide)]
        change gather (.bare '?' :: rest.flatMap SqlToken.spread) = _
        rw [gather, ih, map_spread_addText, Utf8.spread_cons, Utf8.spread_ascii (by decide)]
        rfl
      · next other =>
        have unmarked : '?' ∉ Utf8.spread [c] := by
          intro member
          by_cases low : c.toNat < 0x80
          · rw [Utf8.spread_ascii low] at member
            exact other (List.mem_singleton.mp member).symm
          · exact absurd (Utf8.high_of_mem_spread (Nat.le_of_not_lt low) member) (by decide)
        rw [gather_map_bare unmarked, ih, ← Utf8.spread_cons]
    | shielded c =>
      rw [SqlToken.spread, gather_map_shielded, ih, gather, ← Utf8.spread_cons]
    | value | identifier =>
      change gather (_ :: rest.flatMap SqlToken.spread) = _
      rw [gather, gather, ih, List.map_cons, map_spread_addText]
      rfl

/-- Taken byte by byte, a text is cut at the same places, which lie between characters. -/
theorem ofText_spread (sql : Text) : ofText (Utf8.spread sql) = (ofText sql).map spread := by
  rw [ofText, ofText, ofTokens, ofTokens, SqlToken.ofText_spread, gather_spread, map_spread_addText]

end SqlSegment

end LiteralSql
