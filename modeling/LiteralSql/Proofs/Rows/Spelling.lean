import Mathlib.Algebra.Group.Nat.Defs
import LiteralSql.Rows.Scanner
import LiteralSql.Text.Utf8

/-! Bytes that spell a text, as far as brackets and quotes are concerned.

A byte below 0x80 is a character of its own. What the other bytes stand for
matters to nobody who looks for brackets, quotes and blanks only. Both ways of
reading bytes as characters are of this kind.
-/

set_option autoImplicit false

namespace LiteralSql

theorem toNat_ofNat_of_valid {code : Nat} (valid : code.isValidChar) : (Char.ofNat code).toNat = code := by
  rw [Char.ofNat, dif_pos valid]
  rfl

theorem toNat_ofNat_byte (byte : UInt8) : (Char.ofNat byte.toNat).toNat = byte.toNat := by
  have bound := byte.toNat_lt
  exact toNat_ofNat_of_valid (.inl (by omega))

inductive Spells : List UInt8 → Text → Prop
  | nil : Spells [] []
  | ascii {byte : UInt8} {bytes : List UInt8} {text : Text} (low : byte.toNat < 0x80)
      (rest : Spells bytes text) : Spells (byte :: bytes) (Char.ofNat byte.toNat :: text)
  | foreign {lead bytes : List UInt8} {c : Char} {text : Text} (some : lead ≠ [])
      (high : ∀ byte ∈ lead, 0x80 ≤ byte.toNat) (char : 0x80 ≤ c.toNat) (rest : Spells bytes text) :
      Spells (lead ++ bytes) (c :: text)

namespace Spells

theorem append_inv {bytes : List UInt8} {first second : Text} (spells : Spells bytes (first ++ second)) :
    ∃ left right, bytes = left ++ right ∧ Spells left first ∧ Spells right second := by
  induction first generalizing bytes with
  | nil => exact ⟨[], bytes, rfl, .nil, spells⟩
  | cons c rest ih =>
    rw [List.cons_append] at spells
    cases spells with
    | ascii low spells =>
      obtain ⟨left, right, rfl, before, after⟩ := ih spells
      exact ⟨_ :: left, right, rfl, .ascii low before, after⟩
    | foreign some high char spells =>
      obtain ⟨left, right, rfl, before, after⟩ := ih spells
      exact ⟨_ ++ left, right, (List.append_assoc _ _ _).symm, .foreign some high char before, after⟩

theorem cons_inv {bytes : List UInt8} {c : Char} {text : Text} (spells : Spells bytes (c :: text))
    (low : c.toNat < 0x80) :
    ∃ rest, bytes = c.toNat.toUInt8 :: rest ∧ Spells rest text := by
  cases spells with
  | ascii bound spells =>
    rw [toNat_ofNat_byte]
    exact ⟨_, congrArg (· :: _) UInt8.ofNat_toNat.symm, spells⟩
  | foreign _ _ char spells => omega

theorem toChars (bytes : List UInt8) : Spells bytes (Bytes.toChars bytes) := by
  induction bytes with
  | nil => exact .nil
  | cons byte rest ih =>
    by_cases low : byte.toNat < 0x80
    · exact .ascii low ih
    · have high : 0x80 ≤ byte.toNat := by omega
      have char : 0x80 ≤ (Char.ofNat byte.toNat).toNat := by rwa [toNat_ofNat_byte]
      exact .foreign (List.cons_ne_nil byte []) (List.forall_mem_singleton.mpr high) char ih

end Spells

namespace Utf8

/-- Codes from here on and below the other end are characters, and none of them is one of ASCII. -/
def Wide (least most : Nat) : Prop := 0x80 ≤ least ∧ (most ≤ 0xD800 ∨ 0xE000 ≤ least ∧ most ≤ 0x110000)

theorem Wide.char {least most code : Nat} (wide : Wide least most) (above : least ≤ code) (below : code < most) :
    0x80 ≤ (Char.ofNat code).toNat := by
  obtain ⟨high, within⟩ := wide
  have valid : code.isValidChar := by
    obtain within | within := within
    · exact .inl (by omega)
    · exact .inr ⟨by omega, by omega⟩
  rw [toNat_ofNat_of_valid valid]
  exact Nat.le_trans high above

theorem Wide.within {least most lower upper : Nat} (wide : Wide least most) (above : least ≤ lower)
    (below : upper ≤ most) : Wide lower upper := by
  obtain ⟨high, within⟩ := wide
  exact ⟨Nat.le_trans high above, within.imp (Nat.le_trans below) fun both =>
    ⟨Nat.le_trans both.1 above, Nat.le_trans below both.2⟩⟩

def State.Wide : State → Prop
  | .boundary => True
  | .inside missing payload low high => 0x80 ≤ low ∧ 0 < missing ∧
    Utf8.Wide ((payload * 0x40 + (low - 0x80)) * 0x40 ^ (missing - 1))
      ((payload * 0x40 + (high - 0x80) + 1) * 0x40 ^ (missing - 1))

theorem lead_ascii {byte : UInt8} {payload low high : Nat} (lead : lead? byte = some (0, payload, low, high)) :
    byte.toNat < 0x80 ∧ payload = byte.toNat := by
  unfold lead? at lead
  dsimp only at lead
  repeat' split at lead
  any_goals simp only [reduceCtorEq] at lead
  all_goals
    simp only [Option.some.injEq, Prod.mk.injEq] at lead
    omega

theorem lead_wide {byte : UInt8} {missing payload low high : Nat}
    (lead : lead? byte = some (missing + 1, payload, low, high)) :
    0x80 ≤ byte.toNat ∧ (State.inside (missing + 1) payload low high).Wide := by
  unfold lead? at lead
  dsimp only at lead
  repeat' split at lead
  any_goals simp only [reduceCtorEq] at lead
  all_goals
    simp only [Option.some.injEq, Prod.mk.injEq] at lead
    have count : missing = 0 ∨ missing = 1 ∨ missing = 2 := by omega
    simp only [State.Wide, Utf8.Wide, Nat.add_sub_cancel]
    obtain rfl | rfl | rfl := count <;> omega

theorem step_boundary_char {byte : UInt8} {c : Char} (step : State.boundary.step byte = .char c) :
    byte.toNat < 0x80 ∧ c = Char.ofNat byte.toNat := by
  rw [State.step] at step
  split at step
  · cases step
  · next payload low high lead =>
    obtain ⟨bound, rfl⟩ := lead_ascii lead
    cases step
    exact ⟨bound, rfl⟩
  · cases step

theorem step_boundary_pending {byte : UInt8} {next : State} (step : State.boundary.step byte = .pending next) :
    0x80 ≤ byte.toNat ∧ next.Wide ∧ next ≠ .boundary := by
  rw [State.step] at step
  split at step
  · cases step
  · cases step
  · next missing payload low high some lead =>
    cases step
    cases missing with
    | zero => exact absurd rfl some
    | succ missing =>
      obtain ⟨bound, wide⟩ := lead_wide lead
      exact ⟨bound, wide, nofun⟩

theorem step_inside {missing payload low high : Nat} (wide : (State.inside missing payload low high).Wide)
    {byte : UInt8} (accepted : (State.inside missing payload low high).step byte ≠ .malformed) :
    0x80 ≤ byte.toNat ∧
      (∀ c, (State.inside missing payload low high).step byte = .char c → 0x80 ≤ c.toNat) ∧
      ∀ next, (State.inside missing payload low high).step byte = .pending next →
        next.Wide ∧ next ≠ .boundary := by
  obtain ⟨least, some, wide⟩ := wide
  rw [State.step] at accepted ⊢
  split
  · next within =>
    -- The bounds on what the character may become, with this byte in place of the lowest and of the highest one.
    have above : (payload * 0x40 + (low - 0x80)) * 0x40 ^ (missing - 1) ≤
        (payload * 0x40 + (byte.toNat - 0x80)) * 0x40 ^ (missing - 1) :=
      Nat.mul_le_mul_right _ (by omega)
    have below : (payload * 0x40 + (byte.toNat - 0x80) + 1) * 0x40 ^ (missing - 1) ≤
        (payload * 0x40 + (high - 0x80) + 1) * 0x40 ^ (missing - 1) :=
      Nat.mul_le_mul_right _ (by omega)
    refine ⟨by omega, ?_, ?_⟩
    · intro c same
      dsimp only at same
      split at same
      · next last =>
        rw [← Step.char.inj same]
        have power : missing - 1 = 0 := by omega
        rw [power, Nat.pow_zero, Nat.mul_one, Nat.mul_one] at above below
        rw [power, Nat.pow_zero, Nat.mul_one, Nat.mul_one] at wide
        exact wide.char above below
      · cases same
    · intro next same
      dsimp only at same
      split at same
      · cases same
      · next more =>
        rw [← Step.pending.inj same]
        have power : 0x40 ^ (missing - 1) = 0x40 * 0x40 ^ (missing - 1 - 1) := by
          rw [← Nat.pow_succ']
          congr 1
          omega
        refine ⟨⟨Nat.le_refl _, by omega, ?_⟩, State.noConfusion⟩
        have rest (total : Nat) : total * (0x40 * 0x40 ^ (missing - 1 - 1)) = total * 0x40 * 0x40 ^ (missing - 1 - 1) :=
          (Nat.mul_assoc _ _ _).symm
        rw [power, rest, rest] at above below
        rw [power, rest, rest] at wide
        generalize payload * 0x40 + (byte.toNat - 0x80) = total at above below ⊢
        have lower : total * 0x40 ≤ total * 0x40 + (0x80 - 0x80) := by omega
        have upper : total * 0x40 + (0xBF - 0x80) + 1 ≤ (total + 1) * 0x40 := by omega
        exact wide.within (Nat.le_trans above (Nat.mul_le_mul_right _ lower))
          (Nat.le_trans (Nat.mul_le_mul_right _ upper) below)
  · next outside =>
    rw [if_neg outside] at accepted
    exact absurd rfl accepted

theorem spells_of_decodeFrom {state : State} (wide : state.Wide) {bytes : List UInt8} {text : Text}
    (done : decodeFrom state bytes = some text) {lead : List UInt8} (high : ∀ byte ∈ lead, 0x80 ≤ byte.toNat)
    (begun : state = .boundary → lead = []) : Spells (lead ++ bytes) text := by
  -- The bytes of a character that has begun are kept in `lead` until it is complete.
  induction bytes generalizing state text lead with
  | nil =>
    cases state with
    | boundary =>
      cases done
      rw [begun rfl]
      exact .nil
    | inside missing payload low high => cases done
  | cons byte rest ih =>
    have boundary {text : Text} (done : decodeFrom .boundary rest = some text) : Spells rest text := by
      have wide : State.boundary.Wide := trivial
      have empty : ∀ byte ∈ ([] : List UInt8), 0x80 ≤ byte.toNat := by simp
      exact ih wide done empty fun _ => rfl
    have further (high' : 0x80 ≤ byte.toNat) : ∀ other ∈ lead ++ [byte], 0x80 ≤ other.toNat := by
      intro other member
      rw [List.mem_append, List.mem_singleton] at member
      obtain member | rfl := member
      · exact high other member
      · exact high'
    cases state with
    | boundary =>
      rw [begun rfl, List.nil_append]
      rw [begun rfl, List.nil_append] at further
      rw [decodeFrom] at done
      split at done
      · next c step =>
        obtain ⟨others, tail, rfl⟩ := Option.map_eq_some_iff.mp done
        obtain ⟨low, rfl⟩ := step_boundary_char step
        exact .ascii low (boundary tail)
      · next following step =>
        obtain ⟨high', wide, inside⟩ := step_boundary_pending step
        exact ih wide done (further high') fun same => absurd same inside
      · cases done
    | inside missing payload low upper =>
      rw [decodeFrom] at done
      have shape : lead ++ byte :: rest = (lead ++ [byte]) ++ rest := by simp
      rw [shape]
      split at done
      · next c step =>
        obtain ⟨others, tail, rfl⟩ := Option.map_eq_some_iff.mp done
        obtain ⟨high', chars, -⟩ := step_inside wide (by rw [step]; exact nofun)
        exact .foreign (List.append_ne_nil_of_right_ne_nil lead (List.cons_ne_nil byte [])) (further high')
          (chars c step) (boundary tail)
      · next following step =>
        obtain ⟨high', -, pending⟩ := step_inside wide (by rw [step]; exact nofun)
        obtain ⟨wide, inside⟩ := pending following step
        exact ih wide done (further high') fun same => absurd same inside
      · cases done

theorem spells_of_decode? {bytes : List UInt8} {text : Text} (done : decode? bytes = some text) :
    Spells bytes text := by
  have wide : State.boundary.Wide := trivial
  have empty : ∀ byte ∈ ([] : List UInt8), 0x80 ≤ byte.toNat := by simp
  exact spells_of_decodeFrom wide done empty fun _ => rfl

end Utf8

end LiteralSql
