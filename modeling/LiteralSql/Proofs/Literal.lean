import LiteralSql.Proofs.DollarQuote
import LiteralSql.Sql.Literal
import LiteralSql.Sql.Statement

/-! The literals of values, and the names of prepared statements, are quiet. -/

set_option autoImplicit false

namespace LiteralSql

theorem Quiet.not_mem_of_plain {text : Text} (plain : text.all isPlain = true) : '$' ∉ text := fun member =>
  absurd (List.all_eq_true.mp plain '$' member) (by decide)

theorem Text.not_mem_ofInt (number : Int) : '$' ∉ Text.ofInt number := by
  cases number with
  | ofNat number => exact Quiet.not_mem_of_plain (Quiet.plain_ofNat number)
  | negSucc number =>
    rw [Text.ofInt, List.mem_cons, not_or]
    exact ⟨by decide, Quiet.not_mem_of_plain (Quiet.plain_ofNat _)⟩

theorem Hex.plain_encode (bytes : List UInt8) : (Hex.encode bytes).all Quiet.isPlain = true := by
  have digits : ∀ value < 16, Quiet.isPlain (lowerDigit value) = true := by decide
  rw [List.all_eq_true]
  intro c member
  obtain ⟨byte, -, inside⟩ := List.mem_flatMap.mp member
  have bound := byte.toNat_lt
  rw [List.mem_cons, List.mem_singleton] at inside
  obtain rfl | rfl := inside
  · exact digits _ (by omega)
  · exact digits _ (by omega)

theorem Decimal.plain_positional (decimal : Decimal) :
    (decimal.positional.1 ++ decimal.positional.2).all Quiet.isPlain = true := by
  have digits := Quiet.plain_ofNat decimal.digits
  have zeros : ∀ count : Nat, (List.replicate count '0').all Quiet.isPlain = true := fun count => by
    rw [List.all_replicate]
    split <;> decide
  rw [positional]
  dsimp only
  split
  · rw [List.append_nil, List.all_append, digits, zeros]
    rfl
  · split
    · rw [List.splitAt_eq, List.take_append_drop]
      exact digits
    · rw [List.all_append, List.all_append, digits, zeros]
      rfl

theorem Double.not_mem_toText (number : Double) : '$' ∉ number.toText := by
  have signs : ∀ negative, '$' ∉ sign negative := by decide
  cases number with
  | nan => decide
  | infinite negative => cases negative <;> decide
  | finite negative rank =>
    have digits := Quiet.not_mem_of_plain (Decimal.plain_positional (Decimal.ofRank .up rank))
    rw [List.mem_append, not_or] at digits
    rw [toText]
    dsimp only
    rw [List.mem_append, List.mem_append, not_or, not_or]
    refine ⟨⟨signs negative, digits.1⟩, ?_⟩
    split
    · exact List.not_mem_nil
    · rw [List.mem_cons, not_or]
      exact ⟨by decide, digits.2⟩

theorem DollarQuote.quiet_empty {payload : Text} (noDollar : '$' ∉ payload) :
    Quiet ("$$".toList ++ payload ++ "$$".toList) := by
  have free : [] ∉ (Text.split '$' payload).tail := by
    rw [Text.split_of_not_mem noDollar]
    exact List.not_mem_nil
  exact quiet_enclosed ⟨fun _ member => absurd member List.not_mem_nil, rfl⟩ free

namespace Value

theorem quiet_numericLiteral {digits : Text} (noDollar : '$' ∉ digits) : Quiet (numericLiteral digits) := by
  have type : Quiet "numeric ".toList := Quiet.of_plain (by decide)
  exact type.append (DollarQuote.quiet_empty noDollar)

theorem quiet_literal [LocalZone] {zone : TimeZone} {value : Value} {written : Text}
    (encoded : value.literal zone = .ok written) : Quiet written := by
  cases value with
  | null =>
    rw [← Except.ok.inj encoded]
    exact Quiet.of_plain (by decide)
  | bool value =>
    cases value <;> rw [← Except.ok.inj encoded] <;> exact Quiet.of_plain (by decide)
  | int value =>
    rw [← Except.ok.inj encoded]
    exact quiet_numericLiteral (Text.not_mem_ofInt _)
  | float value =>
    rw [literal] at encoded
    split at encoded
    · rw [← Except.ok.inj encoded]
      exact quiet_numericLiteral (Double.not_mem_toText value)
    · cases encoded
  | text value =>
    rw [← Except.ok.inj encoded]
    exact DollarQuote.quiet_quote _
  | timestamp value =>
    rw [← Except.ok.inj encoded]
    exact DollarQuote.quiet_quote _
  -- The digits stand between empty tags, so it is enough that no dollar sign is among them.
  | blob bytes =>
    have hex : '$' ∉ "\\x".toList ++ Hex.encode bytes := by
      rw [List.mem_append, not_or]
      exact ⟨by decide, Quiet.not_mem_of_plain (Hex.plain_encode bytes)⟩
    rw [← Except.ok.inj encoded]
    exact DollarQuote.quiet_empty hex
  | geometry value =>
    have opening : Quiet "ST_SetSRID(ST_GeomFromGeoJSON(".toList := Quiet.of_plain (by decide)
    have close : Quiet "), 4326)".toList := Quiet.of_plain (by decide)
    rw [← Except.ok.inj encoded]
    exact (opening.append (DollarQuote.quiet_quote _)).append close
  | json document =>
    rw [← Except.ok.inj encoded]
    exact DollarQuote.quiet_quote _
  | raw sql bindings => cases encoded

end Value

theorem quiet_preparedName (sql : Text) (rows : List Flat) : Quiet (preparedName sql rows) := by
  apply Quiet.of_plain
  rw [preparedName, List.all_cons, List.all_eq_true.mpr]
  · decide
  · intro c member
    exact List.all_eq_true.mp (Hex.plain_encode _) c (List.mem_of_mem_take member)

end LiteralSql
