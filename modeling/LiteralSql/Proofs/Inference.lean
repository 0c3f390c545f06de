import LiteralSql.Proofs.Double.Integral
import LiteralSql.Sql.Literal

/-! What is left of a JSON document in the value that it is taken for.

A value keeps the whole document, except for an integer that is unsigned and too
large for a signed one. That becomes a double, and its literal has the digits of
the double.
-/

set_option autoImplicit false

namespace LiteralSql

def Text.toInt? : Text → Option Int
  | '-' :: digits => (toNat? digits).map fun number => -(number : Int)
  | digits => (toNat? digits).map Int.ofNat

theorem Text.toNat?_of_digits {digits : Text} (numeric : digits.Digits) : toNat? digits = some (toNat digits) := by
  rw [toNat?, if_pos]
  exact ⟨numeric.1, List.all_eq_true.mpr numeric.2⟩

theorem Text.toInt?_of_digits {digits : Text} (numeric : digits.Digits) :
    toInt? digits = some (toNat digits : Int) := by
  rw [toInt?]
  · rw [toNat?_of_digits numeric]
    rfl
  · rintro rest rfl
    cases numeric.2 '-' List.mem_cons_self

theorem Text.toInt?_ofInt (number : Int) : toInt? (ofInt number) = some number := by
  cases number with
  | ofNat value =>
    exact (toInt?_of_digits (digits_ofNat value)).trans (congrArg (some ·) (congrArg _ (toNat_ofNat value)))
  | negSucc value =>
    rw [ofInt, toInt?, toNat?_of_digits (digits_ofNat _), toNat_ofNat]
    rfl

def JsonInteger.isWide (number : JsonInteger) : Bool := 0x8000000000000000 ≤ number.value

def JsonInteger.nearest (number : JsonInteger) : Double := .ofRatio false number.value.toNat 1

namespace Json

def isWide : Json → Bool
  | .integer number => number.isWide
  | _ => false

def rounded : Json → Json
  | .integer number => if number.isWide then .double number.nearest else .integer number
  | document => document

theorem rounded_eq_iff (document : Json) : document.rounded = document ↔ document.isWide = false := by
  cases document with
  | integer number =>
    rw [rounded, isWide]
    cases number.isWide <;> simp
  | _ => exact iff_of_true rfl rfl

end Json

theorem Geometry.document_of_ofJson? {document : Json} {found : Geometry}
    (typed : Geometry.ofJson? document = some found) : found.document = document := by
  rw [Geometry.ofJson?] at typed
  split at typed
  · cases typed
    rfl
  · cases typed

namespace Value

def document? : Value → Option Json
  | .null => some .null
  | .bool value => some (.bool value)
  | .int value => (JsonInteger.ofInt? value.toInt).map .integer
  | .float value => some (.double value)
  | .text value => some (.string value)
  | .geometry value => some value.document
  | .json document => some document
  | _ => none

theorem ofJsonInteger_of_narrow {number : JsonInteger} (narrow : number.isWide = false) :
    ofJsonInteger number = .int (Int64.ofInt number.value) ∧ (Int64.ofInt number.value).toInt = number.value := by
  rw [JsonInteger.isWide, decide_eq_false_iff_not, not_le] at narrow
  refine ⟨if_pos narrow, Int64.toInt_ofInt_of_le ?_ ?_⟩
  · exact number.lower
  · exact narrow

theorem ofJsonInteger_of_wide {number : JsonInteger} (wide : number.isWide = true) :
    ofJsonInteger number = .float number.nearest := by
  rw [JsonInteger.isWide, decide_eq_true_iff] at wide
  exact if_neg (not_lt.mpr wide)

theorem document?_ofJsonInteger (number : JsonInteger) :
    (ofJsonInteger number).document? = some (Json.integer number).rounded := by
  rw [Json.rounded]
  cases size : number.isWide with
  | true => rw [ofJsonInteger_of_wide size, document?, if_pos rfl]
  | false =>
    obtain ⟨same, kept⟩ := ofJsonInteger_of_narrow size
    rw [same, document?, kept, JsonInteger.ofInt?, dif_pos ⟨number.lower, number.upper⟩, if_neg Bool.false_ne_true]
    rfl

theorem document?_ofJson (document : Json) : (ofJson document).document? = some document.rounded := by
  cases document with
  | integer number => exact document?_ofJsonInteger number
  | object members =>
    rw [ofJson]
    split
    · next found typed => exact congrArg some (Geometry.document_of_ofJson? typed)
    · rfl
  | _ => rfl

theorem ofJson_rounded (document : Json) : ofJson document.rounded = ofJson document := by
  cases document with
  | integer number =>
    rw [Json.rounded]
    split
    · next wide => exact (ofJsonInteger_of_wide wide).symm
    · rfl
  | _ => rfl

theorem literal_of_narrow [LocalZone] {number : JsonInteger} (narrow : number.isWide = false) (zone : TimeZone) :
    (ofJson (.integer number)).literal zone = .ok (numericLiteral (Text.ofInt number.value)) := by
  obtain ⟨same, kept⟩ := ofJsonInteger_of_narrow narrow
  rw [ofJson, same, literal, kept]

theorem literal_of_wide [LocalZone] {number : JsonInteger} (wide : number.isWide = true) (zone : TimeZone) :
    ∃ rank : Fin BinaryFormat.double.ranks, BinaryFormat.double.rankOf number.value.toNat 1 = rank ∧
      BinaryFormat.wide ≤ rank ∧ number.nearest = .finite false rank ∧
      (ofJson (.integer number)).literal zone = .ok (numericLiteral (Double.finite false rank).toText) := by
  have least := of_decide_eq_true wide
  have most := number.upper
  obtain ⟨above, finite⟩ := BinaryFormat.rankOf_wide (show 0x8000000000000000 ≤ number.value.toNat by omega)
    (show number.value.toNat < 0x10000000000000000 by omega)
  have nearest : number.nearest = .finite false ⟨_, finite⟩ := dif_pos finite
  refine ⟨⟨_, finite⟩, rfl, above, nearest, ?_⟩
  rw [ofJson, ofJsonInteger_of_wide wide, nearest]
  rfl

end Value

/-- A value stands for the document that it was inferred from, with a wide integer rounded to a double, and so two
documents give the same value just if they are the same once they are rounded. The literal of any other integer
denotes that integer. The literal of a wide integer denotes the shortest decimal for the double, which has zeros as
its last two digits. -/
theorem inference_exact_iff [LocalZone] (document other : Json) (number : JsonInteger) (zone : TimeZone) :
    (Value.ofJson document).document? = some document.rounded ∧
    (document.rounded = document ↔ document.isWide = false) ∧
    (Value.ofJson document = Value.ofJson other ↔ document.rounded = other.rounded) ∧
    ∃ digits denoted, (Value.ofJson (.integer number)).literal zone = .ok (Value.numericLiteral digits) ∧
      Text.toInt? digits = some denoted ∧
      (number.isWide = false → denoted = number.value) ∧
      (number.isWide = true → 100 ∣ denoted ∧ Double.ofRatio false denoted.toNat 1 = number.nearest ∧
        (denoted : ℚ) = (Decimal.ofRank .up (BinaryFormat.double.rankOf number.value.toNat 1)).value) := by
  refine ⟨Value.document?_ofJson document, document.rounded_eq_iff, ⟨fun same => ?_, fun same => ?_⟩, ?_⟩
  · have documents := congrArg Value.document? same
    rwa [Value.document?_ofJson, Value.document?_ofJson, Option.some.injEq] at documents
  · rw [← Value.ofJson_rounded document, same, Value.ofJson_rounded]
  · cases size : number.isWide with
    | false =>
      exact ⟨_, _, Value.literal_of_narrow size zone, Text.toInt?_ofInt number.value, fun _ => rfl, nofun⟩
    | true =>
      obtain ⟨rank, same, least, nearest, written⟩ := Value.literal_of_wide size zone
      obtain ⟨numeric, zeros, exact, reads⟩ := Double.toText_wide rank least
      refine ⟨_, _, written, Text.toInt?_of_digits numeric, nofun, fun _ => ⟨?_, ?_, ?_⟩⟩
      · exact_mod_cast zeros
      · rw [Int.toNat_natCast, reads, nearest]
      · rw [Int.cast_natCast, exact, same]

def greatest : JsonInteger := ⟨18446744073709551615, by decide, by decide⟩

/-- Its literal denotes another integer, and the integer before it has the same value. -/
theorem wide_integer_altered :
    (∀ zone, (Value.ofJson (.integer greatest)).literal zone =
      .ok (Value.numericLiteral "18446744073709552000".toList)) ∧
    Text.toInt? "18446744073709552000".toList = some 18446744073709552000 ∧
    Value.ofJson (.integer greatest) = Value.ofJson (.integer ⟨18446744073709551614, by decide, by decide⟩) :=
  ⟨fun _ => rfl, rfl, rfl⟩

end LiteralSql
