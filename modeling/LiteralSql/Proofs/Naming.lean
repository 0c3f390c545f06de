import LiteralSql.Proofs.Encoding
import LiteralSql.Proofs.Script

/-! The names of prepared blocks.

A name is made from the text of a block and the types in its rows, as the last line.
No type has a line feed in it, so the text may end in lines that look like types and
is still told apart from them. Two blocks that share their name have the same text
and the same types, or bytes that differ have digests that begin alike.
-/

set_option autoImplicit false

namespace LiteralSql

namespace Value

theorem lower_typeTag (value : Value) : ∀ c ∈ value.typeTag, c.isLower = true := by
  rw [← List.all_eq_true]
  cases value <;> rfl

theorem typeTag_ne_nil (value : Value) : value.typeTag ≠ [] := by
  cases value <;> exact List.cons_ne_nil _ _

end Value

namespace Flat

def types (row : Flat) : List Text := row.values.map Value.typeTag

variable {row other : Flat}

theorem not_mem_type {c : Char} (foreign : c.isLower = false) : ∀ type ∈ row.types, c ∉ type := by
  intro type member inside
  obtain ⟨value, -, rfl⟩ := List.mem_map.mp member
  rw [value.lower_typeTag c inside] at foreign
  cases foreign

theorem not_mem_typeDescriptor {c : Char} (foreign : c.isLower = false) (between : c ≠ ',') :
    c ∉ row.typeDescriptor :=
  Text.not_mem_intercalate (fun member => between (List.mem_singleton.mp member)) (not_mem_type foreign)

theorem typeDescriptor_eq_nil_iff : row.typeDescriptor = [] ↔ row.types = [] := by
  refine ⟨fun blank => ?_, fun none => congrArg [','].intercalate none⟩
  cases held : row.values with
  | nil => exact congrArg (List.map Value.typeTag) held
  | cons value rest =>
    rw [typeDescriptor, held, List.map_cons, intercalate_cons, List.append_eq_nil_iff] at blank
    exact absurd blank.1 value.typeTag_ne_nil

/-- No type is empty, so a row without values is not taken for any other. -/
theorem typeDescriptor_inj : row.typeDescriptor = other.typeDescriptor ↔ row.types = other.types := by
  refine ⟨fun same => ?_, congrArg [','].intercalate⟩
  by_cases none : row.types = []
  · rw [none, eq_comm, ← typeDescriptor_eq_nil_iff, ← same]
    exact typeDescriptor_eq_nil_iff.mpr none
  · have more : other.types ≠ [] := by rwa [ne_eq, ← typeDescriptor_eq_nil_iff, ← same, typeDescriptor_eq_nil_iff]
    exact (Text.intercalate_inj none more (not_mem_type (by decide)) (not_mem_type (by decide))).mp same

end Flat

section
variable {rows others : List Flat} (some : rows ≠ []) (more : others ≠ []) (sql text : Text)
include some more

theorem typeDescriptors_inj :
    [';'].intercalate (rows.map Flat.typeDescriptor) = [';'].intercalate (others.map Flat.typeDescriptor) ↔
      rows.map Flat.types = others.map Flat.types := by
  have free {rows : List Flat} : ∀ part ∈ rows.map Flat.typeDescriptor, ';' ∉ part :=
    List.forall_mem_map.mpr fun row _ => row.not_mem_typeDescriptor (by decide) (by decide)
  rw [Text.intercalate_inj (List.map_eq_nil_iff.not.mpr some) (List.map_eq_nil_iff.not.mpr more) free free,
    map_eq_map_iff_related, map_eq_map_iff_related]
  simp only [Flat.typeDescriptor_inj]

/-- The last line of a key has the types, and everything in front of it is the text. -/
theorem preparedKey_inj : preparedKey sql rows = preparedKey text others ↔
    sql = text ∧ rows.map Flat.types = others.map Flat.types := by
  have free {rows : List Flat} : '\n' ∉ [';'].intercalate (rows.map Flat.typeDescriptor) :=
    Text.not_mem_intercalate (by decide)
      (List.forall_mem_map.mpr fun row _ => row.not_mem_typeDescriptor (by decide) (by decide))
  rw [preparedKey, preparedKey, Text.append_cons_inj free free, typeDescriptors_inj some more]

end

/-- No rows at all have the key of one row without values. -/
example (sql : Text) : preparedKey sql [] = preparedKey sql [[]] := rfl

/-- Different bytes with digests that begin with the same eight bytes. -/
def Sha256.Collide (first second : List UInt8) : Prop :=
  first ≠ second ∧ (digest first).take 8 = (digest second).take 8

theorem preparedName_eq_iff {sql text : Text} {rows others : List Flat} :
    preparedName sql rows = preparedName text others ↔
      (Sha256.digest (Utf8.encode (preparedKey sql rows))).take 8 =
        (Sha256.digest (Utf8.encode (preparedKey text others))).take 8 := by
  rw [preparedName, preparedName, List.cons_inj_right, show 16 = 2 * 8 from rfl, Hex.take_encode, Hex.take_encode]
  exact Hex.encode_injective.eq_iff

theorem RunSent.name_eq [LocalZone] {zone : TimeZone} {rows : List Flat} {name sql : Text}
    {literals : List (List Text)}
    (sent : RunSent zone rows (SqlCommand.block name sql literals)) : name = preparedName sql rows := by
  generalize same : SqlCommand.block name sql literals = commands at sent
  cases sent with
  | plain =>
    cases rows with
    | nil => cases same
    | cons row rest => cases (List.cons.inj same).1
  | prepared =>
    cases (List.cons.inj same).1
    rfl

/-- The bytes that a name is made from are the same for the same text and the same types in each row, and for
nothing else. So two blocks share a name because they are prepared for the same text and types, or because the
digests of different bytes begin alike. -/
theorem prepared_names_separate [LocalZone] {rows others : List Flat} (some : rows ≠ []) (more : others ≠ [])
    (sql text : Text) :
    (Utf8.encode (preparedKey sql rows) = Utf8.encode (preparedKey text others) ↔
      sql = text ∧ rows.map Flat.types = others.map Flat.types) ∧
    (preparedName sql rows = preparedName text others ↔
      (sql = text ∧ rows.map Flat.types = others.map Flat.types) ∨
        Sha256.Collide (Utf8.encode (preparedKey sql rows)) (Utf8.encode (preparedKey text others))) ∧
    ∀ zone name literals, RunSent zone rows (SqlCommand.block name sql literals) → name = preparedName sql rows := by
  have bytes := Utf8.encode_injective.eq_iff.trans (preparedKey_inj some more sql text)
  refine ⟨bytes, ?_, fun _ _ _ sent => sent.name_eq⟩
  rw [preparedName_eq_iff, ← bytes, Sha256.Collide]
  constructor
  · exact fun digests => (em _).imp_right fun differ => ⟨differ, digests⟩
  · rintro (same | ⟨-, digests⟩)
    · rw [same]
    · exact digests

def Flat.withComment (value : Value) : Flat :=
  Flat.ofText "select ".toList ++ .value value :: Flat.ofText " --".toList

def Flat.withTypeLine (value : Value) : Flat :=
  withComment value ++ Flat.ofText "\nnumeric;text".toList

/-- The key of one text begins with all that there is in the key of the other one. -/
theorem prepared_names_separate_lines :
    let rows := [Flat.withTypeLine (.int 1)]
    let others := [Flat.withComment (.int 1), Flat.withComment (.text "a".toList)]
    let sql := (Flat.withTypeLine (.int 1)).parameterized
    let text := (Flat.withComment (.int 1)).parameterized
    rows ≠ [] ∧ others ≠ [] ∧ preparedKey sql rows = preparedKey text others ++ "\nnumeric".toList ∧
      Utf8.encode (preparedKey sql rows) ≠ Utf8.encode (preparedKey text others) ∧
      preparedName sql rows ≠ preparedName text others ∧
      ¬ Sha256.Collide (Utf8.encode (preparedKey sql rows)) (Utf8.encode (preparedKey text others)) := by
  intro rows others sql text
  have differ : sql ≠ text := by decide
  have named : preparedName sql rows ≠ preparedName text others := by decide +kernel
  have some : rows ≠ [] := List.cons_ne_nil _ _
  have more : others ≠ [] := List.cons_ne_nil _ _
  obtain ⟨bytes, names, -⟩ := prepared_names_separate some more sql text
  exact ⟨some, more, by decide, fun same => differ (bytes.mp same).1, named,
    fun collide => named (names.mpr (.inr collide))⟩

end LiteralSql
