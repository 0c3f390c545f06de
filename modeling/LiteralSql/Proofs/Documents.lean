import LiteralSql.Proofs.Identifier
import LiteralSql.Proofs.Json.Texts
import LiteralSql.Sql.Literal
import LiteralSql.Sql.Schema.Column

/-! How JSON documents reach the server.

The server takes what stands between dollar tags as it is, so the backslashes
that are escaped there become part of the document. Between single quotes, where
only the quotes are doubled, it arrives as it was.
-/

set_option autoImplicit false

namespace LiteralSql

def geometryCall (literal : Text) : Text :=
  "ST_SetSRID(ST_GeomFromGeoJSON(".toList ++ literal ++ "), 4326)".toList

/-- The literal of a document, alone or in the call for a geometry, is read as
one text. It is the text of that document exactly if no string and no name in it
has an escape. The literal in the default of a column is always read as the
document. -/
theorem document_intact_iff [LocalZone] {document : Json} (formed : document.WellFormed) :
    (∃ literal body,
      (∀ zone, (Value.json document).literal zone = .ok literal) ∧
      (∀ geometry : Geometry, geometry.document = document →
        ∀ zone, (Value.geometry geometry).literal zone = .ok (geometryCall literal)) ∧
      (∀ rest, DollarQuote.readLiteral? (literal ++ rest) = some (body, rest)) ∧
      (Json.read? body = some document ↔ document.Plain)) ∧
    ∃ literal body, (ColumnDefault.json document).sql = .ok literal ∧
      (∀ rest : Text, rest.head? ≠ some '\'' → Identifier.readLiteral? (literal ++ rest) = some (body, rest)) ∧
      Json.read? body = some document := by
  refine ⟨⟨DollarQuote.ofText document.print, DollarQuote.escape document.print, fun _ => rfl, ?_,
      DollarQuote.readLiteral?_ofText document.print, formed.read?_escape_iff⟩,
    Identifier.quoteLiteral document.print, document.print, rfl,
      fun _ => Identifier.readLiteral?_quoteLiteral document.print, ?_⟩
  · rintro geometry rfl zone
    rfl
  · rw [Json.read?_print, formed.canonical_eq]

def namedPlace : Json := .object
  [("coordinates".toList, .array [.double (.ofRatio false 3 2), .integer ⟨2, by decide, by decide⟩]),
    ("name".toList, .string "5\" pipe".toList),
    ("type".toList, .string "Point".toList)]

theorem document_intact_iff_named :
    namedPlace.WellFormed ∧ (∃ literal body,
      (∀ zone, (Value.json namedPlace).literal zone = .ok literal) ∧
      (∀ zone, (Value.geometry ⟨.point, namedPlace, rfl⟩).literal zone = .ok (geometryCall literal)) ∧
      (∀ rest, DollarQuote.readLiteral? (literal ++ rest) = some (body, rest)) ∧
      Json.read? body ≠ some namedPlace) ∧
    ∃ literal body, (ColumnDefault.json namedPlace).sql = .ok literal ∧
      Identifier.readLiteral? literal = some (body, []) ∧ Json.read? body = some namedPlace := by
  have finite : (Double.ofRatio false 3 2).isFinite = true := by decide +kernel
  have formed : namedPlace.WellFormed := by
    refine .object (show List.Pairwise _ _ by decide) ?_
    rw [List.forall_mem_cons, List.forall_mem_cons, List.forall_mem_singleton]
    refine ⟨.array ?_, .string _, .string _⟩
    rw [List.forall_mem_cons, List.forall_mem_singleton]
    exact ⟨.double finite, .integer _⟩
  have special : ¬namedPlace.Plain := fun plain => by
    have named : "5\" pipe".toList ∈ namedPlace.texts := by
      rw [namedPlace, Json.texts]
      simp [Json.texts]
    exact absurd (plain _ named '"' (by decide)) (by decide)
  obtain ⟨⟨literal, body, written, called, read, intact⟩, plain, text, same, back, whole⟩ := document_intact_iff formed
  refine ⟨formed, ⟨literal, body, written, called _ rfl, read, fun done => special (intact.mp done)⟩,
    plain, text, same, ?_, whole⟩
  have back := back [] (by simp)
  rwa [List.append_nil] at back

/-- Between dollar tags the backslash before a quote is written twice, and the
quote ends the string. -/
theorem quoted_document_broken :
    (Value.json (.string "a\"b".toList)).literal .utc = .ok "$cartodb$\"a\\\\\"b\"$cartodb$".toList ∧
      DollarQuote.readLiteral? "$cartodb$\"a\\\\\"b\"$cartodb$".toList = some ("\"a\\\\\"b\"".toList, []) ∧
      Json.read? "\"a\\\\\"b\"".toList = none ∧
      (ColumnDefault.json (.string "a\"b".toList)).sql = .ok "'\"a\\\"b\"'".toList ∧
      Json.read? "\"a\\\"b\"".toList = some (.string "a\"b".toList) := by
  have broken : JsonToken.readAll "\"a\\\\\"b\"".toList = none := by decide
  have printed : (Json.string "a\"b".toList).print = "\"a\\\"b\"".toList := by decide
  have literal : DollarQuote.ofText "\"a\\\"b\"".toList = "$cartodb$\"a\\\\\"b\"$cartodb$".toList := by decide
  refine ⟨?_, by decide, ?_, ?_, ?_⟩
  · rw [← literal, ← printed]
    rfl
  · rw [Json.read?, Json.readWith?, broken]
    rfl
  · rw [ColumnDefault.sql, printed]
    rfl
  · rw [← printed, Json.read?_print, (Json.WellFormed.string _).canonical_eq]

end LiteralSql
