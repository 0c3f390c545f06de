import LiteralSql.Feature
import LiteralSql.Proofs.Dictionary
import LiteralSql.Proofs.Materialize

/-! The columns of the table for a feature, and those of the row for it.

Both are the properties in the order of their names, quoted alike. The row has
the geometry in a column of its own, and puts it over a property of that name.
-/

set_option autoImplicit false

namespace LiteralSql

namespace Insert

theorem cells_keys (row : Record) : cells row.keys row = row.entries.map Prod.snd := by
  rw [cells, Dictionary.keys, List.map_map]
  refine List.map_congr_left fun entry member => ?_
  have held : row.get? entry.1 = some entry.2 := Dictionary.get?_eq_some_iff.mpr member
  rw [Function.comp_apply, held]
  rfl

theorem compile_row (table : Text) {row : Record} (some : row.keys ≠ []) :
    (⟨table, [row]⟩ : Insert).compile = .ok [{
      sql := "insert into ".toList ++ Identifier.quoteQualified table ++ " (".toList ++
        ", ".toList.intercalate (row.keys.map Identifier.quote) ++ ") values (".toList ++
        ", ".toList.intercalate (row.keys.map fun _ => ['?']) ++ [')']
      bindings := .perRow [row.entries.map Prod.snd]
      kind := .insert }] := by
  have columns : (⟨table, [row]⟩ : Insert).columns = row.keys := by
    rw [Insert.columns, List.flatMap_singleton, row.keys_ofList_keys]
  have inhabited : ¬ row.keys.isEmpty = true := fun none => some (List.isEmpty_iff.mp none)
  rw [compile, columns]
  dsimp only
  rw [if_neg (by exact Bool.false_ne_true), if_neg inhabited, List.map_singleton, cells_keys]

end Insert

namespace Feature

def definition (property : Text × Value) : Text :=
  Identifier.quote property.1 ++ ' ' :: (columnType property.2).sql (Identifier.quote property.1)

theorem compile_column [LocalZone] {table : Text} {property : Text × Value} (named : property.1 ≠ []) :
    ColumnDefinition.compile table { name := property.1, type := columnType property.2 } =
      .ok (definition property, []) := by
  have unnamed : ¬ property.1.isEmpty = true := fun none => named (List.isEmpty_iff.mp none)
  have plain : (columnType property.2).isIncrements = false := by
    cases property.2 <;> rfl
  have effective : ColumnDefinition.effectiveName { name := property.1, type := columnType property.2 } =
      .ok property.1 := if_neg unnamed
  rw [ColumnDefinition.compile, effective]
  refine (if_neg (by rw [plain]; exact Bool.false_ne_true)).trans (congrArg Except.ok (Prod.ext ?_ rfl))
  exact (List.append_nil _).trans (List.append_nil _)

theorem compile_schema [LocalZone] (table : Text) {feature : Feature}
    (named : ∀ name ∈ feature.properties.keys, name ≠ []) :
    (feature.schema table).compile = .ok [.ddl (TableDefinition.createSql "create table".toList
      (Identifier.quoteQualified table) (feature.properties.entries.map definition))] := by
  have columns : (feature.tableDefinition table).columns.mapM
      (ColumnDefinition.compile (Identifier.quoteQualified (feature.tableDefinition table).name)) =
        .ok (feature.properties.entries.map fun property => (definition property, [])) := by
    refine mapM_of_related (List.forall₂_map_left_iff.mpr (List.forall₂_map_right_iff.mpr ?_))
    exact List.forall₂_same.mpr fun property member => compile_column (named _ (List.mem_map_of_mem member))
  have definitions : (feature.properties.entries.map fun property => (definition property, ([] : List Statement))).map
      Prod.fst = feature.properties.entries.map definition := List.map_map
  have comments : (feature.properties.entries.map fun property => (definition property, ([] : List Statement))).flatMap
      Prod.snd = [] := List.flatMap_eq_nil_iff.mpr fun compiled member => by
    obtain ⟨property, -, rfl⟩ := List.mem_map.mp member
    rfl
  have table : (feature.tableDefinition table).compile = .ok [.ddl (TableDefinition.createSql "create table".toList
      (Identifier.quoteQualified table) (feature.properties.entries.map definition))] := by
    rw [TableDefinition.compile, columns]
    refine congrArg Except.ok ?_
    rw [definitions, comments]
    rfl
  rw [schema, Schema.compile, List.mapM_cons, SchemaCommand.compile, table]
  rfl

theorem filter_toRecord (feature : Feature) :
    feature.toRecord.entries.filter (·.1 ≠ geometryColumn) =
      feature.properties.entries.filter (·.1 ≠ geometryColumn) :=
  filter_insertSorted geometryColumn _ feature.properties.entries

theorem get?_geometryColumn (feature : Feature) :
    feature.toRecord.get? geometryColumn = some ((feature.geometry.map Value.geometry).getD .null) := by
  rw [toRecord, Dictionary.get?_insert]
  cases feature.geometry <;> rfl

theorem toRecord_keys_ne_nil (feature : Feature) : feature.toRecord.keys ≠ [] :=
  List.ne_nil_of_mem (List.mem_map_of_mem
    (mem_insertSorted_self geometryColumn _ feature.properties.entries))

theorem filter_keys (dictionary : Dictionary Value) (name : Text) :
    dictionary.keys.filter (· ≠ name) = (dictionary.entries.filter (·.1 ≠ name)).map Prod.fst :=
  List.filter_map

theorem keys_eq_iff (feature : Feature) :
    feature.properties.keys.map Identifier.quote =
        (feature.toRecord.keys.filter (· ≠ geometryColumn)).map Identifier.quote ↔
      geometryColumn ∉ feature.properties.keys := by
  have others : feature.toRecord.keys.filter (· ≠ geometryColumn) =
      feature.properties.keys.filter (· ≠ geometryColumn) := by
    rw [filter_keys, filter_keys, filter_toRecord]
  rw [others]
  constructor
  · intro same declared
    have fewer := congrArg List.length same
    rw [List.length_map, List.length_map, eq_comm, List.length_filter_eq_length_iff] at fewer
    exact of_decide_eq_true (fewer geometryColumn declared) rfl
  · intro absent
    refine congrArg (List.map Identifier.quote) (List.filter_eq_self.mpr fun name member => decide_eq_true ?_).symm
    rintro rfl
    exact absent member

end Feature

/-- The table for a feature has a column for each property, and the row for it has one for each property and
one for the geometry, in the order of the names and quoted alike. Besides the geometry the cells are the
properties. The columns are the same but for the geometry just if no property has the name of its column. -/
theorem created_columns_fit_iff [LocalZone] (table : Text) (feature : Feature)
    (named : ∀ name ∈ feature.properties.keys, name ≠ []) :
    (Operation.schema (feature.schema table)).compile = .ok [.ddl (TableDefinition.createSql "create table".toList
        (Identifier.quoteQualified table) (feature.properties.entries.map Feature.definition))] ∧
    (Operation.insert ⟨table, [feature.toRecord]⟩).compile = .ok [{
      sql := "insert into ".toList ++ Identifier.quoteQualified table ++ " (".toList ++
        ", ".toList.intercalate (feature.toRecord.keys.map Identifier.quote) ++ ") values (".toList ++
        ", ".toList.intercalate (feature.toRecord.keys.map fun _ => ['?']) ++ [')']
      bindings := .perRow [feature.toRecord.entries.map Prod.snd]
      kind := .insert }] ∧
    feature.toRecord.entries.filter (·.1 ≠ Feature.geometryColumn) =
      feature.properties.entries.filter (·.1 ≠ Feature.geometryColumn) ∧
    feature.toRecord.get? Feature.geometryColumn = some ((feature.geometry.map Value.geometry).getD .null) ∧
    (feature.properties.keys.map Identifier.quote =
        (feature.toRecord.keys.filter (· ≠ Feature.geometryColumn)).map Identifier.quote ↔
      Feature.geometryColumn ∉ feature.properties.keys) :=
  ⟨feature.compile_schema table named, Insert.compile_row table feature.toRecord_keys_ne_nil, feature.filter_toRecord,
    feature.get?_geometryColumn, feature.keys_eq_iff⟩

def subscripted : Feature where
  properties := .ofList [("zone".toList, .bool true), ("a\"b[0]".toList, .int 1)]
  geometry := some (Geometry.point (.ofRatio false 1 2) (.ofRatio true 1 4))

theorem created_columns_fit_iff_subscripted :
    (Operation.schema (subscripted.schema "s.t".toList)).compile =
      .ok [.ddl "create table \"s\".\"t\" (\"a\"\"b\"[0] real, \"zone\" boolean)".toList] ∧
    subscripted.properties.keys.map Identifier.quote =
      (subscripted.toRecord.keys.filter (· ≠ Feature.geometryColumn)).map Identifier.quote := by
  have named : ∀ name ∈ subscripted.properties.keys, name ≠ [] := by decide
  obtain ⟨created, -, -, -, fits⟩ := created_columns_fit_iff "s.t".toList subscripted named
  exact ⟨created, fits.mpr (by decide)⟩

def clashing : Feature := ⟨.ofList [("name".toList, .int 1), ("the_geom".toList, .text "x".toList)], none⟩

theorem geometry_property_declared :
    (Operation.schema (clashing.schema "t".toList)).compile =
        .ok [.ddl "create table \"t\" (\"name\" real, \"the_geom\" text)".toList] ∧
      clashing.toRecord.entries = [("name".toList, .int 1), ("the_geom".toList, .null)] ∧
      (Operation.insert ⟨"t".toList, [clashing.toRecord]⟩).compile = .ok [{
        sql := "insert into \"t\" (\"name\", \"the_geom\") values (?, ?)".toList
        bindings := .perRow [[.int 1, .null]]
        kind := .insert }] :=
  ⟨rfl, rfl, rfl⟩

end LiteralSql
