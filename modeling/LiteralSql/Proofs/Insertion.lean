import LiteralSql.Proofs.Columns
import LiteralSql.Proofs.Placement
import Mathlib.Data.List.Sort

/-! The rows of an insert.

Rows may name different columns. The statement has the columns of all of them, in
order, and each row takes its values to the places of its own columns. At the others
it is null.
-/

set_option autoImplicit false

namespace LiteralSql

namespace Insert

/-- The cells are those of the record, each under its column, and null under the columns that the record lacks. -/
structure Tabulates (columns : List Text) (record : Record) (cells : List Value) : Prop where
  length : cells.length = columns.length
  own : (columns.zip cells).filter (·.1 ∈ record.keys) = record.entries
  lacking : ∀ cell ∈ columns.zip cells, cell.1 ∉ record.keys → cell.2 = .null

theorem mem_columns {insert : Insert} {column : Text} :
    column ∈ insert.columns ↔ ∃ row ∈ insert.rows, column ∈ row.keys := by
  rw [columns, Dictionary.mem_keys_ofList, List.map_map, ← List.mem_flatMap]
  exact iff_of_eq (congrArg (column ∈ ·) (List.map_id _))

theorem pairwise_columns (insert : Insert) : insert.columns.Pairwise (· < ·) :=
  (Dictionary.ofList ((insert.rows.flatMap Dictionary.keys).map fun column => (column, ()))).ascending

theorem columns_eq_nil_iff {insert : Insert} : insert.columns = [] ↔ ∀ row ∈ insert.rows, row.keys = [] := by
  simp only [List.eq_nil_iff_forall_not_mem, mem_columns]
  constructor
  · exact fun none row member column held => none column ⟨row, member, held⟩
  · rintro none column ⟨row, member, held⟩
    exact none row member column held

theorem zip_cells (columns : List Text) (record : Record) :
    columns.zip (cells columns record) = columns.map fun column => (column, (record.get? column).getD .null) :=
  List.map_prod_left_eq_zip.symm

theorem filter_columns {columns : List Text} (ordered : columns.Pairwise (· < ·)) {record : Record}
    (known : ∀ column ∈ record.keys, column ∈ columns) : columns.filter (· ∈ record.keys) = record.keys := by
  refine (ordered.filter _).eq_of_mem_iff record.ascending fun column => ?_
  rw [List.mem_filter, decide_eq_true_eq]
  exact and_iff_right_of_imp (known column)

theorem tabulates_cells {columns : List Text} (ordered : columns.Pairwise (· < ·)) {record : Record}
    (known : ∀ column ∈ record.keys, column ∈ columns) : Tabulates columns record (cells columns record) where
  length := List.length_map _
  own := by
    have cell : (fun cell : Text × Value => decide (cell.1 ∈ record.keys)) ∘
        (fun column => (column, (record.get? column).getD .null)) = fun column => decide (column ∈ record.keys) := rfl
    rw [zip_cells, List.filter_map, cell, filter_columns ordered known, ← zip_cells, cells_keys]
    exact List.zip_map'.trans (List.map_id _)
  lacking := by
    rw [zip_cells]
    intro cell member absent
    obtain ⟨column, -, rfl⟩ := List.mem_map.mp member
    have none : record.get? column = none := by
      rw [Option.eq_none_iff_forall_ne_some]
      exact fun value held => absent (List.mem_map.mpr ⟨_, Dictionary.get?_eq_some_iff.mp held, rfl⟩)
    exact congrArg (Option.getD · .null) none

def sql (table : Text) (columns : List Text) : Text :=
  "insert into ".toList ++ Identifier.quoteQualified table ++ " (".toList ++
    ", ".toList.intercalate (columns.map Identifier.quote) ++ ") values (".toList ++
    ", ".toList.intercalate (columns.map fun _ => ['?']) ++ [')']

theorem placeholderCount_sql (insert : Insert) :
    placeholderCount (sql insert.table insert.columns) = insert.columns.length := by
  -- All rows are laid out alike, so the one without values will do.
  have counted := (insert.sound_rowLayout .empty).places.ofBindings.1
  rwa [sql_rowLayout, params_rowLayout, cells, List.length_map] at counted

/-- An insert without rows is an error. Rows without columns are inserted one by one. Otherwise there is one
statement, with the columns of all rows in order, a placeholder for each, and the rows in their order. Under the
columns each row gives its record back. -/
theorem compile_lossless (insert : Insert) :
    (insert.rows = [] → insert.compile = .error (.emptyInsert insert.table)) ∧
    (insert.rows ≠ [] → (∀ row ∈ insert.rows, row.keys = []) →
      insert.compile = .ok (insert.rows.map fun _ => .once ("insert into ".toList ++
        Identifier.quoteQualified insert.table ++ " default values".toList) [] .insert)) ∧
    ((∃ row ∈ insert.rows, row.keys ≠ []) → ∃ columns rows,
      insert.compile = .ok [⟨sql insert.table columns, .perRow rows, .insert⟩] ∧
      columns.Pairwise (· < ·) ∧
      (∀ column, column ∈ columns ↔ ∃ row ∈ insert.rows, column ∈ row.keys) ∧
      placeholderCount (sql insert.table columns) = columns.length ∧
      List.Forall₂ (Tabulates columns) insert.rows rows) := by
  refine ⟨fun empty => ?_, fun inhabited bare => ?_, fun ⟨row, member, columns⟩ => ?_⟩
  · rw [compile, empty]
    rfl
  · have some : ¬ insert.rows.isEmpty = true := fun empty => inhabited (List.isEmpty_iff.mp empty)
    rw [compile]
    dsimp only
    rw [if_neg some, columns_eq_nil_iff.mpr bare]
    rfl
  · have some : ¬ insert.rows.isEmpty = true := fun empty =>
      List.ne_nil_of_mem member (List.isEmpty_iff.mp empty)
    have wide : ¬ insert.columns.isEmpty = true := fun none =>
      columns (columns_eq_nil_iff.mp (List.isEmpty_iff.mp none) row member)
    refine ⟨insert.columns, insert.rows.map (cells insert.columns), ?_, insert.pairwise_columns,
      fun _ => mem_columns, insert.placeholderCount_sql, ?_⟩
    · rw [compile]
      dsimp only
      rw [if_neg some, if_neg wide]
      rfl
    · rw [List.forall₂_map_right_iff, List.forall₂_same]
      exact fun row member => tabulates_cells insert.pairwise_columns fun column held => mem_columns.mpr ⟨row, member, held⟩

example : (⟨"places".toList, [.ofList [("name".toList, .text "home".toList), ("size".toList, .int 2)],
      .ofList [("kind".toList, .null), ("name".toList, .text "work".toList)]]⟩ : Insert).compile =
    .ok [⟨"insert into \"places\" (\"kind\", \"name\", \"size\") values (?, ?, ?)".toList, .perRow
      [[.null, .text "home".toList, .int 2], [.null, .text "work".toList, .null]], .insert⟩] := rfl

end Insert

end LiteralSql
