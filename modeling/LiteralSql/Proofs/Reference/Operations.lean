import LiteralSql.Proofs.Reference.Commands
import LiteralSql.Sql.Operation

/-! Where operations mention tables.

Every statement of an operation is a sketch of texts and mentions. A table has
one reference in all of them, except where it is joined or where a column is
given with it and its name has a dot.
-/

set_option autoImplicit false

namespace LiteralSql

namespace Insert

def mapTable (rename : Text → Text) (insert : Insert) : Insert := { insert with table := rename insert.table }

/-- Rows without columns are inserted one by one. -/
def mentions (insert : Insert) : List Mention :=
  List.replicate (if insert.columns.isEmpty then insert.rows.length else 1) (.table insert.table)

theorem sketched {insert : Insert} {statements : List Statement} (compiled : insert.compile = .ok statements) :
    Sketched (fun rename => (insert.mapTable rename).compile) insert.mentions := by
  have columns (rename : Text → Text) : (insert.mapTable rename).columns = insert.columns := rfl
  simp only [compile, columns, mentions] at compiled ⊢
  split at compiled
  · cases compiled
  · next some =>
    have filled (rename : Text → Text) : ¬ (insert.mapTable rename).rows.isEmpty := some
    simp only [if_neg (filled _)]
    split
    · next bare =>
      have each := Framed.map insert.rows "insert into ".toList (fun _ => " default values".toList) fun _ _ => rfl
      exact Sketched.of_framed each insert.table fun rename => ⟨_, rfl, List.map_map⟩
    · have one := Framed.one "insert into ".toList (" (".toList ++ (", ".toList.intercalate
        (insert.columns.map Identifier.quote) ++ (") values (".toList ++
          (", ".toList.intercalate (insert.columns.map fun _ => ['?']) ++ [')'])))) fun _ => rfl
      refine Sketched.of_framed one insert.table fun rename => ⟨_, rfl, ?_⟩
      simp only [List.map_singleton, List.append_assoc]
      rfl

end Insert

namespace Update

def mapTable (rename : Text → Text) (update : Update) : Update :=
  { update with table := rename update.table, condition := update.condition.map (Expr.mapTable rename) }

def mentions (update : Update) : List Mention :=
  .table update.table :: update.condition.toList.flatMap Expr.mentions

theorem compile_of_assigned {update : Update} (assigned : ¬ update.assignments.isEmpty) :
    ∃ statement, update.compile = .ok statement ∧ statement.sql =
      "update ".toList ++ Identifier.quoteQualified update.table ++ " set ".toList ++
        ", ".toList.intercalate (update.assignments.map fun (column, _) => Identifier.quote column ++ " = ?".toList) ++
        exprClause " where ".toList update.condition :=
  ⟨_, if_neg assigned, rfl⟩

theorem sketched {update : Update} {statement : Statement} (compiled : update.compile = .ok statement) :
    Sketched (fun rename => do .ok [← (update.mapTable rename).compile]) update.mentions := by
  have assigned : ¬ update.assignments.isEmpty := by
    intro empty
    rw [compile, if_pos empty] at compiled
    cases compiled
  have target := (((Renders.mention (.table update.table)).behind "update ".toList).before " set ".toList).before
    (", ".toList.intercalate (update.assignments.map fun (column, _) => Identifier.quote column ++ " = ?".toList))
  have whole := target.append (renders_exprClause " where ".toList update.condition)
  refine .single whole fun rename => ?_
  obtain ⟨statement, done, text⟩ := @compile_of_assigned (update.mapTable rename) assigned
  exact ⟨statement, by rw [done]; rfl, text⟩

end Update

namespace Delete

def mapTable (rename : Text → Text) (delete : Delete) : Delete where
  table := rename delete.table
  condition := delete.condition.map (Expr.mapTable rename)

def mentions (delete : Delete) : List Mention :=
  .table delete.table :: delete.condition.toList.flatMap Expr.mentions

theorem sketched (delete : Delete) : Sketched (fun rename => .ok [(delete.mapTable rename).compile]) delete.mentions :=
  .single (((Renders.mention (.table delete.table)).behind "delete from ".toList).append
    (renders_exprClause " where ".toList delete.condition)) fun _ => ⟨_, rfl, rfl⟩

end Delete

namespace Operation

def mapTable (rename : Text → Text) : Operation → Operation
  | .select query => .select (query.mapTable rename)
  | .insert query => .insert (query.mapTable rename)
  | .update query => .update (query.mapTable rename)
  | .delete query => .delete (query.mapTable rename)
  | .raw fragment => .raw fragment
  | .schema commands => .schema (Schema.mapTable rename commands)

def mentions : Operation → List Mention
  | .select query => query.mentions
  | .insert query => query.mentions
  | .update query => query.mentions
  | .delete query => query.mentions
  | .raw _ => []
  | .schema commands => Schema.mentions commands

theorem mapTable_id (operation : Operation) : operation.mapTable id = operation := by
  cases operation with
  | select query => exact congrArg Operation.select query.mapTable_id
  | update query =>
    refine congrArg Operation.update ?_
    rw [Update.mapTable, Expr.map_mapTable_id]
    rfl
  | delete query =>
    refine congrArg Operation.delete ?_
    rw [Delete.mapTable, Expr.map_mapTable_id]
    rfl
  | schema commands => exact congrArg Operation.schema commands.mapTable_id
  | _ => rfl

theorem sketched [LocalZone] {operation : Operation} {statements : List Statement}
    (compiled : operation.compile = .ok statements) :
    Sketched (fun rename => (operation.mapTable rename).compile) operation.mentions := by
  cases operation with
  | select query => exact .single query.renders fun _ => ⟨_, rfl, rfl⟩
  | insert query => exact Insert.sketched compiled
  | update query =>
    obtain ⟨statement, done, -⟩ := bind_ok compiled
    exact Update.sketched done
  | delete query => exact query.sketched
  | raw fragment =>
    obtain ⟨statement, -, same⟩ := bind_ok compiled
    exact .single (Renders.verbatim statement.sql) fun _ => ⟨statement, compiled.trans same.symm, rfl⟩
  | schema commands => exact Schema.sketched compiled

/-- The statements of an operation are sketches in which the tables are mentioned. What is written for a mention
is the reference to its table, unless the name is quoted as a whole and has a dot. -/
theorem mentions_written [LocalZone] {operation : Operation} {statements : List Statement}
    (compiled : operation.compile = .ok statements) :
    ∃ sketches : List Sketch, sketches.flatMap Sketch.mentions = operation.mentions ∧
      statements.map Statement.sql = sketches.map (Sketch.sql id) ∧
      (∀ rename, ∃ renamed, (operation.mapTable rename).compile = .ok renamed ∧
        renamed.map Statement.sql = sketches.map (Sketch.sql rename)) ∧
      ∀ mention ∈ operation.mentions,
        (mention.sql = mention.reference ↔ ¬ (mention.isWhole = true ∧ '.' ∈ mention.name)) := by
  obtain ⟨sketches, mentions, written⟩ := sketched compiled
  refine ⟨sketches, mentions, ?_, written, fun mention _ => mention.sql_eq_reference_iff⟩
  obtain ⟨same, again, texts⟩ := written id
  dsimp only at again
  rw [mapTable_id, compiled] at again
  cases again
  exact texts

def citiesOfCountries : Operation := .select {
  table := "geo.cities".toList
  columns := [.column "geo.cities.name".toList]
  joins := [⟨.left, "countries".toList, "geo.cities.country_id".toList, "countries.id".toList⟩] }

theorem mentions_written_cities :
    ∃ statements, citiesOfCountries.compile = .ok statements ∧
      citiesOfCountries.mentions.map Mention.name = ["geo.cities".toList, "geo.cities".toList, "countries".toList,
        "geo.cities".toList, "countries".toList] ∧
      ∀ mention ∈ citiesOfCountries.mentions, mention.sql = mention.reference := by
  have compiled : ∃ statements, citiesOfCountries.compile = .ok statements := ⟨_, rfl⟩
  obtain ⟨statements, compiled⟩ := compiled
  obtain ⟨sketches, -, -, -, written⟩ := mentions_written compiled
  have plain : ∀ mention ∈ citiesOfCountries.mentions, ¬ (mention.isWhole = true ∧ '.' ∈ mention.name) := by decide
  exact ⟨statements, compiled, by decide, fun mention member => (written mention member).mpr (plain mention member)⟩

def citiesOfDottedCountries : Operation := .select {
  table := "geo.cities".toList
  columns := [.column "geo.cities.name".toList, .column "geo.countries.name".toList]
  joins := [⟨.inner, "geo.countries".toList, "geo.cities.country_id".toList, "geo.countries.id".toList⟩] }

theorem joined_is_not_selected :
    ∃ statement, citiesOfDottedCountries.compile = .ok [statement] ∧
      statement.sql = ("select \"geo\".\"cities\".\"name\", \"geo\".\"countries\".\"name\" from \"geo\".\"cities\" " ++
        "inner join \"geo.countries\" on \"geo\".\"cities\".\"country_id\" = \"geo\".\"countries\".\"id\"").toList ∧
      Mention.joined "geo.countries".toList ∈ citiesOfDottedCountries.mentions ∧
      (Mention.joined "geo.countries".toList).sql = "\"geo.countries\"".toList ∧
      (Mention.joined "geo.countries".toList).reference = "\"geo\".\"countries\"".toList := by
  exact ⟨_, rfl, by decide +kernel, by decide, by decide, by decide⟩

end Operation

end LiteralSql
