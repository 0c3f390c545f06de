import LiteralSql.Proofs.Reference.Queries
import LiteralSql.Proofs.Materialize
import LiteralSql.Sql.Schema

/-! Where schema commands mention tables.

The statements of an operation are sketches, one for each. A statement of a
table definition names its table once, at whatever number of statements the
definition is compiled to.
-/

set_option autoImplicit false

namespace LiteralSql

/-- What is compiled for each way to name the tables are the same sketches, with these mentions. -/
def Sketched (compile : (Text → Text) → Except SqlError (List Statement)) (mentions : List Mention) : Prop :=
  ∃ sketches : List Sketch, sketches.flatMap Sketch.mentions = mentions ∧
    ∀ rename, ∃ statements, compile rename = .ok statements ∧
      statements.map Statement.sql = sketches.map (Sketch.sql rename)

/-- Texts in which a reference stands once in each. -/
def Framed (write : Text → List Text) (count : Nat) : Prop :=
  ∃ frames : List (Text × Text), frames.length = count ∧
    ∀ reference, write reference = frames.map fun frame => frame.1 ++ reference ++ frame.2

namespace Framed

variable {first second : Text → List Text} {count more : Nat}

theorem none : Framed (fun _ => []) 0 := ⟨[], rfl, fun _ => rfl⟩

theorem one {write : Text → Text} (front behind : Text)
    (each : ∀ reference, write reference = front ++ reference ++ behind) : Framed (fun reference => [write reference]) 1 :=
  ⟨[(front, behind)], rfl, fun reference => congrArg ([·]) (each reference)⟩

theorem append (left : Framed first count) (right : Framed second more) :
    Framed (fun reference => first reference ++ second reference) (count + more) := by
  obtain ⟨frames, rfl, written⟩ := left
  obtain ⟨others, rfl, writtenBehind⟩ := right
  refine ⟨frames ++ others, List.length_append, fun reference => ?_⟩
  dsimp only
  rw [written, writtenBehind, List.map_append]

theorem map {A : Type} {write : Text → A → Text} (items : List A) (front : Text) (behind : A → Text)
    (each : ∀ reference item, write reference item = front ++ reference ++ behind item) :
    Framed (fun reference => items.map (write reference)) items.length := by
  refine ⟨items.map fun item => (front, behind item), List.length_map _, fun reference => ?_⟩
  rw [List.map_map]
  exact List.map_congr_left fun item _ => each reference item

end Framed

namespace Sketched

variable {compile others : (Text → Text) → Except SqlError (List Statement)} {mentions behind : List Mention}

theorem nil : Sketched (fun _ => .ok []) [] := ⟨[], rfl, fun _ => ⟨[], rfl, rfl⟩⟩

theorem single {write : (Text → Text) → Text} (renders : Renders write mentions)
    (compiled : ∀ rename, ∃ statement, compile rename = .ok [statement] ∧ statement.sql = write rename) :
    Sketched compile mentions := by
  obtain ⟨sketch, rfl, renders⟩ := renders
  refine ⟨[sketch], List.flatMap_singleton _ _, fun rename => ?_⟩
  obtain ⟨statement, done, text⟩ := compiled rename
  refine ⟨[statement], done, ?_⟩
  rw [List.map_singleton, List.map_singleton, text, renders]

theorem of_framed {write : Text → List Text} {count : Nat} (framed : Framed write count) (name : Text)
    (compiled : ∀ rename, ∃ statements, compile rename = .ok statements ∧
      statements.map Statement.sql = write (Identifier.quoteQualified (rename name))) :
    Sketched compile (List.replicate count (.table name)) := by
  obtain ⟨frames, rfl, written⟩ := framed
  refine ⟨frames.map fun frame => [.verbatim frame.1, .mention (.table name), .verbatim frame.2], ?_, fun rename => ?_⟩
  · have once (frame : Text × Text) : Sketch.mentions [.verbatim frame.1, .mention (.table name), .verbatim frame.2] =
        [.table name] := rfl
    rw [List.flatMap_map]
    simp only [once, ← List.map_eq_flatMap, List.map_const']
  · obtain ⟨statements, done, texts⟩ := compiled rename
    refine ⟨statements, done, ?_⟩
    rw [texts, written, List.map_map]
    refine List.map_congr_left fun frame _ => ?_
    simp [Sketch.sql, Mention.map, Mention.sql]

theorem append (left : Sketched compile mentions) (right : Sketched others behind) :
    Sketched (fun rename => do .ok ((← compile rename) ++ (← others rename))) (mentions ++ behind) := by
  obtain ⟨sketches, rfl, written⟩ := left
  obtain ⟨rest, rfl, writtenRest⟩ := right
  refine ⟨sketches ++ rest, List.flatMap_append, fun rename => ?_⟩
  obtain ⟨statements, compiled, same⟩ := written rename
  obtain ⟨further, compiledRest, sameRest⟩ := writtenRest rename
  refine ⟨statements ++ further, ?_, ?_⟩
  · simp only [compiled, compiledRest]
    rfl
  · rw [List.map_append, List.map_append, same, sameRest]

end Sketched

namespace ColumnDefinition

def writtenComments (column : ColumnDefinition) : List Text :=
  if column.type.isIncrements then [] else column.comment.toList

theorem framed [LocalZone] {column : ColumnDefinition} {table definition : Text} {told : List Statement}
    (compiled : column.compile table = .ok (definition, told)) :
    ∃ write, Framed write column.writtenComments.length ∧
      ∀ other, column.compile other = .ok (definition, (write other).map Statement.ddl) := by
  obtain ⟨name, named, compiled⟩ := bind_ok compiled
  simp only [compile, named, writtenComments]
  split at compiled
  · next serial =>
    cases compiled
    simp only [if_pos serial]
    exact ⟨_, Framed.none, fun _ => rfl⟩
  · next plain =>
    obtain ⟨default, encoded, compiled⟩ := bind_ok compiled
    cases compiled
    simp only [if_neg plain, encoded]
    refine ⟨fun reference => column.comment.toList.map fun comment => "comment on column ".toList ++ reference ++
        '.' :: Identifier.quote name ++ " is ".toList ++ commentLiteral comment,
      Framed.map _ "comment on column ".toList
        (fun comment => '.' :: (Identifier.quote name ++ (" is ".toList ++ commentLiteral comment)))
        fun reference comment => ?_, fun other => ?_⟩
    · simp only [List.append_assoc, List.cons_append]
    · rw [List.map_map]
      rfl

theorem framed_all [LocalZone] {columns : List ColumnDefinition} {table : Text}
    {results : List (Text × List Statement)}
    (compiled : columns.mapM (compile table) = .ok results) :
    ∃ write, Framed write (columns.flatMap writtenComments).length ∧
      ∀ other, ∃ others, columns.mapM (compile other) = .ok others ∧ others.map Prod.fst = results.map Prod.fst ∧
        others.flatMap Prod.snd = (write other).map Statement.ddl := by
  induction columns generalizing results with
  | nil =>
    cases compiled
    exact ⟨_, Framed.none, fun _ => ⟨[], rfl, rfl, rfl⟩⟩
  | cons column rest ih =>
    rw [List.mapM_cons] at compiled
    obtain ⟨⟨definition, told⟩, head, compiled⟩ := bind_ok compiled
    obtain ⟨further, tail, compiled⟩ := bind_ok compiled
    cases compiled
    obtain ⟨write, framed, same⟩ := framed head
    obtain ⟨writeRest, framedRest, sameRest⟩ := ih tail
    rw [List.flatMap_cons, List.length_append]
    refine ⟨_, framed.append framedRest, fun other => ?_⟩
    obtain ⟨others, done, definitions, comments⟩ := sameRest other
    refine ⟨(definition, (write other).map Statement.ddl) :: others, ?_, ?_, ?_⟩
    · rw [List.mapM_cons, same, done]
      rfl
    · rw [List.map_cons, List.map_cons, definitions]
    · rw [List.flatMap_cons, comments, List.map_append]

end ColumnDefinition

namespace TableDefinition

def mapTable (rename : Text → Text) (table : TableDefinition) : TableDefinition :=
  { table with name := rename table.name }

def changeCount (table : TableDefinition) : Nat :=
  match table.action with
  | .create | .createIfNotExists => 1
  | .alter => table.columns.length + table.dropped.length + table.renamed.length

def statementCount (table : TableDefinition) : Nat :=
  table.changeCount + table.comment.toList.length + (table.columns.flatMap ColumnDefinition.writtenComments).length

def mentions (table : TableDefinition) : List Mention := List.replicate table.statementCount (.table table.name)

theorem alterHead_append (name behind : Text) :
    alterHead name ++ behind = "alter table ".toList ++ name ++ ' ' :: behind :=
  List.append_assoc ("alter table ".toList ++ name) [' '] behind

theorem framed_changes (table : TableDefinition) {definitions : List Text}
    (all : definitions.length = table.columns.length) :
    Framed (fun reference => table.changes reference definitions) table.changeCount := by
  have created (keyword : Text) : Framed (fun reference => [createSql keyword reference definitions]) 1 :=
    Framed.one (keyword ++ [' ']) (" (".toList ++ (", ".toList.intercalate definitions ++ [')'])) fun reference => by
      simp [createSql]
  have altered {A : Type} (items : List A) (behind : A → Text) :
      Framed (fun reference => items.map fun item => alterHead reference ++ behind item) items.length :=
    Framed.map items "alter table ".toList (fun item => ' ' :: behind item) fun reference item => alterHead_append ..
  unfold changes changeCount
  cases table.action with
  | create => exact created "create table".toList
  | createIfNotExists => exact created "create table if not exists".toList
  | alter =>
    have added := altered definitions fun definition => "add column ".toList ++ definition
    have dropped := altered table.dropped fun column => "drop column ".toList ++ Identifier.quote column
    have renamed := altered table.renamed fun pair =>
      "rename column ".toList ++ (Identifier.quote pair.1 ++ (" to ".toList ++ Identifier.quote pair.2))
    rw [all] at added
    simpa only [List.append_assoc] using (added.append dropped).append renamed

theorem sketched [LocalZone] {table : TableDefinition} {statements : List Statement}
    (compiled : table.compile = .ok statements) :
    Sketched (fun rename => (table.mapTable rename).compile) table.mentions := by
  obtain ⟨results, columns, -⟩ := bind_ok compiled
  obtain ⟨write, framed, same⟩ := ColumnDefinition.framed_all columns
  have all : (results.map Prod.fst).length = table.columns.length := by
    rw [List.length_map, (mapM_ok columns).length_eq]
  have told : Framed (fun reference => table.comment.toList.map fun comment =>
      "comment on table ".toList ++ reference ++ " is ".toList ++ commentLiteral comment) table.comment.toList.length :=
    Framed.map _ "comment on table ".toList (fun comment => " is ".toList ++ commentLiteral comment)
      fun _ _ => List.append_assoc ..
  have texts (items : List Text) : (items.map Statement.ddl).map Statement.sql = items := by
    rw [List.map_map]
    exact List.map_id' items
  -- Under another name the columns have the same definitions, and the comments the same frames.
  refine Sketched.of_framed (((table.framed_changes all).append told).append framed) table.name fun rename => ?_
  obtain ⟨others, done, definitions, comments⟩ := same (Identifier.quoteQualified (rename table.name))
  have whole : (table.mapTable rename).compile = .ok ((table.changes (Identifier.quoteQualified (rename table.name))
      (others.map Prod.fst)).map Statement.ddl ++ table.comment.toList.map (fun comment =>
        .ddl ("comment on table ".toList ++ Identifier.quoteQualified (rename table.name) ++ " is ".toList ++
          commentLiteral comment)) ++
      others.flatMap Prod.snd) := by
    rw [compile, mapTable, done]
    rfl
  refine ⟨_, whole, ?_⟩
  rw [definitions, comments, List.map_append, List.map_append, texts, texts, List.map_map]
  rfl

end TableDefinition

namespace SchemaCommand

/-- The new name of a table is not a mention of one, nor are names that are asked for. -/
def mapTable (rename : Text → Text) : SchemaCommand → SchemaCommand
  | .table definition => .table (definition.mapTable rename)
  | .dropTable name ifExists => .dropTable (rename name) ifExists
  | .renameTable name newName => .renameTable (rename name) newName
  | other => other

def mentions : SchemaCommand → List Mention
  | .table definition => definition.mentions
  | .dropTable name _ | .renameTable name _ => [.table name]
  | _ => []

theorem sketched [LocalZone] {command : SchemaCommand} {statements : List Statement}
    (compiled : command.compile = .ok statements) :
    Sketched (fun rename => (command.mapTable rename).compile) command.mentions := by
  cases command with
  | table definition => exact TableDefinition.sketched compiled
  | dropTable name ifExists =>
    exact .single ((Renders.mention (.table name)).behind ("drop table ".toList ++ ifExistsKeyword ifExists))
      fun _ => ⟨_, rfl, rfl⟩
  | renameTable name newName =>
    have renamed := (((Renders.mention (.table name)).behind "alter table ".toList).before
      " rename to ".toList).before (Identifier.quote newName)
    exact .single renamed fun _ => ⟨_, rfl, rfl⟩
  | raw fragment =>
    obtain ⟨statement, read, same⟩ := bind_ok compiled
    exact .single (Renders.verbatim statement.sql) fun _ => ⟨statement, compiled.trans same.symm, rfl⟩
  | _ => exact .single (Renders.verbatim _) fun _ => ⟨_, rfl, rfl⟩

theorem mapTable_id (command : SchemaCommand) : command.mapTable id = command := by
  cases command <;> rfl

end SchemaCommand

namespace Schema

def mapTable (rename : Text → Text) (schema : Schema) : Schema := schema.map (SchemaCommand.mapTable rename)

def mentions (schema : Schema) : List Mention := schema.flatMap SchemaCommand.mentions

theorem compile_cons [LocalZone] (command : SchemaCommand) (rest : Schema) :
    compile (command :: rest) = (do .ok ((← command.compile) ++ (← compile rest)) : Except SqlError _) := by
  simp only [compile, List.mapM_cons]
  cases command.compile with
  | error error => rfl
  | ok statements => cases rest.mapM SchemaCommand.compile <;> rfl

theorem sketched [LocalZone] {schema : Schema} {statements : List Statement}
    (compiled : schema.compile = .ok statements) :
    Sketched (fun rename => (schema.mapTable rename).compile) schema.mentions := by
  induction schema generalizing statements with
  | nil => exact Sketched.nil
  | cons command rest ih =>
    rw [compile_cons] at compiled
    obtain ⟨first, head, compiled⟩ := bind_ok compiled
    obtain ⟨further, tail, -⟩ := bind_ok compiled
    have both := (SchemaCommand.sketched head).append (ih tail)
    simpa only [mapTable, mentions, List.map_cons, List.flatMap_cons, compile_cons] using both

theorem mapTable_id (schema : Schema) : schema.mapTable id = schema := by
  rw [mapTable, funext SchemaCommand.mapTable_id]
  exact List.map_id' schema

end Schema

end LiteralSql
