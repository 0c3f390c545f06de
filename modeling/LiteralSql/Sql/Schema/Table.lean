import LiteralSql.Sql.Schema.Column

/-! Table definitions and changes of tables. -/

set_option autoImplicit false

namespace LiteralSql

inductive TableAction
  | create
  | createIfNotExists
  | alter
  deriving DecidableEq

/-- What is to be done with one table. Columns are dropped and renamed only
when a table is altered. -/
structure TableDefinition where
  name : Text
  action : TableAction
  columns : List ColumnDefinition := []
  dropped : List Text := []
  renamed : List (Text × Text) := []
  comment : Option Text := none

namespace TableDefinition

def addColumn (table : TableDefinition) (column : ColumnDefinition) : TableDefinition :=
  { table with columns := table.columns ++ [column] }

def dropColumn (table : TableDefinition) (name : Text) : TableDefinition :=
  { table with dropped := table.dropped ++ [name] }

def renameColumn (table : TableDefinition) (name newName : Text) : TableDefinition :=
  { table with renamed := table.renamed ++ [(name, newName)] }

def setComment (table : TableDefinition) (comment : Text) : TableDefinition :=
  { table with comment := some comment }

def alterHead (name : Text) : Text := "alter table ".toList ++ name ++ [' ']

def createSql (keyword : Text) (name : Text) (definitions : List Text) : Text :=
  keyword ++ ' ' :: name ++ " (".toList ++ ", ".toList.intercalate definitions ++ [')']

def changes (table : TableDefinition) (name : Text) (definitions : List Text) : List Text :=
  match table.action with
  | .create => [createSql "create table".toList name definitions]
  | .createIfNotExists => [createSql "create table if not exists".toList name definitions]
  | .alter =>
    definitions.map (fun definition => alterHead name ++ "add column ".toList ++ definition) ++
      table.dropped.map (fun column =>
        alterHead name ++ "drop column ".toList ++ Identifier.quote column) ++
      table.renamed.map (fun (column, newName) =>
        alterHead name ++ "rename column ".toList ++ Identifier.quote column ++ " to ".toList ++
          Identifier.quote newName)

/-- The statements for a table; comments come last, that on the table first. -/
def compile [LocalZone] (table : TableDefinition) : Except SqlError (List Statement) := do
  let name := Identifier.quoteQualified table.name
  let columns ← table.columns.mapM (ColumnDefinition.compile name)
  let comments := table.comment.toList.map fun comment =>
    Statement.ddl ("comment on table ".toList ++ name ++ " is ".toList ++ commentLiteral comment)
  .ok ((table.changes name (columns.map Prod.fst)).map Statement.ddl ++ comments ++
    columns.flatMap Prod.snd)

end TableDefinition

end LiteralSql
