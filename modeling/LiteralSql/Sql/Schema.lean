import LiteralSql.Sql.Schema.Table

/-! Sequences of schema commands. -/

set_option autoImplicit false

namespace LiteralSql

inductive SchemaCommand
  | table (definition : TableDefinition)
  | dropTable (name : Text) (ifExists : Bool)
  | renameTable (name newName : Text)
  | createSchema (name : Text) (ifNotExists : Bool)
  | dropSchema (name : Text) (ifExists : Bool)
  | createExtension (name : Text) (ifNotExists : Bool)
  | dropExtension (name : Text) (ifExists : Bool)
  | hasTable (name : Text)
  | hasColumn (table column : Text)
  | raw (fragment : Raw)

abbrev Schema := List SchemaCommand

namespace SchemaCommand

def ifExistsKeyword (present : Bool) : Text := if present then "if exists ".toList else []

def ifNotExistsKeyword (present : Bool) : Text := if present then "if not exists ".toList else []

def compile [LocalZone] : SchemaCommand → Except SqlError (List Statement)
  | .table definition => definition.compile
  | .dropTable name ifExists =>
    .ok [.ddl ("drop table ".toList ++ ifExistsKeyword ifExists ++ Identifier.quoteQualified name)]
  | .renameTable name newName =>
    .ok [.ddl ("alter table ".toList ++ Identifier.quoteQualified name ++ " rename to ".toList ++
      Identifier.quote newName)]
  | .createSchema name ifNotExists =>
    .ok [.ddl ("create schema ".toList ++ ifNotExistsKeyword ifNotExists ++ Identifier.quote name)]
  | .dropSchema name ifExists =>
    .ok [.ddl ("drop schema ".toList ++ ifExistsKeyword ifExists ++ Identifier.quote name)]
  | .createExtension name ifNotExists =>
    .ok [.ddl ("create extension ".toList ++ ifNotExistsKeyword ifNotExists ++
      Identifier.quote name)]
  | .dropExtension name ifExists =>
    .ok [.ddl ("drop extension ".toList ++ ifExistsKeyword ifExists ++ Identifier.quote name)]
  | .hasTable name =>
    .ok [.once "select * from information_schema.tables where table_name = ?".toList
      [.text name] .select]
  | .hasColumn owner column =>
    .ok [.once
      "select * from information_schema.columns where table_name = ? and column_name = ?".toList
      [.text owner, .text column] .select]
  | .raw fragment => do .ok [← Statement.ofRaw fragment]

/-- The table that the command creates for certain. -/
def createdTable? : SchemaCommand → Option Text
  | .table definition => if definition.action = .create then some definition.name else none
  | _ => none

end SchemaCommand

namespace Schema

def compile [LocalZone] (schema : Schema) : Except SqlError (List Statement) := do
  .ok (← schema.mapM SchemaCommand.compile).flatten

def createdTable? (schema : Schema) : Option Text :=
  schema.reverse.findSome? SchemaCommand.createdTable?

end Schema

end LiteralSql
