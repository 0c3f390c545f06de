import LiteralSql.Sql.Query
import LiteralSql.Sql.Schema

/-! Operations, and their way to the SQL text that is sent. -/

set_option autoImplicit false

namespace LiteralSql

inductive Operation
  | select (query : Select)
  | insert (query : Insert)
  | update (query : Update)
  | delete (query : Delete)
  | raw (fragment : Raw)
  | schema (commands : Schema)

namespace Operation

def kind : Operation → StatementKind
  | .select _ => .select
  | .insert _ => .insert
  | .update _ => .update
  | .delete _ => .delete
  | .raw _ => .raw
  | .schema _ => .ddl

def table? : Operation → Option Text
  | .select query => some query.table
  | .insert query => some query.table
  | .update query => some query.table
  | .delete query => some query.table
  | .raw _ => none
  | .schema _ => none

/-- A raw statement is sent as it is, everything else in a transaction. -/
def envelope : Operation → Envelope
  | .raw _ => .bare
  | _ => .transaction

def createdTable? : Operation → Option Text
  | .schema commands => Schema.createdTable? commands
  | _ => none

def compile [LocalZone] : Operation → Except SqlError (List Statement)
  | .select query => .ok [query.compile]
  | .insert query => query.compile
  | .update query => do .ok [← query.compile]
  | .delete query => .ok [query.compile]
  | .raw fragment => do .ok [← Statement.ofRaw fragment]
  | .schema commands => Schema.compile commands

def toSql [LocalZone] (operation : Operation) (zone : TimeZone) : Except SqlError Text := do
  materializeAll (← operation.compile) zone operation.envelope

end Operation

end LiteralSql
