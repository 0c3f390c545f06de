import LiteralSql.Digest
import LiteralSql.Sql.Flat
import LiteralSql.Text.Utf8

/-! Compiled statements and the SQL text that is sent for them.

A statement without values is sent as it is. Otherwise consecutive rows with
the same text share a block that prepares the text, executes it for each row
and deallocates it.
-/

set_option autoImplicit false

namespace LiteralSql

inductive StatementKind
  | select
  | insert
  | update
  | delete
  | raw
  | ddl
  deriving DecidableEq

inductive Bindings
  | single (values : List Value)
  | perRow (rows : List (List Value))

namespace Bindings

def rows : Bindings → List (List Value)
  | .single values => [values]
  | .perRow rows => rows

def isEmpty (bindings : Bindings) : Bool := bindings.rows.all List.isEmpty

end Bindings

structure Statement where
  sql : Text
  bindings : Bindings
  kind : StatementKind

inductive Envelope
  | transaction
  | bare
  deriving DecidableEq

namespace Statement

def once (sql : Text) (values : List Value) (kind : StatementKind) : Statement :=
  ⟨sql, .single values, kind⟩

def ddl (sql : Text) : Statement := once sql [] .ddl

def ofRaw (fragment : Raw) : Except SqlError Statement :=
  let actual := placeholderCount fragment.sql
  let expected := fragment.bindings.length
  if actual = expected then .ok (once fragment.sql fragment.bindings .raw)
  else .error (.bindingCount expected actual)

end Statement

def separator : Text := ";\n".toList

/-- What the name of a prepared block is computed from: its text and the types in each row. -/
def preparedKey (sql : Text) (rows : List Flat) : Text :=
  sql ++ '\n' :: [';'].intercalate (rows.map Flat.typeDescriptor)

def preparedName (sql : Text) (rows : List Flat) : Text :=
  '_' :: (Hex.encode (Sha256.digest (Utf8.encode (preparedKey sql rows)))).take 16

def executeLine [LocalZone] (zone : TimeZone) (name : Text) (row : Flat) : Except SqlError Text := do
  let literals ← row.values.mapM (Value.literal zone)
  .ok ("EXECUTE ".toList ++ name ++ '(' :: [','].intercalate literals ++ ");\n".toList)

def renderRun [LocalZone] (zone : TimeZone) : List Flat → Except SqlError Text
  | [] => .ok []
  | first :: others => do
    let rows := first :: others
    let sql := first.parameterized
    -- Rows with the same pieces have equally many values, so the first one tells for all of them.
    if first.values.isEmpty then .ok (separator.intercalate (List.replicate rows.length sql))
    else
      let name := preparedName sql rows
      let lines ← rows.mapM (executeLine zone name)
      .ok ("PREPARE ".toList ++ name ++ " AS\n".toList ++ sql ++ ";\n".toList ++ lines.flatten ++
        "DEALLOCATE ".toList ++ name)

namespace Statement

/-- The maximal groups of consecutive rows with equal pieces. -/
def runs (rows : List Flat) : List (List Flat) :=
  rows.splitBy fun left right => left.pieces = right.pieces

def materialize [LocalZone] (statement : Statement) (zone : TimeZone) : Except SqlError Text := do
  let rows := statement.bindings.rows
  if rows.isEmpty then .ok statement.sql
  else
    let flats ← rows.mapM (Flat.ofBindings statement.sql)
    let blocks ← (runs flats).mapM (renderRun zone)
    .ok (separator.intercalate blocks)

end Statement

def materializeAll [LocalZone] (statements : List Statement) (zone : TimeZone) (envelope : Envelope) :
    Except SqlError Text := do
  let parts ← statements.mapM fun statement => statement.materialize zone
  let body := separator.intercalate parts
  match envelope with
  | .transaction => .ok ("BEGIN;\n".toList ++ body ++ ";\nCOMMIT;".toList)
  | .bare => .ok body

end LiteralSql
