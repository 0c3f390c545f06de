import LiteralSql.Sql.Expr
import LiteralSql.Sql.Statement

/-! Select, insert, update and delete: what each consists of and the statement
it compiles to. -/

set_option autoImplicit false

namespace LiteralSql

inductive Direction
  | ascending
  | descending
  deriving DecidableEq

def Direction.sql : Direction → Text
  | .ascending => "asc".toList
  | .descending => "desc".toList

inductive JoinKind
  | inner
  | left
  | right
  deriving DecidableEq

def JoinKind.sql : JoinKind → Text
  | .inner => "inner join".toList
  | .left => "left join".toList
  | .right => "right join".toList

structure Join where
  kind : JoinKind
  table : Text
  left : Text
  right : Text
  deriving DecidableEq

/-- The joined table is one name, also with a dot in it. -/
def Join.sql (join : Join) : Text :=
  join.kind.sql ++ ' ' :: Identifier.quote join.table ++ " on ".toList ++
    (Expr.equalColumns (.named join.left) (.named join.right)).sql

def listClause (keyword : Text) (items : List Text) : Text :=
  if items.isEmpty then [] else keyword ++ ", ".toList.intercalate items

def exprClause (keyword : Text) : Option Expr → Text
  | none => []
  | some expr => keyword ++ expr.sql

def exprParams : Option Expr → List Value
  | none => []
  | some expr => expr.params

def countClause (keyword : Text) : Option Nat → Text
  | none => []
  | some count => keyword ++ Text.ofNat count

inductive Projection
  | column (name : Text)
  | all
  | count
  | countOf (name : Text)
  | raw (fragment : Raw)

namespace Projection

def sql : Projection → Text
  | .column name => Identifier.quoteQualified name
  | .all => ['*']
  | .count => "count(*)".toList
  | .countOf name => "count(".toList ++ Identifier.quoteQualified name ++ [')']
  | .raw fragment => fragment.sql

def params : Projection → List Value
  | .raw fragment => fragment.bindings
  | _ => []

end Projection

structure Select where
  table : Text
  columns : List Projection := []
  distinct : Bool := false
  joins : List Join := []
  condition : Option Expr := none
  groupBy : List Text := []
  having : Option Expr := none
  orderBy : List (Text × Direction) := []
  limit : Option Nat := none
  offset : Option Nat := none

namespace Select

def addColumn (select : Select) (column : Projection) : Select :=
  { select with columns := select.columns ++ [column] }

/-- Replaces the condition. -/
def filter (select : Select) (condition : Expr) : Select :=
  { select with condition := some condition }

def andFilter (select : Select) (condition : Expr) : Select :=
  { select with condition := some (match select.condition with
      | some held => held.and condition
      | none => condition) }

def orFilter (select : Select) (condition : Expr) : Select :=
  { select with condition := some (match select.condition with
      | some held => held.or condition
      | none => condition) }

def addJoin (select : Select) (join : Join) : Select := { select with joins := select.joins ++ [join] }

def addOrder (select : Select) (column : Text) (direction : Direction) : Select :=
  { select with orderBy := select.orderBy ++ [(column, direction)] }

def sql (select : Select) : Text :=
  "select ".toList ++ (if select.distinct then "distinct ".toList else []) ++
    ", ".toList.intercalate (select.columns.map Projection.sql) ++
    " from ".toList ++ Identifier.quoteQualified select.table ++
    select.joins.flatMap (fun join => ' ' :: join.sql) ++
    exprClause " where ".toList select.condition ++
    listClause " group by ".toList (select.groupBy.map Identifier.quoteQualified) ++
    exprClause " having ".toList select.having ++
    listClause " order by ".toList (select.orderBy.map fun (column, direction) =>
      Identifier.quoteQualified column ++ ' ' :: direction.sql) ++
    countClause " limit ".toList select.limit ++
    countClause " offset ".toList select.offset

def params (select : Select) : List Value :=
  select.columns.flatMap Projection.params ++ exprParams select.condition ++ exprParams select.having

def compile (select : Select) : Statement := .once select.sql select.params .select

end Select

structure Insert where
  table : Text
  rows : List Record

namespace Insert

def columns (insert : Insert) : List Text :=
  (Dictionary.ofList ((insert.rows.flatMap Dictionary.keys).map fun column => (column, ()))).keys

/-- The cells of a row under the given columns; a cell that it lacks is null. -/
def cells (columns : List Text) (row : Record) : List Value :=
  columns.map fun column => (row.get? column).getD .null

/-- One statement for all rows, or one for each row if no row has a column. -/
def compile (insert : Insert) : Except SqlError (List Statement) :=
  let table := Identifier.quoteQualified insert.table
  if insert.rows.isEmpty then .error (.emptyInsert insert.table)
  else
    let columns := insert.columns
    if columns.isEmpty then
      .ok (insert.rows.map fun _ =>
        .once ("insert into ".toList ++ table ++ " default values".toList) [] .insert)
    else
      .ok [{
        sql := "insert into ".toList ++ table ++ " (".toList ++
          ", ".toList.intercalate (columns.map Identifier.quote) ++ ") values (".toList ++
          ", ".toList.intercalate (columns.map fun _ => ['?']) ++ [')']
        bindings := .perRow (insert.rows.map (cells columns))
        kind := .insert }]

end Insert

structure Update where
  table : Text
  assignments : List (Text × Value) := []
  condition : Option Expr := none

namespace Update

def set (update : Update) (column : Text) (value : Value) : Update :=
  { update with assignments := update.assignments ++ [(column, value)] }

def setAll (update : Update) (record : Record) : Update :=
  { update with assignments := update.assignments ++ record.entries }

def filter (update : Update) (condition : Expr) : Update :=
  { update with condition := some condition }

def compile (update : Update) : Except SqlError Statement :=
  if update.assignments.isEmpty then .error (.emptyUpdate update.table)
  else
    let targets := update.assignments.map fun (column, _) => Identifier.quote column ++ " = ?".toList
    .ok (.once
      ("update ".toList ++ Identifier.quoteQualified update.table ++ " set ".toList ++
        ", ".toList.intercalate targets ++ exprClause " where ".toList update.condition)
      (update.assignments.map Prod.snd ++ exprParams update.condition) .update)

end Update

/-- Without a condition every row of the table is deleted. -/
structure Delete where
  table : Text
  condition : Option Expr := none

namespace Delete

def filter (delete : Delete) (condition : Expr) : Delete :=
  { delete with condition := some condition }

def compile (delete : Delete) : Statement :=
  .once ("delete from ".toList ++ Identifier.quoteQualified delete.table ++
    exprClause " where ".toList delete.condition) (exprParams delete.condition) .delete

end Delete

end LiteralSql
