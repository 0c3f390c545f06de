import LiteralSql.Sql.Identifier
import LiteralSql.Sql.Value

/-! Predicates and other expressions, and their SQL text.

An expression is kept as the tree of the steps that built it. Nothing is
parenthesised unless the tree says so.
-/

set_option autoImplicit false

namespace LiteralSql

/-- A column; without a table its name may be a dotted reference. -/
structure Column where
  table : Option Text
  name : Text
  deriving DecidableEq

namespace Column

def named (name : Text) : Column := ⟨none, name⟩

def sql (column : Column) : Text :=
  match column.table with
  | some table => Identifier.quote table ++ '.' :: Identifier.quote column.name
  | none => Identifier.quoteQualified column.name

end Column

inductive Comparison
  | eq
  | notEq
  | lt
  | ltEq
  | gt
  | gtEq
  | like
  | notLike
  | ilike
  deriving DecidableEq

def Comparison.sql : Comparison → Text
  | .eq => "=".toList
  | .notEq => "!=".toList
  | .lt => "<".toList
  | .ltEq => "<=".toList
  | .gt => ">".toList
  | .gtEq => ">=".toList
  | .like => "like".toList
  | .notLike => "not like".toList
  | .ilike => "ilike".toList

inductive Expr
  | column (column : Column)
  | value (value : Value)
  | raw (fragment : Raw)
  | equalColumns (left right : Column)
  | compare (comparison : Comparison) (operand : Expr) (value : Value)
  | isNull (negated : Bool) (operand : Expr)
  | between (negated : Bool) (operand : Expr) (low high : Value)
  | member (negated : Bool) (operand : Expr) (values : List Value)
  | and (left right : Expr)
  | or (left right : Expr)
  | not (operand : Expr)
  | paren (operand : Expr)

namespace Expr

def columnNamed (name : Text) : Expr := .column (.named name)

/-- The text, with a `?` for each value. Membership in an empty list is a
constant, because an empty list is no SQL. -/
def sql : Expr → Text
  | .column reference => reference.sql
  | .value _ => ['?']
  | .raw fragment => fragment.sql
  | .equalColumns left right => left.sql ++ " = ".toList ++ right.sql
  | .compare comparison operand _ => operand.sql ++ ' ' :: comparison.sql ++ " ?".toList
  | .isNull negated operand =>
    operand.sql ++ (if negated then " is not null".toList else " is null".toList)
  | .between negated operand _ _ =>
    operand.sql ++ (if negated then " not between ? and ?".toList else " between ? and ?".toList)
  | .member negated operand values =>
    if values.isEmpty then (if negated then "1 = 1".toList else "1 = 0".toList)
    else operand.sql ++ (if negated then " not in (".toList else " in (".toList) ++
      ", ".toList.intercalate (values.map fun _ => ['?']) ++ [')']
  | .and left right => left.sql ++ " and ".toList ++ right.sql
  | .or left right => left.sql ++ " or ".toList ++ right.sql
  | .not operand => "not ".toList ++ operand.sql
  | .paren operand => '(' :: operand.sql ++ [')']

def params : Expr → List Value
  | .column _ => []
  | .value bound => [bound]
  | .raw fragment => fragment.bindings
  | .equalColumns _ _ => []
  | .compare _ operand bound => operand.params ++ [bound]
  | .isNull _ operand => operand.params
  | .between _ operand low high => operand.params ++ [low, high]
  | .member _ operand values => if values.isEmpty then [] else operand.params ++ values
  | .and left right => left.params ++ right.params
  | .or left right => left.params ++ right.params
  | .not operand => operand.params
  | .paren operand => operand.params

end Expr

end LiteralSql
