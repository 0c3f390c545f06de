import LiteralSql.Sql.Statement

/-! Columns of a table definition. -/

set_option autoImplicit false

namespace LiteralSql

inductive ColumnType
  | increments
  | bigIncrements
  | integer
  | smallInt
  | tinyInt
  | mediumInt
  | bigInteger
  | string (length : UInt32)
  | text
  | float
  | double
  | decimal (precision scale : UInt32)
  | binary
  | boolean
  | date
  | datetime (withoutZone : Bool)
  | timestamp (withoutZone : Bool)
  | time
  /-- Text that is checked to be one of these. -/
  | enumeration (allowed : List Text)
  | json (binary : Bool)
  | uuid
  | specific (sql : Text)
  deriving DecidableEq

namespace ColumnType

/-- A serial column brings its own constraints and takes no others. -/
def isIncrements : ColumnType → Bool
  | .increments | .bigIncrements => true
  | _ => false

def name : ColumnType → Text
  | .increments => "increments".toList
  | .bigIncrements => "big_increments".toList
  | .integer => "integer".toList
  | .smallInt => "small_int".toList
  | .tinyInt => "tiny_int".toList
  | .mediumInt => "medium_int".toList
  | .bigInteger => "big_integer".toList
  | .string _ => "string".toList
  | .text => "text".toList
  | .float => "float".toList
  | .double => "double".toList
  | .decimal .. => "decimal".toList
  | .binary => "binary".toList
  | .boolean => "boolean".toList
  | .date => "date".toList
  | .datetime _ => "datetime".toList
  | .timestamp _ => "timestamp".toList
  | .time => "time".toList
  | .enumeration _ => "enumeration".toList
  | .json _ => "json".toList
  | .uuid => "uuid".toList
  | .specific _ => "specific_type".toList

def sql (quotedName : Text) : ColumnType → Text
  | .increments => "serial primary key".toList
  | .bigIncrements => "bigserial primary key".toList
  | .integer | .mediumInt => "integer".toList
  | .smallInt | .tinyInt => "smallint".toList
  | .bigInteger => "bigint".toList
  | .string length => "varchar(".toList ++ Text.ofNat length.toNat ++ [')']
  | .text => "text".toList
  | .float => "real".toList
  | .double => "double precision".toList
  | .decimal precision scale =>
    "decimal(".toList ++ Text.ofNat precision.toNat ++ ", ".toList ++ Text.ofNat scale.toNat ++ [')']
  | .binary => "bytea".toList
  | .boolean => "boolean".toList
  | .date => "date".toList
  | .datetime withoutZone | .timestamp withoutZone =>
    if withoutZone then "timestamp".toList else "timestamptz".toList
  | .time => "time".toList
  | .enumeration allowed =>
    "text check (".toList ++ quotedName ++ " in (".toList ++
      ", ".toList.intercalate (allowed.map Identifier.quoteLiteral) ++ "))".toList
  | .json asBinary => if asBinary then "jsonb".toList else "json".toList
  | .uuid => "uuid".toList
  | .specific verbatim => verbatim

end ColumnType

inductive ColumnDefault
  | null
  | boolean (value : Bool)
  | integer (value : Int64)
  | float (value : Double)
  | string (value : Text)
  | json (document : Json)
  | raw (fragment : Raw)

namespace ColumnDefault

def ofJson : Json → ColumnDefault
  | .null => .null
  | document => .json document

/-- Nothing can be prepared inside a definition, so values of an expression
become literals; timestamps among them are written in the local zone. -/
def sql [LocalZone] : ColumnDefault → Except SqlError Text
  | .null => .ok "null".toList
  | .boolean value => .ok (if value then "'1'".toList else "'0'".toList)
  | .integer value => .ok (Identifier.quoteLiteral (Text.ofInt value.toInt))
  | .float value =>
    if value.isFinite then .ok (Identifier.quoteLiteral value.toText)
    else .error (.nonFiniteNumber value.toText)
  | .string value => .ok (Identifier.quoteLiteral value)
  | .json document => .ok (Identifier.quoteLiteral document.print)
  | .raw fragment => fragment.inlined .local

end ColumnDefault

structure ColumnDefinition where
  name : Text
  type : ColumnType
  nullable : Option Bool := none
  default : Option ColumnDefault := none
  comment : Option Text := none

/-- The literal of a comment; an empty comment removes the comment. -/
def commentLiteral (comment : Text) : Text :=
  if comment.isEmpty then "NULL".toList else Identifier.quoteLiteral comment

namespace ColumnDefinition

/-- The name that the column gets: a serial column without a name is the `id`. -/
def effectiveName (column : ColumnDefinition) : Except SqlError Text :=
  if column.name.isEmpty then
    if column.type.isIncrements then .ok "id".toList
    else .error (.missingColumnName column.type.name)
  else .ok column.name

def nullability : Option Bool → Text
  | none => []
  | some true => " null".toList
  | some false => " not null".toList

def defaultSql [LocalZone] : Option ColumnDefault → Except SqlError Text
  | none => .ok []
  | some value => do .ok (" default ".toList ++ (← value.sql))

def compile [LocalZone] (table : Text) (column : ColumnDefinition) :
    Except SqlError (Text × List Statement) := do
  let name := Identifier.quote (← column.effectiveName)
  let head := name ++ ' ' :: column.type.sql name
  -- A comment on a serial column is dropped without an error.
  if column.type.isIncrements then .ok (head, [])
  else
    let default ← defaultSql column.default
    let comments := column.comment.toList.map fun comment =>
      Statement.ddl ("comment on column ".toList ++ table ++ '.' :: name ++ " is ".toList ++
        commentLiteral comment)
    .ok (head ++ nullability column.nullable ++ default, comments)

end ColumnDefinition

end LiteralSql
