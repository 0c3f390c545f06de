import LiteralSql.Json
import LiteralSql.Time

/-! Values that are bound to the placeholders of a statement. -/

set_option autoImplicit false

namespace LiteralSql

inductive GeometryKind
  | point
  | multiPoint
  | lineString
  | multiLineString
  | polygon
  | multiPolygon
  | geometryCollection
  deriving DecidableEq

namespace GeometryKind

def all : List GeometryKind :=
  [.point, .multiPoint, .lineString, .multiLineString, .polygon, .multiPolygon, .geometryCollection]

def name : GeometryKind → Text
  | .point => "Point".toList
  | .multiPoint => "MultiPoint".toList
  | .lineString => "LineString".toList
  | .multiLineString => "MultiLineString".toList
  | .polygon => "Polygon".toList
  | .multiPolygon => "MultiPolygon".toList
  | .geometryCollection => "GeometryCollection".toList

def ofName? (name : Text) : Option GeometryKind := all.find? fun kind => kind.name = name

def ofJson? (document : Json) : Option GeometryKind := do
  ofName? (← (← document.member? "type".toList).text?)

end GeometryKind

/-- A GeoJSON document whose `type` member names a kind of geometry. -/
structure Geometry where
  kind : GeometryKind
  document : Json
  typed : GeometryKind.ofJson? document = some kind

namespace Geometry

def ofJson? (document : Json) : Option Geometry :=
  match typed : GeometryKind.ofJson? document with
  | some kind => some ⟨kind, document, typed⟩
  | none => none

def point (x y : Double) : Geometry where
  kind := .point
  document := .object
    [("coordinates".toList, .array [.ofDouble x, .ofDouble y]), ("type".toList, .string "Point".toList)]
  typed := rfl

end Geometry

inductive Value
  | null
  | bool (value : Bool)
  | int (value : Int64)
  | float (value : Double)
  | text (value : Text)
  | timestamp (value : Instant)
  | blob (bytes : List UInt8)
  | geometry (value : Geometry)
  | json (document : Json)
  | raw (sql : Text) (bindings : List Value)

/-- SQL text with the values for its placeholders: `?` for a value, `??` for a name. -/
structure Raw where
  sql : Text
  bindings : List Value

def Value.ofRaw (fragment : Raw) : Value := .raw fragment.sql fragment.bindings

abbrev Record := Dictionary Value

namespace Value

def typeTag : Value → Text
  | .null => "null".toList
  | .bool _ => "boolean".toList
  | .int _ => "numeric".toList
  | .float _ => "numeric".toList
  | .text _ => "text".toList
  | .timestamp _ => "timestamp".toList
  | .blob _ => "bytea".toList
  | .geometry _ => "geometry".toList
  | .json _ => "json".toList
  | .raw .. => "raw".toList

def text? : Value → Option Text
  | .text value => some value
  | _ => none

def ofJsonInteger (number : JsonInteger) : Value :=
  if number.value < 0x8000000000000000 then .int (Int64.ofInt number.value)
  else .float (.ofRatio false number.value.toNat 1)

/-- The value that a JSON document stands for. Geometries are recognised by
their `type` member; other objects and arrays stay documents. -/
def ofJson : Json → Value
  | .null => .null
  | .bool value => .bool value
  | .integer number => ofJsonInteger number
  | .double number => .float number
  | .string value => .text value
  | .array items => .json (.array items)
  | .object members =>
    match Geometry.ofJson? (.object members) with
    | some found => .geometry found
    | none => .json (.object members)

end Value

namespace Raw

def ofSql (sql : Text) : Raw := ⟨sql, []⟩

def bind (fragment : Raw) (value : Value) : Raw :=
  { fragment with bindings := fragment.bindings ++ [value] }

def wrap (fragment : Raw) (before after : Text) : Raw :=
  { fragment with sql := before ++ fragment.sql ++ after }

end Raw

end LiteralSql
