import LiteralSql.ClientError
import LiteralSql.Sql.Operation

/-! GeoJSON features as rows to be loaded. -/

set_option autoImplicit false

namespace LiteralSql

structure Feature where
  properties : Dictionary Value
  geometry : Option Geometry

namespace Feature

def geometryColumn : Text := "the_geom".toList

/-- Each property as the value that it stands for. The members of a document
are sorted, so a property keeps its place. -/
def propertiesOf (members : List (Text × Json)) : Dictionary Value :=
  .ofList (members.map fun (name, value) => (name, Value.ofJson value))

def readProperties : Option Json → Except DecodeError (Dictionary Value)
  | none => .ok .empty
  | some .null => .ok .empty
  | some (.object members) => .ok (propertiesOf members)
  | some _ => .error .propertiesNotObject

def readGeometry : Option Json → Except DecodeError (Option Geometry)
  | none => .ok none
  | some .null => .ok none
  | some document =>
    match Geometry.ofJson? document with
    | some found => .ok (some found)
    | none => .error (.notGeometry document)

def typeName? (document : Json) : Option Text := (document.member? "type".toList).bind Json.text?

def ofJson (document : Json) : Except DecodeError Feature :=
  match document with
  | .object _ =>
    if typeName? document ≠ some "Feature".toList then .error .notFeature
    else do
      let properties ← readProperties (document.member? "properties".toList)
      let geometry ← readGeometry (document.member? "geometry".toList)
      .ok ⟨properties, geometry⟩
  | _ => .error .featureNotObject

def listOfJson (document : Json) : Except DecodeError (List Feature) :=
  match typeName? document with
  | some name =>
    if name = "FeatureCollection".toList then
      match document.member? "features".toList with
      | some (.array items) => items.mapM ofJson
      | _ => .error .missingFeatures
    else if name = "Feature".toList then do .ok [← ofJson document]
    else .error .notFeatureDocument
  | none => .error .notFeatureDocument

def toRecord (feature : Feature) : Record :=
  feature.properties.insert geometryColumn
    (match feature.geometry with
      | some geometry => .geometry geometry
      | none => .null)

def columnType : Value → ColumnType
  | .int _ => .float
  | .float _ => .float
  | .bool _ => .boolean
  | .timestamp _ => .timestamp true
  | _ => .text

/-- A table with a column for each property. The geometry column comes with
the registration of the table, so it is not among them. -/
def tableDefinition (table : Text) (feature : Feature) : TableDefinition where
  name := table
  action := .create
  columns := feature.properties.entries.map fun (name, value) => { name, type := columnType value }

def schema (table : Text) (feature : Feature) : Schema := [.table (tableDefinition table feature)]

end Feature

end LiteralSql
