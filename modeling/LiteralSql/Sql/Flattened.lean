import LiteralSql.Sql.Flat

/-! Statements that are put together behind each other.

The texts between the values and the values themselves are two lists. Each text
goes behind the last piece, and each value begins a new one.
-/

set_option autoImplicit false

namespace LiteralSql

structure Flattened where
  pieces : List Text
  values : List Value

namespace Flattened

def empty : Flattened := ⟨[[]], []⟩

def pushText (flat : Flattened) (text : Text) : Flattened :=
  match flat.pieces.getLast? with
  | some last => { flat with pieces := flat.pieces.dropLast ++ [last ++ text] }
  | none => flat

def pushValue (flat : Flattened) (value : Value) : Flattened :=
  ⟨flat.pieces ++ [[]], flat.values ++ [value]⟩

mutual

def pushSegments : List SqlSegment → List Value → Flattened → Except SqlError Flattened
  | [], _, flat => .ok flat
  | .text text :: segments, bindings, flat => pushSegments segments bindings (flat.pushText text)
  | .identifier :: _, [], flat => .ok flat
  | .value :: _, [], flat => .ok flat
  | .identifier :: segments, bound :: bindings, flat =>
    match bound with
    | .text name => pushSegments segments bindings (flat.pushText (Identifier.quoteQualified name))
    | other => .error (.invalidIdentifier other.typeTag)
  | .value :: segments, bound :: bindings, flat =>
    match bound with
    | .raw sql inner => do pushSegments segments bindings (← pushStatement sql inner flat)
    | other => pushSegments segments bindings (flat.pushValue other)
termination_by segments bindings _ => (sizeOf bindings, 0, segments.length)

def pushStatement (sql : Text) (bindings : List Value) (flat : Flattened) : Except SqlError Flattened :=
  let segments := SqlSegment.ofText sql
  let actual := segments.countP SqlSegment.isPlaceholder
  if actual = bindings.length then pushSegments segments bindings flat
  else .error (.bindingCount bindings.length actual)
termination_by (sizeOf bindings, 1, 0)

end

def ofBindings (sql : Text) (bindings : List Value) : Except SqlError Flattened :=
  pushStatement sql bindings empty

def pushNumbered (sql : Text) : Text × Nat → Text
  | (piece, 0) => sql ++ piece
  | (piece, number + 1) => sql ++ '$' :: Text.ofNat (number + 1) ++ piece

def parameterized (flat : Flattened) : Text := flat.pieces.zipIdx.foldl pushNumbered []

/-- In front of each piece but the first goes the literal of the value before it. Without such a value
nothing can be returned. -/
def pushLiteral [LocalZone] (zone : TimeZone) (values : List Value) (sql : Text) :
    Text × Nat → ExceptT SqlError Option Text
  | (piece, 0) => return sql ++ piece
  | (piece, number + 1) => do
    let literal ← ExceptT.mk (values[number]?.map (Value.literal zone))
    return sql ++ literal ++ piece

def inlined? [LocalZone] (zone : TimeZone) (flat : Flattened) : Option (Except SqlError Text) :=
  (flat.pieces.zipIdx.foldlM (pushLiteral zone flat.values) []).run

def typeDescriptor (flat : Flattened) : Text := [','].intercalate (flat.values.map Value.typeTag)

end Flattened

end LiteralSql
