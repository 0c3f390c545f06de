import LiteralSql.Sql.Identifier
import LiteralSql.Sql.Lexer
import LiteralSql.Sql.Literal

/-! Statements whose names and nested statements are written out, so that only
values remain between the characters of the text. -/

set_option autoImplicit false

namespace LiteralSql

inductive FlatItem
  | char (c : Char)
  | value (value : Value)

abbrev Flat := List FlatItem

namespace Flat

def ofText (text : Text) : Flat := text.map .char

def pieces : Flat → List Text
  | [] => [[]]
  | .char c :: rest =>
    match pieces rest with
    | [] => [[c]]
    | piece :: others => (c :: piece) :: others
  | .value _ :: rest => [] :: pieces rest

def values : Flat → List Value
  | [] => []
  | .char _ :: rest => values rest
  | .value held :: rest => held :: values rest

theorem length_pieces (flat : Flat) : flat.pieces.length = flat.values.length + 1 := by
  induction flat with
  | nil => rfl
  | cons item rest ih =>
    cases item with
    | char c =>
      rw [pieces, values]
      split
      · rename_i none
        simp [none] at ih
      · rename_i some
        simpa [some] using ih
    | value held => simp [pieces, values, ih]

theorem pieces_eq_cons (flat : Flat) : ∃ piece rest, flat.pieces = piece :: rest :=
  List.exists_cons_of_length_pos (by rw [length_pieces]; omega)

theorem values_append (first second : Flat) : values (first ++ second) = first.values ++ second.values := by
  induction first with
  | nil => rfl
  | cons item rest ih => cases item <;> simp [values, ih]

theorem values_ofText (text : Text) : (ofText text).values = [] := by
  induction text with
  | nil => rfl
  | cons c rest ih => exact ih

/-- Puts bindings for the placeholders in order. Each binding comes with its
own flat form, which a placeholder for a name does not ask for. -/
def fill : List SqlToken → List (Value × Except SqlError Flat) → Except SqlError Flat
  | [], _ => .ok []
  | .bare c :: tokens, bindings => do .ok (.char c :: (← fill tokens bindings))
  | .shielded c :: tokens, bindings => do .ok (.char c :: (← fill tokens bindings))
  | .identifier :: tokens, (bound, _) :: bindings =>
    match bound with
    | .text name => do .ok (ofText (Identifier.quoteQualified name) ++ (← fill tokens bindings))
    | other => .error (.invalidIdentifier other.typeTag)
  | .value :: tokens, (_, spliced) :: bindings => do
    let head ← spliced
    .ok (head ++ (← fill tokens bindings))
  | _, [] => .ok []

def fillAll (sql : Text) (bindings : List (Value × Except SqlError Flat)) : Except SqlError Flat :=
  let actual := placeholderCount sql
  if actual = bindings.length then fill (SqlToken.ofText sql) bindings
  else .error (.bindingCount bindings.length actual)

end Flat

mutual

/-- A value at a `?`: a raw statement is spliced, anything else stays a value. -/
def Value.flat : Value → Except SqlError Flat
  | .raw sql bindings => Flat.fillAll sql (Value.flatPairs bindings)
  | held => .ok [.value held]

def Value.flatPairs : List Value → List (Value × Except SqlError Flat)
  | [] => []
  | head :: rest => (head, head.flat) :: Value.flatPairs rest

end

def Flat.ofBindings (sql : Text) (bindings : List Value) : Except SqlError Flat :=
  Flat.fillAll sql (Value.flatPairs bindings)

namespace Flat

def parameterizedFrom (number : Nat) : Flat → Text
  | [] => []
  | .char c :: rest => c :: parameterizedFrom number rest
  | .value _ :: rest => '$' :: Text.ofNat number ++ parameterizedFrom (number + 1) rest

def parameterized (flat : Flat) : Text := parameterizedFrom 1 flat

def inlined [LocalZone] (zone : TimeZone) : Flat → Except SqlError Text
  | [] => .ok []
  | .char c :: rest => do .ok (c :: (← inlined zone rest))
  | .value held :: rest => do
    let literal ← held.literal zone
    .ok (literal ++ (← inlined zone rest))

def typeDescriptor (flat : Flat) : Text := [','].intercalate (flat.values.map Value.typeTag)

end Flat

/-- A raw statement with its values written as literals, for places where
nothing can be prepared. -/
def Raw.inlined [LocalZone] (fragment : Raw) (zone : TimeZone) : Except SqlError Text := do
  (← Flat.ofBindings fragment.sql fragment.bindings).inlined zone

end LiteralSql
