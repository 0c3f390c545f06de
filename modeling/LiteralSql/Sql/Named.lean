import LiteralSql.Sql.Error
import LiteralSql.Sql.Value
import LiteralSql.Text.CharClass

/-! Templates with named placeholders.

After white space, `:key` asks for a value and `:key:` for a name. A key
followed by two colons is a value with a cast, which is left in place.
-/

set_option autoImplicit false

namespace LiteralSql

inductive TemplatePart
  | char (c : Char)
  | key (name : Text) (identifier : Bool)
  deriving DecidableEq

namespace TemplatePart

def key? : Text → Option (TemplatePart × Nat)
  | ':' :: rest =>
    let name := rest.takeWhile CharClass.isWord
    if name.isEmpty then none
    else match rest.dropWhile CharClass.isWord with
      | ':' :: ':' :: _ => some (.key name false, name.length + 1)
      | ':' :: _ => some (.key name true, name.length + 2)
      | _ => some (.key name false, name.length + 1)
  | _ => none

/-- Splits a template into its parts; `skipped` characters belong to the key before them. -/
def readFrom : Nat → Text → List TemplatePart
  | _, [] => []
  | skipped + 1, _ :: rest => readFrom skipped rest
  | 0, c :: rest =>
    if CharClass.isBlank c then
      match key? rest with
      | some (part, length) => .char c :: part :: readFrom length rest
      | none => .char c :: readFrom 0 rest
    else .char c :: readFrom 0 rest

def read (template : Text) : List TemplatePart := readFrom 0 template

def resolve (values : Dictionary Value) : List TemplatePart → Except SqlError Raw
  | [] => .ok ⟨[], []⟩
  | .char c :: rest => do
    let fragment ← resolve values rest
    .ok { fragment with sql := c :: fragment.sql }
  | .key name identifier :: rest =>
    match values.get? name with
    | none => .error (.missingNamedBinding name)
    | some value => do
      let fragment ← resolve values rest
      .ok ⟨(if identifier then ['?', '?'] else ['?']) ++ fragment.sql, value :: fragment.bindings⟩

end TemplatePart

def Raw.named (template : Text) (values : Dictionary Value) : Except SqlError Raw :=
  TemplatePart.resolve values (TemplatePart.read template)

end LiteralSql
