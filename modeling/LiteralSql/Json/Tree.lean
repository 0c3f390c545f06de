import LiteralSql.Json.Lexer

/-! The syntax tree of a JSON text.

Tokens are read one by one against a stack of open containers. The tree keeps
strings and numbers as they are written and may be nested to any depth.
-/

set_option autoImplicit false

namespace LiteralSql

inductive JsonTree
  | null
  | bool (value : Bool)
  | number (numeral : JsonNumeral)
  | string (units : List JsonUnit)
  | array (items : List JsonTree)
  | object (members : List (List JsonUnit × JsonTree))

namespace JsonTree

/-- An open container with its complete parts, the last one first. An object
also holds the name of the member that is being read. -/
inductive Frame
  | array (items : List JsonTree)
  | object (members : List (List JsonUnit × JsonTree)) (name : List JsonUnit)

inductive State
  | value (outer : List Frame)
  | firstItem (outer : List Frame)
  | firstName (outer : List Frame)
  | nextName (members : List (List JsonUnit × JsonTree)) (outer : List Frame)
  | colon (members : List (List JsonUnit × JsonTree)) (name : List JsonUnit) (outer : List Frame)
  | itemEnd (items : List JsonTree) (outer : List Frame)
  | memberEnd (members : List (List JsonUnit × JsonTree)) (outer : List Frame)
  | complete (tree : JsonTree)

def place (tree : JsonTree) : List Frame → State
  | [] => .complete tree
  | .array items :: outer => .itemEnd (tree :: items) outer
  | .object members name :: outer => .memberEnd ((name, tree) :: members) outer

def begin? (frames : List Frame) : JsonToken → Option State
  | .openArray => some (.firstItem frames)
  | .openObject => some (.firstName frames)
  | .null => some (place .null frames)
  | .bool value => some (place (.bool value) frames)
  | .number numeral => some (place (.number numeral) frames)
  | .string units => some (place (.string units) frames)
  | _ => none

def State.step (state : State) (token : JsonToken) : Option State :=
  match state, token with
  | .value frames, token => begin? frames token
  | .firstItem frames, .closeArray => some (place (.array []) frames)
  | .firstItem frames, token => begin? (.array [] :: frames) token
  | .firstName frames, .closeObject => some (place (.object []) frames)
  | .firstName frames, .string units => some (.colon [] units frames)
  | .nextName members frames, .string units => some (.colon members units frames)
  | .colon members name frames, .colon => some (.value (.object members name :: frames))
  | .itemEnd items frames, .comma => some (.value (.array items :: frames))
  | .itemEnd items frames, .closeArray => some (place (.array items.reverse) frames)
  | .memberEnd members frames, .comma => some (.nextName members frames)
  | .memberEnd members frames, .closeObject => some (place (.object members.reverse) frames)
  | _, _ => none

def State.run (state : State) (tokens : List JsonToken) : Option State :=
  tokens.foldlM State.step state

def ofTokens? (tokens : List JsonToken) : Option JsonTree :=
  match (State.value []).run tokens with
  | some (.complete tree) => some tree
  | _ => none

def nesting (tokens : List JsonToken) : Nat :=
  (tokens.foldl (fun (deepest, depth) token =>
    match token with
    | .openArray | .openObject => (max deepest (depth + 1), depth + 1)
    | .closeArray | .closeObject => (deepest, depth - 1)
    | _ => (deepest, depth)) (0, 0)).1

end JsonTree

def isJsonSyntax (text : Text) : Bool :=
  ((JsonToken.readAll text).bind JsonTree.ofTokens?).isSome

end LiteralSql
