import LiteralSql.Dictionary
import LiteralSql.Double

/-! JSON documents.

A number is an integer when 64 bits hold it, signed or unsigned, and a double
otherwise. The members of an object are sorted by name.
-/

set_option autoImplicit false

namespace LiteralSql

structure JsonInteger where
  value : Int
  lower : -0x8000000000000000 ≤ value
  upper : value < 0x10000000000000000
  deriving DecidableEq

def JsonInteger.ofInt? (value : Int) : Option JsonInteger :=
  if h : -0x8000000000000000 ≤ value ∧ value < 0x10000000000000000 then some ⟨value, h.1, h.2⟩ else none

inductive Json
  | null
  | bool (value : Bool)
  | integer (value : JsonInteger)
  | double (value : Double)
  | string (value : Text)
  | array (items : List Json)
  | object (members : List (Text × Json))
  deriving Inhabited

namespace Json

/-- The object with these members; of two members of one name the later one stays. -/
def ofMembers (members : List (Text × Json)) : Json := .object (sortPairs members)

/-- A double as a number; what is not finite has no number and becomes null. -/
def ofDouble (value : Double) : Json := if value.isFinite then .double value else .null

def member? (name : Text) : Json → Option Json
  | .object members => members.lookup name
  | _ => none

def text? : Json → Option Text
  | .string value => some value
  | _ => none

end Json

end LiteralSql
