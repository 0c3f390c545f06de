import LiteralSql.Text

/-! Why an operation has no SQL text. All of these are found before anything is sent. -/

set_option autoImplicit false

namespace LiteralSql

inductive SqlError
  | nonFiniteNumber (number : Text)
  | invalidTimeZone (zone : Text)
  /-- A raw statement can be spliced into another one but is not a literal. -/
  | nestedRaw
  | emptyInsert (table : Text)
  | emptyUpdate (table : Text)
  | bindingCount (expected actual : Nat)
  | missingNamedBinding (key : Text)
  | invalidIdentifier (type : Text)
  /-- Only serial columns may have no name. -/
  | missingColumnName (type : Text)
  deriving DecidableEq

def SqlError.message : SqlError → Text
  | .nonFiniteNumber number => "cannot encode non-finite number ".toList ++ number
  | .invalidTimeZone zone => "invalid timezone '".toList ++ zone ++ ['\'']
  | .nestedRaw => "nested raw statement cannot be encoded as a standalone literal".toList
  | .emptyInsert table => "insert into '".toList ++ table ++ "' has no values".toList
  | .emptyUpdate table => "update of '".toList ++ table ++ "' has no assignments".toList
  | .bindingCount expected actual =>
    "expected ".toList ++ Text.ofNat expected ++ " bindings, saw ".toList ++ Text.ofNat actual
  | .missingNamedBinding key => "no value bound for named placeholder ':".toList ++ key ++ ['\'']
  | .invalidIdentifier type => "identifier binding must be text, got ".toList ++ type
  | .missingColumnName type =>
    "no column name specified for the ".toList ++ type ++ " column".toList

end LiteralSql
