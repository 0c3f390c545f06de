import LiteralSql.Double.Notation
import LiteralSql.Json
import LiteralSql.Text.Hex

/-! The compact text of a JSON document: no blanks, members in the order of the
document, and only quotes, backslashes and control characters escaped. -/

set_option autoImplicit false

namespace LiteralSql

/-- The text of a magnitude: always with a point or an exponent, positional
while the decimal exponent is at least -5 and below 16. -/
def Decimal.jsonText (decimal : Decimal) : Text :=
  let exponent := decimal.scientificExponent
  if -5 ≤ exponent ∧ exponent < 16 then
    let (whole, fraction) := decimal.positional
    whole ++ '.' :: (if fraction.isEmpty then ['0'] else fraction)
  else
    let digits := Text.ofNat decimal.digits
    let mantissa := match digits with
      | first :: second :: rest => first :: '.' :: second :: rest
      | short => short
    mantissa ++ 'e' :: (if exponent < 0 then '-' else '+') :: Text.ofNat exponent.natAbs

namespace Json

def doubleText : Double → Text
  | .finite negative rank => Double.sign negative ++ (Decimal.ofRank .even rank).jsonText
  | _ => "null".toList

def escapeChar (c : Char) : Text :=
  if c = '"' then ['\\', '"']
  else if c = '\\' then ['\\', '\\']
  else if c = '\n' then ['\\', 'n']
  else if c = '\r' then ['\\', 'r']
  else if c = '\t' then ['\\', 't']
  else if c = '\x08' then ['\\', 'b']
  else if c = '\x0c' then ['\\', 'f']
  else if c.toNat < 0x20 then
    ['\\', 'u', '0', '0', Hex.lowerDigit (c.toNat / 16), Hex.lowerDigit (c.toNat % 16)]
  else [c]

def quote (text : Text) : Text := '"' :: text.flatMap escapeChar ++ ['"']

mutual

def print : Json → Text
  | .null => "null".toList
  | .bool true => "true".toList
  | .bool false => "false".toList
  | .integer number => Text.ofInt number.value
  | .double number => doubleText number
  | .string text => quote text
  | .array items => '[' :: [','].intercalate (printItems items) ++ [']']
  | .object members => '{' :: [','].intercalate (printMembers members) ++ ['}']

def printItems : List Json → List Text
  | [] => []
  | item :: rest => print item :: printItems rest

def printMembers : List (Text × Json) → List Text
  | [] => []
  | (name, value) :: rest => (quote name ++ ':' :: print value) :: printMembers rest

end

end Json

end LiteralSql
