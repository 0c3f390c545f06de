import LiteralSql.Double.Notation
import LiteralSql.Json.Printer
import LiteralSql.Sql.DollarQuote
import LiteralSql.Sql.Error
import LiteralSql.Sql.Value

/-! The SQL literals of values.

Numbers are written between empty dollar tags with a type before them, bytes in
hexadecimal, and texts, timestamps and documents between negotiated tags.
-/

set_option autoImplicit false

namespace LiteralSql.Value

def numericLiteral (digits : Text) : Text := "numeric $$".toList ++ digits ++ "$$".toList

def literal [LocalZone] (zone : TimeZone) : Value → Except SqlError Text
  | .null => .ok "NULL".toList
  | .bool true => .ok "true".toList
  | .bool false => .ok "false".toList
  | .int value => .ok (numericLiteral (Text.ofInt value.toInt))
  | .float value =>
    if value.isFinite then .ok (numericLiteral value.toText)
    else .error (.nonFiniteNumber value.toText)
  | .text value => .ok (DollarQuote.ofText value)
  | .timestamp value => .ok (DollarQuote.ofText (value.format zone))
  | .blob bytes => .ok ("$$\\x".toList ++ Hex.encode bytes ++ "$$".toList)
  | .geometry value =>
    .ok ("ST_SetSRID(ST_GeomFromGeoJSON(".toList ++ DollarQuote.ofText value.document.print ++
      "), 4326)".toList)
  | .json document => .ok (DollarQuote.ofText document.print)
  | .raw .. => .error .nestedRaw

end LiteralSql.Value
