import LiteralSql.Text.Hex
import LiteralSql.Text.Utf8

/-! Names and values in the body of a form or the query of a URL. -/

set_option autoImplicit false

namespace LiteralSql.Form

def isLiteral (c : Char) : Bool :=
  c.isAlphanum || c = '*' || c = '-' || c = '.' || c = '_'

def encodeByte (byte : UInt8) : Text :=
  let c := Char.ofNat byte.toNat
  if byte = 0x20 then ['+']
  else if isLiteral c then [c]
  else ['%', Hex.upperDigit (byte.toNat / 16), Hex.upperDigit (byte.toNat % 16)]

/-- A blank becomes a plus; all bytes besides letters, digits and `*-._` are escaped. -/
def encodeText (text : Text) : Text := (Utf8.encode text).flatMap encodeByte

def encode (pairs : List (Text × Text)) : Text :=
  ['&'].intercalate (pairs.map fun (name, value) => encodeText name ++ '=' :: encodeText value)

end LiteralSql.Form
