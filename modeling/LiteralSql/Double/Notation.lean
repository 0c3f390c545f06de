import LiteralSql.Double.Shortest

/-! How doubles are written and read as text.

Numeric literals are written in positional notation, whatever their size, and
an integral value has no point. Of two equally short and near decimals the
greater one is taken.
-/

set_option autoImplicit false

namespace LiteralSql

/-- An unsigned decimal as it is written: the digits before and after the
point, and the exponent of ten. -/
structure DecimalText where
  whole : Text
  fraction : Text
  exponent : Int

namespace DecimalText

def decimal (text : DecimalText) : Decimal :=
  ⟨Text.toNat (text.whole ++ text.fraction), text.exponent - text.fraction.length⟩

/-- The decimal as a quotient. Beyond the range of every format the exponent
is cut, which leaves the nearest number of the format as it is. -/
def ratio (text : DecimalText) : Nat × Nat :=
  let decimal := text.decimal
  let size := decimal.exponent + Decimal.digitCount decimal.digits
  if decimal.digits = 0 then (0, 1)
  else if 400 < size then (Nat.pow 10 400, 1)
  else if size < -400 then (0, 1)
  else if 0 ≤ decimal.exponent then (decimal.digits * Nat.pow 10 decimal.exponent.toNat, 1)
  else (decimal.digits, Nat.pow 10 (-decimal.exponent).toNat)

def readExponent? : Text → Option Int
  | '-' :: digits => (Text.toNat? digits).map fun number => -(number : Int)
  | '+' :: digits => (Text.toNat? digits).map Int.ofNat
  | digits => (Text.toNat? digits).map Int.ofNat

def read? (text : Text) : Option DecimalText :=
  let whole := text.takeWhile Text.isDigit
  let afterWhole := text.dropWhile Text.isDigit
  let (fraction, rest) := match afterWhole with
    | '.' :: rest => (rest.takeWhile Text.isDigit, rest.dropWhile Text.isDigit)
    | rest => ([], rest)
  if whole.isEmpty && fraction.isEmpty then none
  else match rest with
    | [] => some ⟨whole, fraction, 0⟩
    | 'e' :: exponent => (readExponent? exponent).map fun e => ⟨whole, fraction, e⟩
    | 'E' :: exponent => (readExponent? exponent).map fun e => ⟨whole, fraction, e⟩
    | _ => none

end DecimalText

namespace Double

def sign (negative : Bool) : Text := if negative then ['-'] else []

def toText : Double → Text
  | .nan => "NaN".toList
  | .infinite negative => sign negative ++ "inf".toList
  | .finite negative rank =>
    let (whole, fraction) := (Decimal.ofRank .up rank).positional
    sign negative ++ whole ++ (if fraction.isEmpty then [] else '.' :: fraction)

def readWith? (round : Bool → Nat → Nat → Double) (text : Text) : Option Double :=
  let (negative, unsigned) := match text with
    | '-' :: rest => (true, rest)
    | '+' :: rest => (false, rest)
    | rest => (false, rest)
  let lower := unsigned.map Char.toLower
  if lower = "nan".toList then some .nan
  else if lower = "inf".toList ∨ lower = "infinity".toList then some (.infinite negative)
  else (DecimalText.read? unsigned).map fun decimal =>
    round negative decimal.ratio.1 decimal.ratio.2

def ofText? (text : Text) : Option Double := readWith? ofRatio text

def ofTextSingle? (text : Text) : Option Double := readWith? ofRatioSingle text

end Double

end LiteralSql
