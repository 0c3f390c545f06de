import LiteralSql.Json
import LiteralSql.Json.Tree
import LiteralSql.Text.Utf8

/-! Reading JSON documents.

Beyond the syntax a document has to respect three limits: containers nest at
most 127 deep, surrogate escapes come in pairs, and no number exceeds the
range of a double.
-/

set_option autoImplicit false

namespace LiteralSql.Json

def unitsText? : List JsonUnit → Option Text
  | [] => some []
  | .char c :: rest => (unitsText? rest).map (c :: ·)
  | .code high :: .code low :: rest =>
    if 0xD800 ≤ high ∧ high < 0xDC00 then
      if 0xDC00 ≤ low ∧ low < 0xE000 then
        let code := 0x10000 + (high - 0xD800) * 0x400 + (low - 0xDC00)
        (unitsText? rest).map (Char.ofNat code :: ·)
      else none
    else if 0xDC00 ≤ high ∧ high < 0xE000 then none
    else (unitsText? (.code low :: rest)).map (Char.ofNat high :: ·)
  | .code value :: rest =>
    if 0xD800 ≤ value ∧ value < 0xE000 then none
    else (unitsText? rest).map (Char.ofNat value :: ·)

/-- A significand of 64 bits times a power of ten. Digits that no longer fit
are dropped: those before the point raise the exponent, those after it are
lost. -/
structure Scaled where
  significand : Nat
  exponent : Int
  full : Bool

namespace Scaled

def fits (significand : Nat) : Bool := significand < 0x10000000000000000

def addWholeDigit (scaled : Scaled) (digit : Nat) : Scaled :=
  let next := scaled.significand * 10 + digit
  if !scaled.full && fits next then { scaled with significand := next }
  else { scaled with exponent := scaled.exponent + 1, full := true }

def addFractionDigit (scaled : Scaled) (digit : Nat) : Scaled :=
  let next := scaled.significand * 10 + digit
  if !scaled.full && fits next then
    { scaled with significand := next, exponent := scaled.exponent - 1 }
  else { scaled with full := true }

def ofWhole (digits : Text) : Scaled :=
  digits.foldl (fun scaled c => scaled.addWholeDigit (c.toNat - 48)) ⟨0, 0, false⟩

/-- The first digit after the point is again tried against the room that is left. -/
def addFraction (scaled : Scaled) (digits : Text) : Scaled :=
  digits.foldl (fun scaled c => scaled.addFractionDigit (c.toNat - 48)) { scaled with full := false }

end Scaled

def powerOfTen (exponent : Nat) : Double := .ofRatio false (Nat.pow 10 exponent) 1

/-- Divides by powers of ten until the exponent is used up. Every round of 308
decimal places brings a magnitude nearer to zero; three rounds reach it. -/
def scaleDown : Nat → Fin BinaryFormat.double.ranks → Nat → Nat
  | 0, _, _ => 0
  | fuel + 1, magnitude, places =>
    let step := if places ≤ 308 then places else 308
    match powerOfTen step with
    | .finite _ power =>
      let quotient := Double.divMagnitude magnitude power
      if places ≤ 308 then quotient
      else if h : quotient < BinaryFormat.double.ranks ∧ quotient ≠ 0 then
        scaleDown fuel ⟨quotient, h.1⟩ (places - 308)
      else 0
    | _ => 0

/-- The double `significand · 10 ^ exponent`, computed with one rounding for the
significand and one for each scaling step. None if it is too large. -/
def scaledDouble? (negative : Bool) (significand : Nat) (exponent : Int) : Option Double :=
  match Double.ofRatio negative significand 1 with
  | .finite _ magnitude =>
    if exponent < 0 then
      some (.ofRank negative (scaleDown 4 magnitude (-exponent).toNat))
    else if exponent ≤ 308 then
      match powerOfTen exponent.toNat with
      | .finite _ power =>
        let product := Double.mulMagnitude magnitude power
        if product < BinaryFormat.double.ranks then some (.ofRank negative product) else none
      | _ => none
    else if significand = 0 then some (.ofRank negative 0) else none
  | _ => none

def exponentLimit : Nat := 0x7FFFFFFF

def clampExponent (exponent : Int) : Int :=
  max (-0x80000000) (min exponent 0x7FFFFFFF)

def numeralDouble? (numeral : JsonNumeral) : Option Double :=
  let whole := Scaled.ofWhole numeral.whole
  let scaled := match numeral.fraction with
    | none => whole
    | some digits => whole.addFraction digits
  match numeral.exponent with
  | none => scaledDouble? numeral.negative scaled.significand scaled.exponent
  | some (negative, digits) =>
    let written := Text.toNat digits
    if exponentLimit < written then
      if scaled.significand ≠ 0 ∧ !negative then none
      else some (.ofRank numeral.negative 0)
    else
      let exponent : Int :=
        if negative then scaled.exponent - written else scaled.exponent + written
      scaledDouble? numeral.negative scaled.significand (clampExponent exponent)

/-- Digits alone are an integer if 64 bits hold it; a negative zero is a double. -/
def ofNumeral? (numeral : JsonNumeral) : Option Json :=
  let asDouble := (numeralDouble? numeral).map Json.double
  match numeral.fraction, numeral.exponent with
  | none, none =>
    let number := Text.toNat numeral.whole
    if numeral.negative then
      if number = 0 then some (.double (.ofRank true 0))
      else match JsonInteger.ofInt? (-number) with
        | some held => some (.integer held)
        | none => asDouble
    else match JsonInteger.ofInt? number with
      | some held => some (.integer held)
      | none => asDouble
  | _, _ => asDouble

mutual

def ofTree? : JsonTree → Option Json
  | .null => some .null
  | .bool value => some (.bool value)
  | .number numeral => ofNumeral? numeral
  | .string units => (unitsText? units).map Json.string
  | .array items => (ofItems? items).map Json.array
  | .object members => (ofNamed? members).map ofMembers

def ofItems? : List JsonTree → Option (List Json)
  | [] => some []
  | item :: rest => do
    let first ← ofTree? item
    let others ← ofItems? rest
    some (first :: others)

def ofNamed? : List (List JsonUnit × JsonTree) → Option (List (Text × Json))
  | [] => some []
  | (name, value) :: rest => do
    let key ← unitsText? name
    let first ← ofTree? value
    let others ← ofNamed? rest
    some ((key, first) :: others)

end

def nestingLimit : Nat := 127

def parseNested? (limit : Nat) (text : Text) : Option Json := do
  let tokens ← JsonToken.readAll text
  if limit < JsonTree.nesting tokens then none
  else ofTree? (← JsonTree.ofTokens? tokens)

def parse? (text : Text) : Option Json := parseNested? nestingLimit text

def parseBytes? (bytes : List UInt8) : Option Json := (Utf8.decode? bytes).bind parse?

end LiteralSql.Json
