import LiteralSql.Text.Hex

/-! The tokens of a JSON text, as they are written.

Strings keep their escapes and numbers their digits, so nothing is decided
here about surrogates or the range of a number.
-/

set_option autoImplicit false

namespace LiteralSql

/-- A number as it is written: the digits before and after the point, and the
sign and digits of the exponent. -/
structure JsonNumeral where
  negative : Bool
  whole : Text
  fraction : Option Text
  exponent : Option (Bool × Text)
  deriving DecidableEq

/-- A piece of a string: a character, a `\uXXXX` escape, which may be half of a
surrogate pair. -/
inductive JsonUnit
  | char (c : Char)
  | code (value : Nat)
  deriving DecidableEq

inductive JsonToken
  | openArray
  | closeArray
  | openObject
  | closeObject
  | comma
  | colon
  | null
  | bool (value : Bool)
  | number (numeral : JsonNumeral)
  | string (units : List JsonUnit)
  deriving DecidableEq

namespace JsonToken

def isBlank (c : Char) : Bool := c = ' ' || c = '\t' || c = '\n' || c = '\r'

def escape? : Char → Option Char
  | '"' => some '"'
  | '\\' => some '\\'
  | '/' => some '/'
  | 'b' => some '\x08'
  | 'f' => some '\x0c'
  | 'n' => some '\n'
  | 'r' => some '\r'
  | 't' => some '\t'
  | _ => none

def hexCode? (a b c d : Char) : Option Nat := do
  let first ← Hex.digitValue? a
  let second ← Hex.digitValue? b
  let third ← Hex.digitValue? c
  let fourth ← Hex.digitValue? d
  some (((first * 16 + second) * 16 + third) * 16 + fourth)

def readString : Text → Option (List JsonUnit × Text)
  | [] => none
  | '"' :: rest => some ([], rest)
  | '\\' :: 'u' :: a :: b :: c :: d :: rest => do
    let value ← hexCode? a b c d
    let (units, after) ← readString rest
    some (.code value :: units, after)
  | '\\' :: c :: rest => do
    let plain ← escape? c
    let (units, after) ← readString rest
    some (.char plain :: units, after)
  | ['\\'] => none
  | c :: rest =>
    if c.toNat < 0x20 then none
    else (readString rest).map fun (units, after) => (.char c :: units, after)

def readExponent (text : Text) : Option ((Bool × Text) × Text) :=
  let (negative, digits) := match text with
    | '-' :: rest => (true, rest)
    | '+' :: rest => (false, rest)
    | rest => (false, rest)
  let run := digits.takeWhile Text.isDigit
  if run.isEmpty then none else some ((negative, run), digits.dropWhile Text.isDigit)

def readFraction (text : Text) : Option (Option Text × Text) :=
  match text with
  | '.' :: rest =>
    let run := rest.takeWhile Text.isDigit
    if run.isEmpty then none else some (some run, rest.dropWhile Text.isDigit)
  | rest => some (none, rest)

def readAfterWhole (negative : Bool) (whole text : Text) : Option (JsonNumeral × Text) := do
  let (fraction, afterFraction) ← readFraction text
  match afterFraction with
  | 'e' :: rest | 'E' :: rest =>
    let (exponent, after) ← readExponent rest
    some (⟨negative, whole, fraction, some exponent⟩, after)
  | after => some (⟨negative, whole, fraction, none⟩, after)

/-- A number without its sign. A zero begins no longer run of digits. -/
def readNumber (negative : Bool) (text : Text) : Option (JsonNumeral × Text) :=
  let run := text.takeWhile Text.isDigit
  match run with
  | [] => none
  | ['0'] => readAfterWhole negative run (text.dropWhile Text.isDigit)
  | '0' :: _ => none
  | _ => readAfterWhole negative run (text.dropWhile Text.isDigit)

def read : Text → Option (JsonToken × Text)
  | '[' :: rest => some (.openArray, rest)
  | ']' :: rest => some (.closeArray, rest)
  | '{' :: rest => some (.openObject, rest)
  | '}' :: rest => some (.closeObject, rest)
  | ',' :: rest => some (.comma, rest)
  | ':' :: rest => some (.colon, rest)
  | 'n' :: 'u' :: 'l' :: 'l' :: rest => some (.null, rest)
  | 't' :: 'r' :: 'u' :: 'e' :: rest => some (.bool true, rest)
  | 'f' :: 'a' :: 'l' :: 's' :: 'e' :: rest => some (.bool false, rest)
  | '"' :: rest => (readString rest).map fun (units, after) => (.string units, after)
  | '-' :: rest => (readNumber true rest).map fun (numeral, after) => (.number numeral, after)
  | rest => (readNumber false rest).map fun (numeral, after) => (.number numeral, after)

/-- All tokens of a text. Every token takes at least one character, so as many
rounds as there are characters suffice. -/
def readAll (text : Text) : Option (List JsonToken) := go text.length text
where
  go : Nat → Text → Option (List JsonToken)
    | fuel, text =>
      match text.dropWhile isBlank with
      | [] => some []
      | c :: rest =>
        match fuel with
        | 0 => none
        | fuel + 1 => do
          let (token, after) ← read (c :: rest)
          let tokens ← go fuel after
          some (token :: tokens)

end JsonToken

end LiteralSql
