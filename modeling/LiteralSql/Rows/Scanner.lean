import LiteralSql.ClientError
import LiteralSql.Json.Parser

/-! Reading the rows out of a response while it arrives.

A response is an object whose member `rows` is an array of objects. The object
and the array are checked byte by byte; each name, row and other value in them
is collected whole and judged when it ends.
-/

set_option autoImplicit false

namespace LiteralSql

/-- The members of a row, sorted by name. -/
abbrev Row := List (Text × Json)

def Row.print (row : Row) : Text := (Json.object row).print

namespace Bytes

/-- Space, tab, line feed, form feed and carriage return. -/
def isBlank (byte : UInt8) : Bool :=
  byte = 0x20 || byte = 0x09 || byte = 0x0A || byte = 0x0C || byte = 0x0D

def toChars (bytes : List UInt8) : Text := bytes.map fun byte => Char.ofNat byte.toNat

end Bytes

inductive RowPosition
  | start
  | firstName
  | name
  | colon
  | value
  | memberEnd
  | firstRow
  | row
  | rowEnd
  | done
  deriving DecidableEq

inductive CaptureTarget
  | name
  | value
  | row
  deriving DecidableEq

/-- The bytes of one name, value or row so far, the last one first, and the
brackets that are open in it. -/
structure Capture where
  reversed : List UInt8
  brackets : List UInt8
  inString : Bool
  escaped : Bool
  deriving DecidableEq

namespace Capture

def empty : Capture := ⟨[], [], false, false⟩

def bytes (capture : Capture) : List UInt8 := capture.reversed.reverse

inductive Progress
  | pending
  | complete
  /-- The byte before was the last one. -/
  | ended
  deriving DecidableEq

def endsScalar (byte : UInt8) : Bool :=
  Bytes.isBlank byte || byte = 0x2C || byte = 0x7D || byte = 0x5D

def pushString (capture : Capture) (byte : UInt8) : Capture × Progress :=
  let held := { capture with reversed := byte :: capture.reversed }
  if capture.escaped then ({ held with escaped := false }, .pending)
  else if byte = 0x5C then ({ held with escaped := true }, .pending)
  else if byte = 0x22 then
    ({ held with inString := false }, if capture.brackets.isEmpty then .complete else .pending)
  else (held, .pending)

def closeBracket (capture : Capture) (opening : UInt8) :
    Capture × Except DecodeError Progress :=
  let held := { capture with brackets := capture.brackets.tail }
  if capture.brackets.head? = some opening then
    (held, .ok (if held.brackets.isEmpty then .complete else .pending))
  else (held, .error .unbalancedBrackets)

/-- Takes one more byte. The byte is kept also when it is refused. -/
def push (capture : Capture) (byte : UInt8) : Capture × Except DecodeError Progress :=
  if capture.inString then
    let (held, progress) := capture.pushString byte
    (held, .ok progress)
  else
    let held := { capture with reversed := byte :: capture.reversed }
    -- Open neither in a string nor in a bracket, a capture that has begun is a scalar.
    if !capture.reversed.isEmpty && capture.brackets.isEmpty then
      if endsScalar byte then (capture, .ok .ended) else (held, .ok .pending)
    else if byte = 0x22 then ({ held with inString := true }, .ok .pending)
    else if byte = 0x7B || byte = 0x5B then
      ({ held with brackets := byte :: capture.brackets }, .ok .pending)
    else if byte = 0x7D then held.closeBracket 0x7B
    else if byte = 0x5D then held.closeBracket 0x5B
    else if (byte = 0x2C || byte = 0x3A) && capture.brackets.isEmpty then
      (held, .error .expectedValue)
    else (held, .ok .pending)

end Capture

def memberName? (bytes : List UInt8) : Option Text := (Json.parseBytes? bytes).bind Json.text?

def rowOfBytes? (bytes : List UInt8) : Option Row :=
  match Json.parseBytes? bytes with
  | some (.object members) => some members
  | _ => none

/-- A value besides the rows only has to be JSON by its syntax. -/
def isValue (bytes : List UInt8) : Bool := isJsonSyntax (Bytes.toChars bytes)

/-- A reader between two bytes, with the rows that wait to be taken, the oldest first. -/
structure RowScanner where
  position : RowPosition := .start
  capture : Option (CaptureTarget × Capture) := none
  member : Text := []
  ready : List Row := []

namespace RowScanner

abbrev Result := RowScanner × Option DecodeError

def refuse (scanner : RowScanner) (error : DecodeError) : Result := (scanner, some error)

def moveTo (scanner : RowScanner) (position : RowPosition) : Result :=
  ({ scanner with position }, none)

def complete (scanner : RowScanner) (target : CaptureTarget) (bytes : List UInt8) : Result :=
  let free := { scanner with capture := none }
  match target with
  | .name =>
    match memberName? bytes with
    | some member => ({ free with member, position := .colon }, none)
    | none => free.refuse .invalidName
  | .value => if isValue bytes then free.moveTo .memberEnd else free.refuse (.invalidValue free.member)
  | .row =>
    match rowOfBytes? bytes with
    | some row => ({ free with ready := free.ready ++ [row], position := .rowEnd }, none)
    | none => free.refuse .invalidRow

def begin (scanner : RowScanner) (target : CaptureTarget) (byte : UInt8) : Result :=
  match Capture.empty.push byte with
  | (_, .error error) => scanner.refuse error
  | (capture, .ok .complete) => scanner.complete target capture.bytes
  | (capture, .ok _) => ({ scanner with capture := some (target, capture) }, none)

def rowsKey : Text := "rows".toList

def stepOutside (scanner : RowScanner) (byte : UInt8) : Result :=
  if Bytes.isBlank byte then (scanner, none)
  else match scanner.position with
    | .start => if byte = 0x7B then scanner.moveTo .firstName else scanner.refuse .rootNotObject
    | .firstName =>
      if byte = 0x22 then scanner.begin .name byte
      else if byte = 0x7D then scanner.moveTo .done
      else scanner.refuse .expectedName
    | .name => if byte = 0x22 then scanner.begin .name byte else scanner.refuse .expectedName
    | .colon => if byte = 0x3A then scanner.moveTo .value else scanner.refuse .expectedColon
    -- Rows that are no array are judged like any other value.
    | .value =>
      if byte = 0x5B ∧ scanner.member = rowsKey then scanner.moveTo .firstRow
      else scanner.begin .value byte
    | .memberEnd =>
      if byte = 0x2C then scanner.moveTo .name
      else if byte = 0x7D then scanner.moveTo .done
      else scanner.refuse .expectedMemberEnd
    | .firstRow =>
      if byte = 0x7B then scanner.begin .row byte
      else if byte = 0x5D then scanner.moveTo .memberEnd
      else scanner.refuse .rowNotObject
    | .row => if byte = 0x7B then scanner.begin .row byte else scanner.refuse .rowNotObject
    | .rowEnd =>
      if byte = 0x2C then scanner.moveTo .row
      else if byte = 0x5D then scanner.moveTo .memberEnd
      else scanner.refuse .expectedRowEnd
    | .done => scanner.refuse .trailingData

/-- Takes one byte. A byte that is refused counts as taken. -/
def step (scanner : RowScanner) (byte : UInt8) : Result :=
  match scanner.capture with
  | none => scanner.stepOutside byte
  | some (target, capture) =>
    let (held, progress) := capture.push byte
    match progress with
    | .error error => ({ scanner with capture := some (target, held) }, some error)
    | .ok .pending => ({ scanner with capture := some (target, held) }, none)
    | .ok .complete => scanner.complete target held.bytes
    | .ok .ended =>
      match scanner.complete target held.bytes with
      | (next, none) => next.stepOutside byte
      | refused => refused

def feed (scanner : RowScanner) : List UInt8 → Result
  | [] => (scanner, none)
  | byte :: rest =>
    match scanner.step byte with
    | (next, none) => next.feed rest
    | refused => refused

def finish (scanner : RowScanner) : Option DecodeError :=
  match scanner.position with
  | .start => some .emptyBody
  | .done => none
  | _ => some .truncatedBody

def nextRow (scanner : RowScanner) : Option Row × RowScanner :=
  match scanner.ready with
  | [] => (none, scanner)
  | row :: rest => (some row, { scanner with ready := rest })

def drain (scanner : RowScanner) : List Row × RowScanner :=
  (scanner.ready, { scanner with ready := [] })

end RowScanner

end LiteralSql
