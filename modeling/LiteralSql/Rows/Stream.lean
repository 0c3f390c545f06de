import LiteralSql.Rows.Scanner

/-! The rows of a response body that arrives in chunks. -/

set_option autoImplicit false

namespace LiteralSql

/-- The chunks of a body in order. A failure ends the body. -/
abbrev Body := List (Except ClientError (List UInt8))

/-- What a reader of the rows gets: rows, and at most one error, which comes last. -/
abbrev RowItems := List (Except ClientError Row)

namespace RowScanner

/-- The rows that wait, then what the rest of the body brings. The first error ends the rows. -/
def items (scanner : RowScanner) : Body → RowItems
  | [] =>
    scanner.ready.map .ok ++ match scanner.finish with
      | none => []
      | some error => [.error (.decode error)]
  | .error error :: _ => scanner.ready.map .ok ++ [.error error]
  | .ok chunk :: rest =>
    match scanner.drain.2.feed chunk with
    | (next, none) => scanner.ready.map .ok ++ next.items rest
    | (next, some error) =>
      scanner.ready.map .ok ++ next.ready.map .ok ++ [.error (.decode error)]

end RowScanner

/-- A reader between two turns of its loop: the rest of the body, the error that is still to be reported,
and whether the body is left alone from here on. -/
structure DecodeState where
  body : Body
  scanner : RowScanner
  error : Option ClientError
  done : Bool

namespace DecodeState

def start (body : Body) : DecodeState := ⟨body, {}, none, false⟩

def advance (state : DecodeState) : DecodeState :=
  match state.body with
  | .ok chunk :: body =>
    match state.scanner.feed chunk with
    | (scanner, none) => { state with body, scanner }
    | (scanner, some error) => ⟨body, scanner, some (.decode error), true⟩
  | .error error :: body => { state with body, error := some error, done := true }
  | [] => { state with error := state.scanner.finish.map .decode, done := true }

inductive Turn
  | item (item : Except ClientError Row) (next : DecodeState)
  | again (next : DecodeState)
  | ended

def turn (state : DecodeState) : Turn :=
  -- The rows of a chunk go before the error that is found behind them.
  match state.scanner.nextRow with
  | (some row, scanner) => .item (.ok row) { state with scanner }
  | (none, scanner) =>
    match state.error with
    | some error => .item (.error error) { state with scanner, error := none }
    | none => if state.done then .ended else .again { state with scanner }.advance

end DecodeState

/-- Names and values; the names are in lower case. -/
abbrev Headers := List (Text × Text)

def Headers.json : Headers := [("content-type".toList, "application/json".toList)]

structure RowStream where
  status : Nat
  headers : Headers
  items : RowItems

namespace RowStream

def contentType (stream : RowStream) : Option Text := stream.headers.lookup "content-type".toList

def ofBody (body : Body) : RowStream := ⟨200, [], RowScanner.items {} body⟩

def collect : RowItems → Except ClientError (List Row)
  | [] => .ok []
  | .ok row :: rest => do .ok (row :: (← collect rest))
  | .error error :: _ => .error error

def buffered (stream : RowStream) : Except ClientError RowStream := do
  let rows ← collect stream.items
  .ok { stream with items := rows.map .ok }

end RowStream

end LiteralSql
