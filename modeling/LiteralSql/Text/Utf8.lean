import LiteralSql.Text

/-! UTF-8: the bytes of a text, a reader that refuses malformed bytes, and a
reader that puts U+FFFD for each maximal malformed part. -/

set_option autoImplicit false

namespace LiteralSql.Utf8

def encodeChar (c : Char) : List UInt8 :=
  let code := c.toNat
  if code < 0x80 then [code.toUInt8]
  else if code < 0x800 then
    [(0xC0 + code / 0x40).toUInt8, (0x80 + code % 0x40).toUInt8]
  else if code < 0x10000 then
    [(0xE0 + code / 0x1000).toUInt8, (0x80 + code / 0x40 % 0x40).toUInt8,
      (0x80 + code % 0x40).toUInt8]
  else
    [(0xF0 + code / 0x40000).toUInt8, (0x80 + code / 0x1000 % 0x40).toUInt8,
      (0x80 + code / 0x40 % 0x40).toUInt8, (0x80 + code % 0x40).toUInt8]

def encode (text : Text) : List UInt8 := text.flatMap encodeChar

/-- How many continuation bytes a first byte announces, its payload, and the
range of the byte after it. The range excludes overlong forms, surrogates and
codes above U+10FFFF. -/
def lead? (byte : UInt8) : Option (Nat × Nat × Nat × Nat) :=
  let value := byte.toNat
  if value < 0x80 then some (0, value, 0, 0)
  else if value < 0xC2 then none
  else if value < 0xE0 then some (1, value - 0xC0, 0x80, 0xBF)
  else if value = 0xE0 then some (2, 0, 0xA0, 0xBF)
  else if value = 0xED then some (2, 0xD, 0x80, 0x9F)
  else if value < 0xF0 then some (2, value - 0xE0, 0x80, 0xBF)
  else if value = 0xF0 then some (3, 0, 0x90, 0xBF)
  else if value < 0xF4 then some (3, value - 0xF0, 0x80, 0xBF)
  else if value = 0xF4 then some (3, 4, 0x80, 0x8F)
  else none

inductive State
  | boundary
  | inside (missing payload low high : Nat)
  deriving DecidableEq

/-- What one more byte completes: a character, nothing yet, or proof that the
bytes before it (or the byte itself, at a boundary) are malformed. -/
inductive Step
  | char (c : Char)
  | pending (state : State)
  | malformed
  deriving DecidableEq

def State.step (state : State) (byte : UInt8) : Step :=
  match state with
  | .boundary =>
    match lead? byte with
    | none => .malformed
    | some (0, payload, _, _) => .char (Char.ofNat payload)
    | some (missing, payload, low, high) => .pending (.inside missing payload low high)
  | .inside missing payload low high =>
    if low ≤ byte.toNat ∧ byte.toNat ≤ high then
      let total := payload * 0x40 + (byte.toNat - 0x80)
      if missing ≤ 1 then .char (Char.ofNat total)
      else .pending (.inside (missing - 1) total 0x80 0xBF)
    else .malformed

def decodeFrom : State → List UInt8 → Option Text
  | .boundary, [] => some []
  | .inside .., [] => none
  | state, byte :: rest =>
    match state.step byte with
    | .char c => (decodeFrom .boundary rest).map (c :: ·)
    | .pending next => decodeFrom next rest
    | .malformed => none

def decode? (bytes : List UInt8) : Option Text := decodeFrom .boundary bytes

def replacement : Char := Char.ofNat 0xFFFD

def decodeLossyFrom : State → List UInt8 → Text
  | .boundary, [] => []
  | .inside .., [] => [replacement]
  | .boundary, byte :: rest =>
    match State.boundary.step byte with
    | .char c => c :: decodeLossyFrom .boundary rest
    | .pending next => decodeLossyFrom next rest
    | .malformed => replacement :: decodeLossyFrom .boundary rest
  | .inside missing payload low high, byte :: rest =>
    match (State.inside missing payload low high).step byte with
    | .char c => c :: decodeLossyFrom .boundary rest
    | .pending next => decodeLossyFrom next rest
    | .malformed =>
      -- The byte that breaks a character off may begin the next one.
      match State.boundary.step byte with
      | .char c => replacement :: c :: decodeLossyFrom .boundary rest
      | .pending next => replacement :: decodeLossyFrom next rest
      | .malformed => replacement :: replacement :: decodeLossyFrom .boundary rest

/-- Every maximal malformed part reads as one U+FFFD. -/
def decodeLossy (bytes : List UInt8) : Text := decodeLossyFrom .boundary bytes

end LiteralSql.Utf8
