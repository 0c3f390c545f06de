import LiteralSql.Text

/-! Literals between dollar tags.

A literal ends at the first occurrence of its tag, so the tag is chosen against
the text: it may neither occur in it nor be completed by the end of it.
-/

set_option autoImplicit false

namespace LiteralSql.DollarQuote

def tag : Nat → Text
  | 0 => "$cartodb$".toList
  | number + 1 => "$cartodb".toList ++ Text.ofNat number ++ ['$']

/-- Behind the text the tag is first found where the text ends. -/
def closesOnlyAtEnd (payload tag : Text) : Bool :=
  Text.position? tag (payload ++ tag) = some payload.length

/-- The first candidate that closes only at the end. Each rejected candidate
takes a dollar sign of the payload for itself, so one more candidate than
there are dollar signs is enough. -/
def negotiate (payload : Text) : Text :=
  let bound := payload.count '$'
  tag (((List.range (bound + 1)).find? fun number => closesOnlyAtEnd payload (tag number)).getD bound)

def quote (payload : Text) : Text :=
  let tag := negotiate payload
  tag ++ payload ++ tag

def escapeChar (c : Char) : Text :=
  if c = '\x00' then ['\\', '0']
  else if c = '\n' then ['\\', 'n']
  else if c = '\r' then ['\\', 'r']
  else if c = '\x08' then ['\\', 'b']
  else if c = '\t' then ['\\', 't']
  else if c = '\x1a' then ['\\', 'Z']
  else if c = '\\' then ['\\', '\\']
  else [c]

def escape (text : Text) : Text := text.flatMap escapeChar

def ofText (text : Text) : Text := quote (escape text)

end LiteralSql.DollarQuote
