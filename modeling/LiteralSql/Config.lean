import LiteralSql.ClientError
import LiteralSql.Json.Parser
import LiteralSql.Time

/-! The endpoint, the credentials and the options of a client. -/

set_option autoImplicit false

namespace LiteralSql

structure Config where
  baseUrl : Text
  apiKey : Text
  zone : TimeZone := .local
  /-- Milliseconds between two looks at a job. -/
  pollInterval : Nat := 50
  deriving DecidableEq

namespace Config

def trimSlashes (url : Text) : Text := (url.reverse.dropWhile (· = '/')).reverse

def ofUrl (url apiKey : Text) : Config := { baseUrl := trimSlashes url, apiKey }

def ofUser (user apiKey : Text) : Config :=
  ofUrl ("https://".toList ++ user ++ ".carto.com/api/v2".toList) apiKey

def sqlUrl (config : Config) : Text := config.baseUrl ++ "/sql".toList

def jobUrl (config : Config) : Text := config.baseUrl ++ "/sql/job".toList

def jobStatusUrl (config : Config) (job : Text) : Text :=
  config.baseUrl ++ "/sql/job/".toList ++ job

structure Fields where
  username : Option (Option Text) := none
  baseUrl : Option (Option Text) := none
  apiKey : Option Text := none
  zone : Option (Option Text) := none
  pollInterval : Option (Option Nat) := none

namespace Fields

def text? : JsonTree → Option Text
  | .string units => Json.unitsText? units
  | _ => none

def optionalText? : JsonTree → Option (Option Text)
  | .null => some none
  | tree => (text? tree).map some

/-- Only digits are a count of milliseconds, and 64 bits have to hold it. -/
def optionalCount? : JsonTree → Option (Option Nat)
  | .null => some none
  | .number ⟨false, digits, none, none⟩ =>
    let count := Text.toNat digits
    if count < 0x10000000000000000 then some (some count) else none
  | _ => none

def fill? {α : Type} (held : Option α) (value : Option α) : Option (Option α) :=
  match held with
  | some _ => none
  | none => value.map some

/-- Takes one member. A field has at most one of its names, once; unknown members are passed over. -/
def addMember? (fields : Fields) (name : Text) (value : JsonTree) : Option Fields :=
  if name = "username".toList ∨ name = "user".toList then do
    some { fields with username := ← fill? fields.username (optionalText? value) }
  else if name = "base_url".toList then do
    some { fields with baseUrl := ← fill? fields.baseUrl (optionalText? value) }
  else if name = "api_key".toList ∨ name = "apikey".toList then do
    some { fields with apiKey := ← fill? fields.apiKey (text? value) }
  else if name = "timezone".toList then do
    some { fields with zone := ← fill? fields.zone (optionalText? value) }
  else if name = "poll_interval_ms".toList then do
    some { fields with pollInterval := ← fill? fields.pollInterval (optionalCount? value) }
  else some fields

def ofMembers? (members : List (List JsonUnit × JsonTree)) : Option Fields :=
  members.foldlM (fun fields (units, value) => do
    fields.addMember? (← Json.unitsText? units) value) {}

/-- The fields in their order; those after the key may be missing. -/
def ofItems? : List JsonTree → Option Fields
  | username :: baseUrl :: apiKey :: rest => do
    let first ← optionalText? username
    let second ← optionalText? baseUrl
    let third ← text? apiKey
    let fields : Fields := { username := some first, baseUrl := some second, apiKey := some third }
    match rest with
    | [] => some fields
    | [zone] => some { fields with zone := some (← optionalText? zone) }
    | [zone, interval] =>
      some { fields with
        zone := some (← optionalText? zone), pollInterval := some (← optionalCount? interval) }
    | _ => none
  | _ => none

def ofTree? : JsonTree → Option Fields
  | .object members => ofMembers? members
  | .array items => ofItems? items
  | _ => none

end Fields

def ofFields (fields : Fields) : Except ConfigError Config := do
  let some apiKey := fields.apiKey | .error .malformed
  let config ← match fields.baseUrl.join, fields.username.join with
    | some url, _ => .ok (ofUrl url apiKey)
    | none, some user => .ok (ofUser user apiKey)
    | none, none => .error .missingEndpoint
  let zoned ← match fields.zone.join with
    | none => .ok config
    | some zone =>
      match TimeZone.parse zone with
      | .ok found => .ok { config with zone := found }
      | .error error => .error (.zone error)
  .ok (match fields.pollInterval.join with
    | some interval => { zoned with pollInterval := interval }
    | none => zoned)

def ofJson (text : Text) : Except ConfigError Config :=
  match ((JsonToken.readAll text).bind JsonTree.ofTokens?).bind Fields.ofTree? with
  | some fields => ofFields fields
  | none => .error .malformed

end Config

end LiteralSql
