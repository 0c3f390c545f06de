import LiteralSql.Sql.Error

/-! Instants, time zones and the text of an instant in a zone. -/

set_option autoImplicit false

namespace LiteralSql

/-- Seconds since 1970 in UTC, and nanoseconds into the second. A leap second
has nanoseconds from 1000000000 on. -/
structure Instant where
  seconds : Int
  nanoseconds : Nat
  deriving DecidableEq

/-- The zone of the process that the client runs in: how many seconds its clocks are east of UTC at an
instant. Nothing else is known of it, so that it may change with the seasons. -/
class LocalZone where
  east : Instant → Int
  within (instant : Instant) : (east instant).natAbs < 86400

/-- A process that is told of no zone runs on UTC. -/
instance LocalZone.utc : LocalZone := ⟨fun _ => 0, fun _ => by decide⟩

/-- The local zone is that of the process. A fixed zone lies less than a day east or west of UTC. -/
inductive TimeZone
  | «local»
  | offset (east : Int) (within : east.natAbs < 86400)
  deriving DecidableEq

namespace TimeZone

def utc : TimeZone := .offset 0 (by decide)

instance : Inhabited TimeZone := ⟨.local⟩

def shift [LocalZone] (instant : Instant) : TimeZone → Int
  | .local => LocalZone.east instant
  | .offset east _ => east

def ofSeconds? (east : Int) : Option TimeZone :=
  if h : east.natAbs < 86400 then some (.offset east h) else none

def twoDigits? (tens ones : Char) : Option Nat :=
  if Text.isDigit tens && Text.isDigit ones then some (10 * (tens.toNat - 48) + (ones.toNat - 48))
  else none

/-- What follows the hours of an offset: nothing, a colon, or minutes after an optional colon. -/
def minutes? : Text → Option Nat
  | [] => some 0
  | [':'] => some 0
  | [':', tens, ones] => twoDigits? tens ones
  | [tens, ones] => twoDigits? tens ones
  | _ => none

def signum? : Char → Option Int
  | '+' => some 1
  | ' ' => some 1
  | '-' => some (-1)
  | _ => none

/-- Reads a signed offset in hours and minutes. A blank counts as a plus. -/
def offset? : Text → Option TimeZone
  | sign :: tens :: ones :: rest => do
    let direction ← signum? sign
    let hours ← twoDigits? tens ones
    let minutes ← minutes? rest
    ofSeconds? (direction * (hours * 3600 + minutes * 60))
  | _ => none

def ofText? (text : Text) : Option TimeZone :=
  if text = "local".toList then some .local
  else if text = "Z".toList then some utc
  else offset? text

def parse (text : Text) : Except SqlError TimeZone :=
  match ofText? text with
  | some zone => .ok zone
  | none => .error (.invalidTimeZone text)

end TimeZone

def Text.padded (width number : Nat) : Text :=
  let digits := Text.ofNat number
  List.replicate (width - digits.length) '0' ++ digits

/-- `+HH:MM`, with the seconds behind them if there are any. -/
def TimeZone.toText : TimeZone → Text
  | .local => "local".toList
  | .offset east _ =>
    let size := east.natAbs
    let sign := if east < 0 then '-' else '+'
    sign :: Text.padded 2 (size / 3600) ++ ':' :: Text.padded 2 (size / 60 % 60) ++
      (if size % 60 = 0 then [] else ':' :: Text.padded 2 (size % 60))

structure CalendarDay where
  year : Int
  month : Nat
  day : Nat
  deriving DecidableEq

/-- The calendar day this many days after the first of January 1970.

Years begin in March here, so that the leap day is the last one, and the days
are counted in eras of 400 years, which all have the same length. -/
def CalendarDay.ofDays (days : Int) : CalendarDay :=
  let shifted := days + 719468
  let era := shifted / 146097
  let dayOfEra := (shifted % 146097).toNat
  let yearOfEra := (dayOfEra - dayOfEra / 1460 + dayOfEra / 36524 - dayOfEra / 146096) / 365
  let dayOfYear := dayOfEra - (365 * yearOfEra + yearOfEra / 4 - yearOfEra / 100)
  let monthFromMarch := (5 * dayOfYear + 2) / 153
  let day := dayOfYear - (153 * monthFromMarch + 2) / 5 + 1
  let month := if monthFromMarch < 10 then monthFromMarch + 3 else monthFromMarch - 9
  let year := (yearOfEra : Int) + era * 400 + (if month ≤ 2 then 1 else 0)
  ⟨year, month, day⟩

namespace Instant

/-- Four digits for the years 0 to 9999, a sign before them otherwise. -/
def yearText (year : Int) : Text :=
  if 0 ≤ year ∧ year ≤ 9999 then Text.padded 4 year.toNat
  else (if year < 0 then '-' else '+') :: Text.padded 4 year.natAbs

/-- `YYYY-MM-DD HH:MM:SS.mmm` in a zone. The milliseconds are cut, not
rounded, and a leap second is the sixtieth. -/
def format [LocalZone] (instant : Instant) (zone : TimeZone) : Text :=
  let seconds := instant.seconds + zone.shift instant
  let date := CalendarDay.ofDays (seconds / 86400)
  let ofDay := (seconds % 86400).toNat
  let second := ofDay % 60 + instant.nanoseconds / 1000000000
  yearText date.year ++ '-' :: Text.padded 2 date.month ++ '-' :: Text.padded 2 date.day ++
    ' ' :: Text.padded 2 (ofDay / 3600) ++ ':' :: Text.padded 2 (ofDay / 60 % 60) ++
    ':' :: Text.padded 2 second ++ '.' :: Text.padded 3 (instant.nanoseconds % 1000000000 / 1000000)

end Instant

end LiteralSql
