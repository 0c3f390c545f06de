import LiteralSql.Http.Form

/-! From the text of a URL to the host and the target of a request.

The path is written in a normal form: blanks and other characters without a
place in it are escaped, dot segments are resolved, and what follows a hash
sign is not sent.

This is less than the rules for URLs ask for. The host is taken as it is
written: it is neither put in lower case nor checked, and user names, default
ports and the two ways to write an international name stay in it. A URL of
another scheme than HTTP is no URL here, and nor is one that leaves out slashes
behind its scheme.
-/

set_option autoImplicit false

namespace LiteralSql

structure Url where
  authority : Text
  path : Text
  query : Option Text
  deriving DecidableEq

namespace Url

def isControl (c : Char) : Bool := c.toNat ≤ 0x20

/-- Drops blanks and controls at both ends, and tabs and line ends anywhere. -/
def clean (text : Text) : Text :=
  let trimmed := ((text.dropWhile isControl).reverse.dropWhile isControl).reverse
  trimmed.filter fun c => !(c = '\t' || c = '\n' || c = '\r')

def escapeByte (byte : UInt8) : Text :=
  ['%', Hex.upperDigit (byte.toNat / 16), Hex.upperDigit (byte.toNat % 16)]

def escape (special : Text) (text : Text) : Text :=
  text.flatMap fun c =>
    if c.toNat < 0x20 ∨ 0x7F ≤ c.toNat ∨ c ∈ special then (Utf8.encodeChar c).flatMap escapeByte
    else [c]

def pathSpecial : Text := " \"#<>?`{}^".toList

def querySpecial : Text := " \"#<>'".toList

/-- A dot may also be written as an escape. -/
def dots (segment : Text) : Text := go segment
where
  go : Text → Text
    | '%' :: '2' :: 'e' :: rest => '.' :: go rest
    | '%' :: '2' :: 'E' :: rest => '.' :: go rest
    | c :: rest => c :: go rest
    | [] => []

/-- Resolves the segments behind each other; `kept` holds the ones before, the last one first. -/
def resolve (kept : List Text) : List Text → List Text
  | [] => kept.reverse
  | [last] =>
    if dots last = "..".toList then (kept.drop 1).reverse ++ [[]]
    else if dots last = ".".toList then kept.reverse ++ [[]]
    else kept.reverse ++ [last]
  | segment :: rest =>
    if dots segment = "..".toList then resolve (kept.drop 1) rest
    else if dots segment = ".".toList then resolve kept rest
    else resolve (segment :: kept) rest

def normalPath (text : Text) : Text :=
  let slashed := text.map fun c => if c = '\\' then '/' else c
  let segments := match slashed with
    | '/' :: rest => Text.split '/' rest
    | rest => Text.split '/' rest
  (resolve [] segments).flatMap fun segment => '/' :: escape pathSpecial segment

def dropScheme? (text : Text) : Option Text :=
  let scheme := text.takeWhile (· ≠ ':')
  let lower := scheme.map Char.toLower
  match text.dropWhile (· ≠ ':') with
  | ':' :: '/' :: '/' :: rest =>
    if lower = "http".toList ∨ lower = "https".toList then some rest else none
  | _ => none

def endsAuthority (c : Char) : Bool := c = '/' || c = '\\' || c = '?' || c = '#'

def ofText? (text : Text) : Option Url := do
  let rest ← dropScheme? (clean text)
  let authority := rest.takeWhile fun c => !endsAuthority c
  if authority.isEmpty then none
  else
    let afterAuthority := rest.dropWhile fun c => !endsAuthority c
    let sent := afterAuthority.takeWhile (· ≠ '#')
    let path := sent.takeWhile (· ≠ '?')
    let query := match sent.dropWhile (· ≠ '?') with
      | '?' :: query => some (escape querySpecial query)
      | _ => none
    some ⟨authority, normalPath path, query⟩

def addQuery (url : Url) (pairs : List (Text × Text)) : Url :=
  let added := Form.encode pairs
  { url with query := match url.query with
      | none => some added
      | some [] => some added
      | some query => some (query ++ '&' :: added) }

def target (url : Url) : Text :=
  url.path ++ match url.query with
    | none => []
    | some query => '?' :: query

end Url

end LiteralSql
