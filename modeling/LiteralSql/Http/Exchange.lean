import LiteralSql.Http.Url
import LiteralSql.Json.Parser
import LiteralSql.Rows.Stream

/-! Requests, replies, and the law by which requests are sent again.

The other side is given by the replies that it will make. A request that cannot
be delivered leaves no trace there.

A reply is what a client library hands on, so there is nothing here of what
happens below it: no redirects or interim answers, no coding of a body for its
transfer, no time limits, no encryption and no reuse of connections. A user name
in a URL is not turned into a header. Why a connection cannot be made is not
told, only that the request has not arrived.
-/

set_option autoImplicit false

namespace LiteralSql

inductive HttpMethod
  | get
  | post
  deriving DecidableEq

structure Request where
  method : HttpMethod
  target : Text
  contentType : Option Text
  body : Text
  deriving DecidableEq

inductive Reply
  | complete (status : Nat) (body : List UInt8) (headers : Headers := .json)
  | dropped
  /-- An answer whose body breaks off behind these bytes. -/
  | broken (body : List UInt8) (status : Nat := 200) (headers : Headers := .json)
  deriving DecidableEq

inductive Link
  | offline
  /-- One reply for each request to this host, in order. -/
  | scripted (authority : Text) (replies : List Reply)
  deriving DecidableEq

/-- The link, and the requests that arrived, the oldest first. -/
structure Session where
  link : Link
  log : List Request := []

def Reply.exhausted : Reply := .complete 500 (Utf8.encode "script exhausted".toList)

/-- Steps of a client: they may fail, and they change the session in either case. -/
abbrev Exchange (α : Type) := ExceptT ClientError (StateM Session) α

namespace Exchange

def fail {α : Type} (error : ClientError) : Exchange α := throw error

/-- The steps end without waiting for the other side: no request of theirs arrives there. -/
def endsAtOnce {α : Type} (steps : Exchange α) (session : Session) : Bool :=
  ((steps.run : StateM Session (Except ClientError α)).run session).2.log.length =
    session.log.length

def roundTrip (authority : Text) (request : Request) : StateM Session Reply := fun session =>
  match session.link with
  | .offline => (.dropped, session)
  | .scripted host replies =>
    if authority ≠ host then (.dropped, session)
    else
      let log := session.log ++ [request]
      match replies with
      | [] => (.exhausted, { session with log })
      | reply :: rest => (reply, ⟨.scripted host rest, log⟩)

structure Response where
  status : Nat
  headers : Headers
  body : Body

def hasNoContent (status : Nat) : Bool := status = 204 || status = 304

def responseOf? : Reply → Option Response
  | .complete status body headers => some ⟨status, headers, if hasNoContent status then [] else [.ok body]⟩
  | .dropped => none
  | .broken body status headers =>
    some ⟨status, headers, if hasNoContent status then [] else [.ok body, .error .transport]⟩

def wholeBody (body : Body) : Except ClientError (List UInt8) := do .ok (← body.mapM id).flatten

def isSuccess (status : Nat) : Bool := 200 ≤ status && status < 300

def checkStatus (response : Response) : Except ClientError Response :=
  if isSuccess response.status then .ok response
  else do
    let bytes ← wholeBody response.body
    .error (.remote response.status (Utf8.decodeLossy bytes))

def attempt (authority : Text) (request : Request) : StateM Session (Option Response) := do
  return responseOf? (← roundTrip authority request)

/-- Sends a request, and once more if no answer began. -/
def sendTwice (authority : Text) (request : Request) : Exchange Response := do
  match ← attempt authority request with
  | some response => pure response
  | none =>
    match ← attempt authority request with
    | some response => pure response
    | none => fail .transport

def sendOnce (authority : Text) (request : Request) : Exchange Response := do
  match ← attempt authority request with
  | some response => pure response
  | none => fail .transport

def parseUrl (text : Text) : Exchange Url := ofExcept ((Url.ofText? text).elim (.error .transport) .ok)

def postForm (url : Text) (pairs : List (Text × Text)) : Exchange Response := do
  let address ← parseUrl url
  let response ← sendTwice address.authority
    ⟨.post, address.target, some "application/x-www-form-urlencoded".toList, Form.encode pairs⟩
  ofExcept (checkStatus response)

def readDocument (response : Response) : Except ClientError Json := do
  let checked ← checkStatus response
  let text := Utf8.decodeLossy (← wholeBody checked.body)
  match Json.parse? text with
  | some document => .ok document
  | none => .error (.decode (.notJson text))

def postDocument (url : Text) (query : List (Text × Text)) (document : Json) : Exchange Json := do
  let address ← parseUrl url
  let response ← sendOnce address.authority
    ⟨.post, (address.addQuery query).target, some "application/json".toList, document.print⟩
  ofExcept (readDocument response)

def getDocument (url : Text) (query : List (Text × Text)) : Exchange Json := do
  let address ← parseUrl url
  let response ← sendOnce address.authority
    ⟨.get, (address.addQuery query).target, none, []⟩
  ofExcept (readDocument response)

end Exchange

end LiteralSql
