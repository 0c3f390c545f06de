import LiteralSql.Proofs.Client.Statements

/-! What comes back for one request.

An answer arrives whole, or it breaks off behind its headers, or none begins.
An answer without content has nothing that could break off.
-/

set_option autoImplicit false

namespace LiteralSql

open Exchange

namespace Reply

inductive Arrives : Reply → Nat → List UInt8 → Prop
  | whole {status : Nat} {body : List UInt8} {headers : Headers} (content : hasNoContent status = false) :
      Arrives (.complete status body headers) status body
  | bare {status : Nat} {body : List UInt8} {headers : Headers} (empty : hasNoContent status = true) :
      Arrives (.complete status body headers) status []
  | unbroken {status : Nat} {body : List UInt8} {headers : Headers} (empty : hasNoContent status = true) :
      Arrives (.broken body status headers) status []

inductive Breaks : Reply → Nat → Prop
  | off {status : Nat} {body : List UInt8} {headers : Headers} (content : hasNoContent status = false) :
      Breaks (.broken body status headers) status

variable {reply : Reply} {status : Nat} {body : List UInt8}

theorem arrives_or_breaks (reply : Reply) :
    (∃ status body, reply.Arrives status body) ∨ (∃ status, reply.Breaks status) ∨ reply = .dropped := by
  cases reply with
  | dropped => exact .inr (.inr rfl)
  | complete status body =>
    cases content : hasNoContent status with
    | false => exact .inl ⟨_, _, .whole content⟩
    | true => exact .inl ⟨_, _, .bare content⟩
  | broken body status =>
    cases content : hasNoContent status with
    | false => exact .inr (.inl ⟨_, .off content⟩)
    | true => exact .inl ⟨_, _, .unbroken content⟩

theorem Arrives.response (arrives : reply.Arrives status body) :
    ∃ response, responseOf? reply = some response ∧ response.status = status ∧ wholeBody response.body = .ok body := by
  cases arrives with
  | whole content =>
    refine ⟨_, rfl, rfl, ?_⟩
    rw [content]
    exact congrArg Except.ok (List.append_nil body)
  | bare empty =>
    refine ⟨_, rfl, rfl, ?_⟩
    rw [empty]
    rfl
  | unbroken empty =>
    refine ⟨_, rfl, rfl, ?_⟩
    rw [empty]
    rfl

theorem Breaks.response (breaks : reply.Breaks status) : ∃ response, responseOf? reply = some response ∧
    response.status = status ∧ wholeBody response.body = .error .transport := by
  obtain ⟨content⟩ := breaks
  refine ⟨_, rfl, rfl, ?_⟩
  rw [content]
  rfl

/-- An answer without success is reported with its whole body, if that arrives. -/
inductive Refused : Reply → ClientError → Prop
  | remote {reply : Reply} {status : Nat} {body : List UInt8} (arrives : reply.Arrives status body)
      (failure : isSuccess status = false) : Refused reply (.remote status (Utf8.decodeLossy body))
  | transport {reply : Reply} {status : Nat} (breaks : reply.Breaks status) (failure : isSuccess status = false) :
      Refused reply .transport

/-- The document that a reply brings, or why it brings none. -/
inductive Brings : Reply → Except ClientError Json → Prop
  | unanswered : Brings .dropped (.error .transport)
  | refused {reply : Reply} {error : ClientError} (refused : reply.Refused error) : Brings reply (.error error)
  | broken {reply : Reply} {status : Nat} (breaks : reply.Breaks status) (success : isSuccess status = true) :
      Brings reply (.error .transport)
  | unreadable {reply : Reply} {status : Nat} {body : List UInt8} (arrives : reply.Arrives status body)
      (success : isSuccess status = true) (unread : Json.parse? (Utf8.decodeLossy body) = none) :
      Brings reply (.error (.decode (.notJson (Utf8.decodeLossy body))))
  | document {reply : Reply} {status : Nat} {body : List UInt8} {document : Json} (arrives : reply.Arrives status body)
      (success : isSuccess status = true) (read : Json.parse? (Utf8.decodeLossy body) = some document) :
      Brings reply (.ok document)

theorem exists_brings (reply : Reply) : ∃ result, reply.Brings result := by
  obtain ⟨status, body, arrives⟩ | ⟨status, breaks⟩ | rfl := reply.arrives_or_breaks
  · cases success : isSuccess status with
    | false => exact ⟨_, .refused (.remote arrives success)⟩
    | true =>
      cases read : Json.parse? (Utf8.decodeLossy body) with
      | none => exact ⟨_, .unreadable arrives success read⟩
      | some document => exact ⟨_, .document arrives success read⟩
  · cases success : isSuccess status with
    | false => exact ⟨_, .refused (.transport breaks success)⟩
    | true => exact ⟨_, .broken breaks success⟩
  · exact ⟨_, .unanswered⟩

end Reply

namespace Exchange

variable {response : Response} {reply : Reply}

theorem checkStatus_remote (failure : isSuccess response.status = false) {body : List UInt8}
    (whole : wholeBody response.body = .ok body) :
    checkStatus response = .error (.remote response.status (Utf8.decodeLossy body)) := by
  rw [checkStatus, failure, whole]
  rfl

theorem checkStatus_broken (failure : isSuccess response.status = false) {error : ClientError}
    (broken : wholeBody response.body = .error error) : checkStatus response = .error error := by
  rw [checkStatus, failure, broken]
  rfl

theorem readDocument_refused {error : ClientError} (refused : checkStatus response = .error error) :
    readDocument response = .error error := by
  rw [readDocument, refused]
  rfl

theorem readDocument_broken (success : isSuccess response.status = true) {error : ClientError}
    (broken : wholeBody response.body = .error error) : readDocument response = .error error := by
  simp only [readDocument, checkStatus_success success, broken, bind, Except.bind]

theorem readDocument_whole (success : isSuccess response.status = true) {body : List UInt8}
    (whole : wholeBody response.body = .ok body) : readDocument response =
      (Json.parse? (Utf8.decodeLossy body)).elim (.error (.decode (.notJson (Utf8.decodeLossy body)))) .ok := by
  simp only [readDocument, checkStatus_success success, whole, bind, Except.bind]
  cases Json.parse? (Utf8.decodeLossy body) <;> rfl

end Exchange

namespace Reply

variable {reply : Reply}

theorem Refused.response {error : ClientError} (refused : reply.Refused error) :
    ∃ response, responseOf? reply = some response ∧ checkStatus response = .error error := by
  cases refused with
  | remote arrives failure =>
    obtain ⟨response, began, rfl, whole⟩ := arrives.response
    exact ⟨response, began, checkStatus_remote failure whole⟩
  | transport breaks failure =>
    obtain ⟨response, began, rfl, broken⟩ := breaks.response
    exact ⟨response, began, checkStatus_broken failure broken⟩

theorem refused_or_success (began : reply ≠ .dropped) : (∃ error, reply.Refused error) ∨
    ∃ response, responseOf? reply = some response ∧ isSuccess response.status = true := by
  obtain ⟨status, body, arrives⟩ | ⟨status, breaks⟩ | dropped := reply.arrives_or_breaks
  · obtain ⟨response, found, rfl, -⟩ := arrives.response
    cases success : isSuccess response.status with
    | false => exact .inl ⟨_, .remote arrives success⟩
    | true => exact .inr ⟨response, found, success⟩
  · obtain ⟨response, found, rfl, -⟩ := breaks.response
    cases success : isSuccess response.status with
    | false => exact .inl ⟨_, .transport breaks success⟩
    | true => exact .inr ⟨response, found, success⟩
  · exact absurd dropped began

theorem Brings.eq {result : Except ClientError Json} (brings : reply.Brings result) :
    (responseOf? reply).elim (.error .transport) readDocument = result := by
  cases brings with
  | unanswered => rfl
  | refused refused =>
    obtain ⟨response, began, refused⟩ := refused.response
    rw [began, Option.elim_some, readDocument_refused refused]
  | broken breaks success =>
    obtain ⟨response, began, rfl, broken⟩ := breaks.response
    rw [began, Option.elim_some, readDocument_broken success broken]
  | unreadable arrives success unread =>
    obtain ⟨response, began, rfl, whole⟩ := arrives.response
    rw [began, Option.elim_some, readDocument_whole success whole, unread]
    rfl
  | document arrives success read =>
    obtain ⟨response, began, rfl, whole⟩ := arrives.response
    rw [began, Option.elim_some, readDocument_whole success whole, read]
    rfl

end Reply

end LiteralSql
