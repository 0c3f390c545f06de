import LiteralSql.Json.Printer

/-! Batch jobs: what is submitted, and what the answers say. -/

set_option autoImplicit false

namespace LiteralSql

inductive JobStatus
  | pending
  | running
  | done
  | failed
  | canceled
  | unknown
  deriving DecidableEq

namespace JobStatus

def ofText (status : Text) : JobStatus :=
  if status = "pending".toList then .pending
  else if status = "running".toList then .running
  else if status = "done".toList then .done
  else if status = "failed".toList then .failed
  else if status = "canceled".toList ∨ status = "cancelled".toList then .canceled
  else .unknown

def isInProgress : JobStatus → Bool
  | .pending | .running => true
  | _ => false

end JobStatus

structure JobSummary where
  id : Text
  polls : Nat
  response : Json

namespace Job

def request (sql : Text) (onSuccess onError : Option Text) : Json :=
  let named (name : String) (value : Option Text) : List (Text × Json) :=
    value.toList.map fun sql => (name.toList, .string sql)
  let query := Json.ofMembers
    (named "query" (some sql) ++ named "onsuccess" onSuccess ++ named "onerror" onError)
  .object [("query".toList, .object [("query".toList, .array [query])])]

def id? (response : Json) : Option Text := (response.member? "job_id".toList).bind Json.text?

def statusText (response : Json) : Text :=
  ((response.member? "status".toList).bind Json.text?).getD []

/-- The first item of an array, or the member `0` of an object. -/
def first? : Json → Option Json
  | .array (item :: _) => some item
  | document => document.member? ['0']

def queryReason? (response : Json) : Option Text := do
  let queries ← (← response.member? "query".toList).member? "query".toList
  (← (← first? queries).member? "failed_reason".toList).text?

def failureReason (status : Text) (response : Json) : Text :=
  match queryReason? response, (response.member? "failed_reason".toList).bind Json.text? with
  | some reason, _ => reason
  | none, some reason => reason
  | none, none => "query failed with status \"".toList ++ status ++ ['"']

end Job

end LiteralSql
