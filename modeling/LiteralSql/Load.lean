import LiteralSql.Feature

/-! Loading features in chunks, with a bounded number of inserts under way.

The load is a machine that takes two kinds of events: an insert that is under
way ends, in any order, or the next feature is pulled from the input. The
machine says which events it can take; who feeds it decides the order.
-/

set_option autoImplicit false

namespace LiteralSql

structure LoadOptions where
  batchSize : Nat := 50
  maxInProgress : Nat := 10
  create : Bool := false
  deriving DecidableEq

namespace LoadOptions

def chunkSize (options : LoadOptions) : Nat := max options.batchSize 1

def capacity (options : LoadOptions) : Nat := max options.maxInProgress 1

end LoadOptions

structure LoadSummary where
  rows : Nat := 0
  chunks : Nat := 0
  tableCreated : Bool := false
  deriving DecidableEq

abbrev Chunk := List Record

structure LoadState where
  input : List Feature
  inputEnded : Bool := false
  needsTable : Bool
  buffer : Chunk := []
  inFlight : List Chunk := []
  summary : LoadSummary := {}
  /-- The first insert that failed. From then on only inserts under way are awaited. -/
  failure : Option ClientError := none

inductive LoadEvent
  | settled (index : Nat) (outcome : Except ClientError Unit)
  /-- The input is asked for a feature. If a table is to be created first, this is how that ends. -/
  | pulled (creation : Except ClientError Unit)

namespace LoadState

def start (input : List Feature) (options : LoadOptions) : LoadState :=
  { input, needsTable := options.create }

def canPull (options : LoadOptions) (state : LoadState) : Bool :=
  state.failure.isNone && !state.inputEnded && state.inFlight.length < options.capacity

def dispatch (state : LoadState) : LoadState :=
  { state with buffer := [], inFlight := state.inFlight ++ [state.buffer] }

/-- Takes a chunk out of those under way and counts it. After a failure nothing is counted. -/
def settle (state : LoadState) (index : Nat) (outcome : Except ClientError Unit) : LoadState :=
  let remaining := { state with inFlight := state.inFlight.eraseIdx index }
  match state.failure, outcome with
  | some _, _ => remaining
  | none, .error error => { remaining with failure := some error }
  | none, .ok () =>
    { remaining with summary := { state.summary with
        rows := state.summary.rows + (state.inFlight.getD index []).length
        chunks := state.summary.chunks + 1 } }

def nextFeature? (state : LoadState) : Option Feature := state.input.head?

def takeFeature (options : LoadOptions) (state : LoadState) (feature : Feature)
    (rest : List Feature) : LoadState :=
  let filled := { state with input := rest, buffer := state.buffer ++ [feature.toRecord] }
  if filled.buffer.length < options.chunkSize then filled else filled.dispatch

def pull (options : LoadOptions) (state : LoadState) (creation : Except ClientError Unit) :
    Except ClientError LoadState :=
  match state.input with
  | [] =>
    -- What is left in the buffer is the last chunk, which may be shorter.
    let ended := { state with inputEnded := true }
    .ok (if ended.buffer.isEmpty then ended else ended.dispatch)
  | feature :: rest =>
    if state.needsTable then
      match creation with
      | .error error => .error error
      | .ok () =>
        let created := { state with
          needsTable := false, summary := { state.summary with tableCreated := true } }
        .ok (created.takeFeature options feature rest)
    else .ok (state.takeFeature options feature rest)

def next (options : LoadOptions) (state : LoadState) :
    LoadEvent → Option (Except ClientError LoadState)
  | .settled index outcome =>
    if index < state.inFlight.length then some (.ok (state.settle index outcome)) else none
  | .pulled creation => if state.canPull options then some (state.pull options creation) else none

def result (state : LoadState) : Except ClientError LoadSummary :=
  match state.failure with
  | some error => .error error
  | none => .ok state.summary

/-- Bounds the number of events that are still possible. -/
def work (state : LoadState) : Nat :=
  2 * state.input.length + (if state.inputEnded then 0 else 2) + state.inFlight.length

end LoadState

end LiteralSql
