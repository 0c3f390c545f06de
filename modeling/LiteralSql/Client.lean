import LiteralSql.Config
import LiteralSql.Http.Exchange
import LiteralSql.Job
import LiteralSql.Load

/-! Running operations against an SQL endpoint. -/

set_option autoImplicit false

namespace LiteralSql

structure ExecuteOptions where
  batch : Bool := false
  onSuccess : Option Text := none
  onError : Option Text := none

inductive Execution
  | rows (rows : List Row)
  | job (summary : JobSummary)

structure Client where
  config : Config

namespace Client

open Exchange

def toSql [LocalZone] (client : Client) (operation : Operation) : Except ClientError Text :=
  (operation.toSql client.config.zone).mapError ClientError.sql

def streamSql (client : Client) (sql : Text) : Exchange RowStream := do
  let response ← postForm client.config.sqlUrl
    [("api_key".toList, client.config.apiKey), ("q".toList, sql)]
  return ⟨response.status, response.headers, RowScanner.items {} response.body⟩

def querySql (client : Client) (sql : Text) : Exchange (List Row) := do
  ofExcept (RowStream.collect (← client.streamSql sql).items)

def finalize (client : Client) (operation : Operation) : Exchange Unit := do
  match operation.createdTable? with
  | none => pure ()
  | some table =>
    discard (client.querySql
      ("select cdb_cartodbfytable(".toList ++ Identifier.quoteLiteral table ++ [')']))

def query [LocalZone] (client : Client) (operation : Operation) : Exchange (List Row) := do
  let sql ← ofExcept (client.toSql operation)
  let rows ← client.querySql sql
  client.finalize operation
  return rows

/-- If the operation creates a table, its rows are held back until the table is registered. -/
def stream [LocalZone] (client : Client) (operation : Operation) : Exchange RowStream := do
  let sql ← ofExcept (client.toSql operation)
  let rows ← client.streamSql sql
  match operation.createdTable? with
  | none => return rows
  | some _ =>
    let held ← ofExcept rows.buffered
    client.finalize operation
    return held

/-- Asks for the status of a job until it is no longer in progress.

Every request takes a reply of the script, and a script that is used up answers
with an error, so one round more than there are replies is never needed. -/
def poll (client : Client) (job : Text) : Nat → Nat → Exchange JobSummary
  | 0, _ => fail .transport
  | fuel + 1, polls => do
    let response ← getDocument (client.config.jobStatusUrl job)
      [("api_key".toList, client.config.apiKey)]
    let status := Job.statusText response
    match JobStatus.ofText status with
    | .done => return ⟨job, polls + 1, response⟩
    | .pending | .running => poll client job fuel (polls + 1)
    | _ => fail (.jobFailed (Job.failureReason status response))

def remainingReplies : Exchange Nat := do
  match (← get).link with
  | .offline => return 0
  | .scripted _ replies => return replies.length

def runJob (client : Client) (sql : Text) (onSuccess onError : Option Text) :
    Exchange JobSummary := do
  let submitted ← postDocument client.config.jobUrl
    [("api_key".toList, client.config.apiKey)] (Job.request sql onSuccess onError)
  match Job.id? submitted with
  | none => fail (.decode (.missingJobId submitted))
  | some job => client.poll job ((← remainingReplies) + 1) 0

def executeSql (client : Client) (sql : Text) (options : ExecuteOptions) : Exchange Execution := do
  if options.batch then
    return .job (← client.runJob sql options.onSuccess options.onError)
  else
    return .rows (← client.querySql sql)

def execute [LocalZone] (client : Client) (operation : Operation) (options : ExecuteOptions) :
    Exchange Execution := do
  let sql ← ofExcept (client.toSql operation)
  let execution ← client.executeSql sql options
  client.finalize operation
  return execution

def hasTable [LocalZone] (client : Client) (table : Text) : Exchange Bool := do
  return !(← client.query (.schema [.hasTable table])).isEmpty

def hasColumn [LocalZone] (client : Client) (table column : Text) : Exchange Bool := do
  return !(← client.query (.schema [.hasColumn table column])).isEmpty

/-- Runs steps without letting their failure end the steps around them. -/
def outcome {α : Type} (steps : Exchange α) : Exchange (Except ClientError Unit) :=
  ExceptT.lift ((Except.map fun _ => ()) <$> steps.run)

def insertChunk [LocalZone] (client : Client) (table : Text) (chunk : Chunk) :
    Exchange (Except ClientError Unit) :=
  outcome (client.query (.insert ⟨table, chunk⟩))

def createTable [LocalZone] (client : Client) (table : Text) (state : LoadState) :
    Exchange (Except ClientError Unit) :=
  match state.needsTable, state.nextFeature? with
  | true, some feature => outcome (client.query (.schema (feature.schema table)))
  | _, _ => pure (.ok ())

/-- Settles a chunk that has just gone under way, if its insert ends at once.
Such an insert does not wait behind those that are answered later. -/
def settleDispatched [LocalZone] (client : Client) (table : Text) (before after : LoadState) :
    Exchange LoadState := do
  match after.inFlight.drop before.inFlight.length with
  | [] => return after
  | chunk :: _ =>
    let insert := client.insertChunk table chunk
    if insert.endsAtOnce (← get) then return after.settle before.inFlight.length (← insert)
    else return after

/-- Feeds the load machine: input is pulled while it may be, otherwise the
oldest insert under way is awaited. -/
def runLoad [LocalZone] (client : Client) (table : Text) (options : LoadOptions) :
    Nat → LoadState → Exchange LoadSummary
  | 0, state => ofExcept state.result
  | fuel + 1, state => do
    if state.canPull options then
      let next ← ofExcept (state.pull options (← client.createTable table state))
      runLoad client table options fuel (← client.settleDispatched table state next)
    else match state.inFlight with
      | [] => ofExcept state.result
      | chunk :: _ =>
        let ended ← client.insertChunk table chunk
        runLoad client table options fuel (state.settle 0 ended)

def load [LocalZone] (client : Client) (table : Text) (features : List Feature) (options : LoadOptions) :
    Exchange LoadSummary :=
  let start := LoadState.start features options
  client.runLoad table options start.work start

end Client

end LiteralSql
