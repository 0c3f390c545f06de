import LiteralSql.Proofs.Client.Sending

/-! Calls of a client one behind the other.

What a call hands over to be sent is told from the call. The log of a session is
what arrives of all that is handed over, in that order and nothing else.
-/

set_option autoImplicit false

namespace LiteralSql

open Exchange

inductive Call
  | streamSql (sql : Text)
  | querySql (sql : Text)
  | executeSql (sql : Text) (options : ExecuteOptions)
  | query (operation : Operation)
  | stream (operation : Operation)
  | execute (operation : Operation) (options : ExecuteOptions)
  | hasTable (table : Text)
  | hasColumn (table column : Text)
  | load (table : Text) (features : List Feature) (options : LoadOptions)

theorem Exchange.bind_session {α β : Type} {next : α → Exchange β}
    (silent : ∀ value after, ((next value).on after).2 = after) (steps : Exchange α) (session : Session) :
    ((steps >>= next).on session).2 = (steps.on session).2 := by
  rw [on_bind]
  rcases steps.on session with ⟨error | value, after⟩
  · rfl
  · exact silent value after

namespace Call

def statement? : Call → Option (Text × ExecuteOptions)
  | .streamSql sql | .querySql sql => some (sql, {})
  | .executeSql sql options => some (sql, options)
  | _ => none

def operation? : Call → Option (Operation × ExecuteOptions)
  | .query operation | .stream operation => some (operation, {})
  | .execute operation options => some (operation, options)
  | .hasTable table => some (.schema [.hasTable table], {})
  | .hasColumn table column => some (.schema [.hasColumn table column], {})
  | _ => none

theorem runs (call : Call) : (∃ asked, call.statement? = some asked) ∨ (∃ asked, call.operation? = some asked) ∨
    ∃ table features options, call = .load table features options := by
  cases call with
  | streamSql | querySql | executeSql => exact .inl ⟨_, rfl⟩
  | query | stream | execute | hasTable | hasColumn => exact .inr (.inl ⟨_, rfl⟩)
  | load table features options => exact .inr (.inr ⟨table, features, options, rfl⟩)

end Call

namespace Client

def behind [LocalZone] (client : Client) (session : Session) : Call → Session
  | .streamSql sql => ((client.streamSql sql).on session).2
  | .querySql sql => ((client.querySql sql).on session).2
  | .executeSql sql options => ((client.executeSql sql options).on session).2
  | .query operation => ((client.query operation).on session).2
  | .stream operation => ((client.stream operation).on session).2
  | .execute operation options => ((client.execute operation options).on session).2
  | .hasTable table => ((client.hasTable table).on session).2
  | .hasColumn table column => ((client.hasColumn table column).on session).2
  | .load table features options => ((client.load table features options).on session).2

/-- What is handed over for a job: its submission, and then the looks at it. It is looked at again just if the
reply to the look before says that it is in progress. -/
inductive JobHands (client : Client) (session : Session) (sql : Text) (onSuccess onError : Option Text) :
    List Dispatch → Prop
  | unreachable (lost : ∀ address, ¬ Reachable session client.config.jobUrl address) :
      JobHands client session sql onSuccess onError [.submission sql onSuccess onError]
  | unnamed {address : Url} (reached : Reachable session client.config.jobUrl address)
      (unnamed : ∀ document job, session.link.reply.Brings (.ok document) → ¬ document.HasText "job_id".toList job) :
      JobHands client session sql onSuccess onError [.submission sql onSuccess onError]
  | looked {address : Url} {document : Json} {job : Text} {looks : Nat}
      (reached : Reachable session client.config.jobUrl address) (brings : session.link.reply.Brings (.ok document))
      (named : document.HasText "job_id".toList job) (some : 0 < looks)
      (going : ∀ earlier, 0 < earlier → earlier < looks → (session.link.skip earlier).reply.Going)
      (stopped : ¬ (session.link.skip looks).reply.Going) :
      JobHands client session sql onSuccess onError
        (.submission sql onSuccess onError :: List.replicate looks (.look job))

inductive StatementHands (client : Client) (session : Session) (sql : Text) (options : ExecuteOptions) :
    List Dispatch → Prop
  | direct (direct : options.batch = false) : StatementHands client session sql options [.statement sql]
  | job {handed : List Dispatch} (batch : options.batch = true)
      (hands : client.JobHands session sql options.onSuccess options.onError handed) :
      StatementHands client session sql options handed

/-- The main statement of an operation, and behind it what registers the table that it creates. -/
inductive OperationHands [LocalZone] (client : Client) (session : Session) (operation : Operation)
    (options : ExecuteOptions) :
    List Dispatch → Prop
  | unwritten {error : SqlError} (unwritten : operation.toSql client.config.zone = .error error) :
      OperationHands client session operation options []
  | main {sql : Text} {handed : List Dispatch} (written : operation.toSql client.config.zone = .ok sql)
      (main : client.StatementHands session sql options handed) : OperationHands client session operation options handed
  | registered {sql table : Text} {handed : List Dispatch} (written : operation.toSql client.config.zone = .ok sql)
      (main : client.StatementHands session sql options handed) (created : operation.createdTable? = some table) :
      OperationHands client session operation options (handed ++ [.statement (registration table)])

/-- The queries of the actions of a load, one after the other up to this session. -/
inductive LoadHands [LocalZone] (client : Client) (table : Text) (origin : Session) :
    LoadTrace → Session → List Dispatch → Prop
  | nil : LoadHands client table origin [] origin []
  | silent {trace : LoadTrace} {session : Session} {action : LoadAction} {handed : List Dispatch}
      (earlier : LoadHands client table origin trace session handed) (nothing : action.query? table = none) :
      LoadHands client table origin (trace ++ [action]) session handed
  | sent {trace : LoadTrace} {session : Session} {action : LoadAction} {operation : Operation}
      {handed more : List Dispatch} (earlier : LoadHands client table origin trace session handed)
      (asked : action.query? table = some (operation, client.queryOutcome operation session))
      (hands : client.OperationHands session operation {} more) :
      LoadHands client table origin (trace ++ [action]) ((client.query operation).on session).2 (handed ++ more)

inductive Hands [LocalZone] (client : Client) (session : Session) : Call → List Dispatch → Prop
  | statement {call : Call} {sql : Text} {options : ExecuteOptions} {handed : List Dispatch}
      (asked : call.statement? = some (sql, options)) (hands : client.StatementHands session sql options handed) :
      Hands client session call handed
  | operation {call : Call} {operation : Operation} {options : ExecuteOptions} {handed : List Dispatch}
      (asked : call.operation? = some (operation, options))
      (hands : client.OperationHands session operation options handed) : Hands client session call handed
  | load {table : Text} {features : List Feature} {options : LoadOptions} {trace : LoadTrace} {handed : List Dispatch}
      (finishes : client.Finishes table options features session trace
        ((client.load table features options).on session))
      (hands : client.LoadHands table session trace ((client.load table features options).on session).2 handed) :
      Hands client session (.load table features options) handed

inductive HandsAll [LocalZone] (client : Client) : Session → List Call → List Dispatch → Prop
  | nil {session : Session} : HandsAll client session [] []
  | cons {session : Session} {call : Call} {calls : List Call} {handed more : List Dispatch}
      (hands : client.Hands session call handed) (rest : HandsAll client (client.behind session call) calls more) :
      HandsAll client session (call :: calls) (handed ++ more)

/-- What arrives of all that is handed over leads from one session to the other. -/
def Leads (client : Client) (session : Session) (handed : List Dispatch) (after : Session) : Prop :=
  ∃ requests, client.Logged session handed requests ∧ after = session.receive requests

section
variable {client : Client} {session between after : Session} {handed more : List Dispatch}

theorem Logged.append {requests rest : List Request} (first : client.Logged session handed requests)
    (second : client.Logged (session.receive requests) more rest) :
    client.Logged session (handed ++ more) (requests ++ rest) := by
  induction first with
  | nil => rwa [Session.receive_nil] at second
  | cons takes later ih =>
    rw [List.cons_append, List.append_assoc]
    refine .cons takes (ih ?_)
    rwa [Session.receive_receive]

theorem Leads.nil (client : Client) (session : Session) : client.Leads session [] session :=
  ⟨[], .nil, (Session.receive_nil session).symm⟩

theorem Leads.append (first : client.Leads session handed between) (second : client.Leads between more after) :
    client.Leads session (handed ++ more) after := by
  obtain ⟨requests, logged, rfl⟩ := first
  obtain ⟨rest, later, rfl⟩ := second
  exact ⟨requests ++ rest, logged.append later, Session.receive_receive _ _ _⟩

theorem Takes.leads {dispatch : Dispatch} {requests : List Request}
    (takes : client.Takes session dispatch requests) : client.Leads session [dispatch] (session.receive requests) :=
  ⟨requests ++ [], .cons takes .nil, by rw [List.append_nil]⟩

theorem leads_send (client : Client) (session : Session) (sql : Text) :
    client.Leads session [.statement sql] ((client.send sql).on session).2 := by
  obtain ⟨requests, takes⟩ := client.exists_takes session (.statement sql)
  rw [takes.send]
  exact takes.leads

theorem streamSql_session (client : Client) (session : Session) (sql : Text) :
    ((client.streamSql sql).on session).2 = ((client.send sql).on session).2 := by
  rw [streamSql_eq, on_map]

theorem querySql_session (client : Client) (session : Session) (sql : Text) :
    ((client.querySql sql).on session).2 = ((client.send sql).on session).2 := by
  rw [querySql, bind_session fun stream after => by rw [on_ofExcept], streamSql_session]

theorem leads_querySql (client : Client) (session : Session) (sql : Text) :
    client.Leads session [.statement sql] ((client.querySql sql).on session).2 := by
  rw [querySql_session]
  exact client.leads_send session sql

theorem leads_job (dispatch : Dispatch) {address : Url} (job : dispatch.isStatement = false)
    (reached : Reachable session (dispatch.url client.config) address) :
    client.Leads session [dispatch] (session.receive [dispatch.request client address]) :=
  (Takes.once reached fun statement => absurd (job.symm.trans statement) Bool.false_ne_true).leads

theorem leads_looks {job : Text} {place : Url} (reached : Reachable session (client.config.jobStatusUrl job) place)
    (looks : Nat) : client.Leads session (List.replicate looks (.look job))
      (session.receive (List.replicate looks (client.look place))) := by
  induction looks generalizing session with
  | zero => exact ⟨[], .nil, rfl⟩
  | succ looks ih =>
    have first := leads_job (.look job) rfl reached
    have later := ih ((reachable_receive [client.look place]).mpr reached)
    rw [Session.receive_receive] at later
    exact first.append later

theorem JobRun.leads {sql : Text} {onSuccess onError : Option Text} {result : Except ClientError JobSummary}
    {requests : List Request} (run : client.JobRun sql onSuccess onError session result requests) :
    ∃ handed, client.JobHands session sql onSuccess onError handed ∧
      client.Leads session handed (session.receive requests) := by
  cases run with
  | unreachable lost =>
    exact ⟨_, .unreachable lost, (@Takes.lost _ _ (.submission sql onSuccess onError) lost).leads⟩
  | refused reached brings =>
    refine ⟨_, .unnamed reached ?_, leads_job (.submission sql onSuccess onError) rfl reached⟩
    exact fun document job other => nomatch brings.unique other
  | unnamed reached brings unnamed =>
    refine ⟨_, .unnamed reached ?_, leads_job (.submission sql onSuccess onError) rfl reached⟩
    intro document job other
    cases brings.unique other
    exact unnamed job
  | @looked address place document job looks result reached brings named found some going ends =>
    obtain ⟨other, again⟩ := reachable_jobStatus reached job
    obtain rfl := Option.some.inj (found.symm.trans again.1)
    have submitted := leads_job (.submission sql onSuccess onError) rfl reached
    have looked := leads_looks ((reachable_receive [client.submission sql onSuccess onError address]).mpr again) looks
    rw [Session.receive_receive] at looked
    exact ⟨_, .looked reached brings named some going ends.stopped, submitted.append looked⟩

theorem leads_executeSql (client : Client) (session : Session) (sql : Text) (options : ExecuteOptions) :
    ∃ handed, client.StatementHands session sql options handed ∧
      client.Leads session handed ((client.executeSql sql options).on session).2 := by
  cases batch : options.batch with
  | false =>
    rw [executeSql_direct batch, on_map]
    exact ⟨_, .direct batch, client.leads_querySql session sql⟩
  | true =>
    obtain ⟨result, requests, run⟩ := client.exists_jobRun sql options.onSuccess options.onError session
    obtain ⟨handed, hands, leads⟩ := run.leads
    rw [executeSql_batch batch, on_map, run.eq]
    exact ⟨handed, .job batch hands, leads⟩

theorem leads_execute [LocalZone] (client : Client) (session : Session) (operation : Operation)
    (options : ExecuteOptions) :
    ∃ handed, client.OperationHands session operation options handed ∧
      client.Leads session handed ((client.execute operation options).on session).2 := by
  cases written : operation.toSql client.config.zone with
  | error error =>
    rw [(client.refuses written session).2.2 options]
    exact ⟨[], .unwritten written, .nil client session⟩
  | ok sql =>
    obtain ⟨handed, main, leads⟩ := client.leads_executeSql session sql options
    rw [execute, on_written written, on_bind]
    rcases ended : (client.executeSql sql options).on session with ⟨error | execution, between⟩
    · rw [ended] at leads
      exact ⟨handed, .main written main, leads⟩
    rw [ended] at leads
    dsimp only
    rw [bind_session fun _ _ => rfl]
    cases created : operation.createdTable? with
    | none =>
      rw [finalize_none created]
      exact ⟨handed, .main written main, leads⟩
    | some table =>
      rw [finalize_some created]
      exact ⟨_, .registered written main created, leads.append (client.leads_querySql between (registration table))⟩

theorem query_session [LocalZone] (client : Client) (session : Session) (operation : Operation) :
    ((client.query operation).on session).2 = ((client.execute operation {}).on session).2 := by
  rw [execute_direct rfl, on_map]

theorem stream_session [LocalZone] (client : Client) (session : Session) (operation : Operation) :
    ((client.stream operation).on session).2 = ((client.query operation).on session).2 := by
  rw [← stream_collect, bind_session fun stream after => by rw [on_ofExcept]]

theorem behind_operation [LocalZone] {operation : Operation} {options : ExecuteOptions} {call : Call}
    (asked : call.operation? = some (operation, options)) (session : Session) :
    client.behind session call = ((client.execute operation options).on session).2 := by
  cases call with
  | execute =>
    cases asked
    rfl
  | query operation =>
    cases asked
    exact client.query_session session operation
  | stream operation =>
    cases asked
    exact (client.stream_session session operation).trans (client.query_session session operation)
  | hasTable table =>
    cases asked
    exact (bind_session (fun _ _ => rfl) _ session).trans (client.query_session session _)
  | hasColumn table column =>
    cases asked
    exact (bind_session (fun _ _ => rfl) _ session).trans (client.query_session session _)
  | streamSql | querySql | executeSql | load => cases asked

theorem leads_load [LocalZone] {table : Text} {trace : LoadTrace} {origin : Session}
    (performed : client.Performs table origin trace session) :
    ∃ handed, client.LoadHands table origin trace session handed ∧ client.Leads origin handed session := by
  induction performed with
  | nil => exact ⟨[], .nil, .nil client origin⟩
  | silent earlier nothing ih =>
    obtain ⟨handed, hands, leads⟩ := ih
    exact ⟨handed, .silent hands nothing, leads⟩
  | @sent trace session action operation earlier asked ih =>
    obtain ⟨handed, hands, leads⟩ := ih
    obtain ⟨more, asks, later⟩ := client.leads_execute session operation {}
    refine ⟨_, .sent hands asked asks, ?_⟩
    rw [query_session]
    exact leads.append later

theorem behind_statement [LocalZone] {sql : Text} {options : ExecuteOptions} {call : Call}
    (asked : call.statement? = some (sql, options)) (session : Session) :
    client.behind session call = ((client.executeSql sql options).on session).2 := by
  cases call with
  | executeSql =>
    cases asked
    rfl
  | querySql sql =>
    cases asked
    rw [executeSql_direct rfl, on_map]
    rfl
  | streamSql sql =>
    cases asked
    rw [executeSql_direct rfl, on_map]
    exact (client.streamSql_session session sql).trans (client.querySql_session session sql).symm
  | query | stream | execute | hasTable | hasColumn | load => cases asked

theorem leads_call [LocalZone] (client : Client) (session : Session) (call : Call) :
    ∃ handed, client.Hands session call handed ∧ client.Leads session handed (client.behind session call) := by
  obtain ⟨⟨sql, options⟩, asked⟩ | ⟨⟨operation, options⟩, asked⟩ | ⟨table, features, options, rfl⟩ := call.runs
  · obtain ⟨handed, hands, leads⟩ := client.leads_executeSql session sql options
    exact ⟨handed, .statement asked hands, behind_statement asked session ▸ leads⟩
  · obtain ⟨handed, hands, leads⟩ := client.leads_execute session operation options
    exact ⟨handed, .operation asked hands, behind_operation asked session ▸ leads⟩
  · obtain ⟨trace, finishes⟩ := client.load_finishes table features options session
    obtain ⟨handed, hands, leads⟩ := leads_load finishes.performed
    exact ⟨handed, .load finishes hands, leads⟩

theorem leads_calls [LocalZone] (client : Client) (session : Session) (calls : List Call) : ∃ handed,
    client.HandsAll session calls handed ∧ client.Leads session handed (calls.foldl client.behind session) := by
  induction calls generalizing session with
  | nil => exact ⟨[], .nil, .nil client session⟩
  | cons call calls ih =>
    obtain ⟨handed, hands, leads⟩ := client.leads_call session call
    obtain ⟨more, rest, later⟩ := ih (client.behind session call)
    exact ⟨handed ++ more, .cons hands rest, leads.append later⟩

end

/-- Whatever a client is called for, and whatever is answered, the log grows by what arrives of all that is
handed over, in its order: a statement once, and just if no answer to it has begun a second time, and what
belongs to a job once. No look at a job stands in for one that got no answer: each one behind the first
follows a reply that says that the job is in progress. Sending a statement fails without an answer if and only
if none begins or the body of a refusal breaks off, and otherwise with the refusal that arrives. What goes
wrong in an answer of success is the last item of its rows, and nothing is sent for it. -/
theorem sent_again_only_unanswered [LocalZone] (client : Client) :
    (∀ calls session, ∃ handed requests, client.HandsAll session calls handed ∧
      client.Logged session handed requests ∧ calls.foldl client.behind session = session.receive requests) ∧
    (∀ sql session result after, (client.send sql).on session = (result, after) ↔ client.Sent session result ∧
      ∃ requests, client.Takes session (.statement sql) requests ∧ after = session.receive requests) ∧
    (∀ sql session error after, (client.send sql).on session = (.error error, after) →
      (client.streamSql sql).on session = (.error error, after)) ∧
    ∀ sql session response after, (client.send sql).on session = (.ok response, after) →
      ∃ stream rows failure, (client.streamSql sql).on session = (.ok stream, after) ∧
        stream.status = response.status ∧ stream.headers = response.headers ∧
        stream.items = rows.map .ok ++ failure.toList.map .error ∧
        (failure = none ↔ Complete response rows) := by
  refine ⟨fun calls session => ?_, fun _ _ _ _ => send_on_iff, fun _ _ _ _ => streamSql_refused,
    fun _ _ _ _ => streamSql_accepted⟩
  obtain ⟨handed, hands, requests, logged, moved⟩ := client.leads_calls session calls
  exact ⟨handed, requests, hands, logged, moved⟩

end Client

end LiteralSql
