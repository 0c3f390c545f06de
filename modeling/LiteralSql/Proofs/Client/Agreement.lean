import LiteralSql.Proofs.Client.Endpoint
import LiteralSql.Proofs.Client.Jobs
import LiteralSql.Proofs.Client.Statements

/-! The ways to run an operation agree.

Each of them is the main statement of the operation and then, if that has
succeeded, the registration of the table that it creates.
-/

set_option autoImplicit false

namespace LiteralSql

namespace Client

open Exchange

variable {client : Client} {operation : Operation} {session after : Session}

/-- A statement succeeds: it is answered completely, or its job is done. -/
def Succeeds (client : Client) (sql : Text) (options : ExecuteOptions) (session : Session) :
    Execution → Session → Prop
  | .rows rows, after => options.batch = false ∧ client.Answered sql session rows after
  | .job summary, after =>
    options.batch = true ∧ client.Ran sql options.onSuccess options.onError session summary after

theorem executeSql_direct {options : ExecuteOptions} (direct : options.batch = false) (sql : Text) :
    client.executeSql sql options = Execution.rows <$> client.querySql sql := by
  rw [executeSql, direct]
  rfl

theorem executeSql_batch {options : ExecuteOptions} (batch : options.batch = true) (sql : Text) :
    client.executeSql sql options = Execution.job <$> client.runJob sql options.onSuccess options.onError := by
  rw [executeSql, batch]
  rfl

theorem executeSql_eq_ok_iff {sql : Text} {options : ExecuteOptions} {execution : Execution} :
    (client.executeSql sql options).on session = (.ok execution, after) ↔
      client.Succeeds sql options session execution after := by
  cases batch : options.batch with
  | false =>
    rw [executeSql_direct batch, map_eq_ok_iff]
    cases execution <;> simp [Succeeds, batch, querySql_eq_ok_iff]
  | true =>
    rw [executeSql_batch batch, map_eq_ok_iff]
    cases execution <;> simp [Succeeds, batch, runJob_eq_ok_iff]

theorem forward_executeSql (client : Client) (sql : Text) (options : ExecuteOptions) :
    Forward (client.executeSql sql options) := by
  cases batch : options.batch with
  | false =>
    rw [executeSql_direct batch]
    exact (forward_querySql client sql).map _
  | true =>
    rw [executeSql_batch batch]
    exact (forward_runJob client sql _ _).map _

theorem reachable_of_job {address : Url} (reached : Reachable session client.config.jobUrl address) :
    ∃ endpoint, Reachable session client.config.sqlUrl endpoint := by
  have same := client.config.authority_jobUrl
  rw [reached.1, Option.map_some] at same
  obtain ⟨endpoint, found, authority⟩ := Option.map_eq_some_iff.mp same.symm
  exact ⟨endpoint, found, authority ▸ reached.2⟩

theorem Succeeds.reachable {sql : Text} {options : ExecuteOptions} {execution : Execution}
    (succeeds : client.Succeeds sql options session execution after) :
    ∃ address, Reachable after client.config.sqlUrl address := by
  have reached : ∃ address, Reachable session client.config.sqlUrl address := by
    cases execution with
    | rows rows =>
      obtain ⟨-, address, response, reached, -⟩ := succeeds
      exact ⟨address, reached⟩
    | job summary =>
      obtain ⟨-, submitted, between, posted, -⟩ := succeeds
      obtain ⟨address, reached⟩ := reachable_of_askDocument posted
      exact reachable_of_job reached
  obtain ⟨requests, moved⟩ := forward_executeSql client sql options session
  rw [executeSql_eq_ok_iff.mpr succeeds] at moved
  obtain rfl : after = session.receive requests := moved
  obtain ⟨address, reached⟩ := reached
  exact ⟨address, (reachable_receive requests).mpr reached⟩

/-- How a run goes on behind its main statement: if that has succeeded, the table that the operation
creates is registered, and otherwise nothing is sent. If the registration fails, the run fails with it. -/
structure Concludes {α : Type} (client : Client) (operation : Operation)
    (main ended : Except ClientError α × Session) : Prop where
  requests : ∃ finals, ended.2 = main.2.receive finals ∧
    (finals ≠ [] ↔ operation.createdTable?.isSome = true ∧ main.1.isOk = true) ∧
    ∀ request ∈ finals, ∃ table address, operation.createdTable? = some table ∧
      Url.ofText? client.config.sqlUrl = some address ∧
      request = client.statementRequest (registration table) address
  result : ended.1 = do
    let value ← main.1
    ((client.finalize operation).on main.2).1
    .ok value

theorem finalize_on (client : Client) (operation : Operation) {address : Url}
    (reached : Reachable session client.config.sqlUrl address) :
    ∃ finals, ((client.finalize operation).on session).2 = session.receive finals ∧
      (finals ≠ [] ↔ operation.createdTable?.isSome = true) ∧
      ∀ request ∈ finals, ∃ table, operation.createdTable? = some table ∧
        request = client.statementRequest (registration table) address := by
  cases created : operation.createdTable? with
  | none =>
    refine ⟨[], ?_, iff_of_false (not_not_intro rfl) nofun, nofun⟩
    rw [finalize_none created, Session.receive_nil]
  | some table =>
    refine ⟨attempts (client.statementRequest (registration table) address) session.link.reply, ?_,
      iff_of_true (attempts_ne_nil _ _) rfl, fun request member => ⟨table, rfl, eq_of_mem_attempts member⟩⟩
    rw [finalize_some created, querySql_reached reached]

theorem concludes {α : Type} (main : Exchange α) (operation : Operation)
    (lands : ∀ value after, main.on session = (.ok value, after) →
      ∃ address, Reachable after client.config.sqlUrl address) :
    client.Concludes operation (main.on session) ((do
      let value ← main
      client.finalize operation
      return value : Exchange α).on session) := by
  rw [on_bind]
  rcases ended : main.on session with ⟨error | value, between⟩
  · exact ⟨⟨[], (Session.receive_nil _).symm, iff_of_false (not_not_intro rfl) nofun, nofun⟩, rfl⟩
  · obtain ⟨address, reached⟩ := lands value between ended
    obtain ⟨finals, moved, some, each⟩ := finalize_on client operation reached
    dsimp only
    rw [on_bind]
    have registered : ∀ request ∈ finals, ∃ table address, operation.createdTable? = Option.some table ∧
        Url.ofText? client.config.sqlUrl = Option.some address ∧
        request = client.statementRequest (registration table) address := by
      intro request member
      obtain ⟨table, created, same⟩ := each request member
      exact ⟨table, address, created, reached.1, same⟩
    -- Whether or not it fails, the registration has been sent.
    rcases final : (client.finalize operation).on between with ⟨error | ⟨⟩, after⟩
    · rw [final] at moved
      exact ⟨⟨finals, moved, some.trans (and_iff_left rfl).symm, registered⟩, by rw [final]; rfl⟩
    · rw [final] at moved
      exact ⟨⟨finals, moved, some.trans (and_iff_left rfl).symm, registered⟩, by rw [final]; rfl⟩

theorem refuses [LocalZone] (client : Client) {error : SqlError}
    (refused : operation.toSql client.config.zone = .error error)
    (session : Session) : (client.query operation).on session = (.error (.sql error), session) ∧
      (client.stream operation).on session = (.error (.sql error), session) ∧
      ∀ options, (client.execute operation options).on session = (.error (.sql error), session) := by
  have unwritten : (ofExcept (client.toSql operation) : Exchange Text).on session = (.error (.sql error), session) := by
    rw [on_ofExcept, toSql, refused]
    rfl
  refine ⟨?_, ?_, fun options => ?_⟩
  · rw [query, on_bind, unwritten]
  · rw [stream, on_bind, unwritten]
  · rw [execute, on_bind, unwritten]

theorem on_written [LocalZone] {α : Type} {sql : Text} (written : operation.toSql client.config.zone = .ok sql)
    (next : Text → Exchange α) (session : Session) :
    (ofExcept (client.toSql operation) >>= next).on session = (next sql).on session := by
  refine on_bind_ok ?_ next
  rw [on_ofExcept, toSql, written]
  rfl

theorem execute_direct [LocalZone] {options : ExecuteOptions} (direct : options.batch = false) :
    client.execute operation options = Execution.rows <$> client.query operation := by
  rw [execute, query]
  simp only [executeSql_direct direct, map_bind, bind_map_left, map_pure]

theorem buffered_eq (stream : RowStream) : stream.buffered =
    (RowStream.collect stream.items).map fun rows => { stream with items := rows.map .ok } := by
  rw [RowStream.buffered]
  cases RowStream.collect stream.items <;> rfl

theorem collect_held (rows : List Row) : RowStream.collect (rows.map .ok) = .ok rows := by
  have held := RowStream.collect_items rows none
  rwa [Option.toList_none, List.map_nil, List.append_nil] at held

theorem stream_collect [LocalZone] (client : Client) (operation : Operation) : (do
    let stream ← client.stream operation
    ofExcept (RowStream.collect stream.items)) = client.query operation := by
  rw [stream, query]
  simp only [querySql, bind_assoc]
  refine bind_congr fun sql => bind_congr fun rows => ?_
  cases created : operation.createdTable? with
  | none =>
    have idle : client.finalize operation = pure () := by rw [finalize, created]
    simp only [idle, pure_bind, bind_pure]
  | some table =>
    rw [buffered_eq]
    cases RowStream.collect rows.items with
    | error error => rfl
    | ok held =>
      change ((do
        client.finalize operation
        return { rows with items := held.map .ok }) >>= fun stream => ofExcept (RowStream.collect stream.items)) = _
      simp only [bind_assoc, pure_bind, collect_held]
      rfl

theorem stream_held [LocalZone] {table sql : Text} (created : operation.createdTable? = some table)
    (written : operation.toSql client.config.zone = .ok sql) {stream : RowStream}
    (ended : (client.stream operation).on session = (.ok stream, after)) :
    ∃ rows between, client.Answered sql session rows between ∧
      (client.finalize operation).on between = (.ok (), after) ∧ stream.items = rows.map .ok := by
  rw [Client.stream, on_written written, on_bind] at ended
  rcases begun : (client.streamSql sql).on session with ⟨error | answer, between⟩
  · rw [begun] at ended
    cases ended
  rw [begun, created] at ended
  dsimp only at ended
  rw [on_bind, on_ofExcept, buffered_eq] at ended
  cases collected : RowStream.collect answer.items with
  | error error =>
    rw [collected] at ended
    cases ended
  | ok rows =>
    have answered : (client.querySql sql).on session = (.ok rows, between) := by
      rw [querySql, on_bind_ok begun, on_ofExcept, collected]
    rw [collected] at ended
    dsimp only [Except.map] at ended
    rw [on_bind] at ended
    rcases final : (client.finalize operation).on between with ⟨error | ⟨⟩, last⟩
    · rw [final] at ended
      cases ended
    · rw [final] at ended
      cases ended
      exact ⟨rows, between, querySql_eq_ok_iff.mp answered, final, rfl⟩

theorem toSql_eq_error [LocalZone] {error : SqlError} (refused : operation.compile = .error error ∨
    ∃ statements, operation.compile = .ok statements ∧
      materializeAll statements client.config.zone operation.envelope = .error error) :
    operation.toSql client.config.zone = .error error := by
  obtain refused | ⟨statements, compiled, refused⟩ := refused
  · rw [Operation.toSql, refused]
    rfl
  · rw [Operation.toSql, compiled]
    exact refused

/-- A query, a stream whose rows are all read and a direct execution are the same steps: they send
the same requests and end the same. What cannot be compiled or written out sends nothing.
Otherwise a run sends what its main statement takes, which succeeds just if it is answered
completely or if its job is done, and then, just if that has succeeded, what registers the table
that the operation creates. A stream hands out no row of such an operation before. -/
theorem ways_agree [LocalZone] (client : Client) (operation : Operation) :
    (do
      let stream ← client.stream operation
      ofExcept (RowStream.collect stream.items)) = client.query operation ∧
    (∀ options : ExecuteOptions, options.batch = false →
      client.execute operation options = Execution.rows <$> client.query operation) ∧
    (∀ error session, (operation.compile = .error error ∨ ∃ statements, operation.compile = .ok statements ∧
        materializeAll statements client.config.zone operation.envelope = .error error) →
      (client.query operation).on session = (.error (.sql error), session) ∧
      (client.stream operation).on session = (.error (.sql error), session) ∧
      ∀ options, (client.execute operation options).on session = (.error (.sql error), session)) ∧
    ∀ sql session, operation.toSql client.config.zone = .ok sql →
      (∀ options,
        (∃ requests, ((client.executeSql sql options).on session).2 = session.receive requests) ∧
        (∀ execution after, (client.executeSql sql options).on session = (.ok execution, after) ↔
          client.Succeeds sql options session execution after) ∧
        client.Concludes operation ((client.executeSql sql options).on session)
          ((client.execute operation options).on session)) ∧
      ∀ table stream after, operation.createdTable? = some table →
        (client.stream operation).on session = (.ok stream, after) →
        ∃ rows between, client.Answered sql session rows between ∧
          (client.finalize operation).on between = (.ok (), after) ∧ stream.items = rows.map .ok := by
  refine ⟨stream_collect client operation, fun options => execute_direct, fun error session refused =>
    refuses client (toSql_eq_error refused) session, fun sql session written => ⟨fun options =>
    ⟨forward_executeSql client sql options session, fun execution after => executeSql_eq_ok_iff, ?_⟩,
    fun table stream after created => stream_held created written⟩⟩
  rw [execute, on_written written]
  exact concludes _ operation fun execution after ended => (executeSql_eq_ok_iff.mp ended).reachable

def places : Client := ⟨Config.ofUrl "http://h".toList "k".toList⟩

def createPlaces : Operation := .schema [.table ⟨"places".toList, .create, [], [], [], none⟩]

def brokenRegistration : Session :=
  ⟨.scripted "h".toList [.complete 200 (Utf8.encode "\x7b\"rows\":[\x7b\x7d]\x7d".toList), .broken []], []⟩

theorem ways_agree_broken_registration : ∃ sql finals, createPlaces.toSql places.config.zone = .ok sql ∧ finals ≠ [] ∧
    ((places.execute createPlaces {}).on brokenRegistration).2 =
      ((places.executeSql sql {}).on brokenRegistration).2.receive finals ∧
    ((places.executeSql sql {}).on brokenRegistration).1.isOk = true ∧
    ((places.execute createPlaces {}).on brokenRegistration).1.isOk = false := by
  have written : createPlaces.toSql places.config.zone =
      .ok "BEGIN;\ncreate table \"places\" ();\nCOMMIT;".toList := rfl
  obtain ⟨-, -, -, runs⟩ := ways_agree places createPlaces
  obtain ⟨-, -, concluded⟩ := (runs _ brokenRegistration written).1 {}
  obtain ⟨finals, moved, some, -⟩ := concluded.requests
  have succeeds : ((places.executeSql "BEGIN;\ncreate table \"places\" ();\nCOMMIT;".toList {}).on
      brokenRegistration).1.isOk = true := by decide +kernel
  exact ⟨_, finals, written, some.mpr ⟨rfl, succeeds⟩, moved, succeeds, by decide +kernel⟩

end Client

end LiteralSql
