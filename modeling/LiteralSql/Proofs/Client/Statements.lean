import LiteralSql.Proofs.Client.Requests
import LiteralSql.Proofs.Rows.Cutting

/-! Statements that are run directly, and what has to be answered for them to succeed. -/

set_option autoImplicit false

namespace LiteralSql

namespace Exchange

variable {response : Response}

def rowsOf (response : Response) : Except ClientError (List Row) := do
  let checked ← checkStatus response
  RowStream.collect (RowScanner.items {} checked.body)

theorem checkStatus_success (success : isSuccess response.status = true) : checkStatus response = .ok response := by
  rw [checkStatus, if_pos success]

theorem checkStatus_failure (failure : isSuccess response.status = false) :
    ∃ error, checkStatus response = .error error := by
  rw [checkStatus, if_neg (Bool.not_eq_true _ ▸ failure)]
  cases wholeBody response.body with
  | error error => exact ⟨error, rfl⟩
  | ok bytes => exact ⟨_, rfl⟩

/-- A status of success, and a body that does not break off and that is a whole document with these rows. -/
structure Complete (response : Response) (rows : List Row) : Prop where
  success : isSuccess response.status = true
  unbroken : response.body.failure? = none
  decoded : ∃ last, RowScanner.feed {} response.body.bytes = (last, none) ∧ last.finish = none ∧ last.ready = rows

theorem rowsOf_eq_ok_iff {rows : List Row} : rowsOf response = .ok rows ↔ Complete response rows := by
  cases success : isSuccess response.status with
  | false =>
    obtain ⟨error, refused⟩ := checkStatus_failure success
    rw [rowsOf, refused]
    exact iff_of_false nofun fun complete => Bool.false_ne_true (success.symm.trans complete.success)
  | true =>
    have read : rowsOf response = RowStream.collect (RowScanner.items {} response.body) := by
      rw [rowsOf, checkStatus_success success]
      rfl
    rw [read, RowScanner.items_eq, RowStream.collect_items]
    constructor
    · intro collected
      cases ended : RowScanner.ending response.body.failure? (RowScanner.feed {} response.body.bytes) with
      | some error =>
        rw [ended] at collected
        cases collected
      | none =>
        obtain ⟨unbroken, accepted, finished⟩ := RowScanner.ending_eq_none_iff.mp ended
        rw [ended] at collected
        exact ⟨success, unbroken, _, Prod.ext rfl accepted, finished, Except.ok.inj collected⟩
    · rintro ⟨-, unbroken, last, fed, finished, rfl⟩
      have ended : RowScanner.ending response.body.failure? (RowScanner.feed {} response.body.bytes) = none := by
        rw [RowScanner.ending_eq_none_iff, fed]
        exact ⟨unbroken, rfl, finished⟩
      rw [ended, fed]

end Exchange

namespace Client

open Exchange

variable {client : Client} {session : Session} {address : Url}

def statementRequest (client : Client) (sql : Text) (address : Url) : Request :=
  ⟨.post, address.target, some "application/x-www-form-urlencoded".toList,
    Form.encode [("api_key".toList, client.config.apiKey), ("q".toList, sql)]⟩

theorem querySql_eq (client : Client) (sql : Text) : client.querySql sql = (do
    let address ← parseUrl client.config.sqlUrl
    let response ← sendTwice address.authority (client.statementRequest sql address)
    ofExcept (rowsOf response)) := by
  rw [querySql, streamSql, postForm]
  simp only [bind_assoc, pure_bind]
  refine bind_congr fun address => bind_congr fun response => ?_
  rw [rowsOf]
  cases checkStatus response <;> rfl

theorem querySql_reached (reached : Reachable session client.config.sqlUrl address) (sql : Text) :
    (client.querySql sql).on session = ((answer? session.link).elim (.error .transport) rowsOf,
      session.receive (attempts (client.statementRequest sql address) session.link.reply)) := by
  rw [querySql_eq, on_bind_ok reached.parsed, on_bind, sendTwice_reached reached.2]
  cases answer? session.link with
  | none => rfl
  | some response => exact on_ofExcept _ _

theorem querySql_unreached (lost : ∀ address, ¬ Reachable session client.config.sqlUrl address) (sql : Text) :
    (client.querySql sql).on session = (.error .transport, session) := by
  rw [querySql_eq, on_bind, parseUrl_on]
  cases found : Url.ofText? client.config.sqlUrl with
  | none => rfl
  | some address =>
    have unreached : ¬ session.link.Reaches address.authority := fun reached => lost address ⟨found, reached⟩
    exact (on_bind _ _ session).trans (by rw [sendTwice_unreached unreached])

theorem forward_querySql (client : Client) (sql : Text) : Forward (client.querySql sql) := by
  intro session
  by_cases reached : ∃ address, Reachable session client.config.sqlUrl address
  · obtain ⟨address, reached⟩ := reached
    exact ⟨_, by rw [querySql_reached reached]⟩
  · exact ⟨[], by rw [querySql_unreached (not_exists.mp reached), Session.receive_nil]⟩

def Answered (client : Client) (sql : Text) (session : Session) (rows : List Row) (after : Session) : Prop :=
  ∃ address response, Reachable session client.config.sqlUrl address ∧
    answer? session.link = some response ∧ Complete response rows ∧
    after = session.receive (attempts (client.statementRequest sql address) session.link.reply)

theorem querySql_eq_ok_iff {sql : Text} {rows : List Row} {after : Session} :
    (client.querySql sql).on session = (.ok rows, after) ↔ client.Answered sql session rows after := by
  by_cases reached : ∃ address, Reachable session client.config.sqlUrl address
  · obtain ⟨address, reached⟩ := reached
    rw [querySql_reached reached, Prod.mk.injEq]
    constructor
    · rintro ⟨read, rfl⟩
      cases began : answer? session.link with
      | none =>
        rw [began] at read
        cases read
      | some response =>
        rw [began] at read
        exact ⟨address, response, reached, began, rowsOf_eq_ok_iff.mp read, rfl⟩
    · rintro ⟨other, response, again, began, complete, rfl⟩
      obtain rfl := Option.some.inj (reached.1.symm.trans again.1)
      rw [began]
      exact ⟨rowsOf_eq_ok_iff.mpr complete, rfl⟩
  · rw [querySql_unreached (not_exists.mp reached)]
    exact iff_of_false nofun fun ⟨address, _, again, _⟩ => reached ⟨address, again⟩

def registration (table : Text) : Text := "select cdb_cartodbfytable(".toList ++ Identifier.quoteLiteral table ++ [')']

theorem finalize_none {operation : Operation} (none : operation.createdTable? = none) (session : Session) :
    (client.finalize operation).on session = (.ok (), session) := by
  rw [finalize, none]
  rfl

theorem finalize_some {operation : Operation} {table : Text} (some : operation.createdTable? = some table)
    (session : Session) : (client.finalize operation).on session =
      (((client.querySql (registration table)).on session).1.map fun _ => (),
        ((client.querySql (registration table)).on session).2) := by
  rw [finalize, some]
  exact on_map _ _ session

end Client

end LiteralSql
