import LiteralSql.Proofs.Client.Polling

/-! How statements, and what runs them as jobs, are sent.

A statement is sent again if no answer to it has begun, and never otherwise.
Neither the submission of a job nor a look at it is sent again.
-/

set_option autoImplicit false

namespace LiteralSql

open Exchange

/-- The reply that answers a statement: the first one of two that begins. -/
inductive Link.Answers (link : Link) : Reply → Prop
  | first (began : link.reply ≠ .dropped) : Answers link link.reply
  | second (dropped : link.reply = .dropped) (began : (link.skip 1).reply ≠ .dropped) : Answers link (link.skip 1).reply

def Link.Silent (link : Link) : Prop := link.reply = .dropped ∧ (link.skip 1).reply = .dropped

section
variable {link : Link} {reply : Reply}

theorem responseOf?_eq_none_iff : responseOf? reply = none ↔ reply = .dropped := by
  cases reply with
  | dropped => exact iff_of_true rfl rfl
  | complete | broken => exact iff_of_false nofun nofun

theorem Link.answers_or_silent (link : Link) : (∃ reply, link.Answers reply) ∨ link.Silent := by
  by_cases dropped : link.reply = .dropped
  · by_cases again : (link.skip 1).reply = .dropped
    · exact .inr ⟨dropped, again⟩
    · exact .inl ⟨_, .second dropped again⟩
  · exact .inl ⟨_, .first dropped⟩

theorem Link.Answers.began (answers : link.Answers reply) : reply ≠ .dropped := by
  cases answers with
  | first began => exact began
  | second dropped began => exact began

theorem Link.Answers.answer? (answers : link.Answers reply) : Exchange.answer? link = responseOf? reply := by
  cases answers with
  | first began =>
    obtain ⟨response, found⟩ := Option.ne_none_iff_exists'.mp (mt responseOf?_eq_none_iff.mp began)
    rw [Exchange.answer?, found, Option.some_or]
  | second dropped began => rw [Exchange.answer?, responseOf?_eq_none_iff.mpr dropped, Option.none_or]

theorem Link.Silent.answer? (silent : link.Silent) : Exchange.answer? link = none := by
  rw [Exchange.answer?, silent.1, silent.2]
  rfl

end

inductive Dispatch
  | statement (sql : Text)
  | submission (sql : Text) (onSuccess onError : Option Text)
  | look (job : Text)

namespace Dispatch

def isStatement : Dispatch → Bool
  | .statement _ => true
  | _ => false

def url (config : Config) : Dispatch → Text
  | .statement _ => config.sqlUrl
  | .submission _ _ _ => config.jobUrl
  | .look job => config.jobStatusUrl job

def request (client : Client) : Dispatch → Url → Request
  | .statement sql => client.statementRequest sql
  | .submission sql onSuccess onError => client.submission sql onSuccess onError
  | .look _ => client.look

end Dispatch

namespace Client

def send (client : Client) (sql : Text) : Exchange Response :=
  postForm client.config.sqlUrl [("api_key".toList, client.config.apiKey), ("q".toList, sql)]

/-- What arrives at the other side for what is handed over: nothing if it cannot be reached, and a statement
twice just if its first reply is none. -/
inductive Takes (client : Client) (session : Session) : Dispatch → List Request → Prop
  | lost {dispatch : Dispatch} (lost : ∀ address, ¬ Reachable session (dispatch.url client.config) address) :
      Takes client session dispatch []
  | once {dispatch : Dispatch} {address : Url} (reached : Reachable session (dispatch.url client.config) address)
      (once : dispatch.isStatement = true → session.link.reply ≠ .dropped) :
      Takes client session dispatch [dispatch.request client address]
  | twice {dispatch : Dispatch} {address : Url} (reached : Reachable session (dispatch.url client.config) address)
      (statement : dispatch.isStatement = true) (dropped : session.link.reply = .dropped) :
      Takes client session dispatch [dispatch.request client address, dispatch.request client address]

/-- How sending a statement ends. -/
inductive Sent (client : Client) (session : Session) : Except ClientError Response → Prop
  | lost (lost : ∀ address, ¬ Reachable session client.config.sqlUrl address) : Sent client session (.error .transport)
  | silent {address : Url} (reached : Reachable session client.config.sqlUrl address) (silent : session.link.Silent) :
      Sent client session (.error .transport)
  | refused {address : Url} {reply : Reply} {error : ClientError}
      (reached : Reachable session client.config.sqlUrl address) (answers : session.link.Answers reply)
      (refused : reply.Refused error) : Sent client session (.error error)
  | accepted {address : Url} {reply : Reply} {response : Response}
      (reached : Reachable session client.config.sqlUrl address) (answers : session.link.Answers reply)
      (began : responseOf? reply = some response) (success : isSuccess response.status = true) :
      Sent client session (.ok response)

/-- What is handed over one behind the other, and what arrives of it. -/
inductive Logged (client : Client) : Session → List Dispatch → List Request → Prop
  | nil {session : Session} : Logged client session [] []
  | cons {session : Session} {dispatch : Dispatch} {handed : List Dispatch} {requests more : List Request}
      (takes : client.Takes session dispatch requests) (rest : Logged client (session.receive requests) handed more) :
      Logged client session (dispatch :: handed) (requests ++ more)

section
variable {client : Client} {session : Session} {sql : Text} {address : Url} {dispatch : Dispatch}
  {requests : List Request}

theorem send_reached (reached : Reachable session client.config.sqlUrl address) : (client.send sql).on session =
    ((answer? session.link).elim (.error .transport) checkStatus,
      session.receive (attempts (client.statementRequest sql address) session.link.reply)) := by
  rw [send, postForm, on_bind_ok reached.parsed]
  change (sendTwice address.authority (client.statementRequest sql address) >>= _).on session = _
  rw [on_bind, sendTwice_reached reached.2]
  cases answer? session.link with
  | none => rfl
  | some response => exact on_ofExcept _ _

theorem send_unreached (lost : ∀ address, ¬ Reachable session client.config.sqlUrl address) :
    (client.send sql).on session = (.error .transport, session) := by
  rw [send, postForm, on_bind, parseUrl_on]
  cases found : Url.ofText? client.config.sqlUrl with
  | none => rfl
  | some address =>
    have unreached : ¬ session.link.Reaches address.authority := fun reached => lost address ⟨found, reached⟩
    exact (on_bind _ _ session).trans (by rw [sendTwice_unreached unreached])

theorem attempts_began {request : Request} {reply : Reply} (began : reply ≠ .dropped) :
    attempts request reply = [request] := by
  obtain ⟨response, found⟩ := Option.ne_none_iff_exists'.mp (mt responseOf?_eq_none_iff.mp began)
  rw [attempts, found]

theorem Takes.send (takes : client.Takes session (.statement sql) requests) :
    ((client.send sql).on session).2 = session.receive requests := by
  cases takes with
  | lost lost => rw [send_unreached lost, Session.receive_nil]
  | once reached once =>
    rw [send_reached reached, attempts_began (once rfl)]
    rfl
  | twice reached statement dropped =>
    rw [send_reached reached, dropped]
    rfl

theorem Sent.send {result : Except ClientError Response} (sent : client.Sent session result) (sql : Text) :
    ((client.send sql).on session).1 = result := by
  cases sent with
  | lost lost => rw [send_unreached lost]
  | silent reached silent =>
    rw [send_reached reached, silent.answer?]
    rfl
  | refused reached answers refused =>
    obtain ⟨response, began, refused⟩ := refused.response
    rw [send_reached reached, answers.answer?, began]
    exact refused
  | accepted reached answers began success =>
    rw [send_reached reached, answers.answer?, began]
    exact checkStatus_success success

theorem exists_takes (client : Client) (session : Session) (dispatch : Dispatch) :
    ∃ requests, client.Takes session dispatch requests := by
  by_cases reached : ∃ address, Reachable session (dispatch.url client.config) address
  · obtain ⟨address, reached⟩ := reached
    by_cases again : dispatch.isStatement = true ∧ session.link.reply = .dropped
    · exact ⟨_, .twice reached again.1 again.2⟩
    · exact ⟨_, .once reached fun statement dropped => again ⟨statement, dropped⟩⟩
  · exact ⟨_, .lost (not_exists.mp reached)⟩

theorem exists_sent (client : Client) (session : Session) : ∃ result, client.Sent session result := by
  by_cases reached : ∃ address, Reachable session client.config.sqlUrl address
  · obtain ⟨address, reached⟩ := reached
    obtain ⟨reply, answers⟩ | silent := session.link.answers_or_silent
    · obtain ⟨error, refused⟩ | ⟨response, began, success⟩ := Reply.refused_or_success answers.began
      · exact ⟨_, .refused reached answers refused⟩
      · exact ⟨_, .accepted reached answers began success⟩
    · exact ⟨_, .silent reached silent⟩
  · exact ⟨_, .lost (not_exists.mp reached)⟩

theorem send_on_iff {result : Except ClientError Response} {after : Session} :
    (client.send sql).on session = (result, after) ↔ client.Sent session result ∧
      ∃ requests, client.Takes session (.statement sql) requests ∧ after = session.receive requests := by
  constructor
  · intro ended
    obtain ⟨other, sent⟩ := client.exists_sent session
    obtain ⟨requests, takes⟩ := client.exists_takes session (.statement sql)
    obtain rfl : other = result := by rw [← sent.send sql, ended]
    exact ⟨sent, requests, takes, by rw [← takes.send, ended]⟩
  · rintro ⟨sent, requests, takes, rfl⟩
    exact Prod.ext (sent.send sql) takes.send

theorem streamSql_eq (client : Client) (sql : Text) : client.streamSql sql =
    (fun response => ⟨response.status, response.headers, RowScanner.items {} response.body⟩) <$>
      client.send sql := by
  rw [map_eq_pure_bind]
  rfl

/-- Of an answer of success all that goes wrong is the last item of the stream. -/
theorem streamSql_accepted {response : Response} {after : Session}
    (sent : (client.send sql).on session = (.ok response, after)) : ∃ stream rows failure,
      (client.streamSql sql).on session = (.ok stream, after) ∧ stream.status = response.status ∧
      stream.headers = response.headers ∧ stream.items = rows.map .ok ++ failure.toList.map .error ∧
      (failure = none ↔ Complete response rows) := by
  have success : isSuccess response.status = true := by
    cases (send_on_iff.mp sent).1 with
    | accepted reached answers began success => exact success
  refine ⟨⟨response.status, response.headers, RowScanner.items {} response.body⟩,
    (RowScanner.feed {} response.body.bytes).1.ready,
    RowScanner.ending response.body.failure? (RowScanner.feed {} response.body.bytes), ?_, rfl, rfl,
    RowScanner.items_eq {} response.body, ?_⟩
  · rw [streamSql_eq, on_map, sent]
    rfl
  · rw [RowScanner.ending_eq_none_iff]
    constructor
    · rintro ⟨unbroken, accepted, finished⟩
      exact ⟨success, unbroken, _, Prod.ext rfl accepted, finished, rfl⟩
    · rintro ⟨-, unbroken, last, fed, finished, -⟩
      rw [fed]
      exact ⟨unbroken, rfl, finished⟩

theorem streamSql_refused {error : ClientError} {after : Session}
    (sent : (client.send sql).on session = (.error error, after)) :
    (client.streamSql sql).on session = (.error error, after) := by
  rw [streamSql_eq, on_map, sent]
  rfl

end

end Client

end LiteralSql
