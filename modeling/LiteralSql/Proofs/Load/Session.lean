import LiteralSql.Client
import LiteralSql.Proofs.Load.Trace

/-! A client that loads features feeds the machine of the load.

Whatever the other side answers, what the client returns is what a run of the
machine returns, and its queries are those of the trace of that run.
-/

set_option autoImplicit false

namespace LiteralSql

namespace Exchange

variable {α β : Type}

def on (steps : Exchange α) (session : Session) : Except ClientError α × Session :=
  (steps.run : StateM Session (Except ClientError α)).run session

theorem on_ofExcept (result : Except ClientError α) (session : Session) :
    (ofExcept result : Exchange α).on session = (result, session) := by
  cases result <;> rfl

theorem on_bind (steps : Exchange α) (next : α → Exchange β) (session : Session) :
    (steps >>= next).on session = match steps.on session with
      | (.ok value, after) => (next value).on after
      | (.error error, after) => (.error error, after) := by
  change (ExceptT.bindCont next (steps.on session).1 : StateM Session _) (steps.on session).2 = _
  rcases steps.on session with ⟨error | value, after⟩
  · rfl
  · rfl

theorem on_bind_ok {steps : Exchange α} {session after : Session} {value : α}
    (ended : steps.on session = (.ok value, after)) (next : α → Exchange β) :
    (steps >>= next).on session = (next value).on after := by
  rw [on_bind, ended]

end Exchange

def LoadAction.query? (table : Text) : LoadAction → Option (Operation × Except ClientError Unit)
  | .created feature outcome => some (.schema (feature.schema table), outcome)
  | .settled chunk outcome => some (.insert ⟨table, chunk⟩, outcome)
  | _ => none

namespace Client

open Exchange

def queryOutcome [LocalZone] (client : Client) (operation : Operation) (session : Session) :
    Except ClientError Unit :=
  ((client.query operation).on session).1.map fun _ => ()

/-- The queries of a trace, one after the other, end as the trace says and lead to this session. -/
inductive Performs [LocalZone] (client : Client) (table : Text) (origin : Session) : LoadTrace → Session → Prop
  | nil : Performs client table origin [] origin
  | silent {trace : LoadTrace} {session : Session} {action : LoadAction}
      (earlier : Performs client table origin trace session) (nothing : action.query? table = none) :
      Performs client table origin (trace ++ [action]) session
  | sent {trace : LoadTrace} {session : Session} {action : LoadAction} {operation : Operation}
      (earlier : Performs client table origin trace session)
      (asked : action.query? table = some (operation, client.queryOutcome operation session)) :
      Performs client table origin (trace ++ [action]) ((client.query operation).on session).2

section
variable {client : Client} {table : Text} {origin session : Session} {trace : LoadTrace}

theorem Performs.dispatched [LocalZone] (performed : client.Performs table origin trace session)
    (chunks : List Chunk) :
    client.Performs table origin (trace ++ chunks.map .dispatched) session := by
  induction chunks generalizing trace with
  | nil => rwa [List.map_nil, List.append_nil]
  | cons chunk rest ih =>
    rw [List.map_cons, List.append_cons]
    exact ih (performed.silent rfl)

/-- Asking the input performs what is done in that event, apart from chunks that go under way. -/
theorem Performs.createTable [LocalZone] (performed : client.Performs table origin trace session)
    (state : LoadState) :
    ∃ creation after, (client.createTable table state).on session = (.ok creation, after) ∧
      ∀ outcome, client.Performs table origin (trace ++ state.actions outcome (.pulled creation)) after := by
  unfold Client.createTable LoadState.actions LoadState.admission
  cases state.nextFeature? with
  | none =>
    refine ⟨.ok (), session, by cases state.needsTable <;> rfl, fun outcome => ?_⟩
    rw [← List.append_assoc]
    exact (performed.silent rfl).dispatched _
  | some feature =>
    have pulled : client.Performs table origin (trace ++ [.pulled feature]) session := performed.silent rfl
    cases state.needsTable with
    | false =>
      refine ⟨.ok (), session, rfl, fun outcome => ?_⟩
      rw [← List.append_assoc]
      exact pulled.dispatched _
    | true =>
      refine ⟨_, _, rfl, fun outcome => ?_⟩
      have asked : (LoadAction.created feature
          (client.queryOutcome (.schema (feature.schema table)) session)).query? table =
          some (.schema (feature.schema table), client.queryOutcome (.schema (feature.schema table)) session) := rfl
      have created := pulled.sent asked
      rw [List.append_assoc] at created
      rw [← List.append_assoc]
      exact created.dispatched _

theorem Performs.insertChunk [LocalZone] (performed : client.Performs table origin trace session) (state : LoadState)
    {index : Nat} (bound : index < state.inFlight.length) :
    ∃ ended after, (client.insertChunk table state.inFlight[index]).on session = (.ok ended, after) ∧
      client.Performs table origin
        (trace ++ state.actions (.ok (state.settle index ended)) (.settled index ended)) after := by
  refine ⟨_, _, rfl, ?_⟩
  rw [LoadState.actions, List.getD_eq_getElem?_getD, List.getElem?_eq_getElem bound]
  have asked : (LoadAction.settled state.inFlight[index]
      (client.queryOutcome (.insert ⟨table, state.inFlight[index]⟩) session)).query? table =
      some (.insert ⟨table, state.inFlight[index]⟩,
        client.queryOutcome (.insert ⟨table, state.inFlight[index]⟩) session) := rfl
  exact performed.sent asked

end

section
variable {client : Client} {table : Text} {options : LoadOptions} {input : List Feature}
  {origin session : Session} {trace : LoadTrace}

/-- The load stands here after a run, and the queries of the run have led to this session. -/
structure Stands [LocalZone] (client : Client) (table : Text) (options : LoadOptions) (input : List Feature)
    (origin : Session) (trace : LoadTrace) (state : LoadState) (session : Session) : Prop where
  run : LoadRun options input trace (.ok state)
  performed : client.Performs table origin trace session

structure Finishes [LocalZone] (client : Client) (table : Text) (options : LoadOptions) (input : List Feature)
    (origin : Session) (trace : LoadTrace) (ended : Except ClientError LoadSummary × Session) : Prop where
  returned : LoadReturns options input trace ended.1
  performed : client.Performs table origin trace ended.2

theorem Stands.insertChunk [LocalZone] {state : LoadState}
    (stands : Stands client table options input origin trace state session)
    {index : Nat} (bound : index < state.inFlight.length) : ∃ ended after later,
      (client.insertChunk table state.inFlight[index]).on session = (.ok ended, after) ∧
      Stands client table options input origin later (state.settle index ended) after ∧
      (state.settle index ended).work < state.work := by
  obtain ⟨ended, after, sent, performed⟩ := stands.performed.insertChunk state bound
  have taken : state.next options (.settled index ended) = some (.ok (state.settle index ended)) := if_pos bound
  exact ⟨ended, after, _, sent, ⟨stands.run.step taken, performed⟩, (LoadState.step_of_next taken).work_lt⟩

theorem Stands.settleDispatched [LocalZone] {state : LoadState}
    (stands : Stands client table options input origin trace state session) (before : LoadState) :
    ∃ settled after later,
      (client.settleDispatched table before state).on session = (.ok settled, after) ∧
      Stands client table options input origin later settled after ∧ settled.work ≤ state.work := by
  have unchanged : (pure state : Exchange LoadState).on session = (.ok state, session) := rfl
  unfold Client.settleDispatched
  split
  · exact ⟨state, session, trace, unchanged, stands, Nat.le_refl _⟩
  · next chunk rest dispatched =>
    have bound : before.inFlight.length < state.inFlight.length := by
      have some := congrArg List.length dispatched
      rw [List.length_drop, List.length_cons] at some
      omega
    have same : state.inFlight[before.inFlight.length] = chunk := by
      rw [List.drop_eq_getElem_cons bound] at dispatched
      exact (List.cons.inj dispatched).1
    rw [on_bind_ok (rfl : (get : Exchange Session).on session = (.ok session, session))]
    split
    · obtain ⟨ended, after, later, sent, settled, less⟩ := stands.insertChunk bound
      rw [same] at sent
      rw [on_bind_ok sent]
      exact ⟨_, after, later, rfl, settled, Nat.le_of_lt less⟩
    · exact ⟨state, session, trace, unchanged, stands, Nat.le_refl _⟩

/-- With fuel for what is left to do, the client carries the run on to its end. -/
theorem Stands.runLoad [LocalZone] {fuel : Nat} {state : LoadState}
    (stands : Stands client table options input origin trace state session) (enough : state.work ≤ fuel) :
    ∃ whole, Finishes client table options input origin whole
      ((client.runLoad table options fuel state).on session) := by
  induction fuel generalizing state trace session with
  | zero =>
    have idle : state.Idle options := LoadState.idle_of_work (Nat.le_zero.mp enough)
    refine ⟨trace, ?_⟩
    rw [Client.runLoad, on_ofExcept]
    exact ⟨.idle stands.run idle, stands.performed⟩
  | succ fuel ih =>
    rw [Client.runLoad]
    split
    · next pulls =>
      obtain ⟨creation, after, created, performed⟩ := stands.performed.createTable state
      have taken : state.next options (.pulled creation) = some (state.pull options creation) := if_pos pulls
      rw [on_bind_ok created]
      cases pulled : state.pull options creation with
      | error error =>
        rw [pulled] at taken
        exact ⟨_, .refused (stands.run.step taken), performed (.error error)⟩
      | ok next =>
        rw [pulled] at taken
        have less := (LoadState.step_of_next taken).work_lt
        have stands : Stands client table options input origin _ next after :=
          ⟨stands.run.step taken, performed (.ok next)⟩
        obtain ⟨settled, last, later, sent, stands, noMore⟩ := stands.settleDispatched state
        rw [on_bind_ok (on_ofExcept (.ok next) after), on_bind_ok sent]
        exact ih stands (by omega)
    · next blocked =>
      split
      · next none =>
        refine ⟨trace, ?_⟩
        rw [on_ofExcept]
        exact ⟨.idle stands.run (LoadState.idle_iff.mpr ⟨none, Bool.eq_false_iff.mpr blocked⟩), stands.performed⟩
      · next chunk rest some =>
        have bound : 0 < state.inFlight.length := by simp [some]
        obtain ⟨ended, after, later, sent, settled, less⟩ := stands.insertChunk bound
        have same : state.inFlight[0] = chunk := by simp [some]
        rw [same] at sent
        rw [on_bind_ok sent]
        exact ih settled (by omega)

theorem load_finishes [LocalZone] (client : Client) (table : Text) (input : List Feature) (options : LoadOptions)
    (session : Session) : ∃ trace, Finishes client table options input session trace
      ((client.load table input options).on session) :=
  Stands.runLoad ⟨.start, .nil⟩ (Nat.le_refl _)

end

end Client

end LiteralSql
