import LiteralSql.Proofs.Load.Failure

/-! How many inserts are under way, and when a load is over.

A trace is followed by what is under way and by whether the input has ended.
Asking the input and sending an insert both need room, so the bound holds within
an event as well as between events. On the other side, a load without a failure
is over only when nothing is left of its input.
-/

set_option autoImplicit false

namespace LiteralSql

/-- What can be done with room for this many inserts. The numbers of a trace are how many are under
way behind it, and whether the input has ended. -/
inductive LoadTrace.Throttled (capacity : Nat) : LoadTrace → Nat → Bool → Prop
  | start : Throttled capacity [] 0 false
  | pulled {trace : LoadTrace} {busy : Nat} (earlier : Throttled capacity trace busy false)
      (room : busy < capacity) (feature : Feature) : Throttled capacity (trace ++ [.pulled feature]) busy false
  | exhausted {trace : LoadTrace} {busy : Nat} (earlier : Throttled capacity trace busy false)
      (room : busy < capacity) : Throttled capacity (trace ++ [.exhausted]) busy true
  | created {trace : LoadTrace} {busy : Nat} {ended : Bool} (earlier : Throttled capacity trace busy ended)
      (feature : Feature) (outcome : Except ClientError Unit) :
      Throttled capacity (trace ++ [.created feature outcome]) busy ended
  | dispatched {trace : LoadTrace} {busy : Nat} {ended : Bool} (earlier : Throttled capacity trace busy ended)
      (room : busy < capacity) (chunk : Chunk) : Throttled capacity (trace ++ [.dispatched chunk]) (busy + 1) ended
  | settled {trace : LoadTrace} {busy : Nat} {ended : Bool} (earlier : Throttled capacity trace (busy + 1) ended)
      (chunk : Chunk) (outcome : Except ClientError Unit) :
      Throttled capacity (trace ++ [.settled chunk outcome]) busy ended

theorem LoadTrace.Throttled.busy_le {capacity busy : Nat} {ended : Bool} {trace : LoadTrace}
    (throttled : trace.Throttled capacity busy ended) : busy ≤ capacity := by
  induction throttled with
  | start => exact Nat.zero_le capacity
  | pulled _ room _ => exact Nat.le_of_lt room
  | exhausted _ room => exact Nat.le_of_lt room
  | created _ _ _ ih => exact ih
  | dispatched _ room _ => exact room
  | settled _ _ _ ih => exact Nat.le_of_succ_le ih

theorem LoadOptions.capacity_eq (options : LoadOptions) : options.capacity = max 1 options.maxInProgress :=
  Nat.max_comm _ _

namespace LoadState

structure Spent (state : LoadState) : Prop where
  inputEnded : state.inputEnded = true
  noInput : state.input = []
  noBuffer : state.buffer = []
  noneInFlight : state.inFlight = []

section
variable {options : LoadOptions} {trace actions : LoadTrace} {state after : LoadState}
  {outcome : Except ClientError LoadState}

def Throttles (options : LoadOptions) (trace : LoadTrace) (state : LoadState) : Prop :=
  trace.Throttled options.capacity state.inFlight.length state.inputEnded

theorem Throttles.admission (throttles : state.Throttles options trace) (pulls : state.canPull options = true)
    (feature : Feature) (creation : Except ClientError Unit) :
    (trace ++ state.admission feature creation).Throttled options.capacity state.inFlight.length false := by
  obtain ⟨-, unended, room⟩ := canPull_iff.mp pulls
  rw [Throttles, unended] at throttles
  have asked := throttles.pulled room feature
  unfold LoadState.admission
  split
  · rw [List.append_cons]
    exact asked.created feature creation
  · exact asked

theorem Throttles.step (throttles : state.Throttles options trace) (step : state.Step options actions outcome) :
    ∃ busy ended, (trace ++ actions).Throttled options.capacity busy ended ∧
      ∀ after, outcome = .ok after → after.inFlight.length = busy ∧ after.inputEnded = ended := by
  cases step with
  | settled index result bound =>
    rw [Throttles, ← Nat.sub_add_cancel (Nat.one_le_of_lt bound)] at throttles
    refine ⟨_, _, throttles.settled _ result, fun after same => ?_⟩
    cases same
    exact ⟨by rw [settle_inFlight, List.length_eraseIdx_of_lt bound], settle_inputEnded state index result⟩
  | ended pulls none empty =>
    obtain ⟨-, unended, room⟩ := canPull_iff.mp pulls
    rw [Throttles, unended] at throttles
    refine ⟨_, _, throttles.exhausted room, fun after same => ?_⟩
    cases same
    exact ⟨rfl, rfl⟩
  -- The rest of the buffer goes under way in the event in which the input ends.
  | flushed pulls none some =>
    obtain ⟨-, unended, room⟩ := canPull_iff.mp pulls
    rw [Throttles, unended] at throttles
    rw [List.append_cons]
    refine ⟨_, _, (throttles.exhausted room).dispatched room _, fun after same => ?_⟩
    cases same
    exact ⟨List.length_append, rfl⟩
  | @refused feature rest error pulls next needed =>
    have admitted := throttles.admission pulls feature (.error error)
    rw [LoadState.admission, needed] at admitted
    refine ⟨_, _, admitted, fun after same => ?_⟩
    cases same
  | @buffered feature rest creation pulls next ready room =>
    refine ⟨_, _, throttles.admission pulls feature creation, fun after same => ?_⟩
    cases same
    exact ⟨rfl, (canPull_iff.mp pulls).2.1⟩
  | @filled feature rest creation pulls next ready full =>
    obtain ⟨-, unended, room⟩ := canPull_iff.mp pulls
    rw [← List.append_assoc]
    refine ⟨_, _, (throttles.admission pulls feature creation).dispatched room _, fun after same => ?_⟩
    cases same
    exact ⟨List.length_append, unended⟩

theorem Step.length_le (step : state.Step options actions outcome) : actions.length ≤ 3 := by
  have admitted (feature : Feature) (creation : Except ClientError Unit) :
      (state.admission feature creation).length ≤ 2 := by
    unfold admission
    split <;> simp
  cases step with
  | settled | ended | flushed | refused => simp
  | buffered => exact Nat.le_succ_of_le (admitted _ _)
  | filled =>
    rw [List.length_append]
    exact Nat.succ_le_succ (admitted _ _)

end

end LoadState

section
variable {options : LoadOptions} {input : List Feature} {trace : LoadTrace}
  {outcome : Except ClientError LoadState}

theorem LoadRun.throttles {state : LoadState} (run : LoadRun options input trace (.ok state)) :
    state.Throttles options trace := by
  refine run.induct (fun trace state => state.Throttles options trace) .start ?_
  intro trace before actions after throttles step
  obtain ⟨busy, ended, throttled, counted⟩ := throttles.step step
  obtain ⟨rfl, rfl⟩ := counted after rfl
  exact throttled

theorem LoadRun.throttled (run : LoadRun options input trace outcome) :
    ∃ busy ended, trace.Throttled options.capacity busy ended ∧
      ∀ state, outcome = .ok state → state.inFlight.length = busy ∧ state.inputEnded = ended := by
  cases run with
  | start =>
    refine ⟨0, false, .start, fun state same => ?_⟩
    cases same
    exact ⟨rfl, rfl⟩
  | step earlier taken => exact earlier.throttles.step (LoadState.step_of_next taken)

theorem LoadRun.length_le {state : LoadState} (run : LoadRun options input trace (.ok state)) :
    trace.length + 3 * state.work ≤ 3 * (2 * input.length + 2) := by
  refine run.induct (fun trace state => trace.length + 3 * state.work ≤ 3 * (2 * input.length + 2)) ?_ ?_
  · simp [LoadState.work, LoadState.start]
  · intro trace before actions after bounded step
    have few := step.length_le
    have less := step.work_lt
    rw [List.length_append]
    omega

theorem LoadRun.idle_iff_spent {state : LoadState} (run : LoadRun options input trace (.ok state))
    (unfailed : state.failure = none) : state.Idle options ↔ state.Spent := by
  constructor
  · intro idle
    have ended := idle.inputEnded unfailed
    obtain ⟨noInput, noBuffer⟩ := run.accounts.2.ended ended
    exact ⟨ended, noInput, noBuffer, (LoadState.idle_iff.mp idle).1⟩
  · rintro ⟨ended, -, -, none⟩
    exact LoadState.idle_iff.mpr ⟨none, by simp [LoadState.canPull, ended]⟩

theorem LoadReturns.spent {result : Except ClientError LoadSummary}
    (returned : LoadReturns options input trace result) (unfailed : ∀ action ∈ trace, action.error? = none) :
    ∃ state, LoadRun options input trace (.ok state) ∧ state.Spent ∧ result = .ok state.summary := by
  cases returned with
  | @refused error run =>
    obtain ⟨feature, rest, -, -, rfl⟩ := run.refused
    cases unfailed (.created feature (.error error)) (by simp)
  | @idle state run idle =>
    have none : state.failure = none := by rw [run.failure_eq, List.findSome?_eq_none_iff.mpr unfailed]
    exact ⟨state, run, (run.idle_iff_spent none).mp idle, LoadState.result_eq_ok.mpr ⟨none, rfl⟩⟩

end

/-- There are never more inserts under way than allowed, and the input is asked only while there are
fewer and while it has not ended. Without a failure a load can always go on until its whole input has
been sent and awaited, which it is after boundedly many actions, and it returns only then. This is the
load that a client runs. -/
theorem bounded_and_never_stalled [LocalZone] (options : LoadOptions) (input : List Feature) :
    (∀ trace outcome, LoadRun options input trace outcome → ∃ busy ended,
      trace.Throttled (max 1 options.maxInProgress) busy ended ∧ busy ≤ max 1 options.maxInProgress ∧
      ∀ state, outcome = .ok state → state.inFlight.length = busy ∧ state.inputEnded = ended) ∧
    (∀ trace state, LoadRun options input trace (.ok state) →
      (state.inFlight.length = max 1 options.maxInProgress ∨ state.inputEnded = true →
        ∀ creation, state.next options (.pulled creation) = none) ∧
      (state.failure = none → (state.Idle options ↔ state.Spent)) ∧
      trace.length ≤ 6 * (input.length + 1) ∧
      ∃ later result, LoadReturns options input (trace ++ later) result) ∧
    (∀ trace result, LoadReturns options input trace result → (∀ action ∈ trace, action.error? = none) →
      ∃ state, LoadRun options input trace (.ok state) ∧ state.Spent ∧ result = .ok state.summary) ∧
    ∀ (client : Client) (table : Text) (session : Session), ∃ trace,
      client.Finishes table options input session trace ((client.load table input options).on session) := by
  rw [← options.capacity_eq]
  refine ⟨fun trace outcome run => ?_, fun trace state run => ⟨fun blocked creation => ?_, run.idle_iff_spent, ?_,
    run.returns⟩, fun _ _ returned => returned.spent, fun client table session =>
    client.load_finishes table input options session⟩
  · obtain ⟨busy, ended, throttled, counted⟩ := run.throttled
    exact ⟨busy, ended, throttled, throttled.busy_le, counted⟩
  · have shut : ¬ state.canPull options = true := by
      intro pulls
      obtain ⟨-, unended, room⟩ := LoadState.canPull_iff.mp pulls
      obtain full | ended := blocked
      · exact Nat.ne_of_lt room full
      · exact Bool.false_ne_true (unended.symm.trans ended)
    exact if_neg shut
  · have bounded := run.length_le
    omega

end LiteralSql
