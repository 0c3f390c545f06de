import LiteralSql.Load

/-! What a load does, in the order in which it does it.

The state of a load holds only what bears on its next event. A trace holds
everything that was done on the way: the features that were pulled, the creation
of the table, and the inserts that went under way and that ended. A run takes
possible events in any order.
-/

set_option autoImplicit false

namespace LiteralSql

namespace LoadOptions

theorem chunkSize_pos (options : LoadOptions) : 0 < options.chunkSize := by
  unfold chunkSize
  omega

theorem capacity_pos (options : LoadOptions) : 0 < options.capacity := by
  unfold capacity
  omega

end LoadOptions

inductive LoadAction
  | pulled (feature : Feature)
  | exhausted
  | created (feature : Feature) (outcome : Except ClientError Unit)
  | dispatched (chunk : Chunk)
  | settled (chunk : Chunk) (outcome : Except ClientError Unit)

namespace LoadAction

@[simp] def feature? : LoadAction → Option Feature
  | .pulled feature => some feature
  | _ => none

@[simp] def dispatched? : LoadAction → Option Chunk
  | .dispatched chunk => some chunk
  | _ => none

@[simp] def settled? : LoadAction → Option Chunk
  | .settled chunk _ => some chunk
  | _ => none

@[simp] def error? : LoadAction → Option ClientError
  | .created _ (.error error) => some error
  | .settled _ (.error error) => some error
  | _ => none

@[simp] def isCreation : LoadAction → Bool
  | .created .. => true
  | _ => false

@[simp] def isSettlement : LoadAction → Bool
  | .settled .. => true
  | _ => false

end LoadAction

abbrev LoadTrace := List LoadAction

namespace LoadTrace

def pulled (trace : LoadTrace) : List Feature := trace.filterMap LoadAction.feature?

def dispatched (trace : LoadTrace) : List Chunk := trace.filterMap LoadAction.dispatched?

def settled (trace : LoadTrace) : List Chunk := trace.filterMap LoadAction.settled?

@[simp] theorem pulled_nil : pulled [] = [] := rfl

@[simp] theorem dispatched_nil : dispatched [] = [] := rfl

@[simp] theorem settled_nil : settled [] = [] := rfl

@[simp] theorem pulled_cons (action : LoadAction) (later : LoadTrace) :
    pulled (action :: later) = action.feature?.toList ++ later.pulled := by
  cases action <;> rfl

@[simp] theorem dispatched_cons (action : LoadAction) (later : LoadTrace) :
    dispatched (action :: later) = action.dispatched?.toList ++ later.dispatched := by
  cases action <;> rfl

@[simp] theorem settled_cons (action : LoadAction) (later : LoadTrace) :
    settled (action :: later) = action.settled?.toList ++ later.settled := by
  cases action <;> rfl

@[simp] theorem pulled_append (earlier later : LoadTrace) :
    pulled (earlier ++ later) = earlier.pulled ++ later.pulled := List.filterMap_append

@[simp] theorem dispatched_append (earlier later : LoadTrace) :
    dispatched (earlier ++ later) = earlier.dispatched ++ later.dispatched := List.filterMap_append

@[simp] theorem settled_append (earlier later : LoadTrace) :
    settled (earlier ++ later) = earlier.settled ++ later.settled := List.filterMap_append

end LoadTrace

namespace LoadState

/-- The chunks that are under way after an event and were not before it. -/
def dispatchedBy (before : LoadState) : Except ClientError LoadState → List Chunk
  | .ok after => after.inFlight.drop before.inFlight.length
  | .error _ => []

def admission (state : LoadState) (feature : Feature) (creation : Except ClientError Unit) : LoadTrace :=
  .pulled feature :: if state.needsTable then [.created feature creation] else []

def actions (before : LoadState) (outcome : Except ClientError LoadState) : LoadEvent → LoadTrace
  | .settled index result => [.settled (before.inFlight.getD index []) result]
  | .pulled creation =>
    (match before.nextFeature? with
      | none => [.exhausted]
      | some feature => before.admission feature creation) ++
    (before.dispatchedBy outcome).map .dispatched

end LoadState

/-- A load that has done all this is in this state, or could not create its table. -/
inductive LoadRun (options : LoadOptions) (input : List Feature) :
    LoadTrace → Except ClientError LoadState → Prop
  | start : LoadRun options input [] (.ok (.start input options))
  | step {trace : LoadTrace} {before : LoadState} {event : LoadEvent}
      {outcome : Except ClientError LoadState} (earlier : LoadRun options input trace (.ok before))
      (taken : before.next options event = some outcome) :
      LoadRun options input (trace ++ before.actions outcome event) outcome

def LoadState.Idle (options : LoadOptions) (state : LoadState) : Prop :=
  ∀ event, state.next options event = none

/-- A load that has done all this returns: either its table could not be created,
or no event is possible any more. -/
inductive LoadReturns (options : LoadOptions) (input : List Feature) :
    LoadTrace → Except ClientError LoadSummary → Prop
  | refused {trace : LoadTrace} {error : ClientError} (run : LoadRun options input trace (.error error)) :
      LoadReturns options input trace (.error error)
  | idle {trace : LoadTrace} {state : LoadState} (run : LoadRun options input trace (.ok state))
      (idle : state.Idle options) : LoadReturns options input trace state.result

namespace LoadState

def tableReady (state : LoadState) : LoadState := { state with
  needsTable := false
  summary := { state.summary with tableCreated := state.needsTable || state.summary.tableCreated } }

inductive Step (options : LoadOptions) (state : LoadState) : LoadTrace → Except ClientError LoadState → Prop
  | settled (index : Nat) (outcome : Except ClientError Unit) (bound : index < state.inFlight.length) :
      state.Step options [.settled state.inFlight[index] outcome] (.ok (state.settle index outcome))
  | ended (pulls : state.canPull options = true) (none : state.input = []) (empty : state.buffer = []) :
      state.Step options [.exhausted] (.ok { state with inputEnded := true })
  | flushed (pulls : state.canPull options = true) (none : state.input = []) (some : state.buffer ≠ []) :
      state.Step options [.exhausted, .dispatched state.buffer]
        (.ok { state with
          inputEnded := true
          buffer := []
          inFlight := state.inFlight ++ [state.buffer] })
  | refused {feature : Feature} {rest : List Feature} {error : ClientError}
      (pulls : state.canPull options = true) (next : state.input = feature :: rest)
      (needed : state.needsTable = true) :
      state.Step options [.pulled feature, .created feature (.error error)] (.error error)
  | buffered {feature : Feature} {rest : List Feature} {creation : Except ClientError Unit}
      (pulls : state.canPull options = true) (next : state.input = feature :: rest)
      (ready : state.needsTable = true → creation = .ok ())
      (room : state.buffer.length + 1 < options.chunkSize) :
      state.Step options (state.admission feature creation)
        (.ok { state.tableReady with input := rest, buffer := state.buffer ++ [feature.toRecord] })
  | filled {feature : Feature} {rest : List Feature} {creation : Except ClientError Unit}
      (pulls : state.canPull options = true) (next : state.input = feature :: rest)
      (ready : state.needsTable = true → creation = .ok ())
      (full : options.chunkSize ≤ state.buffer.length + 1) :
      state.Step options (state.admission feature creation ++ [.dispatched (state.buffer ++ [feature.toRecord])])
        (.ok { state.tableReady with
          input := rest
          buffer := []
          inFlight := state.inFlight ++ [state.buffer ++ [feature.toRecord]] })

section
variable {options : LoadOptions} {state : LoadState}

theorem canPull_iff : state.canPull options = true ↔
    state.failure = none ∧ state.inputEnded = false ∧ state.inFlight.length < options.capacity := by
  simp [canPull, and_assoc]

theorem takeFeature_cases (options : LoadOptions) (state : LoadState) (feature : Feature) (rest : List Feature) :
    (state.buffer.length + 1 < options.chunkSize ∧ state.takeFeature options feature rest =
        { state with input := rest, buffer := state.buffer ++ [feature.toRecord] }) ∨
    (options.chunkSize ≤ state.buffer.length + 1 ∧ state.takeFeature options feature rest =
        { state with
          input := rest
          buffer := []
          inFlight := state.inFlight ++ [state.buffer ++ [feature.toRecord]] }) := by
  by_cases room : state.buffer.length + 1 < options.chunkSize
  · exact .inl ⟨room, by simp [takeFeature, room]⟩
  · exact .inr ⟨Nat.le_of_not_lt room, by simp [takeFeature, room, dispatch]⟩

theorem step_take {feature : Feature} {rest : List Feature} {creation : Except ClientError Unit}
    (pulls : state.canPull options = true) (next : state.input = feature :: rest)
    (ready : state.needsTable = true → creation = .ok ()) :
    state.Step options
      (state.admission feature creation ++
        (state.dispatchedBy (.ok (state.tableReady.takeFeature options feature rest))).map .dispatched)
      (.ok (state.tableReady.takeFeature options feature rest)) := by
  obtain ⟨room, same⟩ | ⟨full, same⟩ := takeFeature_cases options state.tableReady feature rest
  · rw [same]
    simpa [dispatchedBy, tableReady] using Step.buffered pulls next ready room
  · rw [same]
    simpa [dispatchedBy, tableReady] using Step.filled pulls next ready full

theorem tableReady_of_not_needed (needed : state.needsTable = false) : state.tableReady = state := by
  rw [tableReady, needed, Bool.false_or, ← needed]

theorem step_pull (creation : Except ClientError Unit) (pulls : state.canPull options = true) :
    state.Step options (state.actions (state.pull options creation) (.pulled creation))
      (state.pull options creation) := by
  cases next : state.input with
  | nil =>
    by_cases empty : state.buffer = []
    · simpa [pull, actions, dispatchedBy, nextFeature?, next, empty] using Step.ended pulls next empty
    · simpa [pull, actions, dispatchedBy, dispatch, nextFeature?, next, empty] using
        Step.flushed pulls next empty
  | cons feature rest =>
    have asked : state.nextFeature? = some feature := by simp [nextFeature?, next]
    rw [actions, asked]
    cases needed : state.needsTable with
    | false =>
      have taken : state.pull options creation = .ok (state.tableReady.takeFeature options feature rest) := by
        simp [pull, next, needed, tableReady_of_not_needed needed]
      rw [taken]
      exact step_take pulls next (by simp [needed])
    | true =>
      cases creation with
      | error error =>
        have refused : state.Step options [.pulled feature, .created feature (.error error)] (.error error) :=
          .refused pulls next needed
        simpa [pull, next, needed, dispatchedBy, admission] using refused
      | ok created =>
        have taken : state.pull options (.ok created) =
            .ok (state.tableReady.takeFeature options feature rest) := by
          simp [pull, next, needed, tableReady]
        rw [taken]
        exact step_take pulls next (fun _ => rfl)

theorem step_of_next {event : LoadEvent} {outcome : Except ClientError LoadState}
    (taken : state.next options event = some outcome) :
    state.Step options (state.actions outcome event) outcome := by
  cases event with
  | settled index result =>
    rw [LoadState.next] at taken
    split at taken
    · next bound =>
      cases taken
      have settled : state.Step options [.settled state.inFlight[index] result] (.ok (state.settle index result)) :=
        .settled index result bound
      simpa [actions, bound] using settled
    · cases taken
  | pulled creation =>
    rw [LoadState.next] at taken
    split at taken
    · next pulls =>
      cases taken
      exact step_pull creation pulls
    · cases taken

@[simp] theorem settle_input (state : LoadState) (index : Nat) (outcome : Except ClientError Unit) :
    (state.settle index outcome).input = state.input := by
  unfold settle
  split <;> rfl

@[simp] theorem settle_inputEnded (state : LoadState) (index : Nat) (outcome : Except ClientError Unit) :
    (state.settle index outcome).inputEnded = state.inputEnded := by
  unfold settle
  split <;> rfl

@[simp] theorem settle_needsTable (state : LoadState) (index : Nat) (outcome : Except ClientError Unit) :
    (state.settle index outcome).needsTable = state.needsTable := by
  unfold settle
  split <;> rfl

@[simp] theorem settle_buffer (state : LoadState) (index : Nat) (outcome : Except ClientError Unit) :
    (state.settle index outcome).buffer = state.buffer := by
  unfold settle
  split <;> rfl

@[simp] theorem settle_inFlight (state : LoadState) (index : Nat) (outcome : Except ClientError Unit) :
    (state.settle index outcome).inFlight = state.inFlight.eraseIdx index := by
  unfold settle
  split <;> rfl

theorem settle_failure (state : LoadState) (index : Nat) (chunk : Chunk) (outcome : Except ClientError Unit) :
    (state.settle index outcome).failure = state.failure.or (LoadAction.settled chunk outcome).error? := by
  cases failed : state.failure <;> cases outcome <;> simp [settle, failed]

theorem settle_summary {index : Nat} {outcome : Except ClientError Unit} (bound : index < state.inFlight.length)
    (succeeded : (state.settle index outcome).failure = none) :
    state.failure = none ∧ (state.settle index outcome).summary = { state.summary with
      rows := state.summary.rows + state.inFlight[index].length
      chunks := state.summary.chunks + 1 } := by
  cases failed : state.failure <;> cases outcome <;> simp_all [settle]

theorem Step.work_lt {actions : LoadTrace} {after : LoadState} (step : state.Step options actions (.ok after)) :
    after.work < state.work := by
  cases step with
  | settled index outcome bound =>
    simp only [work, settle_input, settle_inputEnded, settle_inFlight, List.length_eraseIdx_of_lt bound]
    omega
  | ended pulls none empty => simp [work, (canPull_iff.mp pulls).2.1]
  | flushed pulls none some =>
    simp only [work, (canPull_iff.mp pulls).2.1, List.length_append, List.length_singleton, if_true,
      Bool.false_eq_true, if_false]
    omega
  | buffered pulls next ready room => simp [work, tableReady, next]
  | filled pulls next ready full =>
    simp [work, tableReady, next]
    omega

theorem idle_iff : state.Idle options ↔ state.inFlight = [] ∧ state.canPull options = false := by
  constructor
  · intro idle
    have noPull := idle (.pulled (.ok ()))
    have noSettle := idle (.settled 0 (.ok ()))
    simp only [LoadState.next, ite_eq_right_iff, reduceCtorEq, imp_false] at noPull noSettle
    exact ⟨List.eq_nil_of_length_eq_zero (by omega), Bool.eq_false_iff.mpr noPull⟩
  · rintro ⟨none, blocked⟩ event
    cases event with
    | settled index outcome => simp [LoadState.next, none]
    | pulled creation => simp [LoadState.next, blocked]

theorem Idle.inputEnded (idle : state.Idle options) (unfailed : state.failure = none) :
    state.inputEnded = true := by
  obtain ⟨none, blocked⟩ := idle_iff.mp idle
  have room : state.inFlight.length < options.capacity := by
    rw [none]
    exact options.capacity_pos
  cases ended : state.inputEnded with
  | true => rfl
  | false =>
    rw [canPull_iff.mpr ⟨unfailed, ended, room⟩] at blocked
    cases blocked

theorem result_eq_ok {summary : LoadSummary} :
    state.result = .ok summary ↔ state.failure = none ∧ state.summary = summary := by
  cases failed : state.failure <;> simp [result, failed]

theorem result_eq_error {error : ClientError} : state.result = .error error ↔ state.failure = some error := by
  cases failed : state.failure <;> simp [result, failed]

theorem idle_of_work (done : state.work = 0) : state.Idle options := by
  unfold work at done
  refine idle_iff.mpr ⟨List.eq_nil_of_length_eq_zero (by omega), ?_⟩
  cases ended : state.inputEnded with
  | true => simp [canPull, ended]
  | false => simp [ended] at done

end

end LoadState

section
variable {options : LoadOptions} {input : List Feature} {trace : LoadTrace}

/-- What holds at the start and is kept by every step holds all the way. -/
theorem LoadRun.induct (invariant : LoadTrace → LoadState → Prop)
    (start : invariant [] (.start input options))
    (kept : ∀ trace before actions after, invariant trace before →
      before.Step options actions (.ok after) → invariant (trace ++ actions) after)
    {state : LoadState} (run : LoadRun options input trace (.ok state)) : invariant trace state := by
  generalize reached : Except.ok state = outcome at run
  induction run generalizing state with
  | start =>
    cases reached
    exact start
  | step earlier taken ih =>
    subst reached
    exact kept _ _ _ _ (ih rfl) (LoadState.step_of_next taken)

/-- However the events are ordered, they run out: a load can go on until it returns. -/
theorem LoadRun.returns {state : LoadState} (run : LoadRun options input trace (.ok state)) :
    ∃ later result, LoadReturns options input (trace ++ later) result := by
  generalize left : state.work = work
  induction work using Nat.strongRecOn generalizing state trace with
  | ind work ih =>
    by_cases idle : state.Idle options
    · exact ⟨[], _, by simpa using LoadReturns.idle run idle⟩
    · obtain ⟨event, possible⟩ := Classical.not_forall.mp idle
      obtain ⟨outcome, taken⟩ := Option.ne_none_iff_exists'.mp possible
      have longer := run.step taken
      cases outcome with
      | error error => exact ⟨_, _, .refused longer⟩
      | ok after =>
        have less := (LoadState.step_of_next taken).work_lt
        obtain ⟨later, result, returned⟩ := ih after.work (left ▸ less) longer rfl
        rw [List.append_assoc] at returned
        exact ⟨_, result, returned⟩

end

end LiteralSql
