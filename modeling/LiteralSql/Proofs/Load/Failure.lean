import LiteralSql.Proofs.Load.Conservation

/-! What a failure does to a load.

A failed insert stops the input: inserts that are under way still end, all of
them, and then the load returns that first failure. The table is created before
any insert goes under way, so a load that fails there has none to wait for.
-/

set_option autoImplicit false

namespace LiteralSql

/-- What may be done after this action: once something has failed, inserts that
are under way end, and nothing else is done. -/
def LoadAction.Permits (earlier later : LoadAction) : Prop := earlier.error? ≠ none → later.isSettlement = true

/-- How a load goes that creates the table from this feature. -/
inductive LoadTrace.Opening (feature : Feature) : LoadTrace → Prop
  | unstarted : Opening feature []
  | refused (error : ClientError) : Opening feature [.pulled feature, .created feature (.error error)]
  | created (later : LoadTrace) (once : ∀ action ∈ later, action.isCreation = false) :
      Opening feature (.pulled feature :: .created feature (.ok ()) :: later)

structure LoadTrace.Orderly (options : LoadOptions) (input : List Feature) (trace : LoadTrace) : Prop where
  stopped : trace.Pairwise LoadAction.Permits
  uncreated : options.create = false ∨ input = [] → ∀ action ∈ trace, action.isCreation = false
  opening : ∀ feature rest, options.create = true → input = feature :: rest → trace.Opening feature

/-- What a load returns that has done all this. -/
structure LoadTrace.EndsIn (options : LoadOptions) (input : List Feature) (trace : LoadTrace)
    (result : Except ClientError LoadSummary) : Prop where
  awaited : trace.settled.Perm trace.dispatched
  failed : ∀ error, result = .error error ↔ trace.findSome? LoadAction.error? = some error
  refused : ∀ feature error, .created feature (.error error) ∈ trace →
    trace = [.pulled feature, .created feature (.error error)] ∧ result = .error error
  created : ∀ summary, result = .ok summary → summary.tableCreated = (options.create && !input.isEmpty)
  empty : input = [] → trace = [.exhausted] ∧ result = .ok {}

namespace LoadState

section
variable {options : LoadOptions} {state : LoadState} {actions : LoadTrace}
  {outcome : Except ClientError LoadState}

def Tabled (state : LoadState) : Prop := state.needsTable = false ∨ state.input = []

theorem isCreation_admission {feature : Feature} {creation : Except ClientError Unit}
    (ready : state.needsTable = false) : ∀ action ∈ state.admission feature creation, action.isCreation = false := by
  simp [admission, ready]

theorem error_admission {feature : Feature} {creation : Except ClientError Unit}
    (ready : state.needsTable = true → creation = .ok ()) :
    ∀ action ∈ state.admission feature creation, action.error? = none := by
  unfold admission
  split
  · next needed => simp [ready needed]
  · simp

theorem Step.tabled (step : state.Step options actions outcome) (tabled : state.Tabled) :
    ∃ after, outcome = .ok after ∧ after.Tabled ∧ after.summary.tableCreated = state.summary.tableCreated ∧
      ∀ action ∈ actions, action.isCreation = false := by
  cases step with
  | settled index result bound =>
    refine ⟨_, rfl, by simpa [Tabled] using tabled, ?_, by simp⟩
    unfold settle
    split <;> rfl
  | ended pulls none empty => exact ⟨_, rfl, tabled, rfl, by simp⟩
  | flushed pulls none some => exact ⟨_, rfl, tabled, rfl, by simp⟩
  | refused pulls next needed => simp [Tabled, next, needed] at tabled
  | buffered pulls next ready room =>
    have ready : state.needsTable = false := by simpa [Tabled, next] using tabled
    exact ⟨_, rfl, .inl rfl, by simp [tableReady, ready], isCreation_admission ready⟩
  | filled pulls next ready full =>
    have ready : state.needsTable = false := by simpa [Tabled, next] using tabled
    refine ⟨_, rfl, .inl rfl, by simp [tableReady, ready], fun action member => ?_⟩
    rw [List.mem_append, List.mem_singleton] at member
    obtain member | rfl := member
    · exact isCreation_admission ready action member
    · rfl

theorem Step.of_start {feature : Feature} {rest : List Feature} (on : options.create = true)
    (step : (start (feature :: rest) options).Step options actions outcome) :
    (∃ error, outcome = .error error ∧ actions = [.pulled feature, .created feature (.error error)]) ∨
    ∃ after later, outcome = .ok after ∧ after.Tabled ∧ after.summary.tableCreated = true ∧
      (∀ action ∈ later, action.isCreation = false) ∧
      actions = .pulled feature :: .created feature (.ok ()) :: later := by
  cases step with
  | settled index result bound => exact absurd bound (Nat.not_lt_zero index)
  | ended pulls none empty => cases none
  | flushed pulls none some => cases none
  | refused pulls next needed =>
    cases next
    exact .inl ⟨_, rfl, rfl⟩
  | buffered pulls next ready room =>
    cases next
    cases ready on
    exact .inr ⟨_, [], rfl, .inl rfl, by simp [tableReady, start, on], by simp, by simp [admission, start, on]⟩
  | filled pulls next ready full =>
    cases next
    cases ready on
    refine .inr ⟨_, [.dispatched [feature.toRecord]], rfl, .inl rfl, by simp [tableReady, start, on], by simp, ?_⟩
    simp [admission, start, on]

theorem Step.failure {after : LoadState} (step : state.Step options actions (.ok after)) :
    after.failure = state.failure.or (actions.findSome? LoadAction.error?) := by
  cases step with
  | settled index result bound =>
    rw [settle_failure state index state.inFlight[index] result]
    cases result <;> rfl
  | ended pulls none empty => simp
  | flushed pulls none some => simp [List.findSome?_cons]
  | buffered pulls next ready room =>
    rw [List.findSome?_eq_none_iff.mpr (error_admission ready), Option.or_none]
    rfl
  | filled pulls next ready full =>
    rw [List.findSome?_append, List.findSome?_eq_none_iff.mpr (error_admission ready)]
    simp [tableReady]

/-- A step after a failure ends an insert; and no step goes on after its own failure. -/
theorem Step.permits (step : state.Step options actions outcome) :
    (state.failure ≠ none → ∀ action ∈ actions, action.isSettlement = true) ∧
      actions.Pairwise LoadAction.Permits := by
  have unfailed (pulls : state.canPull options = true) {P : Prop} (failed : state.failure ≠ none) : P :=
    absurd (canPull_iff.mp pulls).1 failed
  cases step with
  | settled index result bound => simp
  | ended pulls none empty => exact ⟨unfailed pulls, by simp⟩
  | flushed pulls none some => exact ⟨unfailed pulls, by simp [LoadAction.Permits]⟩
  | refused pulls next needed => exact ⟨unfailed pulls, by simp [LoadAction.Permits]⟩
  | @buffered feature rest creation pulls next ready room =>
    have errors : ∀ action ∈ state.admission feature creation, action.error? = none := error_admission ready
    refine ⟨unfailed pulls, List.pairwise_of_forall_mem_list fun earlier member later _ failed => ?_⟩
    exact absurd (errors earlier member) failed
  | @filled feature rest creation pulls next ready full =>
    have errors : ∀ action ∈ state.admission feature creation, action.error? = none := error_admission ready
    refine ⟨unfailed pulls, List.pairwise_of_forall_mem_list fun earlier member later _ failed => ?_⟩
    rw [List.mem_append, List.mem_singleton] at member
    obtain member | rfl := member
    · exact absurd (errors earlier member) failed
    · exact absurd rfl failed

end

end LoadState

section
variable {options : LoadOptions} {input : List Feature} {trace : LoadTrace}
  {outcome : Except ClientError LoadState}

theorem LoadRun.failure_eq {state : LoadState} (run : LoadRun options input trace (.ok state)) :
    state.failure = trace.findSome? LoadAction.error? := by
  refine LoadRun.induct (fun trace state => state.failure = trace.findSome? LoadAction.error?) rfl ?_ run
  intro trace before actions after held step
  rw [step.failure, held, List.findSome?_append]

theorem LoadRun.permits (run : LoadRun options input trace outcome) : trace.Pairwise LoadAction.Permits := by
  induction run with
  | start => exact .nil
  | @step trace before event outcome earlier taken ih =>
    obtain ⟨stopped, permits⟩ := (LoadState.step_of_next taken).permits
    refine List.pairwise_append.mpr ⟨ih, permits, fun action member later settles failed => ?_⟩
    refine stopped ?_ later settles
    rw [earlier.failure_eq]
    exact fun none => failed (List.findSome?_eq_none_iff.mp none action member)

theorem LoadRun.untabled (unneeded : options.create = false ∨ input = [])
    (run : LoadRun options input trace outcome) : ∃ state, outcome = .ok state ∧ state.Tabled ∧
      state.summary.tableCreated = false ∧ ∀ action ∈ trace, action.isCreation = false := by
  induction run with
  | start => exact ⟨_, rfl, unneeded, rfl, by simp⟩
  | step earlier taken ih =>
    obtain ⟨before, same, tabled, uncreated, none⟩ := ih
    cases same
    obtain ⟨after, same, tabled, kept, noMore⟩ := (LoadState.step_of_next taken).tabled tabled
    refine ⟨after, same, tabled, kept.trans uncreated, fun action member => ?_⟩
    exact (List.mem_append.mp member).elim (none action) (noMore action)

theorem LoadRun.tabled {feature : Feature} {rest : List Feature} (on : options.create = true)
    (run : LoadRun options (feature :: rest) trace outcome) :
    (trace = [] ∧ outcome = .ok (.start (feature :: rest) options)) ∨
    (∃ error, trace = [.pulled feature, .created feature (.error error)] ∧ outcome = .error error) ∨
    ∃ state later, trace = .pulled feature :: .created feature (.ok ()) :: later ∧ outcome = .ok state ∧
      state.Tabled ∧ state.summary.tableCreated = true ∧ ∀ action ∈ later, action.isCreation = false := by
  induction run with
  | start => exact .inl ⟨rfl, rfl⟩
  | step earlier taken ih =>
    have step := LoadState.step_of_next taken
    obtain ⟨rfl, same⟩ | ⟨error, -, same⟩ | ⟨before, later, rfl, same, tabled, created, once⟩ := ih
    · cases same
      obtain ⟨error, failed, actions⟩ | ⟨after, later, succeeded, tabled, created, once, actions⟩ := step.of_start on
      · exact .inr (.inl ⟨error, actions, failed⟩)
      · exact .inr (.inr ⟨after, later, actions, succeeded, tabled, created, once⟩)
    · cases same
    · cases same
      obtain ⟨after, same, tabled, kept, noMore⟩ := step.tabled tabled
      refine .inr (.inr ⟨after, later ++ _, rfl, same, tabled, kept.trans created, fun action member => ?_⟩)
      exact (List.mem_append.mp member).elim (once action) (noMore action)

theorem LoadRun.orderly (run : LoadRun options input trace outcome) : trace.Orderly options input := by
  refine ⟨run.permits, fun unneeded => ?_, fun feature rest on first => ?_⟩
  · obtain ⟨state, -, -, -, none⟩ := run.untabled unneeded
    exact none
  · subst first
    obtain ⟨rfl, -⟩ | ⟨error, rfl, -⟩ | ⟨state, later, rfl, -, -, -, once⟩ := run.tabled on
    · exact .unstarted
    · exact .refused error
    · exact .created later once

theorem LoadRun.of_nil (run : LoadRun options [] trace outcome) :
    (trace = [] ∧ outcome = .ok (.start [] options)) ∨
    (trace = [.exhausted] ∧ outcome = .ok { LoadState.start [] options with inputEnded := true }) := by
  induction run with
  | start => exact .inl ⟨rfl, rfl⟩
  | step earlier taken ih =>
    have step := LoadState.step_of_next taken
    obtain ⟨rfl, same⟩ | ⟨rfl, same⟩ := ih
    · cases same
      refine .inr ?_
      generalize LoadState.actions _ _ _ = actions at step ⊢
      cases step with
      | settled index result bound => exact absurd bound (Nat.not_lt_zero index)
      | ended pulls none empty => exact ⟨rfl, rfl⟩
      | flushed pulls none some => exact absurd rfl some
      | refused pulls next needed => cases next
      | buffered pulls next ready room => cases next
      | filled pulls next ready full => cases next
    · cases same
      have idle : { LoadState.start [] options with inputEnded := true }.Idle options :=
        LoadState.idle_iff.mpr ⟨rfl, by simp [LoadState.canPull]⟩
      rw [idle] at taken
      cases taken

theorem LoadState.canPull_start : (LoadState.start input options).canPull options = true :=
  LoadState.canPull_iff.mpr ⟨rfl, rfl, options.capacity_pos⟩

theorem LoadState.start_not_idle : ¬ (LoadState.start input options).Idle options := by
  intro idle
  cases idle.inputEnded rfl

theorem LoadRun.refused {error : ClientError} (run : LoadRun options input trace (.error error)) :
    ∃ feature rest, options.create = true ∧ input = feature :: rest ∧
      trace = [.pulled feature, .created feature (.error error)] := by
  cases on : options.create with
  | false =>
    obtain ⟨state, same, -⟩ := run.untabled (.inl on)
    cases same
  | true =>
    cases input with
    | nil =>
      obtain ⟨state, same, -⟩ := run.untabled (.inr rfl)
      cases same
    | cons feature rest =>
      obtain ⟨-, same⟩ | ⟨failed, rfl, same⟩ | ⟨state, later, -, same, -⟩ := run.tabled on
      · cases same
      · cases same
        exact ⟨feature, rest, rfl, rfl, rfl⟩
      · cases same

theorem LoadRun.creation_ok {state : LoadState} (run : LoadRun options input trace (.ok state))
    {feature : Feature} {error : ClientError} : LoadAction.created feature (.error error) ∉ trace := by
  intro member
  by_cases unneeded : options.create = false ∨ input = []
  · obtain ⟨-, -, -, -, none⟩ := run.untabled unneeded
    cases none _ member
  · rw [not_or, Bool.not_eq_false] at unneeded
    obtain ⟨first, rest, rfl⟩ := List.exists_cons_of_ne_nil unneeded.2
    obtain ⟨rfl, -⟩ | ⟨failed, -, same⟩ | ⟨-, later, rfl, -, -, -, once⟩ := run.tabled unneeded.1
    · cases member
    · cases same
    · simp only [List.mem_cons, reduceCtorEq, LoadAction.created.injEq, and_false, false_or] at member
      cases once _ member

theorem LoadRun.tableCreated_eq {state : LoadState} (run : LoadRun options input trace (.ok state))
    (idle : state.Idle options) : state.summary.tableCreated = (options.create && !input.isEmpty) := by
  by_cases unneeded : options.create = false ∨ input = []
  · obtain ⟨state, same, -, uncreated, -⟩ := run.untabled unneeded
    cases same
    rw [uncreated]
    obtain off | rfl := unneeded
    · simp [off]
    · simp
  · rw [not_or, Bool.not_eq_false] at unneeded
    obtain ⟨first, rest, rfl⟩ := List.exists_cons_of_ne_nil unneeded.2
    obtain ⟨-, same⟩ | ⟨failed, -, same⟩ | ⟨state, later, -, same, -, created, -⟩ := run.tabled unneeded.1
    · cases same
      exact absurd idle LoadState.start_not_idle
    · cases same
    · cases same
      simp [created, unneeded.1]

theorem LoadReturns.endsIn {result : Except ClientError LoadSummary}
    (returned : LoadReturns options input trace result) : trace.EndsIn options input result := by
  cases returned with
  | @refused error run =>
    obtain ⟨feature, rest, on, rfl, rfl⟩ := run.refused
    refine ⟨.refl _, fun error => ?_, fun _ _ member => ?_, nofun, nofun⟩
    · simp [List.findSome?_cons]
    · simp only [List.mem_cons, reduceCtorEq, LoadAction.created.injEq, Except.error.injEq, List.not_mem_nil,
        or_false, false_or] at member
      obtain ⟨rfl, rfl⟩ := member
      exact ⟨rfl, rfl⟩
  | @idle state run idle =>
    have held := run.accounts.1.held
    rw [(LoadState.idle_iff.mp idle).1, List.append_nil] at held
    refine ⟨held, fun error => ?_, fun _ _ member => absurd member run.creation_ok, fun summary ended => ?_,
      fun none => ?_⟩
    · rw [LoadState.result_eq_error, run.failure_eq]
    · obtain ⟨unfailed, rfl⟩ := LoadState.result_eq_ok.mp ended
      exact run.tableCreated_eq idle
    · subst none
      obtain ⟨-, same⟩ | ⟨rfl, same⟩ := run.of_nil
      · cases same
        exact absurd idle LoadState.start_not_idle
      · cases same
        exact ⟨rfl, rfl⟩

end

namespace Client

open Exchange

variable {client : Client} {table : Text} {options : LoadOptions} {session after : Session}

theorem load_nil [LocalZone] (client : Client) (table : Text) (options : LoadOptions) (session : Session) :
    (client.load table [] options).on session = (.ok {}, session) := by
  let ended : LoadState := { LoadState.start [] options with inputEnded := true }
  have created : (client.createTable table (.start [] options)).on session = (.ok (.ok ()), session) := by
    unfold createTable LoadState.start
    cases options.create <;> rfl
  have pulled : (ofExcept ((LoadState.start [] options).pull options (.ok ())) : Exchange LoadState).on session =
      (.ok ended, session) := rfl
  have unsent : (client.settleDispatched table (.start [] options) ended).on session = (.ok ended, session) := rfl
  have blocked : ¬ ended.canPull options = true := by simp [ended, LoadState.canPull]
  change (client.runLoad table options 2 (.start [] options)).on session = _
  rw [runLoad, if_pos LoadState.canPull_start, on_bind_ok created, on_bind_ok pulled, on_bind_ok unsent,
    runLoad, if_neg blocked]
  rfl

/-- The two requests in which a table is created: it is declared, and then registered. -/
inductive CreationFails [LocalZone] (client : Client) (operation : Operation) (session : Session)
    (error : ClientError)
    (after : Session) : Prop
  | undeclared (failed : (client.query operation).on session = (.error error, after))
  | unregistered {sql : Text} {rows : List Row} {between : Session} (compiled : client.toSql operation = .ok sql)
      (declared : (client.querySql sql).on session = (.ok rows, between))
      (failed : (client.finalize operation).on between = (.error error, after))

theorem CreationFails.query [LocalZone] {operation : Operation} {error : ClientError}
    (fails : CreationFails client operation session error after) :
    (client.query operation).on session = (.error error, after) := by
  cases fails with
  | undeclared failed => exact failed
  | unregistered compiled declared failed =>
    rw [Client.query, compiled, on_bind_ok (on_ofExcept (.ok _) session), on_bind_ok declared, on_bind, failed]

theorem load_of_refused [LocalZone] {feature : Feature} {rest : List Feature} {error : ClientError}
    (on : options.create = true)
    (fails : CreationFails client (.schema (feature.schema table)) session error after) :
    (client.load table (feature :: rest) options).on session = (.error error, after) := by
  have created : (client.createTable table (.start (feature :: rest) options)).on session =
      (.ok (.error error), after) := by
    have needed : (LoadState.start (feature :: rest) options).needsTable = true := on
    have next : (LoadState.start (feature :: rest) options).nextFeature? = some feature := rfl
    rw [createTable, needed, next]
    change (Except.ok (((client.query _).on session).1.map _), ((client.query _).on session).2) = _
    rw [fails.query]
    rfl
  have pulled : (LoadState.start (feature :: rest) options).pull options (.error error) = .error error := by
    simp [LoadState.pull, LoadState.start, on]
  change (client.runLoad table options (_ + 1) _).on session = _
  rw [runLoad, if_pos LoadState.canPull_start, on_bind_ok created, pulled]
  rfl

end Client

/-- After a failure nothing is pulled or sent, what is under way is awaited, and the
first failure is returned; the table is created once and before everything else.
This is the load that a client runs. -/
theorem first_failure_stops [LocalZone] (options : LoadOptions) (input : List Feature) :
    (∀ trace outcome, LoadRun options input trace outcome → trace.Orderly options input) ∧
    (∀ trace result, LoadReturns options input trace result → trace.EndsIn options input result) ∧
    ∀ (client : Client) (table : Text) (session : Session),
      (∃ trace, client.Finishes table options input session trace ((client.load table input options).on session)) ∧
      (input = [] → (client.load table input options).on session = (.ok {}, session)) ∧
      ∀ feature rest error after, options.create = true → input = feature :: rest →
        client.CreationFails (.schema (feature.schema table)) session error after →
        (client.load table input options).on session = (.error error, after) := by
  refine ⟨fun _ _ run => run.orderly, fun _ _ returned => returned.endsIn, fun client table session =>
    ⟨client.load_finishes table input options session, ?_, ?_⟩⟩
  · rintro rfl
    exact client.load_nil table options session
  · rintro feature rest error after on rfl fails
    exact Client.load_of_refused on fails

end LiteralSql
