import Mathlib.Data.List.Perm.Basic
import LiteralSql.Proofs.Load.Session

/-! A load neither loses nor repeats a row.

Wherever the events have led, the rows that were pulled are those of the chunks
that went under way, in the order of the input, and behind them the buffered
ones; and the chunks that went under way are those that ended and those that
have not. At the end this leaves no row behind.
-/

set_option autoImplicit false

namespace LiteralSql

/-- All chunks but the last one have this size, and none is empty. -/
structure Chunked (size : Nat) (chunks : List Chunk) : Prop where
  whole : ∀ chunk ∈ chunks.dropLast, chunk.length = size
  bounded : ∀ chunk ∈ chunks, chunk ≠ [] ∧ chunk.length ≤ size

namespace Chunked

variable {size : Nat} {chunks : List Chunk}

theorem nil : Chunked size [] where
  whole _ member := absurd member List.not_mem_nil
  bounded _ member := absurd member List.not_mem_nil

theorem concat (positive : 0 < size) (whole : ∀ chunk ∈ chunks, chunk.length = size) {last : Chunk}
    (some : last ≠ []) (bound : last.length ≤ size) : Chunked size (chunks ++ [last]) := by
  constructor
  · rw [List.dropLast_concat]
    exact whole
  · intro chunk member
    rw [List.mem_append, List.mem_singleton] at member
    obtain member | rfl := member
    · have full := whole chunk member
      exact ⟨List.ne_nil_of_length_pos (full ▸ positive), Nat.le_of_eq full⟩
    · exact ⟨some, bound⟩

theorem length_eq (chunked : Chunked size chunks) (positive : 0 < size) :
    chunks.length = (chunks.flatten.length + size - 1) / size := by
  induction chunks with
  | nil => exact (Nat.div_eq_of_lt (by simp; omega)).symm
  | cons chunk rest ih =>
    have head := chunked.bounded chunk List.mem_cons_self
    have some := List.length_pos_of_ne_nil head.1
    cases rest with
    | nil =>
      have one : (chunk.length + size - 1) / size = 1 :=
        Nat.div_eq_of_lt_le (by omega) (by omega)
      simp [one]
    | cons next others =>
      have full : chunk.length = size := chunked.whole chunk (by simp)
      have tail := ih ⟨fun other member => chunked.whole other (by simp [member]),
        fun other member => chunked.bounded other (List.mem_cons_of_mem chunk member)⟩
      have split : (chunk :: next :: others).flatten.length + size - 1 =
          ((next :: others).flatten.length + size - 1) + size := by
        rw [List.flatten_cons, List.length_append, full]
        omega
      rw [List.length_cons, tail, split, Nat.add_div_right _ positive]

end Chunked

namespace LoadState

structure Accounts (state : LoadState) (options : LoadOptions) (input : List Feature) (trace : LoadTrace) :
    Prop where
  pulled : trace.pulled ++ state.input = input
  placed : trace.dispatched.flatten ++ state.buffer = trace.pulled.map Feature.toRecord
  /-- A chunk that went under way has ended or has not, and there is no other chunk. -/
  held : (trace.settled ++ state.inFlight).Perm trace.dispatched
  room : state.buffer.length < options.chunkSize

structure Counts (state : LoadState) (options : LoadOptions) (trace : LoadTrace) : Prop where
  chunked : Chunked options.chunkSize trace.dispatched
  /-- Only the end of the input cuts a chunk short. -/
  whole : state.inputEnded = false → ∀ chunk ∈ trace.dispatched, chunk.length = options.chunkSize
  ended : state.inputEnded = true → state.input = [] ∧ state.buffer = []
  summed : state.failure = none →
    state.summary.rows = trace.settled.flatten.length ∧ state.summary.chunks = trace.settled.length

section
variable {options : LoadOptions} {input : List Feature} {trace actions : LoadTrace} {before after : LoadState}

@[simp] theorem pulled_admission (state : LoadState) (feature : Feature) (creation : Except ClientError Unit) :
    (state.admission feature creation).pulled = [feature] := by
  unfold admission
  split <;> rfl

@[simp] theorem dispatched_admission (state : LoadState) (feature : Feature)
    (creation : Except ClientError Unit) : (state.admission feature creation).dispatched = [] := by
  unfold admission
  split <;> rfl

@[simp] theorem settled_admission (state : LoadState) (feature : Feature) (creation : Except ClientError Unit) :
    (state.admission feature creation).settled = [] := by
  unfold admission
  split <;> rfl

theorem accounts_start : (start input options).Accounts options input [] where
  pulled := rfl
  placed := rfl
  held := .nil
  room := options.chunkSize_pos

theorem Accounts.step (accounts : before.Accounts options input trace)
    (step : before.Step options actions (.ok after)) : after.Accounts options input (trace ++ actions) := by
  obtain ⟨pulled, placed, held, room⟩ := accounts
  cases step with
  | settled index outcome bound =>
    refine ⟨by simpa using pulled, by simpa using placed, ?_, by simpa using room⟩
    -- The chunk only moves from those under way to those that have ended.
    have moved := List.getElem_cons_eraseIdx_perm bound
    simpa using (moved.append_left trace.settled).trans held
  | ended pulls none empty =>
    exact ⟨by simpa using pulled, by simpa using placed, by simpa using held, room⟩
  | flushed pulls none some =>
    refine ⟨by simpa using pulled, by simpa using placed, ?_, options.chunkSize_pos⟩
    simpa using held.append_right [before.buffer]
  | buffered pulls next ready room =>
    rw [next] at pulled
    refine ⟨by simpa using pulled, ?_, by simpa [tableReady] using held, by simpa using room⟩
    simp [← placed]
  | filled pulls next ready full =>
    rw [next] at pulled
    refine ⟨by simpa using pulled, ?_, ?_, options.chunkSize_pos⟩
    · simp [← placed]
    · simpa using held.append_right _

theorem counts_start : (start input options).Counts options [] where
  chunked := .nil
  whole _ chunk member := absurd member List.not_mem_nil
  ended open_ := by cases open_
  summed _ := ⟨rfl, rfl⟩

theorem Counts.step (counts : before.Counts options trace) (room : before.buffer.length < options.chunkSize)
    (step : before.Step options actions (.ok after)) : after.Counts options (trace ++ actions) := by
  obtain ⟨chunked, whole, ended, summed⟩ := counts
  cases step with
  | settled index outcome bound =>
    refine ⟨by simpa using chunked, by simpa using whole, by simpa using ended, fun succeeded => ?_⟩
    obtain ⟨unfailed, same⟩ := settle_summary bound succeeded
    simp [same, summed unfailed]
  | ended pulls none empty =>
    exact ⟨by simpa using chunked, nofun, fun _ => ⟨none, empty⟩, by simpa using summed⟩
  | flushed pulls none some =>
    have full := whole (canPull_iff.mp pulls).2.1
    refine ⟨?_, nofun, fun _ => ⟨none, rfl⟩, by simpa using summed⟩
    simpa using Chunked.concat options.chunkSize_pos full some (Nat.le_of_lt room)
  | buffered pulls next ready room =>
    refine ⟨by simpa using chunked, by simpa [tableReady] using whole, ?_, by simpa [tableReady] using summed⟩
    simp [tableReady, (canPull_iff.mp pulls).2.1]
  | @filled feature rest creation pulls next ready full =>
    have unended := (canPull_iff.mp pulls).2.1
    have size : (before.buffer ++ [feature.toRecord]).length = options.chunkSize := by
      rw [List.length_append, List.length_singleton]
      exact Nat.le_antisymm room full
    refine ⟨?_, fun _ => ?_, by simp [tableReady, unended], by simpa [tableReady] using summed⟩
    · simpa using Chunked.concat options.chunkSize_pos (whole unended) (by simp) (Nat.le_of_eq size)
    · rw [LoadTrace.dispatched_append]
      simpa [or_imp, forall_and] using ⟨whole unended, by simpa using size⟩

end

end LoadState

section
variable {options : LoadOptions} {input : List Feature} {trace : LoadTrace}

theorem LoadRun.accounts {state : LoadState} (run : LoadRun options input trace (.ok state)) :
    state.Accounts options input trace ∧ state.Counts options trace :=
  LoadRun.induct (fun trace state => state.Accounts options input trace ∧ state.Counts options trace)
    ⟨LoadState.accounts_start, LoadState.counts_start⟩
    (fun _ _ _ _ held step => ⟨held.1.step step, held.2.step held.1.room step⟩) run

/-- Nothing is left over of a load that has succeeded. -/
structure LoadTrace.Complete (options : LoadOptions) (input : List Feature) (trace : LoadTrace)
    (summary : LoadSummary) : Prop where
  pulled : trace.pulled = input
  loaded : trace.dispatched.flatten = input.map Feature.toRecord
  awaited : trace.settled.Perm trace.dispatched
  chunked : Chunked options.chunkSize trace.dispatched
  rows : summary.rows = input.length
  chunks : summary.chunks = (input.length + options.chunkSize - 1) / options.chunkSize

theorem LoadReturns.of_ok {summary : LoadSummary} (returned : LoadReturns options input trace (.ok summary)) :
    ∃ state, LoadRun options input trace (.ok state) ∧ state.Idle options ∧ state.failure = none ∧
      state.summary = summary := by
  generalize ended : Except.ok summary = result at returned
  cases returned with
  | refused run => cases ended
  | @idle state run idle =>
    obtain ⟨unfailed, same⟩ := LoadState.result_eq_ok.mp ended.symm
    exact ⟨state, run, idle, unfailed, same⟩

theorem LoadState.Idle.complete {state : LoadState} (run : LoadRun options input trace (.ok state))
    (idle : state.Idle options) (unfailed : state.failure = none) :
    trace.Complete options input state.summary := by
  obtain ⟨accounts, counts⟩ := run.accounts
  obtain ⟨noInput, noBuffer⟩ := counts.ended (idle.inputEnded unfailed)
  obtain ⟨rows, chunks⟩ := counts.summed unfailed
  have pulled := accounts.pulled
  have placed := accounts.placed
  have awaited := accounts.held
  rw [noInput, List.append_nil] at pulled
  rw [noBuffer, List.append_nil, pulled] at placed
  rw [(LoadState.idle_iff.mp idle).1, List.append_nil] at awaited
  have total : trace.dispatched.flatten.length = input.length := by rw [placed, List.length_map]
  refine ⟨pulled, placed, awaited, counts.chunked, ?_, ?_⟩
  · rw [rows, awaited.flatten.length_eq, total]
  · rw [chunks, awaited.length_eq, counts.chunked.length_eq options.chunkSize_pos, total]

end

/-- In whatever order the inserts end, each row that was pulled is in just one
place; a load that succeeds has sent every row in a chunk and awaited every
chunk. This is the load that a client runs: the chunks of the run, and nothing
else, are what it sends. -/
theorem no_row_lost [LocalZone] (options : LoadOptions) (input : List Feature) :
    (∀ trace state, LoadRun options input trace (.ok state) → state.Accounts options input trace) ∧
    (∀ trace summary, LoadReturns options input trace (.ok summary) →
      trace.Complete options input summary ∧
      ∃ state, LoadRun options input trace (.ok state) ∧ state.inputEnded = true ∧ state.input = [] ∧
        state.inFlight = [] ∧ state.buffer = []) ∧
    ∀ (client : Client) (table : Text) (session : Session), ∃ trace,
      client.Finishes table options input session trace ((client.load table input options).on session) := by
  refine ⟨fun trace state run => run.accounts.1, fun trace summary returned => ?_,
    fun client table session => client.load_finishes table input options session⟩
  obtain ⟨state, run, idle, unfailed, rfl⟩ := returned.of_ok
  have ended := idle.inputEnded unfailed
  obtain ⟨noInput, noBuffer⟩ := run.accounts.2.ended ended
  exact ⟨idle.complete run unfailed, state, run, ended, noInput, (LoadState.idle_iff.mp idle).1, noBuffer⟩

end LiteralSql
