import LiteralSql.Proofs.Rows.Decoding
import LiteralSql.Rows.Stream

/-! The rows of a body do not depend on its chunks.

What a reader gets is settled by the bytes and by how the body ends: the rows
that are complete before the first byte that is refused, and then the error. A
byte that is refused completes no row, because a row ends with its own bracket.
-/

set_option autoImplicit false

namespace LiteralSql

namespace Body

def bytes : Body → List UInt8
  | [] => []
  | .ok chunk :: rest => chunk ++ bytes rest
  | .error _ :: _ => []

def failure? : Body → Option ClientError
  | [] => none
  | .ok _ :: rest => failure? rest
  | .error error :: _ => some error

end Body

namespace Capture

theorem closeBracket_brackets {capture held : Capture} {opening : UInt8}
    (close : capture.closeBracket opening = (held, .ok .pending)) : held.brackets ≠ [] := by
  unfold closeBracket at close
  dsimp only at close
  split at close
  · obtain ⟨rfl, progress⟩ := result_inj close
    split at progress
    · cases progress
    · next some => exact fun none => some (List.isEmpty_iff.mpr none)
  · cases (Prod.mk.inj close).2

theorem push_brackets {capture held : Capture} {byte : UInt8} (push : capture.push byte = (held, .ok .pending))
    (opened : capture.brackets ≠ []) : held.brackets ≠ [] := by
  have bracketed : capture.brackets.isEmpty = false := List.isEmpty_eq_false_iff.mpr opened
  unfold Capture.push at push
  dsimp only at push
  split at push
  · unfold pushString at push
    dsimp only at push
    repeat' split at push
    all_goals
      obtain ⟨rfl, -⟩ := result_inj push
      exact opened
  · rw [bracketed, Bool.and_false, if_neg Bool.false_ne_true] at push
    repeat' split at push
    case isTrue =>
      obtain ⟨rfl, -⟩ := result_inj push
      exact opened
    case isFalse.isTrue =>
      obtain ⟨rfl, -⟩ := result_inj push
      exact List.cons_ne_nil _ _
    case isFalse.isFalse.isTrue => exact closeBracket_brackets push
    case isFalse.isFalse.isFalse.isTrue => exact closeBracket_brackets push
    case isFalse.isFalse.isFalse.isFalse.isTrue => cases (Prod.mk.inj push).2
    case isFalse.isFalse.isFalse.isFalse.isFalse =>
      obtain ⟨rfl, -⟩ := result_inj push
      exact opened

end Capture

namespace RowScanner

def RowOpen (scanner : RowScanner) : Prop :=
  ∀ capture, scanner.capture = some (.row, capture) → capture.brackets ≠ []

theorem RowOpen.of_none {scanner : RowScanner} (none : scanner.capture = none) : scanner.RowOpen := by
  intro capture some
  rw [none] at some
  cases some

theorem complete_capture {scanner next : RowScanner} {target : CaptureTarget} {span : List UInt8}
    {error : Option DecodeError} (judged : scanner.complete target span = (next, error)) : next.capture = none := by
  unfold complete at judged
  dsimp only at judged
  cases target with
  | name | row =>
    dsimp only at judged
    split at judged <;> cases judged <;> rfl
  | value =>
    dsimp only at judged
    split at judged <;> cases judged <;> rfl

theorem complete_ready {scanner next : RowScanner} {target : CaptureTarget} {span : List UInt8}
    {error : Option DecodeError} (judged : scanner.complete target span = (next, error))
    (other : target = .row → error ≠ none) : next.ready = scanner.ready := by
  unfold complete at judged
  dsimp only at judged
  cases target with
  | name | value =>
    dsimp only at judged
    split at judged <;> cases judged <;> rfl
  | row =>
    dsimp only at judged
    split at judged
    · cases judged
      exact absurd rfl (other rfl)
    · cases judged
      rfl

theorem begin_ready {scanner next : RowScanner} {target : CaptureTarget} {byte : UInt8} {error : DecodeError}
    (step : scanner.begin target byte = (next, some error)) : next.ready = scanner.ready := by
  unfold begin at step
  split at step
  · cases step
    rfl
  · exact complete_ready step fun _ => Option.some_ne_none _
  · cases step

theorem stepOutside_ready {scanner next : RowScanner} {byte : UInt8} {error : DecodeError}
    (step : scanner.stepOutside byte = (next, some error)) : next.ready = scanner.ready := by
  unfold stepOutside at step
  repeat' split at step
  all_goals first
    | exact begin_ready step
    | cases step; done
    | cases step; rfl

theorem begin_rowOpen {scanner next : RowScanner} {target : CaptureTarget} {byte : UInt8}
    (step : scanner.begin target byte = (next, none)) (row : target = .row → byte = 0x7B) : next.RowOpen := by
  unfold begin at step
  split at step
  · cases step
  · exact .of_none (complete_capture step)
  · next capture progress _ push =>
    cases step
    intro held same
    obtain ⟨rfl, rfl⟩ := Prod.mk.inj (Option.some.inj same)
    obtain rfl := row rfl
    cases push
    exact List.cons_ne_nil _ _

theorem stepOutside_rowOpen {scanner next : RowScanner} {byte : UInt8} (none : scanner.capture = none)
    (step : scanner.stepOutside byte = (next, Option.none)) : next.RowOpen := by
  unfold stepOutside at step
  repeat' split at step
  all_goals first
    | cases step; done
    | cases step; exact .of_none none
    | exact begin_rowOpen step fun _ => ‹byte = 0x7B›
    | exact begin_rowOpen step nofun

theorem step_rowOpen {scanner next : RowScanner} {byte : UInt8} (opened : scanner.RowOpen)
    (step : scanner.step byte = (next, none)) : next.RowOpen := by
  rw [RowScanner.step] at step
  cases collecting : scanner.capture with
  | none =>
    rw [collecting] at step
    exact stepOutside_rowOpen collecting step
  | some capturing =>
    obtain ⟨target, capture⟩ := capturing
    rw [collecting] at step
    dsimp only at step
    cases result : capture.push byte with
    | mk held progress =>
      rw [result] at step
      cases progress with
      | error error => cases step
      | ok progress =>
        cases progress with
        | pending =>
          cases step
          intro kept same
          obtain ⟨rfl, rfl⟩ := Prod.mk.inj (Option.some.inj same)
          exact Capture.push_brackets result (opened capture collecting)
        | complete => exact .of_none (complete_capture step)
        | ended =>
          dsimp only at step
          split at step
          · next between judged => exact stepOutside_rowOpen (complete_capture judged) step
          · next refused => exact absurd step (refused next)

theorem step_ready {scanner next : RowScanner} {byte : UInt8} {error : DecodeError} (opened : scanner.RowOpen)
    (step : scanner.step byte = (next, some error)) : next.ready = scanner.ready := by
  rw [RowScanner.step] at step
  cases collecting : scanner.capture with
  | none =>
    rw [collecting] at step
    exact stepOutside_ready step
  | some capturing =>
    obtain ⟨target, capture⟩ := capturing
    rw [collecting] at step
    dsimp only at step
    cases result : capture.push byte with
    | mk held progress =>
      rw [result] at step
      cases progress with
      | error refused =>
        cases step
        rfl
      | ok progress =>
        cases progress with
        | pending => cases step
        | complete => exact complete_ready step fun _ => Option.some_ne_none _
        | ended =>
          dsimp only at step
          split at step
          · next between judged =>
            refine (stepOutside_ready step).trans (complete_ready judged fun row => ?_)
            -- A row is not ended by the byte behind it: its bracket is open until its own last byte.
            subst row
            cases Capture.pushed result with
            | ended outside => exact absurd outside (opened capture collecting)
          · exact complete_ready step fun _ => Option.some_ne_none _

theorem feed_rowOpen {scanner last : RowScanner} {bytes : List UInt8} (opened : scanner.RowOpen)
    (fed : scanner.feed bytes = (last, none)) : last.RowOpen := by
  induction bytes generalizing scanner with
  | nil =>
    cases fed
    exact opened
  | cons byte rest ih =>
    rw [feed] at fed
    split at fed
    · next between step => exact ih (step_rowOpen opened step) fed
    · next refused => exact absurd fed (refused last)

/-- How many of the bytes are taken: all of them, or those before the first one that is refused. -/
structure TakesUntil (scanner : RowScanner) (bytes accepted behind : List UInt8) (last : RowScanner) : Prop where
  split : bytes = accepted ++ behind
  fed : scanner.feed accepted = (last, none)
  stopped : ∀ byte rest, behind = byte :: rest → ∃ next refused, last.step byte = (next, some refused)

theorem exists_takesUntil (scanner : RowScanner) (bytes : List UInt8) :
    ∃ accepted behind last, scanner.TakesUntil bytes accepted behind last := by
  induction bytes generalizing scanner with
  | nil => exact ⟨[], [], scanner, rfl, rfl, nofun⟩
  | cons byte rest ih =>
    cases step : scanner.step byte with
    | mk next error =>
      cases error with
      | none =>
        obtain ⟨accepted, behind, last, taken⟩ := ih next
        refine ⟨byte :: accepted, behind, last, by rw [taken.split]; rfl, ?_, taken.stopped⟩
        rw [feed, step]
        exact taken.fed
      | some refused =>
        refine ⟨[], byte :: rest, scanner, rfl, rfl, fun first others same => ?_⟩
        rw [← (List.cons.inj same).1]
        exact ⟨next, refused, step⟩

/-- The error that ends the rows: the one of a byte that is refused, else the one
that ends the body, else that the body ends too early. -/
def ending (failure : Option ClientError) : Result → Option ClientError
  | (_, some refused) => some (.decode refused)
  | (last, none) => failure.or (last.finish.map .decode)

theorem ending_eq_none_iff {failure : Option ClientError} {result : Result} :
    ending failure result = none ↔ failure = none ∧ result.2 = none ∧ result.1.finish = none := by
  obtain ⟨last, _ | refused⟩ := result
  · simp [ending, Option.or_eq_none_iff]
  · simp [ending]

namespace TakesUntil

variable {scanner last : RowScanner} {bytes accepted behind : List UInt8}

theorem ready (taken : scanner.TakesUntil bytes accepted behind last) (opened : scanner.RowOpen) :
    (scanner.feed bytes).1.ready = last.ready := by
  rw [taken.split, feed_append, taken.fed]
  cases behind with
  | nil => rfl
  | cons byte rest =>
    obtain ⟨next, refused, step⟩ := taken.stopped byte rest rfl
    dsimp only
    rw [feed, step]
    exact step_ready (feed_rowOpen opened taken.fed) step

theorem ending_of_all (taken : scanner.TakesUntil bytes accepted behind last) (all : behind = [])
    (failure : Option ClientError) :
    ending failure (scanner.feed bytes) = failure.or (last.finish.map .decode) := by
  rw [taken.split, all, List.append_nil, taken.fed]
  rfl

theorem ending_of_refused (taken : scanner.TakesUntil bytes accepted behind last) {byte : UInt8}
    (first : behind.head? = some byte) (failure : Option ClientError) :
    ∃ refused, (last.step byte).2 = some refused ∧ ending failure (scanner.feed bytes) = some (.decode refused) := by
  obtain ⟨rest, rfl⟩ := List.head?_eq_some_iff.mp first
  obtain ⟨next, refused, step⟩ := taken.stopped byte rest rfl
  refine ⟨refused, by rw [step], ?_⟩
  rw [taken.split, feed_append, taken.fed]
  dsimp only
  rw [feed, step]
  rfl

end TakesUntil

theorem items_restore (taken : List Row) (scanner : RowScanner) (body : Body) :
    (scanner.restore taken).items body = taken.map Except.ok ++ scanner.items body := by
  have ready : (scanner.restore taken).ready = taken ++ scanner.ready := rfl
  cases body with
  | nil =>
    rw [items, items, ready, List.map_append, List.append_assoc]
    rfl
  | cons part rest =>
    cases part with
    | error error => rw [items, items, ready, List.map_append, List.append_assoc]
    | ok chunk =>
      have drained : (scanner.restore taken).drain.2 = scanner.drain.2 := rfl
      rw [items, items, ready, drained, List.map_append]
      cases scanner.drain.2.feed chunk with
      | mk next error => cases error <;> simp only [List.append_assoc]

/-- It makes no difference that the rows are taken out before the next chunk is read. -/
theorem items_chunk (scanner : RowScanner) (chunk : List UInt8) (rest : Body) :
    scanner.items (.ok chunk :: rest) = match scanner.feed chunk with
      | (next, none) => next.items rest
      | (stopped, some refused) => stopped.ready.map Except.ok ++ [.error (.decode refused)] := by
  have whole : scanner = scanner.drain.2.restore scanner.ready := by
    rw [restore, drain, List.append_nil]
  have fed := feed_restore scanner.ready scanner.drain.2 chunk
  rw [← whole] at fed
  rw [items, fed]
  cases scanner.drain.2.feed chunk with
  | mk next error =>
    cases error with
    | none => exact (items_restore scanner.ready next rest).symm
    | some refused =>
      have ready : (next.restore scanner.ready).ready.map Except.ok =
        scanner.ready.map (Except.ok : Row → Except ClientError Row) ++ next.ready.map Except.ok := List.map_append
      exact (congrArg (· ++ [Except.error (ClientError.decode refused)]) ready).symm

theorem items_eq (scanner : RowScanner) (body : Body) :
    scanner.items body = (scanner.feed body.bytes).1.ready.map Except.ok ++
      (ending body.failure? (scanner.feed body.bytes)).toList.map Except.error := by
  induction body generalizing scanner with
  | nil =>
    rw [items, Body.bytes, feed, Body.failure?, ending, Option.none_or]
    cases scanner.finish <;> rfl
  | cons part rest ih =>
    cases part with
    | error error => rfl
    | ok chunk =>
      rw [items_chunk, Body.bytes, Body.failure?, feed_append]
      cases scanner.feed chunk with
      | mk next error =>
        cases error with
        | none => exact ih next
        | some refused => rfl

end RowScanner

namespace RowStream

theorem collect_rows (rows : List Row) (items : RowItems) :
    collect (rows.map Except.ok ++ items) = (collect items).map (rows ++ ·) := by
  induction rows with
  | nil =>
    rw [List.map_nil, List.nil_append]
    cases collect items <;> rfl
  | cons row rest ih =>
    rw [List.map_cons, List.cons_append, collect, ih]
    cases collect items <;> rfl

theorem collect_items (rows : List Row) (error? : Option ClientError) :
    collect (rows.map Except.ok ++ error?.toList.map Except.error) = match error? with
      | none => .ok rows
      | some error => .error error := by
  rw [collect_rows]
  cases error? with
  | none => exact congrArg Except.ok (List.append_nil rows)
  | some error => rfl

end RowStream

/-- However bytes are cut into chunks, a reader gets the rows that are complete before the
first byte that is refused, or before the body ends or fails; then the error, unless the
body neither fails nor is refused; and then nothing more. Read at once, the rows are all
there, or only the error is. -/
theorem rows_of_any_cut (bytes : List UInt8) (failure : Option ClientError) :
    ∃ accepted behind last ending, bytes = accepted ++ behind ∧ RowScanner.feed {} accepted = (last, none) ∧
      (∀ byte ∈ behind.head?, ∃ refused, (last.step byte).2 = some refused ∧ ending = some (.decode refused)) ∧
      (behind = [] → ending = failure.or (last.finish.map .decode)) ∧
      (ending = none ↔ failure = none ∧ (RowScanner.feed {} bytes).2 = none ∧
        (RowScanner.feed {} bytes).1.finish = none) ∧
      ∀ body : Body, body.bytes = bytes → body.failure? = failure →
        (RowStream.ofBody body).items = last.ready.map Except.ok ++ ending.toList.map Except.error ∧
        (RowStream.ofBody body).buffered = match ending with
          | none => .ok ⟨200, [], last.ready.map Except.ok⟩
          | some error => .error error := by
  obtain ⟨accepted, behind, last, taken⟩ := RowScanner.exists_takesUntil {} bytes
  refine ⟨accepted, behind, last, RowScanner.ending failure (RowScanner.feed {} bytes), taken.split, taken.fed,
    fun byte first => taken.ending_of_refused first failure, fun all => taken.ending_of_all all failure,
    RowScanner.ending_eq_none_iff, ?_⟩
  rintro body rfl rfl
  have items : (RowStream.ofBody body).items = last.ready.map Except.ok ++
      (RowScanner.ending body.failure? (RowScanner.feed {} body.bytes)).toList.map Except.error := by
    rw [← taken.ready (.of_none rfl)]
    exact RowScanner.items_eq {} body
  refine ⟨items, ?_⟩
  rw [RowStream.buffered, items, RowStream.collect_items]
  cases RowScanner.ending body.failure? (RowScanner.feed {} body.bytes) <;> rfl

def brokenOff : List UInt8 := Utf8.encode "\x7b\"rows\":[\x7b\"a\":1\x7d,\x7b\"a\"".toList

theorem rows_of_any_cut_bytewise :
    (RowStream.ofBody [.ok brokenOff, .error .transport]).items =
      (RowStream.ofBody (brokenOff.map (fun byte => .ok [byte]) ++ [.ok [], .error .transport])).items ∧
    (RowStream.ofBody [.ok brokenOff, .error .transport]).items.length = 2 := by
  obtain ⟨accepted, behind, last, ending, -, -, -, -, -, same⟩ := rows_of_any_cut brokenOff (some .transport)
  exact ⟨(same _ rfl rfl).1.trans (same _ rfl rfl).1.symm, by decide +kernel⟩

end LiteralSql
