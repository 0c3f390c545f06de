import LiteralSql.Proofs.Rows.Prefixes

/-! A scanner accepts the documents and finds their rows.

Neither where a body is cut nor when rows are taken out makes a difference.
-/

set_option autoImplicit false

namespace LiteralSql

namespace RowScanner

inductive Call
  | feed (chunk : List UInt8)
  | nextRow

def fed (calls : List Call) : List UInt8 :=
  calls.flatMap fun
    | .feed chunk => chunk
    | .nextRow => []

/-- The rows that were taken out, and what is left behind the last call or the first refusal. -/
def drive (scanner : RowScanner) : List Call → List Row × Result
  | [] => ([], scanner, none)
  | .feed chunk :: rest =>
    match scanner.feed chunk with
    | (next, none) => next.drive rest
    | refused => ([], refused)
  | .nextRow :: rest =>
    let (row, next) := scanner.nextRow
    let (rows, result) := next.drive rest
    (row.toList ++ rows, result)

/-- The scanner as it would be had these rows not been taken out. -/
def restore (taken : List Row) (scanner : RowScanner) : RowScanner :=
  { scanner with ready := taken ++ scanner.ready }

section
variable (taken : List Row) (scanner : RowScanner)

theorem complete_restore (target : CaptureTarget) (bytes : List UInt8) :
    (scanner.restore taken).complete target bytes = (scanner.complete target bytes).map (restore taken) id := by
  unfold complete
  dsimp only
  cases target with
  | name => cases memberName? bytes <;> rfl
  | value => cases isValue bytes <;> rfl
  | row =>
    cases rowOfBytes? bytes with
    | none => rfl
    | some row => simp [restore]

theorem begin_restore (target : CaptureTarget) (byte : UInt8) :
    (scanner.restore taken).begin target byte = (scanner.begin target byte).map (restore taken) id := by
  unfold begin
  split
  · rfl
  · rw [complete_restore]
  · rfl

theorem stepOutside_restore (byte : UInt8) :
    (scanner.restore taken).stepOutside byte = (scanner.stepOutside byte).map (restore taken) id := by
  have begins (target : CaptureTarget) := begin_restore taken scanner target byte
  have moves (position : RowPosition) :
      (scanner.restore taken).moveTo position = (scanner.moveTo position).map (restore taken) id := rfl
  have refuses (error : DecodeError) :
      (scanner.restore taken).refuse error = (scanner.refuse error).map (restore taken) id := rfl
  have place : (scanner.restore taken).position = scanner.position := rfl
  have name : (scanner.restore taken).member = scanner.member := rfl
  rw [stepOutside, stepOutside, apply_ite (Prod.map (restore taken) id)]
  congr 1
  rw [place, name]
  cases scanner.position
  all_goals
    dsimp only
    simp only [begins, moves, refuses, ← apply_ite (Prod.map (restore taken) id)]

theorem step_restore (byte : UInt8) :
    (scanner.restore taken).step byte = (scanner.step byte).map (restore taken) id := by
  rw [step, step]
  have held : (scanner.restore taken).capture = scanner.capture := rfl
  rw [held]
  cases scanner.capture with
  | none => exact stepOutside_restore taken scanner byte
  | some collecting =>
    obtain ⟨target, capture⟩ := collecting
    dsimp only
    cases capture.push byte with
    | mk held progress =>
      cases progress with
      | error error => rfl
      | ok progress =>
        cases progress with
        | pending => rfl
        | complete => exact complete_restore taken scanner target held.bytes
        | ended =>
          dsimp only
          rw [complete_restore]
          cases scanner.complete target held.bytes with
          | mk next error =>
            cases error with
            | none => exact stepOutside_restore taken next byte
            | some error => rfl

theorem feed_restore (bytes : List UInt8) :
    (scanner.restore taken).feed bytes = (scanner.feed bytes).map (restore taken) id := by
  induction bytes generalizing scanner with
  | nil => rfl
  | cons byte rest ih =>
    rw [feed, feed, step_restore]
    cases scanner.step byte with
    | mk next error =>
      cases error with
      | none => exact ih next
      | some error => rfl

end

theorem feed_append (scanner : RowScanner) (first second : List UInt8) :
    scanner.feed (first ++ second) = match scanner.feed first with
      | (next, none) => next.feed second
      | refused => refused := by
  induction first generalizing scanner with
  | nil => rfl
  | cons byte rest ih =>
    rw [List.cons_append, feed, feed]
    cases scanner.step byte with
    | mk next error =>
      cases error with
      | none => exact ih next
      | some error => rfl

theorem feed_fed (scanner : RowScanner) (calls : List Call) :
    scanner.feed (fed calls) = (scanner.drive calls).2.map (restore (scanner.drive calls).1) id := by
  induction calls generalizing scanner with
  | nil => rfl
  | cons call rest ih =>
    cases call with
    | feed chunk =>
      have split : fed (.feed chunk :: rest) = chunk ++ fed rest := List.flatMap_cons
      rw [split, feed_append, drive]
      cases scanner.feed chunk with
      | mk next error =>
        cases error with
        | none => exact ih next
        | some error => rfl
    | nextRow =>
      have split : fed (.nextRow :: rest) = fed rest := List.flatMap_cons
      rw [split, drive]
      obtain ⟨position, capture, member, ready⟩ := scanner
      cases ready with
      | nil => exact ih _
      | cons row others =>
        -- Feeding never looks at the rows that wait, so taking one out first changes nothing.
        have shape : RowScanner.mk position capture member (row :: others) =
            restore [row] ⟨position, capture, member, others⟩ := rfl
        rw [shape, feed_restore, ih]
        rfl

theorem Takes.feed {scanner last : RowScanner} {script : Script} (takes : Takes scanner script last) :
    scanner.feed script.bytes = (last, none) ∧ last.ready = scanner.ready ++ script.rows := by
  induction takes with
  | nil => exact ⟨rfl, (List.append_nil _).symm⟩
  | @cons scanner next last byte row script step ready _ ih =>
    constructor
    · change scanner.feed (byte :: script.bytes) = _
      rw [RowScanner.feed, step]
      exact ih.1
    · rw [ih.2, ready, List.append_assoc]
      cases row <;> rfl

theorem Takes.take {scanner last : RowScanner} {script : Script} (takes : Takes scanner script last)
    (count : Nat) : ∃ between, Takes scanner (script.take count) between := by
  induction takes generalizing count with
  | @nil scanner =>
    rw [List.take_nil]
    exact ⟨scanner, .nil⟩
  | cons step ready _ ih =>
    cases count with
    | zero => exact ⟨_, .nil⟩
    | succ count =>
      obtain ⟨between, rest⟩ := ih count
      exact ⟨between, .cons step ready rest⟩

theorem feed_drive (calls : List Call) :
    feed {} (fed calls) = ((drive {} calls).2.1.restore (drive {} calls).1, (drive {} calls).2.2) :=
  feed_fed {} calls

theorem accepted_of_document {calls : List Call} {script : Script} (document : script.Document)
    (same : script.bytes = fed calls) : (drive {} calls).2.2 = none ∧ (drive {} calls).2.1.finish = none := by
  obtain ⟨name, takes⟩ := takes_document document
  have driven := feed_drive calls
  rw [← same, takes.feed.1] at driven
  obtain ⟨scanner, error⟩ := Prod.mk.inj driven
  refine ⟨error.symm, ?_⟩
  have finished := congrArg finish scanner
  exact finished.symm

theorem document_of_accepted {calls : List Call} (accepted : (drive {} calls).2.2 = none)
    (finished : (drive {} calls).2.1.finish = none) :
    ∃ script, Script.Document script ∧ script.bytes = fed calls := by
  have driven := feed_drive calls
  rw [accepted] at driven
  have start : Reached {} [] := .outside Script.Blank.nil
  obtain ⟨whole, same, reached⟩ := reached_feed start driven
  exact ⟨whole, document_of_finish reached finished, same⟩

theorem rows_of_part {calls : List Call} {script : Script} (document : script.Document)
    (part : fed calls <+: script.bytes) :
    (drive {} calls).2.2 = none ∧
      (drive {} calls).1 ++ (drive {} calls).2.1.ready = Script.rows (script.take (fed calls).length) := by
  obtain ⟨name, takes⟩ := takes_document document
  obtain ⟨between, takes⟩ := takes.take (fed calls).length
  have bytes : Script.bytes (script.take (fed calls).length) = fed calls := by
    rw [Script.bytes, List.map_take]
    exact (List.prefix_iff_eq_take.mp part).symm
  obtain ⟨taken, rows⟩ := takes.feed
  rw [bytes, feed_drive calls] at taken
  obtain ⟨scanner, error⟩ := Prod.mk.inj taken
  refine ⟨error, ?_⟩
  rw [← scanner] at rows
  exact rows

theorem feed_done {member : Text} {ready : List Row} {bytes : List UInt8} {last : RowScanner}
    (taken : (outside .done member ready).feed bytes = (last, none)) :
    ∀ byte ∈ bytes, Bytes.isBlank byte = true := by
  induction bytes with
  | nil => simp
  | cons byte rest ih =>
    rw [RowScanner.feed, step, outside, stepOutside] at taken
    by_cases blank : Bytes.isBlank byte = true
    · rw [if_pos blank] at taken
      exact List.forall_mem_cons.mpr ⟨blank, ih taken⟩
    · rw [if_neg blank] at taken
      cases taken

/-- Of the beginnings of a document only those without its last blanks are documents. -/
theorem blank_behind_document {first second : Script} (document : first.Document) (longer : second.Document)
    {rest : List UInt8} (split : second.bytes = first.bytes ++ rest) :
    ∀ byte ∈ rest, Bytes.isBlank byte = true := by
  obtain ⟨name, takes⟩ := takes_document document
  obtain ⟨other, whole⟩ := takes_document longer
  have fed := whole.feed.1
  rw [split, feed_append, takes.feed.1] at fed
  exact feed_done fed

theorem nextRow_eq (scanner : RowScanner) :
    scanner.nextRow = (scanner.ready.head?, { scanner with ready := scanner.ready.tail }) := by
  obtain ⟨position, capture, member, ready⟩ := scanner
  cases ready <;> rfl

theorem drive_append {scanner next : RowScanner} {calls : List Call} {rows : List Row}
    (driven : scanner.drive calls = (rows, next, none)) (more : List Call) :
    scanner.drive (calls ++ more) = (rows ++ (next.drive more).1, (next.drive more).2) := by
  induction calls generalizing scanner rows with
  | nil =>
    cases driven
    rfl
  | cons call rest ih =>
    cases call with
    | feed chunk =>
      rw [drive] at driven
      rw [List.cons_append, drive]
      cases taken : scanner.feed chunk with
      | mk between error =>
        rw [taken] at driven
        cases error with
        | none => exact ih driven
        | some error => cases driven
    | nextRow =>
      simp only [drive, List.cons_append, Prod.mk.injEq] at driven ⊢
      obtain ⟨taken, left⟩ := driven
      rw [ih (Prod.ext rfl left), ← taken, List.append_assoc]
      exact ⟨rfl, rfl⟩

theorem drive_nextRow (scanner : RowScanner) (count : Nat) :
    scanner.drive (List.replicate count .nextRow) =
      (scanner.ready.take count, { scanner with ready := scanner.ready.drop count }, none) := by
  induction count generalizing scanner with
  | zero => rfl
  | succ count ih =>
    rw [List.replicate_succ, drive, nextRow_eq]
    simp only [ih]
    cases scanner.ready <;> simp

theorem drive_take {calls : List Call} (unrefused : (drive {} calls).2.2 = none) (count : Nat) :
    drive {} (calls ++ List.replicate count .nextRow) =
      ((drive {} calls).1 ++ (drive {} calls).2.1.ready.take count,
        { (drive {} calls).2.1 with ready := (drive {} calls).2.1.ready.drop count }, none) := by
  have driven : drive {} calls = ((drive {} calls).1, (drive {} calls).2.1, none) := by rw [← unrefused]
  rw [drive_append driven, drive_nextRow]

theorem rows_of_document {calls : List Call} {script : Script} (document : script.Document)
    (same : script.bytes = fed calls) {count : Nat} (enough : script.rows.length ≤ count) :
    (drive {} (calls ++ List.replicate count .nextRow)).1 = script.rows ∧
      (drive {} (calls ++ List.replicate count .nextRow)).2.1.ready = [] := by
  have part : fed calls <+: script.bytes := same ▸ List.prefix_refl _
  obtain ⟨unrefused, rows⟩ := rows_of_part document part
  have whole : script.take (fed calls).length = script := by
    rw [← same, Script.bytes, List.length_map, List.take_length]
  rw [whole] at rows
  have bound : (drive {} calls).2.1.ready.length ≤ count := by
    rw [← rows, List.length_append] at enough
    omega
  rw [drive_take unrefused, List.take_of_length_le bound, List.drop_of_length_le bound]
  exact ⟨rows, rfl⟩

/-- A body is accepted if and only if it is a document, and then its rows are what is handed out. At every
point within a document the rows found so far are those whose closing brace has been fed: the ones that were
handed out, and behind them the ones that wait, of which the next call hands out the first. Nothing but the
blanks at the end of a document may be missing. -/
theorem decodes (calls : List Call) :
    ((drive {} calls).2.2 = none ∧ (drive {} calls).2.1.finish = none ↔
      ∃ script, Script.Document script ∧ script.bytes = fed calls) ∧
    (∀ script count, Script.Document script → script.bytes = fed calls → script.rows.length ≤ count →
      (drive {} (calls ++ List.replicate count .nextRow)).1 = script.rows ∧
        (drive {} (calls ++ List.replicate count .nextRow)).2.1.ready = []) ∧
    (∀ script, Script.Document script → fed calls <+: script.bytes →
      (drive {} calls).2.2 = none ∧
        (drive {} calls).1 ++ (drive {} calls).2.1.ready = Script.rows (script.take (fed calls).length) ∧
        ((drive {} calls).2.1.finish = none →
          ∀ byte ∈ script.bytes.drop (fed calls).length, Bytes.isBlank byte = true)) ∧
    ∀ scanner : RowScanner,
      scanner.nextRow = (scanner.ready.head?, { scanner with ready := scanner.ready.tail }) := by
  refine ⟨⟨?_, ?_⟩, fun script count document same enough => rows_of_document document same enough,
    fun script document part => ?_, nextRow_eq⟩
  · rintro ⟨accepted, finished⟩
    exact document_of_accepted accepted finished
  · rintro ⟨script, document, same⟩
    exact accepted_of_document document same
  · obtain ⟨unrefused, rows⟩ := rows_of_part document part
    refine ⟨unrefused, rows, fun finished => ?_⟩
    -- What has been fed is a document as well, so the rest stands behind a document.
    obtain ⟨shorter, first, same⟩ := document_of_accepted unrefused finished
    obtain ⟨rest, split⟩ := part
    rw [← split, List.drop_left]
    exact blank_behind_document first document (by rw [same, split])

/-- A bracket in a string closes nothing, and a row can be taken out behind its own brace. -/
example :
    let calls : List Call := [
      .feed (Utf8.encode "\x7b\"rows\":[\x7b\"a\":\"]\x7d".toList),
      .nextRow,
      .feed (Utf8.encode "\"\x7d,\x7b\x7d".toList),
      .nextRow,
      .feed (Utf8.encode "],\"n\":1 \x7d".toList)]
    ((drive {} calls).1.map Row.print = ["\x7b\"a\":\"]\x7d\"\x7d".toList]) ∧
      ((drive {} calls).2.1.ready.map Row.print = ["\x7b\x7d".toList]) ∧
      (drive {} calls).2.1.finish = none := by
  decide +kernel

end RowScanner

end LiteralSql
