import LiteralSql.Proofs.Rows.Acceptance

/-! What a scanner has taken is the beginning of a document. -/

set_option autoImplicit false

namespace LiteralSql

namespace Script

inductive AtItem (outer : Script → Prop) (opening : UInt8) (item : Script → Prop) : Bool → Script → Prop
  | first {before blanks : Script} (begun : outer before) (blank : Blank blanks) :
      AtItem outer opening item true (before ++ (still [opening] ++ blanks))
  | next {before items blanks : Script} (begun : outer before) (series : Series item items) (blank : Blank blanks) :
      AtItem outer opening item false (before ++ (still [opening] ++ (items ++ (still [0x2C] ++ blanks))))

inductive BehindItem (outer : Script → Prop) (opening : UInt8) (item : Script → Prop) : Script → Prop
  | intro {before items : Script} (begun : outer before) (series : Series item items) :
      BehindItem outer opening item (before ++ (still [opening] ++ items))

inductive BehindList (outer : Script → Prop) (opening closing : UInt8) (item : Script → Prop) : Script → Prop
  | intro {before list : Script} (begun : outer before) (is : Bracketed opening closing item list) :
      BehindList outer opening closing item (before ++ list)

section
variable {outer item : Script → Prop} {opening : UInt8} {first : Bool} {script : Script}

theorem AtItem.blank (lead : AtItem outer opening item first script) {blanks : Script} (blank : Blank blanks) :
    AtItem outer opening item first (script ++ blanks) := by
  cases lead with
  | first begun lead =>
    rw [List.append_assoc, List.append_assoc]
    exact .first begun (lead.append blank)
  | next begun series lead =>
    rw [List.append_assoc, List.append_assoc, List.append_assoc, List.append_assoc]
    exact .next begun series (lead.append blank)

theorem BehindItem.blank (listed : BehindItem outer opening item script) {blanks : Script} (blank : Blank blanks) :
    BehindItem outer opening item (script ++ blanks) := by
  cases listed with
  | intro begun series =>
    rw [List.append_assoc, List.append_assoc]
    exact .intro begun (series.trailing blank)

theorem AtItem.add (lead : AtItem outer opening item first script) {core : Script} (is : item core) :
    BehindItem outer opening item (script ++ core) := by
  have padded {blanks : Script} (blank : Blank blanks) : Padded item (blanks ++ core) := by
    have padded : Padded item (blanks ++ (core ++ [])) := .intro blank is .nil
    rwa [List.append_nil] at padded
  cases lead with
  | first begun blank =>
    rw [List.append_assoc, List.append_assoc]
    exact .intro begun (.single (padded blank))
  | next begun series blank =>
    rw [List.append_assoc, List.append_assoc, List.append_assoc, List.append_assoc]
    exact .intro begun (.more series (padded blank))

theorem BehindItem.comma (listed : BehindItem outer opening item script) :
    AtItem outer opening item false (script ++ still [0x2C]) := by
  cases listed with
  | intro begun series =>
    have lead : AtItem outer opening item false _ := .next begun series .nil
    rw [List.append_nil] at lead
    rwa [List.append_assoc, List.append_assoc]

theorem AtItem.close (lead : AtItem outer opening item true script) (closing : UInt8) :
    BehindList outer opening closing item (script ++ still [closing]) := by
  cases lead with
  | first begun blank =>
    rw [List.append_assoc, List.append_assoc]
    exact .intro begun (.empty blank)

theorem BehindItem.close (listed : BehindItem outer opening item script) (closing : UInt8) :
    BehindList outer opening closing item (script ++ still [closing]) := by
  cases listed with
  | intro begun series =>
    rw [List.append_assoc, List.append_assoc]
    exact .intro begun (.full series)

end

inductive AtColon (name : Text) : Script → Prop
  | intro {first : Bool} {lead blanks : Script} {key : List UInt8} (begun : AtItem Blank 0x7B Member first lead)
      (tight : Bytes.Tight key) (accepted : memberName? key = some name) (blank : Blank blanks) :
      AtColon name (lead ++ (still key ++ blanks))

inductive AtValue (name : Text) : Script → Prop
  | intro {before blanks : Script} (begun : AtColon name before) (blank : Blank blanks) :
      AtValue name (before ++ (still [0x3A] ++ blanks))

theorem AtValue.value {name : Text} {script value : Script} (begun : AtValue name script) (is : Value name value) :
    BehindItem Blank 0x7B Member (script ++ value) := by
  obtain ⟨⟨lead, tight, accepted, between⟩, trail⟩ := begun
  have listed := lead.add (.intro tight accepted between trail is)
  simpa only [List.append_assoc] using listed

theorem BehindList.member {script : Script}
    (listed : BehindList (AtValue RowScanner.rowsKey) 0x5B 0x5D RowSpan script) :
    BehindItem Blank 0x7B Member script := by
  obtain ⟨begun, is⟩ := listed
  exact begun.value (.rows rfl is)

theorem BehindList.document {script : Script} (listed : BehindList Blank 0x7B 0x7D Member script) :
    Document script := by
  obtain ⟨lead, is⟩ := listed
  have document : Document _ := .intro lead is .nil
  rwa [List.append_nil] at document

/-- What has been taken up to a place outside of all captures. -/
def Prefix : RowPosition → Text → Script → Prop
  | .start, _ => Blank
  | .firstName, _ => AtItem Blank 0x7B Member true
  | .name, _ => AtItem Blank 0x7B Member false
  | .colon, name => AtColon name
  | .value, name => AtValue name
  | .memberEnd, _ => BehindItem Blank 0x7B Member
  | .firstRow, _ => AtItem (AtValue RowScanner.rowsKey) 0x5B RowSpan true
  | .row, _ => AtItem (AtValue RowScanner.rowsKey) 0x5B RowSpan false
  | .rowEnd, _ => BehindItem (AtValue RowScanner.rowsKey) 0x5B RowSpan
  | .done, _ => Document

theorem Prefix.blank {position : RowPosition} {member : Text} {script blanks : Script}
    (begun : Prefix position member script) (blank : Blank blanks) : Prefix position member (script ++ blanks) := by
  cases position with
  | start => exact Blank.append begun blank
  | firstName | name | firstRow | row => exact AtItem.blank begun blank
  | memberEnd | rowEnd => exact BehindItem.blank begun blank
  | colon =>
    obtain ⟨lead, tight, accepted, trail⟩ := begun
    rw [List.append_assoc, List.append_assoc]
    exact .intro lead tight accepted (trail.append blank)
  | value =>
    obtain ⟨begun, trail⟩ := begun
    rw [List.append_assoc, List.append_assoc]
    exact .intro begun (trail.append blank)
  | done => exact Padded.trailing begun blank

end Script

namespace Capture

/-- A capture begins with a byte that is not blank; a scalar also ends with one. -/
structure Kept (capture : Capture) : Prop where
  first : ∃ byte rest, capture.bytes = byte :: rest ∧ Bytes.isBlank byte = false
  last : capture.brackets = [] → capture.inString = false →
    ∃ rest byte, capture.bytes = rest ++ [byte] ∧ Bytes.isBlank byte = false

theorem Kept.some {capture : Capture} (kept : capture.Kept) : capture.bytes ≠ [] := by
  obtain ⟨head, tail, begins, -⟩ := kept.first
  rw [begins]
  exact List.cons_ne_nil _ _

theorem Kept.push {capture held : Capture} {byte : UInt8} (push : capture.push byte = (held, .ok .pending))
    (kept : capture.Kept) : held.Kept := by
  have collected := push_bytes push nofun
  obtain ⟨head, tail, begins, visible⟩ := kept.first
  refine ⟨⟨head, tail ++ [byte], ?_, visible⟩, fun outside plain => ⟨capture.bytes, byte, collected, ?_⟩⟩
  · rw [collected, begins]
    rfl
  · cases pushed push with
    | within _ unfinished =>
      obtain inside | some := unfinished
      · rw [plain] at inside
        cases inside
      · exact absurd outside some
    -- Only the first byte of a scalar could be blank, and a capture does not begin with one.
    | scalar _ goesOn =>
      have some : capture.reversed ≠ [] := fun none => kept.some (by rw [bytes, none]; rfl)
      have continues := goesOn some
      rw [endsScalar, Bool.or_eq_false_iff, Bool.or_eq_false_iff, Bool.or_eq_false_iff] at continues
      exact continues.1.1.1

theorem Kept.begin {held : Capture} {byte : UInt8} (push : empty.push byte = (held, .ok .pending))
    (visible : Bytes.isBlank byte = false) : held.Kept ∧ held.bytes = [byte] := by
  have collected := push_bytes push nofun
  exact ⟨⟨⟨byte, [], collected, visible⟩, fun _ _ => ⟨[], byte, collected, visible⟩⟩, collected⟩

theorem Kept.complete {capture held : Capture} {byte : UInt8} (kept : capture.Kept)
    (push : capture.push byte = (held, .ok .complete)) :
    Bytes.Tight held.bytes ∧ held.bytes = capture.bytes ++ [byte] := by
  have collected := push_bytes push nofun
  obtain ⟨head, tail, begins, visible⟩ := kept.first
  cases pushed push with
  | closed _ last =>
    refine ⟨⟨⟨head, tail ++ [byte], ?_, visible⟩, capture.bytes, byte, collected, last⟩, collected⟩
    rw [collected, begins]
    rfl

theorem Kept.ended {capture held : Capture} {byte : UInt8} (kept : capture.Kept)
    (push : capture.push byte = (held, .ok .ended)) : Bytes.Tight held.bytes ∧ held = capture := by
  cases pushed push with
  | ended outside plain => exact ⟨⟨kept.first, kept.last outside plain⟩, rfl⟩

end Capture

namespace RowScanner

def Begins (position : RowPosition) (member : Text) (bytes : List UInt8) : CaptureTarget → Prop
  | .name => position = .firstName ∨ position = .name
  | .row => position = .firstRow ∨ position = .row
  | .value => position = .value ∧ ¬(member = rowsKey ∧ bytes.head? = some 0x5B)

theorem Begins.extend {position : RowPosition} {member : Text} {bytes more : List UInt8} {target : CaptureTarget}
    (some : bytes ≠ []) (begins : Begins position member bytes target) :
    Begins position member (bytes ++ more) target := by
  cases target with
  | name | row => exact begins
  | value =>
    cases bytes with
    | nil => exact absurd rfl some
    | cons first rest => exact begins

/-- What a scanner has taken that is in this state. -/
inductive Reached : RowScanner → Script → Prop
  | outside {position : RowPosition} {member : Text} {ready : List Row} {script : Script}
      (begun : Script.Prefix position member script) : Reached (outside position member ready) script
  | inside {position : RowPosition} {target : CaptureTarget} {capture : Capture} {member : Text} {ready : List Row}
      {script : Script} (begun : Script.Prefix position member script)
      (begins : Begins position member capture.bytes target) (kept : capture.Kept) :
      Reached (inside position target capture member ready) (script ++ Script.still capture.bytes)

theorem reached_complete {position : RowPosition} {target : CaptureTarget} {capture : Capture} {member : Text}
    {ready : List Row} {script : Script} (begun : Script.Prefix position member script) {span : List UInt8}
    (begins : Begins position member span target) (tight : Bytes.Tight span) {next : RowScanner}
    (judged : (inside position target capture member ready).complete target span = (next, none)) :
    ∃ position' member' ready' added, next = outside position' member' ready' ∧
      Script.bytes added = span ∧ Script.Prefix position' member' (script ++ added) := by
  -- What a capture may be next is decided by the place where it began.
  cases target with
  | name =>
    rw [complete] at judged
    dsimp only at judged
    split at judged
    · next name accepted =>
      cases judged
      refine ⟨.colon, name, ready, Script.still span, rfl, Script.bytes_still span, ?_⟩
      have lead : ∃ first, Script.AtItem Script.Blank 0x7B Script.Member first script := by
        obtain rfl | rfl := begins <;> exact ⟨_, begun⟩
      obtain ⟨first, lead⟩ := lead
      have colon : Script.AtColon name _ := .intro lead tight accepted .nil
      rwa [List.append_nil] at colon
    · cases judged
  | value =>
    obtain ⟨rfl, kept⟩ := begins
    rw [complete] at judged
    dsimp only at judged
    split at judged
    · next accepted =>
      cases judged
      exact ⟨.memberEnd, member, ready, Script.still span, rfl, Script.bytes_still span,
        Script.AtValue.value begun (.other tight accepted kept)⟩
    · cases judged
  | row =>
    rw [complete] at judged
    dsimp only at judged
    split at judged
    · next row accepted =>
      cases judged
      obtain ⟨-, inner, -, -, rfl, -⟩ := rowOfBytes?_whole tight accepted
      refine ⟨.rowEnd, member, ready ++ [row], Script.still inner ++ [(0x7D, some row)], rfl, ?_, ?_⟩
      · rw [Script.bytes_append, Script.bytes_still]
        rfl
      · have lead : ∃ first, Script.AtItem (Script.AtValue rowsKey) 0x5B Script.RowSpan first script := by
          obtain rfl | rfl := begins <;> exact ⟨_, begun⟩
        obtain ⟨first, lead⟩ := lead
        exact lead.add (.intro tight accepted)
    · cases judged

theorem reached_begin {position : RowPosition} {target : CaptureTarget} {member : Text} {ready : List Row}
    {script : Script} (begun : Script.Prefix position member script) {byte : UInt8}
    (visible : Bytes.isBlank byte = false) {next : RowScanner}
    (step : (outside position member ready).begin target byte = (next, none))
    (begins : Begins position member [byte] target) : Reached next (script ++ Script.still [byte]) := by
  rw [begin] at step
  split at step
  · cases step
  · next push => cases Capture.push_empty push
  · next held progress _ push =>
    cases Capture.push_empty push
    cases step
    obtain ⟨kept, collected⟩ := Capture.Kept.begin push visible
    rw [← collected] at begins ⊢
    exact .inside begun begins kept

theorem reached_outside {position : RowPosition} {member : Text} {ready : List Row} {script : Script}
    (begun : Script.Prefix position member script) {byte : UInt8} {next : RowScanner}
    (step : (outside position member ready).stepOutside byte = (next, none)) :
    Reached next (script ++ Script.still [byte]) := by
  rw [stepOutside] at step
  split at step
  · next blank =>
    cases step
    exact .outside (begun.blank (.single blank))
  · next visible =>
    rw [Bool.not_eq_true] at visible
    -- A byte that is not blank moves on, begins a capture, or is refused.
    cases position
    all_goals
      dsimp only [outside] at step
      repeat' split at step
    any_goals cases step; done
    case start.isTrue opening =>
      cases step
      have lead : Script.Prefix .firstName member _ := .first begun .nil
      rw [List.append_nil, ← opening] at lead
      exact .outside lead
    case firstName.isTrue => exact reached_begin begun visible step (Or.inl rfl)
    case name.isTrue => exact reached_begin begun visible step (Or.inr rfl)
    case firstRow.isTrue => exact reached_begin begun visible step (Or.inl rfl)
    case row.isTrue => exact reached_begin begun visible step (Or.inr rfl)
    case firstName.isFalse.isTrue closing =>
      cases step
      rw [closing]
      exact .outside (Script.AtItem.close begun 0x7D).document
    case memberEnd.isFalse.isTrue closing =>
      cases step
      rw [closing]
      exact .outside (Script.BehindItem.close begun 0x7D).document
    case firstRow.isFalse.isTrue closing =>
      cases step
      rw [closing]
      exact .outside (Script.AtItem.close begun 0x5D).member
    case rowEnd.isFalse.isTrue closing =>
      cases step
      rw [closing]
      exact .outside (Script.BehindItem.close begun 0x5D).member
    case memberEnd.isTrue comma =>
      cases step
      rw [comma]
      exact .outside (Script.BehindItem.comma begun)
    case rowEnd.isTrue comma =>
      cases step
      rw [comma]
      exact .outside (Script.BehindItem.comma begun)
    case colon.isTrue colon =>
      cases step
      have value : Script.AtValue member _ := .intro begun .nil
      rw [List.append_nil, ← colon] at value
      exact .outside value
    case value =>
      change (if byte = 0x5B ∧ member = rowsKey then (outside .value member ready).moveTo .firstRow
        else (outside .value member ready).begin .value byte) = _ at step
      by_cases array : byte = 0x5B ∧ member = rowsKey
      · rw [if_pos array] at step
        cases step
        obtain ⟨opening, rfl⟩ := array
        have lead : Script.Prefix .firstRow rowsKey _ := .first begun .nil
        rw [List.append_nil, ← opening] at lead
        exact .outside lead
      · rw [if_neg array] at step
        exact reached_begin begun visible step ⟨rfl, fun same => array ⟨Option.some.inj same.2, same.1⟩⟩

theorem reached_step {scanner next : RowScanner} {script : Script} {byte : UInt8} (reached : Reached scanner script)
    (step : scanner.step byte = (next, none)) :
    ∃ whole, whole.bytes = script.bytes ++ [byte] ∧ Reached next whole := by
  cases reached with
  | outside begun =>
    refine ⟨_, ?_, reached_outside begun step⟩
    rw [Script.bytes_append, Script.bytes_still]
  | @inside position target capture member ready before begun begins kept =>
    rw [RowScanner.step, inside] at step
    dsimp only at step
    cases result : capture.push byte with
    | mk held progress =>
      rw [result] at step
      cases progress with
      | error error => cases step
      | ok progress =>
        cases progress with
        | pending =>
          cases step
          have collected := Capture.push_bytes result (by decide)
          refine ⟨before ++ Script.still held.bytes, ?_, .inside begun ?_ (kept.push result)⟩
          · rw [Script.bytes_append, Script.bytes_append, Script.bytes_still, Script.bytes_still, collected,
              List.append_assoc]
          · rw [collected]
            exact begins.extend kept.some
        | complete =>
          obtain ⟨tight, collected⟩ := kept.complete result
          have extended : Begins position member held.bytes target := by
            rw [collected]
            exact begins.extend kept.some
          obtain ⟨_, _, _, added, rfl, same, begun⟩ := reached_complete begun extended tight step
          refine ⟨before ++ added, ?_, .outside begun⟩
          rw [Script.bytes_append, Script.bytes_append, same, Script.bytes_still, collected, List.append_assoc]
        | ended =>
          -- The scalar was complete without this byte, which is then read outside.
          obtain ⟨tight, rfl⟩ := kept.ended result
          dsimp only at step
          cases judged : complete (inside position target held member ready) target held.bytes with
          | mk between refused =>
            unfold inside at judged
            rw [judged] at step
            cases refused with
            | some error => cases step
            | none =>
              obtain ⟨_, _, _, added, rfl, same, begun⟩ := reached_complete begun begins tight judged
              refine ⟨before ++ added ++ Script.still [byte], ?_, reached_outside begun step⟩
              rw [Script.bytes_append, Script.bytes_append, Script.bytes_append, same, Script.bytes_still,
                Script.bytes_still]

theorem reached_feed {scanner next : RowScanner} {script : Script} {bytes : List UInt8}
    (reached : Reached scanner script) (fed : scanner.feed bytes = (next, none)) :
    ∃ whole, whole.bytes = script.bytes ++ bytes ∧ Reached next whole := by
  induction bytes generalizing scanner script with
  | nil =>
    cases fed
    exact ⟨script, (List.append_nil _).symm, reached⟩
  | cons byte rest ih =>
    rw [feed] at fed
    split at fed
    · next between step =>
      obtain ⟨longer, same, reached⟩ := reached_step reached step
      obtain ⟨whole, same', reached⟩ := ih reached fed
      refine ⟨whole, ?_, reached⟩
      rw [same', same, List.append_assoc]
      rfl
    · next refused => exact absurd fed (refused next)

theorem document_of_finish {scanner : RowScanner} {script : Script} (reached : Reached scanner script)
    (finished : scanner.finish = none) : script.Document := by
  cases reached with
  | @outside position member ready _ begun =>
    cases position with
    | done => exact begun
    | _ => cases finished
  | @inside position target capture member ready _ begun begins kept =>
    cases position with
    | done =>
      cases target with
      | name | row => cases begins <;> contradiction
      | value => cases begins.1
    | _ => cases finished

end RowScanner

end LiteralSql
