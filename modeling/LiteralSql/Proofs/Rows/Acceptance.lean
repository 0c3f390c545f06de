import LiteralSql.Proofs.Rows.Grammar

/-! A scanner takes every document.

An item in brackets is followed by a blank, a comma or the closing bracket. A
number is known to be complete only then, so what the end of an item leaves is
compared with the place behind it on these bytes.
-/

set_option autoImplicit false

namespace LiteralSql

namespace Capture

theorem push_bytes {capture held : Capture} {byte : UInt8} {progress : Progress}
    (push : capture.push byte = (held, .ok progress)) (taken : progress ≠ .ended) :
    held.bytes = capture.bytes ++ [byte] := by
  have kept : held.reversed = byte :: capture.reversed := by
    cases pushed push with
    | within same | scalar same | closed same => exact same
    | ended => exact absurd rfl taken
  rw [bytes, kept, List.reverse_cons, bytes]

theorem absorb_cons_inv {capture held : Capture} {byte : UInt8} {rest : List UInt8}
    (done : capture.absorb (byte :: rest) = some held) :
    ∃ next, capture.push byte = (next, .ok .pending) ∧ next.absorb rest = some held := by
  rw [absorb] at done
  split at done
  · next next push => exact ⟨next, push, done⟩
  · cases done

theorem absorb_bytes {capture held : Capture} {bytes : List UInt8} (done : capture.absorb bytes = some held) :
    held.bytes = capture.bytes ++ bytes := by
  induction bytes generalizing capture with
  | nil =>
    cases done
    exact (List.append_nil _).symm
  | cons byte rest ih =>
    obtain ⟨next, push, done⟩ := absorb_cons_inv done
    rw [ih done, push_bytes push nofun, List.append_assoc]
    rfl

theorem push_empty {byte : UInt8} {held : Capture} {progress : Progress}
    (push : empty.push byte = (held, .ok progress)) : progress = .pending := by
  have first : (empty.push byte).2 = .ok .pending ∨ ∃ error, (empty.push byte).2 = .error error := by
    have outside : ((!empty.reversed.isEmpty) && empty.brackets.isEmpty) = false := rfl
    unfold Capture.push
    rw [if_neg (by decide), outside, if_neg (by decide)]
    repeat' split
    all_goals first
      | exact .inl rfl
      | exact .inr ⟨_, rfl⟩
  rw [push] at first
  obtain same | ⟨_, same⟩ := first
  · cases same
    rfl
  · cases same

theorem push_bare {reversed : List UInt8} {byte : UInt8} (scalar : isScalarByte byte = true) :
    push ⟨reversed, [], false, false⟩ byte = (⟨byte :: reversed, [], false, false⟩, .ok .pending) := by
  simp only [isScalarByte, isNeutral, Bool.and_eq_true, bne_iff_ne, ne_eq, Bool.not_eq_true'] at scalar
  obtain ⟨⟨⟨⟨⟨⟨⟨quote, openObject⟩, openArray⟩, closeObject⟩, closeArray⟩, inner⟩, colon⟩, -⟩ := scalar
  have comma : byte ≠ 0x2C := by
    rintro rfl
    cases inner
  simp [push, inner, quote, openObject, openArray, closeObject, closeArray, comma, colon]

theorem scalar_outside {byte : UInt8} (scalar : isScalarByte byte = true) :
    Bytes.isBlank byte = false ∧ byte ≠ 0x5B := by
  simp only [isScalarByte, isNeutral, endsScalar, Bool.and_eq_true, bne_iff_ne, ne_eq, Bool.not_eq_true',
    Bool.or_eq_false_iff] at scalar
  exact ⟨scalar.1.1.2.1.1.1, scalar.1.1.1.1.1.2⟩

theorem push_ends {reversed : List UInt8} (some : reversed ≠ []) {byte : UInt8} (ends : endsScalar byte = true) :
    push ⟨reversed, [], false, false⟩ byte = (⟨reversed, [], false, false⟩, .ok .ended) := by
  have begun : reversed.isEmpty = false := List.isEmpty_eq_false_iff.mpr some
  simp [push, begun, ends]

theorem absorb_bare {reversed bytes : List UInt8} (scalar : ∀ byte ∈ bytes, isScalarByte byte = true) :
    absorb ⟨reversed, [], false, false⟩ bytes = some ⟨bytes.reverse ++ reversed, [], false, false⟩ :=
  absorb_steady (fun byte member _ => push_bare (scalar byte member)) reversed

end Capture

namespace RowScanner

def outside (position : RowPosition) (member : Text) (ready : List Row) : RowScanner :=
  ⟨position, none, member, ready⟩

def inside (position : RowPosition) (target : CaptureTarget) (capture : Capture) (member : Text)
    (ready : List Row) : RowScanner :=
  ⟨position, some (target, capture), member, ready⟩

/-- Bytes that are taken one by one, with the rows that they add. -/
inductive Takes : RowScanner → Script → RowScanner → Prop
  | nil {scanner : RowScanner} : Takes scanner [] scanner
  | cons {scanner next last : RowScanner} {byte : UInt8} {row : Option Row} {script : Script}
      (step : scanner.step byte = (next, none)) (ready : next.ready = scanner.ready ++ row.toList)
      (rest : Takes next script last) : Takes scanner ((byte, row) :: script) last

theorem Takes.append {first between last : RowScanner} {left right : Script} (before : Takes first left between)
    (behind : Takes between right last) : Takes first (left ++ right) last := by
  induction before with
  | nil => exact behind
  | cons step ready _ ih => exact .cons step ready (ih behind)

theorem Takes.single {scanner next : RowScanner} {byte : UInt8} (step : scanner.step byte = (next, none))
    (ready : next.ready = scanner.ready) : Takes scanner (Script.still [byte]) next :=
  .cons step (ready.trans (List.append_nil _).symm) .nil

theorem Takes.blank {position : RowPosition} {member : Text} {ready : List Row} {script : Script}
    (blank : Script.Blank script) :
    Takes (outside position member ready) script (outside position member ready) := by
  obtain ⟨bytes, rfl, blank⟩ := blank
  induction bytes with
  | nil => exact .nil
  | cons byte rest ih =>
    rw [List.forall_mem_cons] at blank
    have step : (outside position member ready).step byte = (outside position member ready, none) := by
      rw [step, outside, stepOutside, if_pos blank.1]
    exact (Takes.single step rfl).append (ih blank.2)

section
variable {position : RowPosition} {target : CaptureTarget} {member : Text} {ready : List Row}

theorem Takes.absorb {capture held : Capture} {bytes : List UInt8} (done : capture.absorb bytes = some held) :
    Takes (inside position target capture member ready) (Script.still bytes)
      (inside position target held member ready) := by
  induction bytes generalizing capture with
  | nil =>
    cases done
    exact .nil
  | cons byte rest ih =>
    obtain ⟨next, push, done⟩ := Capture.absorb_cons_inv done
    have step : (inside position target capture member ready).step byte =
        (inside position target next member ready, none) := by
      rw [step, inside]
      dsimp only
      rw [push]
      rfl
    exact (Takes.single step rfl).append (ih done)

theorem Takes.whole {opening : UInt8} {span : List UInt8} (whole : Capture.Whole span opening)
    (begins : (outside position member ready).step opening = (outside position member ready).begin target opening)
    {next : RowScanner} {row : Option Row}
    (judged : ∀ held, (inside position target held member ready).complete target span = (next, none))
    (added : next.ready = ready ++ row.toList) :
    ∃ inner, span = inner ++ [Capture.partner opening] ∧
      Takes (outside position member ready) (Script.still inner ++ [(Capture.partner opening, row)]) next := by
  obtain ⟨first, inner, held, done, rfl, absorbed, push⟩ := whole
  refine ⟨inner, rfl, ?_⟩
  -- No value is complete with one byte, so there is a byte that begins the capture.
  cases inner with
  | nil =>
    cases absorbed
    cases Capture.push_empty push
  | cons byte rest =>
    cases first
    obtain ⟨begun, start, absorbed⟩ := Capture.absorb_cons_inv absorbed
    have collected : done.bytes = opening :: rest ++ [Capture.partner opening] := by
      rw [Capture.push_bytes push nofun, Capture.absorb_bytes absorbed, Capture.push_bytes start nofun]
      rfl
    have first : (outside position member ready).step opening =
        (inside position target begun member ready, none) := by
      rw [begins, begin, start]
      rfl
    have last : (inside position target held member ready).step (Capture.partner opening) = (next, none) := by
      rw [step, inside]
      dsimp only
      rw [push]
      dsimp only
      rw [collected]
      exact judged held
    exact (Takes.single first rfl).append ((Takes.absorb absorbed).append (.cons last added .nil))

end

/-- What follows an item does the same as it does behind the complete item. -/
structure Settles (position : RowPosition) (member : Text) (ready : List Row) (scanner : RowScanner) : Prop where
  same : scanner.ready = ready
  step : ∀ byte, Capture.endsScalar byte = true →
    scanner.step byte = (outside position member ready).step byte

theorem Settles.outside (position : RowPosition) (member : Text) (ready : List Row) :
    Settles position member ready (outside position member ready) := ⟨rfl, fun _ _ => rfl⟩

theorem Settles.single {position : RowPosition} {member : Text} {ready : List Row} {scanner next : RowScanner}
    (settles : Settles position member ready scanner) {byte : UInt8} (ends : Capture.endsScalar byte = true)
    (step : (RowScanner.outside position member ready).step byte = (next, none)) (kept : next.ready = ready) :
    Takes scanner (Script.still [byte]) next :=
  .single ((settles.step byte ends).trans step) (kept.trans settles.same.symm)

theorem Settles.blank {position : RowPosition} {member : Text} {ready : List Row} {scanner : RowScanner}
    (settles : Settles position member ready scanner) {script : Script} (blank : Script.Blank script) :
    ∃ last, Takes scanner script last ∧ Settles position member ready last := by
  obtain ⟨bytes, rfl, blank⟩ := blank
  cases bytes with
  | nil => exact ⟨scanner, .nil, settles⟩
  | cons byte rest =>
    rw [List.forall_mem_cons] at blank
    have ends : Capture.endsScalar byte = true := by
      rw [Capture.endsScalar, blank.1]
      rfl
    have step : (RowScanner.outside position member ready).step byte =
        (RowScanner.outside position member ready, none) := by
      rw [RowScanner.step, RowScanner.outside, stepOutside, if_pos blank.1]
    exact ⟨_, (settles.single ends step rfl).append (.blank ⟨rest, rfl, blank.2⟩), .outside position member ready⟩

theorem step_value {member : Text} {ready : List Row} {byte : UInt8} (visible : Bytes.isBlank byte = false)
    (kept : ¬(byte = 0x5B ∧ member = rowsKey)) :
    (outside .value member ready).step byte = (outside .value member ready).begin .value byte := by
  rw [step, outside, stepOutside, visible]
  exact if_neg kept

/-- A number or a keyword is kept until a byte ends it. -/
theorem takes_bare {span : List UInt8} (bare : Capture.Bare span) (accepted : isValue span = true)
    (member : Text) (ready : List Row) :
    ∃ last, Takes (outside .value member ready) (Script.still span) last ∧
      Settles .memberEnd member ready last := by
  obtain ⟨some, scalar⟩ := bare
  cases span with
  | nil => exact absurd rfl some
  | cons byte rest =>
    rw [List.forall_mem_cons] at scalar
    have begun : Capture.empty.push byte = (⟨[byte], [], false, false⟩, .ok .pending) :=
      Capture.push_bare scalar.1
    have first : (outside .value member ready).step byte =
        (inside .value .value ⟨[byte], [], false, false⟩ member ready, none) := by
      obtain ⟨visible, bracket⟩ := Capture.scalar_outside scalar.1
      rw [step_value visible fun array => bracket array.1, begin, begun]
      rfl
    refine ⟨_, (Takes.single first rfl).append (.absorb (Capture.absorb_bare scalar.2)), rfl, ?_⟩
    -- The delimiter ends the value and is then read once more behind it.
    intro delimiter ends
    rw [step, inside]
    dsimp only
    rw [Capture.push_ends (by simp) ends]
    have collected : Capture.bytes ⟨rest.reverse ++ [byte], [], false, false⟩ = byte :: rest := by
      simp [Capture.bytes]
    dsimp only
    rw [collected, complete, accepted]
    rfl

inductive Level
  | members
  | rows

namespace Level

def first : Level → RowPosition
  | .members => .firstName
  | .rows => .firstRow

def next : Level → RowPosition
  | .members => .name
  | .rows => .row

def itemEnd : Level → RowPosition
  | .members => .memberEnd
  | .rows => .rowEnd

def behind : Level → RowPosition
  | .members => .done
  | .rows => .memberEnd

def closing : Level → UInt8
  | .members => 0x7D
  | .rows => 0x5D

theorem ends_closing (level : Level) : Capture.endsScalar level.closing = true := by
  cases level <;> rfl

theorem step_comma (level : Level) (member : Text) (ready : List Row) :
    (outside level.itemEnd member ready).step 0x2C = (outside level.next member ready, none) := by
  cases level <;> rfl

theorem step_closing (level : Level) (member : Text) (ready : List Row) :
    (outside level.itemEnd member ready).step level.closing = (outside level.behind member ready, none) := by
  cases level <;> rfl

theorem step_empty (level : Level) (member : Text) (ready : List Row) :
    (outside level.first member ready).step level.closing = (outside level.behind member ready, none) := by
  cases level <;> rfl

def Reads (level : Level) (item : Script → Prop) : Prop :=
  ∀ {script : Script}, item script → ∀ {position : RowPosition}, position = level.first ∨ position = level.next →
    ∀ (member : Text) (ready : List Row), ∃ last name, Takes (outside position member ready) script last ∧
      Settles level.itemEnd name (ready ++ script.rows) last

section
variable {level : Level} {item : Script → Prop} (reads : level.Reads item)
include reads

theorem Reads.padded : level.Reads (Script.Padded item) := by
  intro script padded position begins member ready
  obtain ⟨lead, is, trail⟩ := padded
  obtain ⟨between, name, taken, settles⟩ := reads is begins member ready
  obtain ⟨last, rest, settles⟩ := settles.blank trail
  refine ⟨last, name, (Takes.blank lead).append (taken.append rest), ?_⟩
  rwa [Script.rows_append, Script.rows_append, lead.rows, trail.rows, List.nil_append, List.append_nil]

theorem Reads.series {script : Script} (series : Script.Series item script) (member : Text) (ready : List Row) :
    ∃ last name, Takes (outside level.first member ready) script last ∧
      Settles level.itemEnd name (ready ++ script.rows) last := by
  induction series with
  | single is => exact reads.padded is (.inl rfl) member ready
  -- The comma settles the items before it, whatever state they ended in.
  | more _ is ih =>
    obtain ⟨between, name, taken, settles⟩ := ih
    have comma := settles.single (by decide) (level.step_comma name _) rfl
    obtain ⟨last, other, rest, settles⟩ := reads.padded is (.inr rfl) name (ready ++ _)
    refine ⟨last, other, taken.append (comma.append rest), ?_⟩
    rwa [Script.rows_append, Script.rows_append, Script.rows_still, List.nil_append, ← List.append_assoc]

theorem Reads.bracketed {opening : UInt8} {position : RowPosition} {member : Text} {ready : List Row}
    (opens : (outside position member ready).step opening = (outside level.first member ready, none))
    {script : Script} (bracketed : Script.Bracketed opening level.closing item script) :
    ∃ name, Takes (outside position member ready) script (outside level.behind name (ready ++ script.rows)) := by
  have start : Takes (outside position member ready) (Script.still [opening]) _ := .single opens rfl
  cases bracketed with
  | empty blank =>
    refine ⟨member, start.append ((Takes.blank blank).append (.single ?_ ?_))⟩
    · rw [Script.rows_append, Script.rows_append, Script.rows_still, blank.rows, Script.rows_still, List.append_nil,
        List.append_nil, List.append_nil]
      exact level.step_empty member ready
    · simp [outside, blank.rows]
  | full series =>
    obtain ⟨last, name, taken, settles⟩ := reads.series series member ready
    refine ⟨name, start.append (taken.append ?_)⟩
    have close := settles.single level.ends_closing (level.step_closing name _) rfl
    rwa [Script.rows_append, Script.rows_append, Script.rows_still, Script.rows_still, List.append_nil]

end

end Level

theorem reads_row : Level.rows.Reads Script.RowSpan := by
  intro script is position begins member ready
  obtain ⟨tight, accepted⟩ := is
  next inner row =>
    have starts : (outside position member ready).step 0x7B = (outside position member ready).begin .row 0x7B := by
      obtain rfl | rfl := begins <;> rfl
    have judged (held : Capture) : (inside position .row held member ready).complete .row (inner ++ [0x7D]) =
        (outside .rowEnd member (ready ++ [row]), none) := by
      rw [complete, accepted]
      rfl
    have added : (outside .rowEnd member (ready ++ [row])).ready = ready ++ (some row).toList := rfl
    obtain ⟨same, split, taken⟩ := Takes.whole (rowOfBytes?_whole tight accepted) starts judged added
    rw [← List.append_cancel_right split] at taken
    refine ⟨_, member, taken, ?_⟩
    rw [Script.rows_append, Script.rows_still]
    exact .outside _ _ _

theorem takes_name {key : List UInt8} (tight : Bytes.Tight key) {name : Text}
    (accepted : memberName? key = some name) {position : RowPosition}
    (begins : position = .firstName ∨ position = .name) (member : Text) (ready : List Row) :
    Takes (outside position member ready) (Script.still key) (outside .colon name ready) := by
  have starts : (outside position member ready).step 0x22 = (outside position member ready).begin .name 0x22 := by
    obtain rfl | rfl := begins <;> rfl
  have judged (held : Capture) : (inside position .name held member ready).complete .name key =
      (outside .colon name ready, none) := by
    rw [complete, accepted]
    rfl
  have added : (outside .colon name ready).ready = ready ++ Option.toList none := (List.append_nil ready).symm
  obtain ⟨inner, rfl, taken⟩ := Takes.whole (memberName?_whole tight accepted) starts judged added
  rw [Script.still_append]
  exact taken

theorem takes_value {name : Text} {value : Script} (is : Script.Value name value) (ready : List Row) :
    ∃ last member, Takes (outside .value name ready) value last ∧
      Settles .memberEnd member (ready ++ value.rows) last := by
  cases is with
  | rows key is =>
    subst key
    have opens : (outside .value rowsKey ready).step 0x5B = (outside Level.rows.first rowsKey ready, none) := rfl
    obtain ⟨member, taken⟩ := reads_row.bracketed opens is
    exact ⟨_, member, taken, .outside _ _ _⟩
  | @other span tight accepted kept =>
    rw [Script.rows_still, List.append_nil]
    obtain bare | ⟨opening, whole⟩ := isValue_cases tight accepted
    · obtain ⟨last, taken, settles⟩ := takes_bare bare accepted name ready
      exact ⟨last, name, taken, settles⟩
    · have starts : (outside .value name ready).step opening = (outside .value name ready).begin .value opening := by
        obtain ⟨byte, rest, rfl, visible⟩ := tight.first
        have same : byte = opening := Option.some.inj whole.1
        rw [same] at visible kept
        exact step_value visible fun array => kept ⟨array.2, congrArg some array.1⟩
      have judged (held : Capture) : (inside .value .value held name ready).complete .value span =
          (outside .memberEnd name ready, none) := by
        rw [complete, if_pos accepted]
        rfl
      have added : (outside .memberEnd name ready).ready = ready ++ Option.toList none :=
        (List.append_nil ready).symm
      obtain ⟨inner, rfl, taken⟩ := Takes.whole whole starts judged added
      rw [Script.still_append]
      exact ⟨_, name, taken, .outside _ _ _⟩

theorem reads_member : Level.members.Reads Script.Member := by
  intro script is position begins member ready
  obtain ⟨tight, accepted, lead, trail, is⟩ := is
  have key := takes_name tight accepted begins member ready
  have colon {name : Text} : Takes (outside .colon name ready) (Script.still [0x3A]) (outside .value name ready) :=
    .single rfl rfl
  obtain ⟨last, name, value, settles⟩ := takes_value is ready
  refine ⟨last, name, key.append ((Takes.blank lead).append (colon.append ((Takes.blank trail).append value))), ?_⟩
  rwa [Script.rows_append, Script.rows_append, Script.rows_append, Script.rows_append, Script.rows_still, lead.rows,
    Script.rows_still, trail.rows, List.nil_append, List.nil_append, List.nil_append, List.nil_append]

theorem takes_document {script : Script} (document : Script.Document script) :
    ∃ name, Takes {} script (outside .done name script.rows) := by
  obtain ⟨lead, is, trail⟩ := document
  have opens : (outside .start [] []).step 0x7B = (outside Level.members.first [] [], none) := rfl
  obtain ⟨name, taken⟩ := reads_member.bracketed opens is
  refine ⟨name, (Takes.blank lead).append (taken.append ?_)⟩
  rw [Script.rows_append, Script.rows_append, lead.rows, trail.rows, List.nil_append, List.append_nil]
  exact .blank trail

end RowScanner

end LiteralSql
