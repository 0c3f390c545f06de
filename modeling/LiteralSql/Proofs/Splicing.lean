import Mathlib.Logic.Relation
import LiteralSql.Proofs.Filling

/-! Nested statements that are written in place.

A statement that is bound to a placeholder is read on its own. Between
parentheses it can also be written at the placeholder, where it is read together
with the text around it: nothing of that text runs over into the parentheses,
and nothing of what is between them runs over into the text behind.
-/

set_option autoImplicit false

namespace LiteralSql

structure ValueSlot (before after : Text) : Prop where
  opens : (SqlState.bare.read (before ++ ['?'])).1 = .question
  single : after.head? ≠ some '?'

namespace SqlState

theorem of_step_question {state : SqlState} (opens : (state.step '?').1 = .question) :
    state.isOutside = true ∧ state.pending = [] ∧ (state.step '?').2 = [] := by
  cases state with
  | bare | dash | slash | tag name => exact ⟨rfl, rfl, rfl⟩
  | backslash | question => cases opens
  | quoted mark | lineComment =>
    rw [step] at opens
    split at opens <;> cases opens
  | blockComment depth | blockSlash depth => cases opens
  | blockStar depth => cases opens
  | dollarQuoted name seen => cases opens

theorem tokens_append (state : SqlState) (first second : Text) :
    state.tokens (first ++ second) = (state.read first).2 ++ (state.read first).1.tokens second := by
  rw [tokens, read_append, List.append_assoc]
  rfl

theorem tokens_question {after : Text} (single : after.head? ≠ some '?') :
    question.tokens after = .value :: bare.tokens after := by
  cases after with
  | nil => rfl
  | cons c rest =>
    have other : c ≠ '?' := fun same => single (congrArg some same)
    have step : question.step c = ((bare.step c).1, .value :: (bare.step c).2) := if_neg other
    rw [tokens_cons, tokens_cons, step]
    rfl

end SqlState

namespace ValueSlot

variable {before after : Text}

theorem step (slot : ValueSlot before after) : ((SqlState.bare.read before).1.step '?').1 = .question := by
  have opens := slot.opens
  rwa [SqlState.read_append] at opens

theorem outside (slot : ValueSlot before after) : (SqlState.bare.read before).1.isOutside = true :=
  (SqlState.of_step_question slot.step).1

theorem ofText (slot : ValueSlot before after) :
    SqlToken.ofText (before ++ '?' :: after) = SqlToken.ofText before ++ (.value :: SqlToken.ofText after) := by
  obtain ⟨-, nothing, silent⟩ := SqlState.of_step_question slot.step
  have lead : SqlToken.ofText before = (SqlState.bare.read before).2 := by
    rw [SqlState.ofText_eq_tokens, SqlState.tokens, nothing, List.append_nil]
  rw [lead, SqlState.ofText_eq_tokens, SqlState.tokens_append, SqlState.tokens_cons, silent, slot.step,
    SqlState.tokens_question slot.single]
  rfl

end ValueSlot

namespace SqlState

theorem step_of_pending {state : SqlState} {c : Char} (waits : state.pending ≠ []) (other : c ≠ '?') :
    state.step c = ((bare.step c).1, state.pending ++ (bare.step c).2) := by
  cases state with
  | backslash | question => exact if_neg other
  | _ => exact absurd rfl waits

theorem step_question_of_pending {state : SqlState} (waits : state.pending ≠ []) :
    ∃ token, token ≠ .value ∧ state.step '?' = (bare, [token]) := by
  cases state with
  | backslash => exact ⟨.bare '?', nofun, rfl⟩
  | question => exact ⟨.identifier, nofun, rfl⟩
  | _ => exact absurd rfl waits

theorem tokens_of_pending {state : SqlState} {c : Char} (waits : state.pending ≠ []) (other : c ≠ '?')
    (rest : Text) :
    state.tokens (c :: rest) = state.pending ++ bare.tokens (c :: rest) := by
  rw [tokens_cons, tokens_cons, step_of_pending waits other, List.append_assoc]

/-- A placeholder for a value that is among these tokens, with the text on both sides of it. -/
structure SlotAt (state : SqlState) (sql before after : Text) (first second : List SqlToken) : Prop where
  split : sql = before ++ '?' :: after
  opens : (state.read (before ++ ['?'])).1 = .question
  single : after.head? ≠ some '?'
  earlier : state.tokens before = first
  later : bare.tokens after = second

theorem peel {token : SqlToken} {tokens first second : List SqlToken} (other : token ≠ .value)
    (found : token :: tokens = first ++ .value :: second) :
    ∃ others, first = token :: others ∧ tokens = others ++ .value :: second := by
  cases first with
  | nil => exact absurd (List.cons.inj found).1 other
  | cons head others =>
    obtain ⟨same, found⟩ := List.cons.inj found
    exact ⟨others, by rw [same], found⟩

/-- What was put off comes before everything that is found from the next character on. -/
theorem SlotAt.of_bare {state : SqlState} {c : Char} {rest before after : Text} {first second : List SqlToken}
    (waits : state.pending ≠ []) (other : c ≠ '?') (slot : bare.SlotAt (c :: rest) before after first second) :
    state.SlotAt (c :: rest) before after (state.pending ++ first) second := by
  cases before with
  | nil => exact absurd (List.cons.inj slot.split).1 other
  | cons d before =>
    obtain ⟨rfl, -⟩ := List.cons.inj slot.split
    refine ⟨slot.split, ?_, slot.single, ?_, slot.later⟩
    · rw [List.cons_append, read_cons, step_of_pending waits other]
      exact slot.opens
    · rw [tokens_of_pending waits other, slot.earlier]

theorem slotAt_of_tokens {state : SqlState} {sql : Text} {first second : List SqlToken}
    (found : state.tokens sql = first ++ .value :: second) :
    (∃ before after, state.SlotAt sql before after first second) ∨
      state = .question ∧ first = [] ∧ sql.head? ≠ some '?' ∧ bare.tokens sql = second := by
  induction sql generalizing state first with
  | nil =>
    cases state with
    | question =>
      have alone : [SqlToken.value] = first ++ .value :: second := found
      obtain ⟨rfl, -, rfl⟩ := List.append_eq_singleton_iff.mp alone.symm |>.resolve_right (by simp)
      exact .inr ⟨rfl, rfl, nofun, rfl⟩
    | backslash =>
      obtain ⟨others, -, none⟩ := peel (by exact nofun) (found : [SqlToken.bare '\\'] = _)
      simp at none
    | _ =>
      have none : [] = first ++ SqlToken.value :: second := found
      simp at none
  | cons c rest ih =>
    -- What is found behind the character is found in the whole text.
    have behind {state next : SqlState} {emitted others : List SqlToken} (step : state.step c = (next, emitted))
        (found : next.tokens rest = others ++ .value :: second) (settled : next ≠ .question) :
        ∃ before after, state.SlotAt (c :: rest) before after (emitted ++ others) second := by
      obtain ⟨before, after, slot⟩ | ⟨waits, -⟩ := ih found
      · refine ⟨c :: before, after, by rw [slot.split]; rfl, ?_, slot.single, ?_, slot.later⟩
        · rw [List.cons_append, read_cons, step]
          exact slot.opens
        · rw [tokens_cons, step, slot.earlier]
      · exact absurd waits settled
    have settledStep {state : SqlState} {first : List SqlToken} (settled : state.pending = [])
        (taken : state.tokens (c :: rest) = first ++ .value :: second) :
        ∃ before after, state.SlotAt (c :: rest) before after first second := by
      have emits := (emits_step settled c).1
      rw [tokens_cons] at taken
      cases step : state.step c with
      | mk next emitted =>
        rw [step] at emits taken
        cases emits with
        | @char _ token char settled =>
          obtain ⟨others, rfl, later⟩ := peel (by rintro rfl; cases char) taken
          exact behind step later (by rintro rfl; cases settled)
        | backslash => exact behind step taken nofun
        | question mark =>
          subst mark
          obtain ⟨before, after, slot⟩ | ⟨-, rfl, single, later⟩ := ih taken
          · refine ⟨'?' :: before, after, by rw [slot.split]; rfl, ?_, slot.single, ?_, slot.later⟩
            · rw [List.cons_append, read_cons, step]
              exact slot.opens
            · rw [tokens_cons, step, slot.earlier]
              rfl
          · refine ⟨[], rest, rfl, ?_, single, settled, later⟩
            rw [List.nil_append, read_cons, step]
            rfl
    by_cases settled : state.pending = []
    · exact .inl (settledStep settled found)
    · by_cases mark : c = '?'
      · subst mark
        obtain ⟨token, other, step⟩ := step_question_of_pending settled
        rw [tokens_cons, step] at found
        obtain ⟨others, rfl, later⟩ := peel other found
        exact .inl (behind step later nofun)
      · rw [tokens_of_pending settled mark] at found
        cases state with
        | backslash =>
          have other : SqlToken.bare '\\' ≠ .value := nofun
          obtain ⟨others, rfl, later⟩ := peel other found
          obtain ⟨before, after, slot⟩ := settledStep rfl later
          exact .inl ⟨before, after, slot.of_bare settled mark⟩
        | question =>
          cases first with
          | nil => exact .inr ⟨rfl, rfl, fun same => mark (Option.some.inj same), (List.cons.inj found).2⟩
          | cons token others =>
            obtain ⟨rfl, later⟩ := List.cons.inj found
            obtain ⟨before, after, slot⟩ := settledStep rfl later
            exact .inl ⟨before, after, slot.of_bare settled mark⟩
        | _ => exact absurd rfl settled

end SqlState

theorem ValueSlot.of_ofText {sql : Text} {first second : List SqlToken}
    (found : SqlToken.ofText sql = first ++ .value :: second) :
    ∃ before after, sql = before ++ '?' :: after ∧ ValueSlot before after ∧ SqlToken.ofText before = first ∧
      SqlToken.ofText after = second := by
  rw [SqlState.ofText_eq_tokens] at found
  obtain ⟨before, after, slot⟩ | ⟨waits, -⟩ := SqlState.slotAt_of_tokens found
  · exact ⟨before, after, slot.split, ⟨slot.opens, slot.single⟩, slot.earlier, slot.later⟩
  · cases waits

namespace Flat

/-- Of a binding only its flat form counts, and what it is as a name. -/
theorem fill_congr {tokens : List SqlToken} {first second : List (Value × Except SqlError Flat)}
    (same : first.map (Prod.map spliceName id) = second.map (Prod.map spliceName id)) :
    fill tokens first = fill tokens second := by
  induction tokens generalizing first second with
  | nil => rfl
  | cons token rest ih =>
    -- A placeholder looks at its binding in one of two ways, and both are the same on both sides.
    cases char : token.char? with
    | some c => rw [fill_char char, fill_char char, ih same]
    | none =>
      cases first with
      | nil =>
        rw [List.map_nil, eq_comm, List.map_eq_nil_iff] at same
        rw [same]
      | cons binding others =>
        cases second with
        | nil => cases same
        | cons binding' others' =>
          obtain ⟨head, tail⟩ := List.cons.inj same
          obtain ⟨name, flat⟩ := Prod.mk.inj head
          cases token with
          | bare c | shielded c => cases char
          | value =>
            obtain ⟨bound, spliced⟩ := binding
            obtain ⟨bound', spliced'⟩ := binding'
            rw [fill_value, fill_value, ih tail]
            exact congrArg (andThen · _) flat
          | identifier =>
            obtain ⟨bound, spliced⟩ := binding
            obtain ⟨bound', spliced'⟩ := binding'
            rw [fill_identifier, fill_identifier, ih tail]
            exact congrArg (andThen · _) name

theorem ofBindings_congr {sql : Text} {first second : List Value}
    (same : (Value.flatPairs first).map (Prod.map spliceName id) =
      (Value.flatPairs second).map (Prod.map spliceName id)) : ofBindings sql first = ofBindings sql second := by
  have length : (Value.flatPairs first).length = (Value.flatPairs second).length := by
    simpa only [List.length_map] using congrArg List.length same
  rw [ofBindings, ofBindings, fillAll, fillAll, length, fill_congr same]

theorem ofBindings_of_counted {sql : Text} {bindings : List Value} (counted : placeholderCount sql = bindings.length) :
    ofBindings sql bindings = fill (SqlToken.ofText sql) (Value.flatPairs bindings) := by
  rw [ofBindings, fillAll, if_pos]
  rw [counted, Value.length_flatPairs]

end Flat

namespace Raw

def parenthesized (nested : Raw) : Raw := nested.wrap ['('] [')']

theorem sql_parenthesized (nested : Raw) : nested.parenthesized.sql = '(' :: (nested.sql ++ [')']) := rfl

theorem bindings_parenthesized (nested : Raw) : nested.parenthesized.bindings = nested.bindings := rfl

section
variable {nested : Raw} {before after : Text}

/-- In parentheses nothing is left of a mark that the statement may have begun. -/
theorem Closed.settles (closed : nested.Closed) : (SqlState.bare.read nested.parenthesized.sql).1 = .bare := by
  have opening : SqlState.bare.step '(' = (.bare, [.bare '(']) := rfl
  have closing : SqlState.breaksMarks ')' = true := by decide
  rw [sql_parenthesized, SqlState.read_cons, opening, SqlState.read_append, SqlState.read_cons,
    SqlState.step_of_breaksMarks closed.outside closing]
  rfl

theorem Closed.parenthesized (closed : nested.Closed) : nested.parenthesized.Closed where
  outside := by
    rw [closed.settles]
    rfl
  counted := by
    have detached : Layout.Detached [')'] := fun c same => by
      cases same
      decide
    have opening : SqlToken.ofText ('(' :: (nested.sql ++ [')'])) =
        .bare '(' :: SqlToken.ofText (nested.sql ++ [')']) := rfl
    have closing : SqlToken.ofText [')'] = [.bare ')'] := rfl
    have counted := closed.counted
    rw [placeholderCount_eq] at counted
    rw [placeholderCount_eq, bindings_parenthesized, sql_parenthesized, opening,
      (SqlToken.ofText_append closed.outside (.inr detached)).1, closing]
    simpa [List.countP_cons, SqlToken.isPlaceholder] using counted

theorem Closed.ofText_between (closed : nested.Closed) (outside : (SqlState.bare.read before).1.isOutside = true) :
    SqlToken.ofText (before ++ nested.parenthesized.sql ++ after) =
      SqlToken.ofText before ++ (SqlToken.ofText nested.parenthesized.sql ++ SqlToken.ofText after) := by
  have detached : Layout.Detached (nested.parenthesized.sql ++ after) := fun c same => by
    cases same
    decide
  rw [List.append_assoc, (SqlToken.ofText_append outside (.inr detached)).1,
    (SqlToken.ofText_append closed.parenthesized.outside (.inl closed.settles)).1]

end

/-- One nested statement is written in place, in the statement itself or in one that is bound in it. -/
inductive Splice : Raw → Raw → Prop
  | here {before after : Text} {left right : List Value} {nested : Raw} (slot : ValueSlot before after)
      (index : placeholderCount before = left.length)
      (counted : placeholderCount (before ++ '?' :: after) = left.length + (right.length + 1))
      (closed : nested.Closed) :
      Splice ⟨before ++ '?' :: after, left ++ .ofRaw nested.parenthesized :: right⟩
        ⟨before ++ nested.parenthesized.sql ++ after, left ++ nested.bindings ++ right⟩
  | inside {sql : Text} {left right : List Value} {nested written : Raw} (splice : Splice nested written) :
      Splice ⟨sql, left ++ .ofRaw nested :: right⟩ ⟨sql, left ++ .ofRaw written :: right⟩

section
variable {before after : Text} {left right : List Value} {nested : Raw}

theorem counted_behind (slot : ValueSlot before after) (index : placeholderCount before = left.length)
    (counted : placeholderCount (before ++ '?' :: after) = left.length + (right.length + 1)) :
    placeholderCount after = right.length := by
  rw [placeholderCount_eq] at index counted ⊢
  rw [slot.ofText, List.countP_append, List.countP_cons_of_pos rfl, index] at counted
  omega

theorem counted_between (slot : ValueSlot before after) (index : placeholderCount before = left.length)
    (counted : placeholderCount (before ++ '?' :: after) = left.length + (right.length + 1))
    (closed : nested.Closed) :
    placeholderCount (before ++ nested.parenthesized.sql ++ after) = (left ++ nested.bindings ++ right).length := by
  have inner := closed.parenthesized.counted
  have behind := counted_behind slot index counted
  rw [placeholderCount_eq] at index inner behind ⊢
  rw [closed.ofText_between slot.outside, List.countP_append, List.countP_append, index, inner, behind,
    bindings_parenthesized, List.append_assoc, List.length_append, List.length_append]

theorem ofBindings_between (slot : ValueSlot before after) (index : placeholderCount before = left.length)
    (counted : placeholderCount (before ++ '?' :: after) = left.length + (right.length + 1))
    (closed : nested.Closed) :
    Flat.ofBindings (before ++ '?' :: after) (left ++ .ofRaw nested.parenthesized :: right) =
      Flat.ofBindings (before ++ nested.parenthesized.sql ++ after) (left ++ nested.bindings ++ right) := by
  have inner := closed.parenthesized.counted
  have lead : (SqlToken.ofText before).countP SqlToken.isPlaceholder = (Value.flatPairs left).length := by
    rw [← placeholderCount_eq, index, Value.length_flatPairs]
  have within : (SqlToken.ofText nested.parenthesized.sql).countP SqlToken.isPlaceholder =
      (Value.flatPairs nested.bindings).length := by
    rw [← placeholderCount_eq, inner, Value.length_flatPairs, bindings_parenthesized]
  have spliced : (Value.ofRaw nested.parenthesized).flat =
      Flat.fill (SqlToken.ofText nested.parenthesized.sql) (Value.flatPairs nested.bindings) :=
    Flat.ofBindings_of_counted inner
  have whole : placeholderCount (before ++ '?' :: after) =
      (left ++ Value.ofRaw nested.parenthesized :: right).length := by
    rw [counted, List.length_append, List.length_cons]
  calc Flat.ofBindings (before ++ '?' :: after) (left ++ .ofRaw nested.parenthesized :: right)
    _ = Flat.andThen (Flat.fill (SqlToken.ofText before) (Value.flatPairs left))
          (Flat.andThen (Value.ofRaw nested.parenthesized).flat
            (Flat.fill (SqlToken.ofText after) (Value.flatPairs right))) := by
      rw [Flat.ofBindings_of_counted whole, slot.ofText, Value.flatPairs_append, Flat.fill_append lead]
      rfl
    _ = Flat.ofBindings (before ++ nested.parenthesized.sql ++ after) (left ++ nested.bindings ++ right) := by
      rw [Flat.ofBindings_of_counted (counted_between slot index counted closed), closed.ofText_between slot.outside,
        List.append_assoc, Value.flatPairs_append, Value.flatPairs_append, Flat.fill_append lead,
        Flat.fill_append within, spliced]

theorem outside_between (slot : ValueSlot before after) (closed : nested.Closed) :
    (SqlState.bare.read (before ++ nested.parenthesized.sql ++ after)).1.isOutside =
      (SqlState.bare.read (before ++ '?' :: after)).1.isOutside := by
  have settled : (SqlState.bare.read (before ++ nested.parenthesized.sql)).1 = .bare := by
    have opening : SqlState.breaksMarks '(' = true := by decide
    rw [SqlState.read_append, sql_parenthesized, SqlState.read_of_breaksMarks slot.outside opening]
    exact closed.settles
  have waits : (SqlState.bare.read (before ++ '?' :: after)).1 = (SqlState.question.read after).1 := by
    rw [SqlState.read_append, SqlState.read_cons, slot.step]
  rw [SqlState.read_append_of_bare settled, waits, ← SqlState.isOutside_core (SqlState.question.read after).1,
    SqlState.core_read]
  exact (SqlState.isOutside_core _).symm

end

namespace Splice

variable {statement written : Raw}

theorem ofBindings (splice : Splice statement written) :
    Flat.ofBindings statement.sql statement.bindings = Flat.ofBindings written.sql written.bindings := by
  induction splice with
  | here slot index counted closed => exact ofBindings_between slot index counted closed
  | @inside sql left right nested written _ same =>
    have flat : (Value.ofRaw nested).flat = (Value.ofRaw written).flat := same
    apply Flat.ofBindings_congr
    rw [Value.flatPairs_append, Value.flatPairs_append, List.map_append, List.map_append]
    simp only [Value.flatPairs, List.map_cons, flat]
    rfl

theorem closed (splice : Splice statement written) (whole : statement.Closed) : written.Closed := by
  cases splice with
  | here slot index counted closed =>
    refine ⟨?_, counted_between slot index counted closed⟩
    rw [outside_between slot closed]
    exact whole.outside
  | inside splice =>
    refine ⟨whole.outside, whole.counted.trans ?_⟩
    simp only [List.length_append, List.length_cons]

end Splice

end Raw

/-- Every placeholder for a value has a place in the text. A nested statement can be written there
between parentheses, with its bindings in place of itself, and so can the statements that are nested
in it: the text is filled in the same way, or fails in the same way. -/
theorem written_in_place :
    (∀ sql first second, SqlToken.ofText sql = first ++ .value :: second → ∃ before after,
      sql = before ++ '?' :: after ∧ ValueSlot before after ∧
        placeholderCount before = first.countP SqlToken.isPlaceholder) ∧
    (∀ before after left right, ∀ nested : Raw, ValueSlot before after → placeholderCount before = left.length →
      placeholderCount (before ++ '?' :: after) = left.length + (right.length + 1) → nested.Closed →
      Flat.ofBindings (before ++ '?' :: after) (left ++ .ofRaw (nested.wrap ['('] [')']) :: right) =
        Flat.ofBindings (before ++ (['('] ++ nested.sql ++ [')']) ++ after) (left ++ nested.bindings ++ right)) ∧
    ∀ statement written, Relation.ReflTransGen Raw.Splice statement written →
      Flat.ofBindings statement.sql statement.bindings = Flat.ofBindings written.sql written.bindings ∧
        (statement.Closed → written.Closed) := by
  refine ⟨fun sql first second found => ?_, fun _ _ _ _ _ slot index counted closed =>
    Raw.ofBindings_between slot index counted closed, fun statement written splices => ?_⟩
  · obtain ⟨before, after, split, slot, earlier, -⟩ := ValueSlot.of_ofText found
    exact ⟨before, after, split, slot, by rw [placeholderCount_eq, earlier]⟩
  · induction splices with
    | refl => exact ⟨rfl, id⟩
    | tail _ splice ih => exact ⟨ih.1.trans splice.ofBindings, fun whole => splice.closed (ih.2 whole)⟩

def markEnded : Raw := ⟨"? - $a".toList, [.ofRaw (Raw.parenthesized ⟨"g(?) /".toList, [.int 1]⟩)]⟩

theorem written_in_place_mark_ended :
    Flat.ofBindings "select ??, $b? -- ?".toList [.text "t".toList, .ofRaw markEnded.parenthesized] =
      Flat.ofBindings "select ??, $b((g(?) /) - $a) -- ?".toList [.text "t".toList, .int 1] ∧
    (Flat.ofBindings "select ??, $b((g(?) /) - $a) -- ?".toList [.text "t".toList, .int 1]).map Flat.pieces =
      .ok ["select \"t\", $b((g(".toList, ") /) - $a) -- ?".toList] := by
  have outer : Raw.Splice ⟨"select ??, $b? -- ?".toList, [.text "t".toList, .ofRaw markEnded.parenthesized]⟩
      ⟨"select ??, $b(? - $a) -- ?".toList, .text "t".toList :: markEnded.bindings⟩ :=
    @Raw.Splice.here "select ??, $b".toList " -- ?".toList [.text "t".toList] [] markEnded
      ⟨by decide, by decide⟩ (by decide) (by decide) (by decide)
  have inner : Raw.Splice ⟨"select ??, $b(? - $a) -- ?".toList, .text "t".toList :: markEnded.bindings⟩
      ⟨"select ??, $b((g(?) /) - $a) -- ?".toList, [.text "t".toList, .int 1]⟩ :=
    @Raw.Splice.here "select ??, $b(".toList " - $a) -- ?".toList [.text "t".toList] [] ⟨"g(?) /".toList, [.int 1]⟩
      ⟨by decide, by decide⟩ (by decide) (by decide) (by decide)
  refine ⟨(written_in_place.2.2 _ _ (.tail (.single outer) inner)).1, rfl⟩

end LiteralSql
