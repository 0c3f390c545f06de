import LiteralSql.Proofs.Materialize
import LiteralSql.Proofs.RawFree

/-! Where a text ends that has been filled.

A text is filled with names, with numbered slots, and with other texts. As long
as none of these comes right behind a mark that has only begun, and no text is
left inside a region by what is spliced into it, the filled text ends in the same
region as the text with the placeholders.
-/

set_option autoImplicit false

namespace LiteralSql

namespace SqlState

/-- The state without the token that is put off. It opens and closes the same regions. -/
def core : SqlState → SqlState
  | .backslash | .question => .bare
  | state => state

theorem core_step (state : SqlState) (c : Char) : (state.step c).1.core = (state.core.step c).1.core := by
  cases state with
  | backslash | question =>
    by_cases mark : c = '?'
    · subst mark
      rfl
    · simp [core, step, mark]
  | _ => rfl

theorem core_read (state : SqlState) (text : Text) :
    (state.read text).1.core = (state.core.read text).1.core := by
  induction text generalizing state with
  | nil => cases state <;> rfl
  | cons c rest ih => rw [read_cons, read_cons, ih, core_step, ← ih]

theorem isOutside_core (state : SqlState) : state.core.isOutside = state.isOutside := by
  cases state <;> rfl

theorem core_of_settled {state : SqlState} (settled : state.pending = []) : state.core = state := by
  cases state <;> first | rfl | cases settled

def beginsMark : SqlState → Bool
  | .dash | .slash | .tag _ => true
  | _ => false

/-- No question mark is written right behind a mark that has only begun. -/
def apart (state : SqlState) : Text → Bool
  | [] => true
  | c :: rest => (c != '?' || !state.beginsMark) && (state.step c).1.apart rest

def tokens (state : SqlState) (text : Text) : List SqlToken := (state.read text).2 ++ (state.read text).1.pending

theorem tokens_cons (state : SqlState) (c : Char) (rest : Text) :
    state.tokens (c :: rest) = (state.step c).2 ++ (state.step c).1.tokens rest := by
  rw [tokens, read_cons, List.append_assoc]
  rfl

theorem ofText_eq_tokens (sql : Text) : SqlToken.ofText sql = bare.tokens sql := rfl

inductive Emits (c : Char) : SqlState × List SqlToken → Prop
  | char {next : SqlState} {token : SqlToken} (char : token.char? = some c) (settled : next.pending = []) :
      Emits c (next, [token])
  | backslash (mark : c = '\\') : Emits c (.backslash, [])
  | question (mark : c = '?') : Emits c (.question, [])

theorem emits_stepBare (c : Char) : Emits c (stepBare c) := by
  unfold stepBare
  split_ifs with quote dollar dash slash backslash question
  · exact .char rfl rfl
  · exact .char rfl rfl
  · exact .char rfl rfl
  · exact .char rfl rfl
  · exact .backslash backslash
  · exact .question question
  · exact .char rfl rfl

theorem settled_closeBlock (depth : Nat) : (closeBlock depth).pending = [] := by
  unfold closeBlock
  split <;> rfl

theorem emits_step {state : SqlState} (settled : state.pending = []) (c : Char) :
    Emits c (state.step c) ∧ ((state.step c).2 = [] → state.isOutside = true) := by
  have bare := emits_stepBare c
  -- A state outside in which no mark goes on does what the bare one does.
  cases state with
  | backslash | question => cases settled
  | bare => exact ⟨bare, fun _ => rfl⟩
  | dash | slash =>
    rw [step]
    split_ifs with mark
    · exact ⟨.char rfl rfl, fun _ => rfl⟩
    · exact ⟨bare, fun _ => rfl⟩
  | tag name =>
    rw [step]
    split_ifs with dollar letter
    · exact ⟨.char rfl rfl, fun _ => rfl⟩
    · exact ⟨.char rfl rfl, fun _ => rfl⟩
    · exact ⟨bare, fun _ => rfl⟩
  | quoted mark =>
    refine ⟨.char rfl ?_, fun none => absurd none (List.cons_ne_nil _ _)⟩
    split <;> rfl
  | lineComment =>
    refine ⟨.char rfl ?_, fun none => absurd none (List.cons_ne_nil _ _)⟩
    split <;> rfl
  | blockComment depth | blockSlash depth =>
    refine ⟨.char rfl ?_, fun none => absurd none (List.cons_ne_nil _ _)⟩
    split_ifs <;> rfl
  | blockStar depth =>
    refine ⟨.char rfl ?_, fun none => absurd none (List.cons_ne_nil _ _)⟩
    split_ifs
    · exact settled_closeBlock depth
    · rfl
    · rfl
  | dollarQuoted name seen =>
    refine ⟨.char rfl ?_, fun none => absurd none (List.cons_ne_nil _ _)⟩
    split_ifs <;> rfl

/-- What has been read of a filled text, next to what has been read of the text
with its placeholders. What is put off there has not been written here. -/
inductive Follows : SqlState → SqlState → Prop
  | settled {state written : SqlState} (settled : state.pending = []) (same : written.core = state) :
      Follows state written
  | backslash {written : SqlState} (outside : written.isOutside = true) : Follows .backslash written
  | question {written : SqlState} (bare : written.core = .bare) : Follows .question written

theorem Follows.step {state written : SqlState} {c : Char} (settled : state.pending = [])
    (same : written.core = state) (apart : (c != '?' || !state.beginsMark) = true) :
    (∃ token, token.char? = some c ∧ state.step c = ((state.step c).1, [token]) ∧
      Follows (state.step c).1 (written.step c).1) ∨
    (state.step c).2 = [] ∧ Follows (state.step c).1 written := by
  obtain ⟨emits, outside⟩ := emits_step settled c
  have core : (written.step c).1.core = (state.step c).1.core := by rw [core_step, same]
  have live : state.isOutside = true → written.isOutside = true := by
    rw [← isOutside_core written, same]
    exact id
  generalize state.step c = outcome at emits outside core
  cases emits with
  | char char settled =>
    rw [core_of_settled settled] at core
    exact .inl ⟨_, char, rfl, .settled settled core⟩
  | backslash => exact .inr ⟨rfl, .backslash (live (outside rfl))⟩
  | question mark =>
    refine .inr ⟨rfl, .question ?_⟩
    rw [mark] at apart
    have between := outside rfl
    rw [same]
    -- Outside a region, with no mark begun and nothing put off, there is one state only.
    cases state with
    | bare => rfl
    | backslash | question => cases settled
    | dash | slash | tag => cases apart
    | _ => cases between

end SqlState

namespace Flat

open SqlState

/-- Read from outside every region, the text ends there again, whatever its slots are counted from. -/
def Neutral (flat : Flat) : Prop := ∀ number, (SqlState.bare.read (flat.parameterizedFrom number)).1.core = .bare

theorem Neutral.read {flat : Flat} (neutral : flat.Neutral) {written : SqlState} (bare : written.core = .bare)
    (number : Nat) : (written.read (flat.parameterizedFrom number)).1.core = .bare := by
  rw [core_read, bare]
  exact neutral number

theorem Neutral.name (name : Text) : (ofText (Identifier.quoteQualified name)).Neutral := by
  intro number
  rw [parameterizedFrom_ofText, (Identifier.quiet_quoteQualified name).settles]
  rfl

theorem Neutral.slot (held : Value) : Neutral [.value held] := by
  intro number
  have written : parameterizedFrom number [.value held] = '$' :: Text.ofNat number := List.append_nil _
  rw [written, (quiet_parameter number).settles]
  rfl

theorem andThen_eq_ok {first second : Except SqlError Flat} {flat : Flat} (done : andThen first second = .ok flat) :
    ∃ head tail, first = .ok head ∧ second = .ok tail ∧ flat = head ++ tail := by
  obtain ⟨head, left, done⟩ := bind_ok done
  obtain ⟨tail, right, same⟩ := bind_ok done
  exact ⟨head, tail, left, right, (Except.ok.inj same).symm⟩

theorem read_parameterizedFrom_append (written : SqlState) (number : Nat) (first second : Flat) :
    (written.read ((first ++ second).parameterizedFrom number)).1 =
      ((written.read (first.parameterizedFrom number)).1.read
        (second.parameterizedFrom (number + first.values.length))).1 := by
  rw [parameterizedFrom_append, read_append]

theorem read_parameterizedFrom_char (written : SqlState) (number : Nat) (c : Char) (flat : Flat) :
    (written.read (([.char c] ++ flat : Flat).parameterizedFrom number)).1 =
      ((written.step c).1.read (flat.parameterizedFrom number)).1 := rfl

theorem neutral_of_spliceName {bound : Value} {flat : Flat} (spliced : spliceName bound = .ok flat) :
    flat.Neutral := by
  cases bound with
  | text name =>
    cases spliced
    exact .name name
  | _ => cases spliced

structure Fills (tokens : List SqlToken) (bindings : List (Value × Except SqlError Flat)) (flat : Flat) : Prop where
  counted : tokens.countP SqlToken.isPlaceholder = bindings.length
  neutral : ∀ binding ∈ bindings, ∀ spliced, binding.2 = .ok spliced → Neutral spliced
  filled : fill tokens bindings = .ok flat

namespace Fills

variable {token : SqlToken} {tokens : List SqlToken} {bindings : List (Value × Except SqlError Flat)} {flat : Flat}

theorem eq_nil (fills : Fills [] bindings flat) : flat = [] := (Except.ok.inj fills.filled).symm

theorem of_char {c : Char} (char : token.char? = some c) (fills : Fills (token :: tokens) bindings flat) :
    ∃ tail, flat = [.char c] ++ tail ∧ Fills tokens bindings tail := by
  obtain ⟨counted, neutral, filled⟩ := fills
  have verbatim : token.isPlaceholder = false := by
    cases token with
    | bare | shielded => rfl
    | value | identifier => cases char
  rw [List.countP_cons_of_neg (by rw [verbatim]; exact Bool.false_ne_true)] at counted
  rw [fill_char char] at filled
  obtain ⟨head, tail, left, right, rfl⟩ := andThen_eq_ok filled
  cases left
  exact ⟨tail, rfl, counted, neutral, right⟩

theorem of_placeholder (placeholder : token.isPlaceholder = true) (fills : Fills (token :: tokens) bindings flat) :
    ∃ head tail others, flat = head ++ tail ∧ Neutral head ∧ Fills tokens others tail := by
  obtain ⟨counted, neutral, filled⟩ := fills
  rw [List.countP_cons_of_pos placeholder] at counted
  obtain ⟨⟨bound, spliced⟩, others, rfl⟩ := List.exists_cons_of_length_eq_add_one counted.symm
  have others_neutral := fun other member => neutral other (List.mem_cons_of_mem (bound, spliced) member)
  cases token with
  | bare | shielded => cases placeholder
  | value =>
    rw [fill_value] at filled
    obtain ⟨head, tail, left, right, rfl⟩ := andThen_eq_ok filled
    exact ⟨head, tail, others, rfl, neutral _ List.mem_cons_self head left, Nat.succ_inj.mp counted, others_neutral,
      right⟩
  | identifier =>
    rw [fill_identifier] at filled
    obtain ⟨head, tail, left, right, rfl⟩ := andThen_eq_ok filled
    exact ⟨head, tail, others, rfl, neutral_of_spliceName left, Nat.succ_inj.mp counted, others_neutral, right⟩

end Fills

theorem core_step_of_isOutside {written : SqlState} (outside : written.isOutside = true) {c : Char}
    (mark : c = '?' ∨ c = '\\') : (written.step c).1.core = .bare := by
  obtain rfl | rfl := mark <;> cases written <;> first | rfl | cases outside

/-- A text that is filled with neutral texts ends in the same region as without them. -/
theorem Fills.read {sql : Text} {state written : SqlState} {bindings : List (Value × Except SqlError Flat)}
    {flat : Flat} (fills : Fills (state.tokens sql) bindings flat) (follows : Follows state written)
    (apart : state.apart sql = true) (number : Nat) :
    (written.read (flat.parameterizedFrom number)).1.core = (state.read sql).1.core := by
  induction sql generalizing state written bindings flat number with
  | nil =>
    cases follows with
    | settled settled same =>
      rw [tokens, read_nil, settled] at fills
      cases fills.eq_nil
      exact same.trans (core_of_settled settled).symm
    | backslash outside =>
      obtain ⟨tail, rfl, later⟩ := fills.of_char rfl
      cases later.eq_nil
      exact core_step_of_isOutside outside (.inr rfl)
    | question between =>
      obtain ⟨head, tail, others, rfl, neutral, later⟩ := fills.of_placeholder rfl
      cases later.eq_nil
      rw [List.append_nil]
      exact neutral.read between number
  | cons c rest ih =>
    rw [SqlState.apart, Bool.and_eq_true] at apart
    rw [tokens_cons] at fills
    rw [read_cons]
    -- The character is read with nothing put off, here or behind what was put off.
    have settledStep {state written : SqlState} {bindings : List (Value × Except SqlError Flat)} {flat : Flat}
        (fills : Fills ((state.step c).2 ++ (state.step c).1.tokens rest) bindings flat)
        (settled : state.pending = []) (same : written.core = state)
        (apart : (c != '?' || !state.beginsMark) = true ∧ (state.step c).1.apart rest = true) (number : Nat) :
        (written.read (flat.parameterizedFrom number)).1.core = ((state.step c).1.read rest).1.core := by
      obtain ⟨token, char, emitted, follows⟩ | ⟨emitted, follows⟩ := Follows.step settled same apart.1
      · rw [emitted] at fills
        obtain ⟨tail, rfl, later⟩ := fills.of_char char
        rw [read_parameterizedFrom_char]
        exact ih later follows apart.2 number
      · rw [emitted] at fills
        exact ih fills follows apart.2 number
    cases follows with
    | settled settled same => exact settledStep fills settled same apart number
    | backslash outside =>
      by_cases mark : c = '?'
      · subst mark
        obtain ⟨tail, rfl, later⟩ := fills.of_char rfl
        rw [read_parameterizedFrom_char]
        exact ih later (.settled rfl (core_step_of_isOutside outside (.inl rfl))) apart.2 number
      · have step : backslash.step c = ((bare.step c).1, .bare '\\' :: (bare.step c).2) := if_neg mark
        rw [step] at fills apart ⊢
        obtain ⟨tail, rfl, later⟩ := fills.of_char rfl
        rw [read_parameterizedFrom_char]
        exact settledStep later rfl (core_step_of_isOutside outside (.inr rfl))
          ⟨by simp [beginsMark], apart.2⟩ number
    | question between =>
      by_cases mark : c = '?'
      · subst mark
        obtain ⟨head, tail, others, rfl, neutral, later⟩ := fills.of_placeholder rfl
        rw [read_parameterizedFrom_append]
        exact ih later (.settled rfl (neutral.read between number)) apart.2 _
      · have step : question.step c = ((bare.step c).1, .value :: (bare.step c).2) := if_neg mark
        rw [step] at fills apart ⊢
        obtain ⟨head, tail, others, rfl, neutral, later⟩ := fills.of_placeholder rfl
        rw [read_parameterizedFrom_append]
        exact settledStep later rfl (neutral.read between number) ⟨by simp [beginsMark], apart.2⟩ _

end Flat

/-- A value that leaves the text around it as it is: no placeholder of its own
text comes behind a mark that has only begun, and its text ends outside every region. -/
inductive Value.Contained : Value → Prop
  | literal {value : Value} (free : value.isRawFree = true) : Contained value
  | raw {sql : Text} {bindings : List Value} (apart : SqlState.bare.apart sql = true)
      (settles : (SqlState.bare.read sql).1.core = .bare) (each : ∀ value ∈ bindings, Contained value) :
      Contained (.raw sql bindings)

section
variable {sql : Text} {bindings : List Value} {flat : Flat}

theorem Flat.read_ofBindings (apart : SqlState.bare.apart sql = true)
    (neutral : ∀ value ∈ bindings, ∀ spliced, value.flat = .ok spliced → Flat.Neutral spliced)
    (filled : Flat.ofBindings sql bindings = .ok flat) (number : Nat) :
    (SqlState.bare.read (flat.parameterizedFrom number)).1.core = (SqlState.bare.read sql).1.core := by
  rw [ofBindings, fillAll, Value.length_flatPairs, placeholderCount_eq, SqlState.ofText_eq_tokens] at filled
  split at filled
  · next counted =>
    refine Fills.read ⟨?_, fun binding member spliced done => ?_, filled⟩ (.settled rfl rfl) apart number
    · rw [counted, Value.length_flatPairs]
    · obtain ⟨value, held, rfl⟩ := Value.mem_flatPairs member
      exact neutral value held spliced done
  · cases filled

theorem Value.Contained.neutral {value : Value} (contained : value.Contained) :
    ∀ spliced, value.flat = .ok spliced → Flat.Neutral spliced := by
  induction contained with
  | literal free =>
    intro spliced done
    rw [Value.flat_of_isRawFree free] at done
    cases done
    exact .slot _
  | raw apart settles each ih =>
    intro spliced done number
    rw [Flat.read_ofBindings apart ih done, settles]

theorem Flat.core_parameterized (apart : SqlState.bare.apart sql = true)
    (contained : ∀ value ∈ bindings, value.Contained) (filled : Flat.ofBindings sql bindings = .ok flat) :
    (SqlState.bare.read flat.parameterized).1.core = (SqlState.bare.read sql).1.core :=
  Flat.read_ofBindings apart (fun value member => (contained value member).neutral) filled 1

end

end LiteralSql
