import LiteralSql.Proofs.Bound
import LiteralSql.Proofs.Literal
import LiteralSql.Proofs.Splicing

/-! Texts that are read a second time.

A text that has been filled is read again when it is a part of a statement. Its
regions are found where they were. What was an escaped question mark is now a
question mark outside every region, and that is a placeholder, or an escape if a
backslash is in front of it; everything else stands for itself.
-/

set_option autoImplicit false

namespace LiteralSql

namespace SqlState

def unmarked (state : SqlState) : Text → Bool
  | [] => true
  | c :: rest => !(c = '?' && state.isOutside) && (state.step c).1.unmarked rest

theorem unmarked_append (state : SqlState) (first second : Text) :
    state.unmarked (first ++ second) = (state.unmarked first && (state.read first).1.unmarked second) := by
  induction first generalizing state with
  | nil => rfl
  | cons c rest ih =>
    rw [List.cons_append, unmarked, unmarked, ih, read_cons, Bool.and_assoc]

theorem unmarked_core (state : SqlState) (text : Text) : state.core.unmarked text = state.unmarked text := by
  induction text generalizing state with
  | nil => rfl
  | cons c rest ih =>
    rw [unmarked, unmarked, isOutside_core, ← ih (state.core.step c).1, ← core_step, ih]

theorem step_question_cases {state : SqlState} (settled : state.pending = []) :
    state.isOutside = true ∧ state.step '?' = (.question, []) ∨
      state.isOutside = false ∧ ∀ c, (state.step c).2 = [.shielded c] := by
  cases state with
  | backslash | question => cases settled
  | bare | dash | slash => exact .inl ⟨rfl, rfl⟩
  | tag name => exact .inl ⟨rfl, rfl⟩
  | _ => exact .inr ⟨rfl, fun _ => rfl⟩

theorem tokens_backslash {c : Char} (other : c ≠ '?') (rest : Text) :
    backslash.tokens (c :: rest) = .bare '\\' :: bare.tokens (c :: rest) := by
  have waits : backslash.pending ≠ [] := List.cons_ne_nil _ _
  exact tokens_of_pending waits other rest

theorem shielded_of_emitted {state : SqlState} (settled : state.pending = []) {c : Char} {token : SqlToken}
    (emitted : (state.step c).2 = [token]) (char : token.char? = some c) :
    token ≠ .bare '?' ∧ (c = '?' → state.isOutside = false) := by
  obtain ⟨-, opens⟩ | ⟨inside, shielded⟩ := step_question_cases settled
  · constructor
    · rintro rfl
      cases char
      rw [opens] at emitted
      cases emitted
    · rintro rfl
      rw [opens] at emitted
      cases emitted
  · refine ⟨?_, fun _ => inside⟩
    rintro rfl
    rw [shielded c] at emitted
    cases emitted

/-- A text stands for itself just if no question mark is read outside its regions. -/
theorem verbatim_iff {state : SqlState} (settled : state.pending = []) (text : Text) :
    (state.tokens text).map SqlToken.char? = text.map some ↔ state.unmarked text = true := by
  induction text generalizing state with
  | nil =>
    rw [tokens, read_nil, settled]
    exact iff_of_true rfl rfl
  | cons c rest ih =>
    rw [tokens_cons, unmarked]
    have emits := (emits_step settled c).1
    have emitted := @shielded_of_emitted state settled c
    have opens := step_question_cases settled
    generalize outcome : state.step c = step at emits emitted
    cases emits with
    | @char next token char quiet =>
      have live : (decide (c = '?') && state.isOutside) = false := by
        have inside := (emitted rfl char).2
        by_cases mark : c = '?'
        · rw [inside mark, Bool.and_false]
        · simp [mark]
      rw [List.singleton_append, List.map_cons, List.map_cons, char, List.cons.injEq, ih quiet, live]
      simp
    | backslash mark =>
      subst mark
      rw [List.nil_append]
      -- The backslash stands for itself unless a question mark is behind it.
      cases rest with
      | nil => exact iff_of_true rfl rfl
      | cons d behind =>
        by_cases escapes : d = '?'
        · subst escapes
          refine iff_of_false (fun same => ?_) (by simp [unmarked, isOutside])
          cases (List.cons.inj same).1
        · have step : backslash.step d = ((bare.step d).1, .bare '\\' :: (bare.step d).2) := if_neg escapes
          have same := ih (rfl : bare.pending = [])
          rw [unmarked] at same
          rw [tokens_backslash escapes, unmarked, step]
          simpa [pending, SqlToken.char?, escapes] using same
    | question mark =>
      subst mark
      obtain ⟨outside, -⟩ | ⟨-, shielded⟩ := opens
      · refine iff_of_false (fun same => ?_) (by simp [outside])
        rw [List.nil_append] at same
        cases rest with
        | nil => cases (List.cons.inj same).1
        | cons d behind =>
          by_cases pair : d = '?'
          · subst pair
            cases (List.cons.inj same).1
          · have single : (d :: behind).head? ≠ some '?' := mt Option.some.inj pair
            rw [tokens_question single] at same
            cases (List.cons.inj same).1
      · have silent := shielded '?'
        rw [outcome] at silent
        cases silent

end SqlState

theorem SqlToken.map_char?_of_countP {tokens : List SqlToken} (none : tokens.countP isPlaceholder = 0) :
    tokens.map char? = (tokens.filterMap char?).map some := by
  rw [List.countP_eq_zero] at none
  induction tokens with
  | nil => rfl
  | cons token rest ih =>
    have tail := ih fun other member => none other (List.mem_cons_of_mem token member)
    cases token with
    | bare c | shielded c => exact congrArg (some c :: ·) tail
    | value | identifier => exact absurd rfl (none _ List.mem_cons_self)

namespace Statement

theorem materialize_of_unbound [LocalZone] {sql text : Text}
    (filled : Flat.ofBindings sql [] = .ok (Flat.ofText text))
    (zone : TimeZone) : (ddl sql).materialize zone = .ok text := by
  have block : renderRun zone [Flat.ofText text] = .ok text := by
    rw [renderRun, Flat.values_ofText, Flat.parameterized, Flat.parameterizedFrom_ofText]
    exact congrArg Except.ok List.intercalate_singleton
  have rows : (ddl sql).bindings.rows.mapM (Flat.ofBindings (ddl sql).sql) = .ok [Flat.ofText text] :=
    mapM_of_related (.cons filled .nil)
  have blocks : (runs [Flat.ofText text]).mapM (renderRun zone) = .ok [text] := mapM_of_related (.cons block .nil)
  rw [materialize, if_neg (by exact Bool.false_ne_true), rows]
  change (do .ok (separator.intercalate (← (runs [Flat.ofText text]).mapM (renderRun zone)))) = _
  rw [blocks]
  exact congrArg Except.ok List.intercalate_singleton

theorem materialize_ddl [LocalZone] (sql : Text) (zone : TimeZone) :
    (ddl sql).materialize zone =
      if placeholderCount sql = 0 then .ok ((SqlToken.ofText sql).filterMap SqlToken.char?)
      else .error (.bindingCount 0 (placeholderCount sql)) := by
  split
  · next none =>
    rw [placeholderCount_eq] at none
    refine materialize_of_unbound ?_ zone
    rw [@Flat.ofBindings_of_counted sql [] (by rwa [placeholderCount_eq])]
    exact Flat.fill_verbatim (SqlToken.map_char?_of_countP none)
  · next some =>
    have failed : Flat.ofBindings sql [] = .error (.bindingCount 0 (placeholderCount sql)) := if_neg some
    have rows : (ddl sql).bindings.rows.mapM (Flat.ofBindings (ddl sql).sql) =
        .error (.bindingCount 0 (placeholderCount sql)) := by
      change [[]].mapM (Flat.ofBindings sql) = _
      rw [List.mapM_cons, failed]
      rfl
    rw [materialize, if_neg (by exact Bool.false_ne_true), rows]
    rfl

theorem materialize_ddl_eq_iff [LocalZone] (sql : Text) (zone : TimeZone) :
    (ddl sql).materialize zone = .ok sql ↔ SqlState.bare.unmarked sql = true := by
  rw [materialize_ddl, ← SqlState.verbatim_iff rfl, ← SqlState.ofText_eq_tokens]
  split
  · next none =>
    rw [placeholderCount_eq] at none
    rw [SqlToken.map_char?_of_countP none, Except.ok.injEq, List.map_inj_right fun _ _ => Option.some.inj]
  · next some =>
    refine iff_of_false nofun fun verbatim => some ?_
    rw [placeholderCount_eq]
    exact SqlToken.countP_eq_zero verbatim

end Statement

def SqlToken.spell : List SqlToken → List Text → Text
  | [], _ => []
  | .bare c :: tokens, texts => c :: spell tokens texts
  | .shielded c :: tokens, texts => c :: spell tokens texts
  | _ :: _, [] => []
  | _ :: tokens, text :: texts => text ++ spell tokens texts

namespace SqlToken

theorem spell_char {token : SqlToken} {c : Char} (char : token.char? = some c) (tokens : List SqlToken)
    (texts : List Text) : spell (token :: tokens) texts = c :: spell tokens texts := by
  cases token with
  | bare | shielded => cases char; rfl
  | value | identifier => cases char

theorem spell_placeholder {token : SqlToken} (placeholder : token.isPlaceholder = true) (tokens : List SqlToken)
    (text : Text) (texts : List Text) :
    spell (token :: tokens) (text :: texts) = text ++ spell tokens texts := by
  cases token with
  | bare | shielded => cases placeholder
  | value | identifier => rfl

end SqlToken

namespace SqlState

def Neutral (text : Text) : Prop := (bare.read text).1.core = .bare

theorem Neutral.read {text : Text} (neutral : Neutral text) {written : SqlState} (between : written.core = .bare) :
    (written.read text).1.core = .bare := by
  rw [core_read, between]
  exact neutral

/-- What is spelled from here on ends in this region, and the question marks outside the regions are
those of escapes and those of the texts for the placeholders. -/
structure Spells (written : SqlState) (tokens : List SqlToken) (texts : List Text) (last : SqlState) : Prop where
  core : (written.read (SqlToken.spell tokens texts)).1.core = last
  unmarked_iff : written.unmarked (SqlToken.spell tokens texts) = true ↔
    SqlToken.bare '?' ∉ tokens ∧ ∀ text ∈ texts, bare.unmarked text = true

namespace Spells

variable {written last : SqlState} {token : SqlToken} {tokens : List SqlToken} {texts : List Text}

theorem nil (same : written.core = last) : Spells written [] [] last where
  core := same
  unmarked_iff := iff_of_true rfl ⟨List.not_mem_nil, fun _ none => absurd none List.not_mem_nil⟩

theorem char {c : Char} (char : token.char? = some c) (unescaped : token ≠ .bare '?')
    (inside : c = '?' → written.isOutside = false) (behind : Spells (written.step c).1 tokens texts last) :
    Spells written (token :: tokens) texts last where
  core := by
    rw [SqlToken.spell_char char, read_cons]
    exact behind.core
  unmarked_iff := by
    have live : (decide (c = '?') && written.isOutside) = false := by
      by_cases mark : c = '?'
      · rw [inside mark, Bool.and_false]
      · simp [mark]
    rw [SqlToken.spell_char char, unmarked, live, Bool.not_false, Bool.true_and, behind.unmarked_iff, List.mem_cons,
      not_or]
    exact ⟨fun both => ⟨⟨unescaped.symm, both.1⟩, both.2⟩, fun both => ⟨both.1.2, both.2⟩⟩

theorem backslash (behind : Spells (written.step '\\').1 tokens texts last) :
    Spells written (.bare '\\' :: tokens) texts last :=
  char rfl nofun nofun behind

theorem escape (outside : written.isOutside = true) (behind : Spells (written.step '?').1 tokens texts last) :
    Spells written (.bare '?' :: tokens) texts last where
  core := behind.core
  unmarked_iff := by
    refine iff_of_false (fun none => ?_) fun none => none.1 List.mem_cons_self
    rw [SqlToken.spell_char rfl, unmarked, outside] at none
    cases none

theorem placeholder {text : Text} (placeholder : token.isPlaceholder = true) (between : written.core = .bare)
    (behind : Spells (written.read text).1 tokens texts last) :
    Spells written (token :: tokens) (text :: texts) last where
  core := by
    rw [SqlToken.spell_placeholder placeholder, read_append]
    exact behind.core
  unmarked_iff := by
    have other : token ≠ .bare '?' := by
      rintro rfl
      cases placeholder
    rw [SqlToken.spell_placeholder placeholder, unmarked_append, Bool.and_eq_true, behind.unmarked_iff,
      ← unmarked_core written, between, List.mem_cons, not_or, List.forall_mem_cons]
    exact ⟨fun each => ⟨⟨other.symm, each.2.1⟩, each.1, each.2.2⟩, fun each => ⟨each.2.1, each.1.2, each.2.2⟩⟩

end Spells

theorem spells_tokens {sql : Text} {state written : SqlState} {texts : List Text} (follows : Follows state written)
    (apart : state.apart sql = true) (counted : (state.tokens sql).countP SqlToken.isPlaceholder = texts.length)
    (neutral : ∀ text ∈ texts, Neutral text) :
    Spells written (state.tokens sql) texts (state.read sql).1.core := by
  -- A placeholder takes the first text, and what is behind it is read from outside every region.
  have take {written : SqlState} {token : SqlToken} {tokens : List SqlToken} {texts : List Text} {last : SqlState}
      (placeholder : token.isPlaceholder = true) (between : written.core = .bare)
      (counted : (token :: tokens).countP SqlToken.isPlaceholder = texts.length)
      (neutral : ∀ text ∈ texts, Neutral text)
      (behind : ∀ {written : SqlState} {texts : List Text}, written.core = .bare →
        tokens.countP SqlToken.isPlaceholder = texts.length → (∀ text ∈ texts, Neutral text) →
        Spells written tokens texts last) : Spells written (token :: tokens) texts last := by
    rw [List.countP_cons_of_pos placeholder] at counted
    obtain ⟨text, others, rfl⟩ := List.exists_cons_of_length_eq_add_one counted.symm
    rw [List.forall_mem_cons] at neutral
    exact .placeholder placeholder between (behind (neutral.1.read between) (Nat.succ_inj.mp counted) neutral.2)
  induction sql generalizing state written texts with
  | nil =>
    cases follows with
    | settled settled same =>
      rw [tokens, read_nil, settled] at counted ⊢
      obtain rfl := List.eq_nil_of_length_eq_zero counted.symm
      exact .nil (same.trans (core_of_settled settled).symm)
    | backslash outside =>
      obtain rfl := List.eq_nil_of_length_eq_zero counted.symm
      exact .backslash (.nil (Flat.core_step_of_isOutside outside (.inr rfl)))
    | question between =>
      refine take rfl between counted neutral fun between counted _ => ?_
      obtain rfl := List.eq_nil_of_length_eq_zero counted.symm
      exact .nil between
  | cons c rest ih =>
    rw [SqlState.apart, Bool.and_eq_true] at apart
    rw [read_cons]
    -- The character is read with nothing put off, here or behind what was put off.
    have settledStep {state written : SqlState} {texts : List Text} (settled : state.pending = [])
        (same : written.core = state)
        (apart : (c != '?' || !state.beginsMark) = true ∧ (state.step c).1.apart rest = true)
        (counted : (state.tokens (c :: rest)).countP SqlToken.isPlaceholder = texts.length)
        (neutral : ∀ text ∈ texts, Neutral text) :
        Spells written (state.tokens (c :: rest)) texts ((state.step c).1.read rest).1.core := by
      rw [tokens_cons] at counted ⊢
      obtain ⟨token, char, emitted, follows⟩ | ⟨emitted, follows⟩ := Follows.step settled same apart.1
      · obtain ⟨unescaped, inside⟩ := shielded_of_emitted settled (congrArg Prod.snd emitted) char
        have verbatim : ¬ token.isPlaceholder = true := by
          cases token with
          | bare | shielded => exact Bool.false_ne_true
          | value | identifier => cases char
        rw [emitted] at counted ⊢
        rw [List.singleton_append, List.countP_cons_of_neg verbatim] at counted
        refine .char char unescaped (fun mark => ?_) (ih follows apart.2 counted neutral)
        rw [← isOutside_core, same, inside mark]
      · rw [emitted] at counted ⊢
        exact ih follows apart.2 counted neutral
    cases follows with
    | settled settled same => exact settledStep settled same apart counted neutral
    | backslash outside =>
      by_cases mark : c = '?'
      · subst mark
        have escaped : Follows (backslash.step '?').1 (written.step '?').1 :=
          .settled rfl (Flat.core_step_of_isOutside outside (.inl rfl))
        exact .escape outside (ih escaped apart.2 counted neutral)
      · have step : backslash.step c = ((bare.step c).1, .bare '\\' :: (bare.step c).2) := if_neg mark
        rw [tokens_backslash mark] at counted ⊢
        rw [step] at apart ⊢
        exact .backslash (settledStep rfl (Flat.core_step_of_isOutside outside (.inr rfl))
          ⟨by simp [beginsMark], apart.2⟩ counted neutral)
    | question between =>
      by_cases mark : c = '?'
      · subst mark
        exact take rfl between counted neutral fun between counted neutral =>
          ih (.settled rfl between) apart.2 counted neutral
      · have step : question.step c = ((bare.step c).1, .value :: (bare.step c).2) := if_neg mark
        have single : (c :: rest).head? ≠ some '?' := mt Option.some.inj mark
        rw [tokens_question single] at counted ⊢
        rw [step] at apart ⊢
        exact take rfl between counted neutral fun between counted neutral =>
          settledStep rfl between ⟨by simp [beginsMark], apart.2⟩ counted neutral

end SqlState

/-- Text that means the same wherever it stands is spelled without question marks outside its regions. -/
theorem Quiet.unmarked {text : Text} (quiet : Quiet text) : SqlState.bare.unmarked text = true := by
  rw [← SqlState.verbatim_iff rfl, ← SqlState.ofText_eq_tokens, SqlToken.ofText_of_bare quiet.settles]
  exact quiet.verbatim

theorem Quiet.materialize_ddl [LocalZone] {sql : Text} (quiet : Quiet sql) (zone : TimeZone) :
    (Statement.ddl sql).materialize zone = .ok sql :=
  (Statement.materialize_ddl_eq_iff sql zone).mpr quiet.unmarked

theorem Quiet.neutral {text : Text} (quiet : Quiet text) : SqlState.Neutral text := by
  rw [SqlState.Neutral, quiet.settles]
  rfl

theorem forall_related_iff {A B : Type} {R : A → B → Prop} {items : List A} {results : List B}
    (related : List.Forall₂ R items results) {P : A → Prop} {Q : B → Prop}
    (same : ∀ item ∈ items, ∀ result, R item result → (P item ↔ Q result)) :
    (∀ item ∈ items, P item) ↔ ∀ result ∈ results, Q result := by
  induction related with
  | nil => exact iff_of_true (fun _ none => absurd none List.not_mem_nil) fun _ none => absurd none List.not_mem_nil
  | cons head _ ih =>
    rw [List.forall_mem_cons, List.forall_mem_cons, same _ List.mem_cons_self _ head,
      ih fun item member => same item (List.mem_cons_of_mem _ member)]

inductive Spliced [LocalZone] (zone : TimeZone) : Value × Except SqlError Flat → Text → Prop
  | value {bound : Value} {flat : Flat} {text : Text} (inlined : flat.inlined zone = .ok text) :
      Spliced zone (bound, .ok flat) text
  | name {name : Text} {flat : Except SqlError Flat} : Spliced zone (.text name, flat) (Identifier.quoteQualified name)

namespace Flat

variable {zone : TimeZone}

theorem inlined_append_ok [LocalZone] {first second : Flat} {text : Text}
    (done : (first ++ second).inlined zone = .ok text) :
    ∃ head tail, first.inlined zone = .ok head ∧ second.inlined zone = .ok tail ∧ text = head ++ tail := by
  rw [inlined_append] at done
  obtain ⟨head, left, done⟩ := bind_ok done
  cases right : second.inlined zone with
  | error error =>
    rw [right] at done
    cases done
  | ok tail =>
    rw [right] at done
    exact ⟨head, tail, left, rfl, (Except.ok.inj done).symm⟩

theorem spell_of_fill [LocalZone] {tokens : List SqlToken} {bindings : List (Value × Except SqlError Flat)}
    {flat : Flat}
    {text : Text} (counted : tokens.countP SqlToken.isPlaceholder = bindings.length)
    (filled : fill tokens bindings = .ok flat) (written : flat.inlined zone = .ok text) :
    ∃ texts, text = SqlToken.spell tokens texts ∧ List.Forall₂ (Spliced zone) bindings texts := by
  -- Each token writes itself or takes the next binding with its text.
  induction tokens generalizing bindings flat text with
  | nil =>
    obtain rfl := List.eq_nil_of_length_eq_zero counted.symm
    cases filled
    cases written
    exact ⟨[], rfl, .nil⟩
  | cons token rest ih =>
    obtain ⟨c, char, -, fewer⟩ | ⟨⟨bound, spliced⟩, others, rfl, fewer, rfl | rfl⟩ := counted_cases counted
    · rw [fill_char char] at filled
      obtain ⟨head, tail, left, right, rfl⟩ := andThen_eq_ok filled
      cases left
      obtain ⟨first, behind, single, later, rfl⟩ := inlined_append_ok written
      cases single
      obtain ⟨texts, rfl, related⟩ := ih fewer right later
      exact ⟨texts, (SqlToken.spell_char char rest texts).symm, related⟩
    · rw [fill_value] at filled
      obtain ⟨head, tail, left, right, rfl⟩ := andThen_eq_ok filled
      obtain ⟨first, behind, inlined, later, rfl⟩ := inlined_append_ok written
      obtain ⟨texts, rfl, related⟩ := ih fewer right later
      cases left
      exact ⟨first :: texts, rfl, .cons (.value inlined) related⟩
    · rw [fill_identifier] at filled
      obtain ⟨head, tail, left, right, rfl⟩ := andThen_eq_ok filled
      obtain ⟨first, behind, inlined, later, rfl⟩ := inlined_append_ok written
      obtain ⟨texts, rfl, related⟩ := ih fewer right later
      obtain ⟨name, rfl, rfl⟩ := spliceName_ok left
      rw [inlined_ofText] at inlined
      cases inlined
      exact ⟨_ :: texts, rfl, .cons .name related⟩

end Flat

inductive Value.Escapes : Value → Prop
  | here {sql : Text} {bindings : List Value} (escaped : .bare '?' ∈ SqlToken.ofText sql) : Escapes (.raw sql bindings)
  | within {sql : Text} {bindings : List Value} {nested : Value} (member : nested ∈ bindings)
      (escapes : Escapes nested) :
      Escapes (.raw sql bindings)

theorem Value.escapes_raw {sql : Text} {bindings : List Value} :
    ¬ (Value.raw sql bindings).Escapes ↔
      SqlToken.bare '?' ∉ SqlToken.ofText sql ∧ ∀ nested ∈ bindings, ¬ nested.Escapes := by
  constructor
  · exact fun none => ⟨fun escaped => none (.here escaped), fun nested member escapes => none (.within member escapes)⟩
  · rintro ⟨unescaped, each⟩ (escaped | ⟨member, escapes⟩)
    · exact unescaped escaped
    · exact each _ member escapes

theorem Value.not_escapes_of_isRawFree {value : Value} (free : value.isRawFree = true) : ¬ value.Escapes := by
  rintro (_ | _) <;> cases free

/-- What is written of a statement is spelled by its tokens, and an escape is all that leaves a question mark
outside the regions. -/
theorem Flat.spells_ofBindings [LocalZone] {zone : TimeZone} {sql : Text} {bindings : List Value} {flat : Flat}
    {text : Text}
    (apart : SqlState.bare.apart sql = true)
    (each : ∀ value ∈ bindings, ∀ flat text, value.flat = .ok flat → flat.inlined zone = .ok text →
      SqlState.Neutral text ∧ (¬ value.Escapes ↔ SqlState.bare.unmarked text = true))
    (filled : ofBindings sql bindings = .ok flat) (written : flat.inlined zone = .ok text) :
    (SqlState.bare.read text).1.core = (SqlState.bare.read sql).1.core ∧
      (¬ (Value.raw sql bindings).Escapes ↔ SqlState.bare.unmarked text = true) := by
  obtain ⟨counted, filled⟩ := ofBindings_eq_ok filled
  obtain ⟨texts, rfl, related⟩ := spell_of_fill counted filled written
  have pieces : ∀ value ∈ bindings, ∀ text, Spliced zone (value, value.flat) text →
      SqlState.Neutral text ∧ (¬ value.Escapes ↔ SqlState.bare.unmarked text = true) := by
    intro value member text spliced
    generalize source : value.flat = flat at spliced
    cases spliced with
    | value inlined => exact each value member _ text source inlined
    | @name name =>
      have quiet := Identifier.quiet_quoteQualified name
      exact ⟨quiet.neutral, iff_of_true (Value.not_escapes_of_isRawFree rfl) quiet.unmarked⟩
  rw [related.length_eq] at counted
  rw [Value.flatPairs_eq_map, List.forall₂_map_left_iff] at related
  have neutral : ∀ text ∈ texts, SqlState.Neutral text := by
    intro text member
    obtain ⟨value, held, spliced⟩ := related_of_mem related.flip member
    exact (pieces value held text spliced).1
  have spells : SqlState.bare.Spells (SqlState.bare.tokens sql) texts (SqlState.bare.read sql).1.core :=
    SqlState.spells_tokens (.settled rfl rfl) apart counted neutral
  refine ⟨spells.core, ?_⟩
  rw [SqlState.ofText_eq_tokens, spells.unmarked_iff, Value.escapes_raw, ← SqlState.ofText_eq_tokens]
  exact and_congr_right fun _ => forall_related_iff related fun value member text spliced =>
    (pieces value member text spliced).2

theorem Value.Contained.inlined [LocalZone] {value : Value} (contained : value.Contained) {zone : TimeZone} :
    ∀ flat text, value.flat = .ok flat → flat.inlined zone = .ok text →
      SqlState.Neutral text ∧ (¬ value.Escapes ↔ SqlState.bare.unmarked text = true) := by
  induction contained with
  | literal free =>
    intro flat text source written
    rw [Value.flat_of_isRawFree free] at source
    cases source
    rw [Flat.inlined_value] at written
    have quiet := Value.quiet_literal written
    exact ⟨quiet.neutral, iff_of_true (not_escapes_of_isRawFree free) quiet.unmarked⟩
  | raw apart settles each ih =>
    intro flat text source written
    have spells := Flat.spells_ofBindings apart ih source written
    exact ⟨spells.1.trans settles, spells.2⟩

namespace Raw

/-- The statement can be written in front of more text: it ends outside every region, no placeholder comes right
behind a mark that has only begun, and its values leave the text around them as it is. -/
structure Composed (fragment : Raw) : Prop where
  outside : (SqlState.bare.read fragment.sql).1.isOutside = true
  apart : SqlState.bare.apart fragment.sql = true
  each : ∀ value ∈ fragment.bindings, value.Contained

theorem spell_of_inlined [LocalZone] {fragment : Raw} {zone : TimeZone} {text : Text}
    (written : fragment.inlined zone = .ok text) :
    ∃ texts, text = SqlToken.spell (SqlToken.ofText fragment.sql) texts ∧
      List.Forall₂ (fun value => Spliced zone (value, value.flat)) fragment.bindings texts := by
  obtain ⟨flat, filled, written⟩ := bind_ok written
  obtain ⟨counted, filled⟩ := Flat.ofBindings_eq_ok filled
  obtain ⟨texts, same, related⟩ := Flat.spell_of_fill counted filled written
  rw [Value.flatPairs_eq_map, List.forall₂_map_left_iff] at related
  exact ⟨texts, same, related⟩

theorem Composed.inlined [LocalZone] {fragment : Raw} (composed : fragment.Composed) {zone : TimeZone} {text : Text}
    (written : fragment.inlined zone = .ok text) :
    (SqlState.bare.read text).1.isOutside = true ∧
      (¬ (Value.ofRaw fragment).Escapes ↔ SqlState.bare.unmarked text = true) := by
  obtain ⟨flat, filled, written⟩ := bind_ok written
  obtain ⟨core, marks⟩ := Flat.spells_ofBindings composed.apart
    (fun value member => (composed.each value member).inlined)
    filled written
  refine ⟨?_, marks⟩
  rw [← SqlState.isOutside_core, core, SqlState.isOutside_core]
  exact composed.outside

end Raw

end LiteralSql
