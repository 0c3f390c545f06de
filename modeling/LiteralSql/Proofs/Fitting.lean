import LiteralSql.Proofs.Filling
import LiteralSql.Proofs.Script

/-! When a statement can be written out.

Bindings fit a text if there is one for each placeholder, a name where a name is
spliced, and for a value something that has a literal: no number that is not
finite, and of a nested statement again bindings that fit its text. Nothing else
is asked for, and nothing else goes wrong.
-/

set_option autoImplicit false

namespace LiteralSql

def slots (sql : Text) (bindings : List Value) : List (SqlToken × Value) :=
  ((SqlToken.ofText sql).filter SqlToken.isPlaceholder).zip bindings

inductive Fits : Text → List Value → Prop
  | intro {sql : Text} {bindings : List Value} (counted : placeholderCount sql = bindings.length)
      (names : ∀ bound, (.identifier, bound) ∈ slots sql bindings → ∃ name, bound = .text name)
      (numbers : ∀ number, (.value, .float number) ∈ slots sql bindings → number.isFinite = true)
      (nested : ∀ inner values, (.value, .raw inner values) ∈ slots sql bindings → Fits inner values) :
      Fits sql bindings

namespace Value

def isRaw : Value → Bool
  | .raw .. => true
  | _ => false

def isEncodable : Value → Bool
  | .float number => number.isFinite
  | .raw .. => false
  | _ => true

theorem literal_ok_iff [LocalZone] {zone : TimeZone} {value : Value} :
    (∃ written, value.literal zone = .ok written) ↔ value.isEncodable = true := by
  cases value with
  | bool value => cases value <;> exact ⟨fun _ => rfl, fun _ => ⟨_, rfl⟩⟩
  | float number =>
    rw [literal, isEncodable]
    split
    · next finite => exact ⟨fun _ => finite, fun _ => ⟨_, rfl⟩⟩
    · next infinite =>
      refine ⟨?_, fun finite => absurd finite infinite⟩
      rintro ⟨_, failed⟩
      cases failed
  | raw sql bindings =>
    constructor
    · rintro ⟨_, failed⟩
      cases failed
    · intro encodable
      cases encodable
  | _ => exact ⟨fun _ => rfl, fun _ => ⟨_, rfl⟩⟩

theorem isRaw_of_literal [LocalZone] {zone : TimeZone} {value : Value}
    (failed : value.literal zone = .error .nestedRaw) :
    value.isRaw = true := by
  cases value with
  | bool value => cases value <;> cases failed
  | float number =>
    rw [literal] at failed
    split at failed <;> cases failed
  | raw sql bindings => rfl
  | _ => cases failed

end Value

namespace Flat

def Writable (flat : Except SqlError Flat) : Prop :=
  ∃ done, flat = .ok done ∧ ∀ value ∈ done.values, value.isEncodable = true

theorem not_writable_error (error : SqlError) : ¬ Writable (.error error) := by
  rintro ⟨done, failed, -⟩
  cases failed

theorem writable_andThen {first second : Except SqlError Flat} :
    Writable (andThen first second) ↔ Writable first ∧ Writable second := by
  cases first with
  | error error => simp [not_writable_error]
  | ok head =>
    cases second with
    | error error =>
      rw [andThen_ok]
      simp [Except.map, not_writable_error]
    | ok tail => simp [Writable, andThen_ok, Except.map, values_append, or_imp, forall_and]

theorem writable_text (text : Text) : Writable (.ok (ofText text)) := by
  refine ⟨_, rfl, fun value member => ?_⟩
  rw [values_ofText] at member
  cases member

theorem spliceName_ok {bound : Value} {flat : Flat} (spliced : spliceName bound = .ok flat) :
    ∃ name, bound = .text name ∧ flat = ofText (Identifier.quoteQualified name) := by
  cases bound with
  | text name =>
    cases spliced
    exact ⟨name, rfl, rfl⟩
  | _ => cases spliced

theorem writable_spliceName {bound : Value} : Writable (spliceName bound) ↔ ∃ name, bound = .text name := by
  constructor
  · rintro ⟨done, spliced, -⟩
    obtain ⟨name, same, -⟩ := spliceName_ok spliced
    exact ⟨name, same⟩
  · rintro ⟨name, rfl⟩
    exact writable_text _

/-- What a placeholder asks of a binding and of the flat form that comes with it. -/
def Serves : SqlToken → Value × Except SqlError Flat → Prop
  | .identifier, (bound, _) => ∃ name, bound = .text name
  | _, (_, flat) => Writable flat

theorem writable_fill {tokens : List SqlToken} {bindings : List (Value × Except SqlError Flat)}
    (counted : tokens.countP SqlToken.isPlaceholder = bindings.length) :
    Writable (fill tokens bindings) ↔
      ∀ slot ∈ (tokens.filter SqlToken.isPlaceholder).zip bindings, Serves slot.1 slot.2 := by
  induction tokens generalizing bindings with
  | nil => exact ⟨fun _ slot member => absurd member (by simp), fun _ => writable_text []⟩
  | cons token rest ih =>
    obtain ⟨c, char, verbatim, fewer⟩ | ⟨⟨bound, flat⟩, others, rfl, fewer, rfl | rfl⟩ :=
      counted_cases counted
    · rw [fill_char char, writable_andThen, ih fewer, List.filter_cons_of_neg verbatim]
      exact and_iff_right (writable_text [c])
    · rw [fill_value, writable_andThen, ih fewer, List.filter_cons_of_pos rfl, List.zip_cons_cons,
        List.forall_mem_cons]
      rfl
    · rw [fill_identifier, writable_andThen, writable_spliceName, ih fewer, List.filter_cons_of_pos rfl,
        List.zip_cons_cons, List.forall_mem_cons]
      rfl

theorem writable_ofBindings {sql : Text} {bindings : List Value} :
    Writable (ofBindings sql bindings) ↔ placeholderCount sql = bindings.length ∧
      ∀ slot ∈ slots sql bindings, Serves slot.1 (slot.2, slot.2.flat) := by
  rw [ofBindings, fillAll, Value.length_flatPairs]
  split
  · next counted =>
    rw [and_iff_right counted]
    rw [placeholderCount_eq, ← Value.length_flatPairs] at counted
    rw [writable_fill counted, Value.flatPairs_eq_map, List.zip_map_right, List.forall_mem_map]
    rfl
  · next differ => simp [not_writable_error, differ]

end Flat

theorem Value.writable_flat {value : Value} (fits : ∀ sql bindings, value = .raw sql bindings →
    (Flat.Writable (Flat.ofBindings sql bindings) ↔ Fits sql bindings)) :
    Flat.Writable value.flat ↔ (∀ number, value = .float number → number.isFinite = true) ∧
      ∀ sql bindings, value = .raw sql bindings → Fits sql bindings := by
  cases value with
  | raw sql bindings =>
    rw [Value.flat]
    simpa [Flat.ofBindings] using fits sql bindings rfl
  | _ => simp [Value.flat, Flat.Writable, Flat.values, isEncodable]

theorem Flat.writable_iff_fits (sql : Text) (bindings : List Value) :
    Writable (ofBindings sql bindings) ↔ Fits sql bindings := by
  have spliced : ∀ slot ∈ slots sql bindings, Writable slot.2.flat ↔
      (∀ number, slot.2 = .float number → number.isFinite = true) ∧
        ∀ inner values, slot.2 = .raw inner values → Fits inner values := by
    intro slot member
    refine Value.writable_flat fun inner values same => ?_
    have held : slot.2 ∈ bindings := (List.of_mem_zip member).2
    exact writable_iff_fits inner values
  rw [writable_ofBindings]
  constructor
  · rintro ⟨counted, serves⟩
    exact .intro counted (fun bound member => serves _ member)
      (fun number member => ((spliced _ member).mp (serves _ member)).1 number rfl)
      (fun inner values member => ((spliced _ member).mp (serves _ member)).2 inner values rfl)
  · rintro ⟨counted, names, numbers, nested⟩
    refine ⟨counted, fun ⟨token, bound⟩ member => ?_⟩
    have placeholder : token.isPlaceholder = true := List.of_mem_filter (List.of_mem_zip member).1
    cases token with
    | bare c | shielded c => cases placeholder
    | identifier => exact names bound member
    | value =>
      refine (spliced _ member).mpr ⟨fun number same => ?_, fun inner values same => ?_⟩
      · exact numbers number (same ▸ member)
      · exact nested inner values (same ▸ member)
-- A raw value holds the values that are spliced into it.
termination_by sizeOf bindings
decreasing_by
  have smaller := List.sizeOf_lt_of_mem held
  rw [same] at smaller
  simp only [Value.raw.sizeOf_spec] at smaller
  omega

theorem Flat.mem_values_fill {tokens : List SqlToken} {bindings : List (Value × Except SqlError Flat)}
    {flat : Flat} (filled : fill tokens bindings = .ok flat) {value : Value} (member : value ∈ flat.values) :
    ∃ binding ∈ bindings, ∃ spliced, binding.2 = .ok spliced ∧ value ∈ spliced.values := by
  induction tokens generalizing bindings flat with
  | nil =>
    cases filled
    cases member
  | cons token rest ih =>
    obtain ⟨c, step⟩ | none | ⟨bound, spliced, others, rfl, step⟩ := fill_cons_cases token rest bindings
    · rw [step] at filled
      obtain ⟨head, tail, left, right, rfl⟩ := andThen_eq_ok filled
      cases left
      exact ih right member
    · rw [none] at filled
      cases filled
      cases member
    · have later {tail : Flat} (right : fill rest others = .ok tail) (member : value ∈ tail.values) :
          ∃ binding ∈ (bound, spliced) :: others, ∃ flat, binding.2 = .ok flat ∧ value ∈ flat.values := by
        obtain ⟨binding, held, found⟩ := ih right member
        exact ⟨binding, List.mem_cons_of_mem _ held, found⟩
      obtain step | step := step
      · rw [step] at filled
        obtain ⟨head, tail, left, right, rfl⟩ := andThen_eq_ok filled
        obtain ⟨name, -, rfl⟩ := spliceName_ok left
        rw [values_append, values_ofText] at member
        exact later right member
      · rw [step] at filled
        obtain ⟨head, tail, left, right, rfl⟩ := andThen_eq_ok filled
        rw [values_append, List.mem_append] at member
        obtain member | member := member
        · exact ⟨(bound, spliced), List.mem_cons_self, head, left, member⟩
        · exact later right member

theorem Flat.isRaw_of_mem_values {sql : Text} {bindings : List Value} {flat : Flat}
    (filled : ofBindings sql bindings = .ok flat) {value : Value} (member : value ∈ flat.values) :
    value.isRaw = false := by
  rw [ofBindings, fillAll] at filled
  split at filled
  · obtain ⟨binding, held, spliced, done, inside⟩ := mem_values_fill filled member
    obtain ⟨bound, supplied, rfl⟩ := Value.mem_flatPairs held
    cases bound with
    | raw inner values =>
      have done : ofBindings inner values = .ok spliced := by rwa [Value.flat] at done
      exact isRaw_of_mem_values done inside
    | _ =>
      cases done
      rw [List.mem_singleton.mp inside]
      rfl
  · cases filled
termination_by sizeOf bindings
decreasing_by
  have smaller := List.sizeOf_lt_of_mem supplied
  simp only [Value.raw.sizeOf_spec] at smaller
  omega

def SqlError.isMisfit : SqlError → Bool
  | .bindingCount .. | .invalidIdentifier _ => true
  | _ => false

theorem Flat.misfit_of_ofBindings {sql : Text} {bindings : List Value} {error : SqlError}
    (failed : ofBindings sql bindings = .error error) : error.isMisfit = true := by
  rw [ofBindings, fillAll] at failed
  split at failed
  · obtain ⟨type, rfl⟩ | ⟨binding, held, failed⟩ := fill_failed failed
    · rfl
    · obtain ⟨bound, supplied, rfl⟩ := Value.mem_flatPairs held
      cases bound with
      | raw inner values =>
        have failed : ofBindings inner values = .error error := by rwa [Value.flat] at failed
        exact misfit_of_ofBindings failed
      | _ => cases failed
  · cases failed
    rfl
termination_by sizeOf bindings
decreasing_by
  have smaller := List.sizeOf_lt_of_mem supplied
  simp only [Value.raw.sizeOf_spec] at smaller
  omega

theorem mapM_ok_iff {A B E : Type} {step : A → Except E B} {items : List A} :
    (∃ results, items.mapM step = .ok results) ↔ ∀ item ∈ items, ∃ result, step item = .ok result := by
  constructor
  · rintro ⟨results, done⟩ item member
    obtain ⟨result, -, same⟩ := related_of_mem (mapM_ok done) member
    exact ⟨result, same⟩
  · intro each
    obtain ⟨results, related⟩ := exists_related each
    exact ⟨results, mapM_of_related related⟩

section
variable {zone : TimeZone}

theorem executeLine_ok_iff [LocalZone] {name : Text} {row : Flat} :
    (∃ line, executeLine zone name row = .ok line) ↔ ∀ value ∈ row.values, value.isEncodable = true := by
  have literals : (∃ written, row.values.mapM (Value.literal zone) = .ok written) ↔
      ∀ value ∈ row.values, value.isEncodable = true := by
    simp only [mapM_ok_iff, Value.literal_ok_iff]
  rw [← literals]
  constructor
  · rintro ⟨line, done⟩
    obtain ⟨written, encoded, -⟩ := bind_ok done
    exact ⟨written, encoded⟩
  · rintro ⟨written, encoded⟩
    rw [executeLine, encoded]
    exact ⟨_, rfl⟩

/-- A run is rendered if each value in each of its rows has a literal. Rows
without values have none to ask for. -/
theorem renderRun_ok_iff [LocalZone] {rows : List Flat}
    (same : ∀ row ∈ rows, ∀ other ∈ rows, row.pieces = other.pieces) :
    (∃ block, renderRun zone rows = .ok block) ↔
      ∀ row ∈ rows, ∀ value ∈ row.values, value.isEncodable = true := by
  cases rows with
  | nil => exact ⟨fun _ row member => absurd member List.not_mem_nil, fun _ => ⟨_, rfl⟩⟩
  | cons first others =>
    rw [renderRun]
    dsimp only
    split
    · next unbound =>
      refine ⟨fun _ row member value held => ?_, fun _ => ⟨_, rfl⟩⟩
      have arity := Flat.length_values_eq (same row member first List.mem_cons_self)
      rw [List.isEmpty_iff.mp unbound] at arity
      rw [List.eq_nil_of_length_eq_zero arity] at held
      cases held
    · have lines (name : Text) : (∃ written, (first :: others).mapM (executeLine zone name) = .ok written) ↔
          ∀ row ∈ first :: others, ∀ value ∈ row.values, value.isEncodable = true := by
        simp only [mapM_ok_iff, executeLine_ok_iff]
      rw [← lines (preparedName first.parameterized (first :: others))]
      constructor
      · rintro ⟨block, done⟩
        obtain ⟨written, each, -⟩ := bind_ok done
        exact ⟨written, each⟩
      · rintro ⟨written, each⟩
        rw [each]
        exact ⟨_, rfl⟩

theorem Statement.runs_rendered_iff [LocalZone] {flats : List Flat} :
    (∃ blocks, (runs flats).mapM (renderRun zone) = .ok blocks) ↔
      ∀ flat ∈ flats, ∀ value ∈ flat.values, value.isEncodable = true := by
  obtain ⟨whole, -, same, -⟩ := runs_eq_iff.mp (rfl : runs flats = _)
  rw [mapM_ok_iff]
  constructor
  · intro each flat member
    rw [whole] at member
    obtain ⟨run, held, inside⟩ := List.mem_flatten.mp member
    exact (renderRun_ok_iff (same run held)).mp (each run held) flat inside
  · intro each run held
    refine (renderRun_ok_iff (same run held)).mpr fun flat inside => each flat ?_
    rw [whole]
    exact List.mem_flatten_of_mem held inside

theorem Statement.materialize_ok_iff [LocalZone] {statement : Statement} :
    (∃ text, statement.materialize zone = .ok text) ↔
      ∀ row ∈ statement.bindings.rows, Flat.Writable (Flat.ofBindings statement.sql row) := by
  rw [materialize]
  split
  · next none =>
    rw [List.isEmpty_iff.mp none]
    exact ⟨fun _ row member => absurd member List.not_mem_nil, fun _ => ⟨_, rfl⟩⟩
  · constructor
    · rintro ⟨text, done⟩ row member
      obtain ⟨flats, filled, done⟩ := bind_ok done
      obtain ⟨blocks, rendered, -⟩ := bind_ok done
      obtain ⟨flat, held, same⟩ := related_of_mem (mapM_ok filled) member
      exact ⟨flat, same, runs_rendered_iff.mp ⟨blocks, rendered⟩ flat held⟩
    · intro each
      obtain ⟨flats, related⟩ := exists_related each
      have filled := mapM_of_related (related.imp fun _ _ done => done.1)
      obtain ⟨blocks, rendered⟩ := runs_rendered_iff.mpr fun flat member =>
        (related_of_mem related.flip member).elim fun _ held => held.2.2
      rw [filled]
      dsimp only [bind, Except.bind]
      rw [rendered]
      exact ⟨_, rfl⟩

theorem Flat.inlined_ok_iff [LocalZone] {flat : Flat} :
    (∃ text, flat.inlined zone = .ok text) ↔ ∀ value ∈ flat.values, value.isEncodable = true := by
  induction flat with
  | nil => exact ⟨fun _ value member => absurd member List.not_mem_nil, fun _ => ⟨_, rfl⟩⟩
  | cons item rest ih =>
    cases item with
    | char c =>
      rw [inlined, values, ← ih]
      constructor
      · rintro ⟨text, done⟩
        obtain ⟨others, tail, -⟩ := bind_ok done
        exact ⟨others, tail⟩
      · rintro ⟨others, tail⟩
        rw [tail]
        exact ⟨_, rfl⟩
    | value held =>
      rw [inlined, values, List.forall_mem_cons, ← ih, ← @Value.literal_ok_iff _ zone held]
      constructor
      · rintro ⟨text, done⟩
        obtain ⟨literal, head, done⟩ := bind_ok done
        obtain ⟨others, tail, -⟩ := bind_ok done
        exact ⟨⟨literal, head⟩, others, tail⟩
      · rintro ⟨⟨literal, head⟩, others, tail⟩
        rw [head]
        dsimp only [bind, Except.bind]
        rw [tail]
        exact ⟨_, rfl⟩

theorem Raw.inlined_ok_iff [LocalZone] {fragment : Raw} :
    (∃ text, fragment.inlined zone = .ok text) ↔
      Flat.Writable (Flat.ofBindings fragment.sql fragment.bindings) := by
  constructor
  · rintro ⟨text, done⟩
    obtain ⟨flat, filled, done⟩ := bind_ok done
    exact ⟨flat, filled, Flat.inlined_ok_iff.mp ⟨text, done⟩⟩
  · rintro ⟨flat, filled, each⟩
    rw [inlined, filled]
    exact Flat.inlined_ok_iff.mpr each

theorem Value.literal_ne_nestedRaw [LocalZone] {sql : Text} {bindings : List Value} {flat : Flat}
    (filled : Flat.ofBindings sql bindings = .ok flat) {value : Value} (member : value ∈ flat.values) :
    value.literal zone ≠ .error .nestedRaw := by
  intro failed
  have raw := isRaw_of_literal failed
  rw [Flat.isRaw_of_mem_values filled member] at raw
  cases raw

theorem Flat.inlined_failed [LocalZone] {flat : Flat} {error : SqlError} (failed : flat.inlined zone = .error error) :
    ∃ value ∈ flat.values, value.literal zone = .error error := by
  induction flat with
  | nil => cases failed
  | cons item rest ih =>
    cases item with
    | char c =>
      obtain failed | ⟨others, -, impossible⟩ := bind_error failed
      · exact ih failed
      · cases impossible
    | value held =>
      obtain failed | ⟨literal, -, failed⟩ := bind_error failed
      · exact ⟨held, List.mem_cons_self, failed⟩
      · obtain failed | ⟨others, -, impossible⟩ := bind_error failed
        · obtain ⟨value, member, refused⟩ := ih failed
          exact ⟨value, List.mem_cons_of_mem held member, refused⟩
        · cases impossible

theorem Flat.ofBindings_ne_nestedRaw (sql : Text) (bindings : List Value) :
    ofBindings sql bindings ≠ .error .nestedRaw := fun failed =>
  absurd (misfit_of_ofBindings failed) Bool.false_ne_true

theorem Statement.materialize_ne_nestedRaw [LocalZone] (statement : Statement) :
    statement.materialize zone ≠ .error .nestedRaw := by
  intro failed
  obtain ⟨row, -, failed | ⟨flat, filled, value, member, refused⟩⟩ := statement.materialize_failed failed
  · exact Flat.ofBindings_ne_nestedRaw _ _ failed
  · exact Value.literal_ne_nestedRaw filled member refused

end

/-- A statement is written out exactly when each of its rows fits its text, and a
raw statement when its bindings fit. No raw statement is ever taken for a
literal: between the pieces of a filled text there is one value less than there
are pieces, and none of them is raw, so each piece but the first finds the value
in front of it. -/
theorem materialized_iff_fits [LocalZone] (zone : TimeZone) :
    (∀ statement : Statement, (∃ text, statement.materialize zone = .ok text) ↔
      ∀ row ∈ statement.bindings.rows, Fits statement.sql row) ∧
    (∀ fragment : Raw, (∃ text, fragment.inlined zone = .ok text) ↔ Fits fragment.sql fragment.bindings) ∧
    ((∀ statement : Statement, statement.materialize zone ≠ .error .nestedRaw) ∧
      (∀ statements envelope, materializeAll statements zone envelope ≠ .error .nestedRaw) ∧
      ∀ fragment : Raw, fragment.inlined zone ≠ .error .nestedRaw) ∧
    ∀ sql bindings flat, Flat.ofBindings sql bindings = .ok flat →
      (∀ value ∈ flat.values, value.isRaw = false) ∧ flat.pieces.length = flat.values.length + 1 ∧
        ∀ position < flat.pieces.length, position ≠ 0 → ∃ value, flat.values[position - 1]? = some value := by
  refine ⟨fun statement => ?_, fun fragment => ?_, ⟨Statement.materialize_ne_nestedRaw, ?_, ?_⟩, ?_⟩
  · simp only [Statement.materialize_ok_iff, Flat.writable_iff_fits]
  · rw [Raw.inlined_ok_iff, Flat.writable_iff_fits]
  · intro statements envelope failed
    obtain failed | ⟨parts, -, impossible⟩ := bind_error failed
    · obtain ⟨statement, -, failed⟩ := mapM_error failed
      exact statement.materialize_ne_nestedRaw failed
    · cases envelope <;> cases impossible
  · intro fragment failed
    obtain failed | ⟨flat, filled, failed⟩ := bind_error failed
    · exact Flat.ofBindings_ne_nestedRaw _ _ failed
    · obtain ⟨value, member, refused⟩ := Flat.inlined_failed failed
      exact Value.literal_ne_nestedRaw filled member refused
  · intro sql bindings flat filled
    have arity := flat.length_pieces
    refine ⟨fun value => Flat.isRaw_of_mem_values filled, arity, fun position inside first => ?_⟩
    exact ⟨_, List.getElem?_eq_getElem (by omega)⟩

end LiteralSql
