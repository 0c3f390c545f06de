import LiteralSql.Proofs.Dictionary
import LiteralSql.Proofs.Template
import LiteralSql.Sql.Operation

/-! The instants that are bound in an operation.

An instant is bound where a value is one, or where a raw statement binds it to
one of its own placeholders. Flattening keeps exactly the instants that are bound.
-/

set_option autoImplicit false

namespace LiteralSql

inductive Value.Binds (instant : Instant) : Value → Prop
  | here : Binds instant (.timestamp instant)
  | within {sql : Text} {bindings : List Value} {nested : Value} (member : nested ∈ bindings)
      (binds : Binds instant nested) : Binds instant (.raw sql bindings)

variable {instant : Instant}

namespace Flat

theorem bound_of_fill {tokens : List SqlToken} {bindings : List (Value × Except SqlError Flat)} {flat : Flat}
    (counted : tokens.countP SqlToken.isPlaceholder = bindings.length)
    (filled : fill tokens bindings = .ok flat) {binding : Value × Except SqlError Flat}
    (member : binding ∈ bindings) :
    (∃ name, binding.1 = .text name) ∨
      ∃ spliced, binding.2 = .ok spliced ∧ ∀ value ∈ spliced.values, value ∈ flat.values := by
  induction tokens generalizing bindings flat with
  | nil =>
    rw [List.eq_nil_of_length_eq_zero counted.symm] at member
    cases member
  | cons token rest ih =>
    -- What is found in the rest is not lost behind what comes first.
    have later {head tail : Flat} (kept : (∃ name, binding.1 = .text name) ∨
        ∃ spliced, binding.2 = .ok spliced ∧ ∀ value ∈ spliced.values, value ∈ tail.values) :
        (∃ name, binding.1 = .text name) ∨
          ∃ spliced, binding.2 = .ok spliced ∧ ∀ value ∈ spliced.values, value ∈ (head ++ tail).values := by
      refine kept.imp_right fun ⟨spliced, done, inside⟩ => ⟨spliced, done, fun value held => ?_⟩
      rw [values_append]
      exact List.mem_append_right _ (inside value held)
    obtain ⟨c, char, -, fewer⟩ | ⟨first, others, rfl, fewer, rfl | rfl⟩ := counted_cases counted
    · rw [fill_char char] at filled
      obtain ⟨head, tail, -, done, rfl⟩ := andThen_eq_ok filled
      exact later (ih fewer done member)
    · rw [fill_value] at filled
      obtain ⟨head, tail, spliced, done, rfl⟩ := andThen_eq_ok filled
      obtain rfl | member := List.mem_cons.mp member
      · refine .inr ⟨head, spliced, fun value held => ?_⟩
        rw [values_append]
        exact List.mem_append_left _ held
      · exact later (ih fewer done member)
    · rw [fill_identifier] at filled
      obtain ⟨head, tail, spliced, done, rfl⟩ := andThen_eq_ok filled
      obtain rfl | member := List.mem_cons.mp member
      · obtain ⟨name, same, -⟩ := spliceName_ok spliced
        exact .inl ⟨name, same⟩
      · exact later (ih fewer done member)

theorem ofBindings_eq_ok {sql : Text} {bindings : List Value} {flat : Flat}
    (filled : ofBindings sql bindings = .ok flat) :
    (SqlToken.ofText sql).countP SqlToken.isPlaceholder = (Value.flatPairs bindings).length ∧
      fill (SqlToken.ofText sql) (Value.flatPairs bindings) = .ok flat := by
  rw [ofBindings, fillAll, placeholderCount_eq] at filled
  split at filled
  · next counted => exact ⟨counted, filled⟩
  · cases filled

theorem binds_of_mem_values {sql : Text} {bindings : List Value} {flat : Flat}
    (filled : ofBindings sql bindings = .ok flat) (member : .timestamp instant ∈ flat.values) :
    ∃ bound ∈ bindings, bound.Binds instant := by
  obtain ⟨binding, held, spliced, done, inside⟩ := mem_values_fill (ofBindings_eq_ok filled).2 member
  obtain ⟨bound, supplied, rfl⟩ := Value.mem_flatPairs held
  refine ⟨bound, supplied, ?_⟩
  cases bound with
  | raw inner values =>
    have done : ofBindings inner values = .ok spliced := by rwa [Value.flat] at done
    obtain ⟨nested, held, binds⟩ := binds_of_mem_values done inside
    exact .within held binds
  | timestamp moment =>
    cases done
    cases List.mem_singleton.mp inside
    exact .here
  | _ =>
    cases done
    cases List.mem_singleton.mp inside
termination_by sizeOf bindings
decreasing_by
  have smaller := List.sizeOf_lt_of_mem supplied
  simp only [Value.raw.sizeOf_spec] at smaller
  omega

/-- A bound value that is no name has its own flat form, whose values are kept. -/
theorem flat_of_bound {sql : Text} {bindings : List Value} {flat : Flat}
    (filled : ofBindings sql bindings = .ok flat) {bound : Value} (member : bound ∈ bindings) :
    (∃ name, bound = .text name) ∨
      ∃ spliced, bound.flat = .ok spliced ∧ ∀ value ∈ spliced.values, value ∈ flat.values := by
  obtain ⟨counted, filled⟩ := ofBindings_eq_ok filled
  have pair : (bound, bound.flat) ∈ Value.flatPairs bindings := by
    rw [Value.flatPairs_eq_map]
    exact List.mem_map_of_mem member
  exact bound_of_fill counted filled pair

theorem mem_values_of_binds {bound : Value} (binds : bound.Binds instant) {sql : Text}
    {bindings : List Value} {flat : Flat} (filled : ofBindings sql bindings = .ok flat)
    (member : bound ∈ bindings) : .timestamp instant ∈ flat.values := by
  induction binds generalizing sql bindings flat with
  | here =>
    obtain ⟨name, same⟩ | ⟨spliced, done, kept⟩ := flat_of_bound filled member
    · cases same
    · cases done
      exact kept _ List.mem_cons_self
  | @within inner values nested held _ ih =>
    obtain ⟨name, same⟩ | ⟨spliced, done, kept⟩ := flat_of_bound filled member
    · cases same
    · rw [Value.flat] at done
      exact kept _ (ih done held)

theorem timestamp_mem_values_iff {sql : Text} {bindings : List Value} {flat : Flat}
    (filled : ofBindings sql bindings = .ok flat) :
    .timestamp instant ∈ flat.values ↔ ∃ bound ∈ bindings, bound.Binds instant :=
  ⟨binds_of_mem_values filled, fun ⟨_, member, binds⟩ => mem_values_of_binds binds filled member⟩

end Flat

def BindsAny (instant : Instant) (values : List Value) : Prop := ∃ value ∈ values, value.Binds instant

theorem bindsAny_flatMap {A : Type} {items : List A} {values : A → List Value} :
    BindsAny instant (items.flatMap values) ↔ ∃ item ∈ items, BindsAny instant (values item) := by
  simp only [BindsAny, List.mem_flatMap]
  constructor
  · rintro ⟨value, ⟨item, member, held⟩, binds⟩
    exact ⟨item, member, value, held, binds⟩
  · rintro ⟨item, member, value, held, binds⟩
    exact ⟨value, ⟨item, member, held⟩, binds⟩

def Statement.Binds (instant : Instant) (statement : Statement) : Prop :=
  ∃ row ∈ statement.bindings.rows, BindsAny instant row

theorem Statement.binds_once {sql : Text} {values : List Value} {kind : StatementKind} :
    (Statement.once sql values kind).Binds instant ↔ BindsAny instant values :=
  ⟨fun ⟨_, member, binds⟩ => List.mem_singleton.mp member ▸ binds, fun binds => ⟨values, List.mem_cons_self, binds⟩⟩

theorem Statement.binds_single {statement : Statement} :
    (∃ other ∈ [statement], other.Binds instant) ↔ statement.Binds instant := by
  simp only [List.mem_singleton, exists_eq_left]

theorem Statement.not_binds_ddl {sql : Text} : ¬ (Statement.ddl sql).Binds instant := fun binds => by
  obtain ⟨value, member, -⟩ := binds_once.mp binds
  cases member

theorem Statement.timestamp_mem_template_iff {statement : Statement} {template : Flat}
    (done : statement.template = .ok template) :
    .timestamp instant ∈ template.values ↔ statement.Binds instant := by
  obtain ⟨flats, filled, values⟩ := filled_of_template done
  rw [values, List.mem_flatMap]
  constructor
  · rintro ⟨flat, member, held⟩
    obtain ⟨row, bound, done⟩ := related_of_mem filled.flip member
    exact ⟨row, bound, (Flat.timestamp_mem_values_iff done).mp held⟩
  · rintro ⟨row, bound, binds⟩
    obtain ⟨flat, member, done⟩ := related_of_mem filled bound
    exact ⟨flat, member, (Flat.timestamp_mem_values_iff done).mpr binds⟩

namespace Insert

/-- A cell that a row lacks is null, and every cell that it has is under one of the columns. -/
theorem bindsAny_cells (insert : Insert) {row : Record} (member : row ∈ insert.rows) :
    BindsAny instant (cells insert.columns row) ↔ BindsAny instant (row.entries.map Prod.snd) := by
  constructor
  · rintro ⟨value, held, binds⟩
    obtain ⟨column, -, rfl⟩ := List.mem_map.mp held
    cases found : row.get? column with
    | none =>
      rw [found] at binds
      cases binds
    | some value =>
      rw [found] at binds
      exact ⟨value, List.mem_map_of_mem (Dictionary.get?_eq_some_iff.mp found), binds⟩
  · rintro ⟨value, held, binds⟩
    obtain ⟨⟨column, value⟩, entry, rfl⟩ := List.mem_map.mp held
    have known : column ∈ insert.columns := by
      rw [columns, Dictionary.mem_keys_ofList, List.map_map, List.mem_map]
      exact ⟨column, List.mem_flatMap.mpr ⟨row, member, List.mem_map_of_mem entry⟩, rfl⟩
    refine ⟨value, List.mem_map.mpr ⟨column, known, ?_⟩, binds⟩
    rw [Dictionary.get?_eq_some_iff.mpr entry]
    rfl

theorem binds_compile (insert : Insert) {statements : List Statement}
    (compiled : insert.compile = .ok statements) :
    BindsAny instant (insert.rows.flatMap fun row => row.entries.map Prod.snd) ↔
      ∃ statement ∈ statements, statement.Binds instant := by
  have cells : BindsAny instant (insert.rows.flatMap fun row => row.entries.map Prod.snd) ↔
      ∃ row ∈ insert.rows, BindsAny instant (cells insert.columns row) := by
    rw [bindsAny_flatMap]
    exact exists_congr fun row => and_congr_right fun member => (insert.bindsAny_cells member).symm
  rw [cells]
  rw [compile] at compiled
  dsimp only at compiled
  split at compiled
  · cases compiled
  · split at compiled
    · next none =>
      cases compiled
      rw [List.isEmpty_iff.mp none]
      constructor
      · rintro ⟨row, -, value, member, -⟩
        cases member
      · rintro ⟨statement, member, binds⟩
        obtain ⟨row, -, rfl⟩ := List.mem_map.mp member
        obtain ⟨value, member, -⟩ := Statement.binds_once.mp binds
        cases member
    · cases compiled
      rw [Statement.binds_single]
      simp only [Statement.Binds, Bindings.rows, List.mem_map, exists_exists_and_eq_and]

end Insert

namespace TableDefinition

theorem compile_ddl [LocalZone] {table : TableDefinition} {statements : List Statement}
    (compiled : table.compile = .ok statements) {statement : Statement} (member : statement ∈ statements) :
    ∃ sql, statement = .ddl sql := by
  obtain ⟨columns, written, same⟩ := bind_ok compiled
  cases same
  rw [List.mem_append, List.mem_append] at member
  obtain (member | member) | member := member
  · obtain ⟨sql, -, rfl⟩ := List.mem_map.mp member
    exact ⟨sql, rfl⟩
  · obtain ⟨comment, -, rfl⟩ := List.mem_map.mp member
    exact ⟨_, rfl⟩
  · obtain ⟨⟨definition, comments⟩, held, inside⟩ := List.mem_flatMap.mp member
    obtain ⟨column, -, done⟩ := related_of_mem (mapM_ok written).flip held
    obtain ⟨name, -, done⟩ := bind_ok done
    dsimp only at done
    split at done
    · cases done
      cases inside
    · obtain ⟨default, -, same⟩ := bind_ok done
      cases same
      obtain ⟨comment, -, rfl⟩ := List.mem_map.mp inside
      exact ⟨_, rfl⟩

end TableDefinition

/-- The values that a command binds to placeholders of its own statement. -/
def SchemaCommand.values : SchemaCommand → List Value
  | .hasTable name => [.text name]
  | .hasColumn owner column => [.text owner, .text column]
  | .raw fragment => fragment.bindings
  | _ => []

def Operation.values : Operation → List Value
  | .select query => query.params
  | .insert query => query.rows.flatMap fun row => row.entries.map Prod.snd
  | .update query => query.assignments.map Prod.snd ++ exprParams query.condition
  | .delete query => exprParams query.condition
  | .raw fragment => fragment.bindings
  | .schema commands => commands.flatMap SchemaCommand.values

theorem Statement.ofRaw_eq_ok {fragment : Raw} {statement : Statement}
    (compiled : ofRaw fragment = .ok statement) :
    statement = once fragment.sql fragment.bindings .raw := by
  rw [ofRaw] at compiled
  split at compiled
  · exact (Except.ok.inj compiled).symm
  · cases compiled

theorem SchemaCommand.binds_compile [LocalZone] {command : SchemaCommand} {statements : List Statement}
    (compiled : command.compile = .ok statements) :
    BindsAny instant command.values ↔ ∃ statement ∈ statements, statement.Binds instant := by
  have nothing (ddl : ∀ statement ∈ statements, ∃ sql, statement = .ddl sql) :
      BindsAny instant [] ↔ ∃ statement ∈ statements, statement.Binds instant := by
    refine iff_of_false (fun ⟨_, member, _⟩ => List.not_mem_nil member) ?_
    rintro ⟨statement, member, binds⟩
    obtain ⟨sql, rfl⟩ := ddl statement member
    exact Statement.not_binds_ddl binds
  cases command with
  | table definition => exact nothing fun _ member => definition.compile_ddl compiled member
  | raw fragment =>
    obtain ⟨statement, done, same⟩ := bind_ok compiled
    cases same
    rw [Statement.binds_single, Statement.ofRaw_eq_ok done, Statement.binds_once]
    rfl
  | hasTable name =>
    cases compiled
    rw [Statement.binds_single, Statement.binds_once]
    rfl
  | hasColumn owner column =>
    cases compiled
    rw [Statement.binds_single, Statement.binds_once]
    rfl
  | _ =>
    cases compiled
    exact nothing fun _ member => ⟨_, List.mem_singleton.mp member⟩

theorem Operation.binds_compile [LocalZone] {operation : Operation} {statements : List Statement}
    (compiled : operation.compile = .ok statements) :
    BindsAny instant operation.values ↔ ∃ statement ∈ statements, statement.Binds instant := by
  cases operation with
  | select query =>
    cases compiled
    rw [Statement.binds_single]
    exact Statement.binds_once.symm
  | insert query => exact query.binds_compile compiled
  | update query =>
    obtain ⟨statement, done, same⟩ := bind_ok compiled
    cases same
    rw [Statement.binds_single]
    rw [Update.compile] at done
    split at done
    · cases done
    · cases done
      exact Statement.binds_once.symm
  | delete query =>
    cases compiled
    rw [Statement.binds_single]
    exact Statement.binds_once.symm
  | raw fragment =>
    obtain ⟨statement, done, same⟩ := bind_ok compiled
    cases same
    rw [Statement.binds_single, Statement.ofRaw_eq_ok done, Statement.binds_once]
    rfl
  | schema commands =>
    obtain ⟨parts, done, same⟩ := bind_ok compiled
    cases same
    have related := mapM_ok done
    rw [Operation.values, bindsAny_flatMap]
    constructor
    · rintro ⟨command, member, binds⟩
      obtain ⟨part, held, done⟩ := related_of_mem related member
      obtain ⟨statement, inside, binds⟩ := (SchemaCommand.binds_compile done).mp binds
      exact ⟨statement, List.mem_flatten_of_mem held inside, binds⟩
    · rintro ⟨statement, member, binds⟩
      obtain ⟨part, held, inside⟩ := List.mem_flatten.mp member
      obtain ⟨command, member, done⟩ := related_of_mem related.flip held
      exact ⟨command, member, (SchemaCommand.binds_compile done).mpr ⟨statement, inside, binds⟩⟩

end LiteralSql
