import LiteralSql.Proofs.Rereading

/-! The zone in which instants are written.

An instant that is bound to a placeholder of a statement is written in the zone
that is asked for. One in the default of a column is written in the local zone,
before a zone is known.
-/

set_option autoImplicit false

namespace LiteralSql

namespace SqlState

/-- A character that is never put off and never part of a placeholder. -/
def isSteady (c : Char) : Bool := c != '\\' && c != '?'

theorem emits_steady {c : Char} (steady : isSteady c = true) {next : SqlState × List SqlToken}
    (emits : Emits c next) : next.1.pending = [] ∧ next.2.filterMap SqlToken.char? = [c] := by
  rw [isSteady, Bool.and_eq_true, bne_iff_ne, bne_iff_ne] at steady
  cases emits with
  | char char settled => exact ⟨settled, by rw [List.filterMap_cons, char]; rfl⟩
  | backslash mark => exact absurd mark steady.1
  | question mark => exact absurd mark steady.2

theorem read_steady {text : Text} (steady : text.all isSteady = true) (state : SqlState) :
    ∃ lead, (state.read text).2.filterMap SqlToken.char? = lead ++ text ∧
      (state.pending = [] → lead = []) := by
  induction text generalizing state with
  | nil => exact ⟨[], rfl, fun _ => rfl⟩
  | cons c rest ih =>
    rw [List.all_cons, Bool.and_eq_true] at steady
    -- A steady character lets out what was put off and is not put off itself.
    have step : ∃ lead, (state.step c).1.pending = [] ∧
        (state.step c).2.filterMap SqlToken.char? = lead ++ [c] ∧ (state.pending = [] → lead = []) := by
      by_cases settled : state.pending = []
      · obtain ⟨quiet, char⟩ := emits_steady steady.1 (emits_step settled c).1
        exact ⟨[], quiet, char, fun _ => rfl⟩
      · obtain ⟨quiet, char⟩ := emits_steady steady.1 (emits_stepBare c)
        have unmarked : c ≠ '?' := by
          rintro rfl
          exact Bool.false_ne_true steady.1
        cases state with
        | backslash =>
          refine ⟨['\\'], ?_⟩
          rw [SqlState.step, if_neg unmarked]
          exact ⟨quiet, by rw [List.filterMap_cons, char]; rfl, fun none => absurd none settled⟩
        | question =>
          refine ⟨[], ?_⟩
          rw [SqlState.step, if_neg unmarked]
          exact ⟨quiet, by rw [List.filterMap_cons, char]; rfl, fun none => absurd none settled⟩
        | _ => exact absurd rfl settled
    obtain ⟨lead, quiet, head, none⟩ := step
    obtain ⟨behind, tail, empty⟩ := ih steady.2 (state.step c).1
    refine ⟨lead, ?_, none⟩
    rw [read_cons, List.filterMap_append, head, tail, empty quiet, List.nil_append, List.append_assoc]
    rfl

end SqlState

namespace Instant

def isWritten (c : Char) : Bool := Text.isDigit c || "+-:. ".toList.contains c

theorem all_format [LocalZone] (instant : Instant) (zone : TimeZone) : (instant.format zone).all isWritten = true :=
    by
  have padded (width number : Nat) : (Text.padded width number).all isWritten = true := by
    have zero : isWritten '0' = true := by decide
    rw [Text.padded, List.all_append, List.all_replicate, zero, Bool.if_true_right, Bool.or_true,
      Bool.true_and, List.all_eq_true]
    intro c member
    rw [isWritten, Text.isDigit_of_mem_ofNat member, Bool.true_or]
  have year (number : Int) : (yearText number).all isWritten = true := by
    rw [yearText]
    split
    · exact padded _ _
    · have sign : isWritten (if number < 0 then '-' else '+') = true := by split <;> decide
      rw [List.all_cons, sign, padded]
      rfl
  have marks : isWritten '-' = true ∧ isWritten ' ' = true ∧ isWritten ':' = true ∧ isWritten '.' = true := by
    decide
  rw [format]
  simp only [List.all_append, List.all_cons, year, padded, marks, Bool.and_self]

theorem steady_literal [LocalZone] (instant : Instant) (zone : TimeZone) :
    (DollarQuote.ofText (instant.format zone)).all SqlState.isSteady = true := by
  rw [List.all_eq_true]
  intro c member
  have apart {inClass : Char → Bool} (outside : inClass '\\' = false ∧ inClass '?' = false)
      (inside : inClass c = true) : SqlState.isSteady c = true := by
    rw [SqlState.isSteady, Bool.and_eq_true, bne_iff_ne, bne_iff_ne]
    constructor
    · rintro rfl
      exact Bool.false_ne_true (outside.1.symm.trans inside)
    · rintro rfl
      exact Bool.false_ne_true (outside.2.symm.trans inside)
  obtain (rfl | name) | escaped := DollarQuote.mem_ofText member
  · rfl
  · exact apart (by decide) name
  · obtain ⟨source, written, inside⟩ := List.mem_flatMap.mp escaped
    have plain : isWritten source = true := List.all_eq_true.mp (instant.all_format zone) source written
    have unescaped : source ∉ '\\' :: DollarQuote.controls := fun special => by
      have none : ('\\' :: DollarQuote.controls).all (fun c => !isWritten c) = true := by decide
      exact Bool.false_ne_true ((Bool.not_eq_true' _).mp (List.all_eq_true.mp none source special) ▸ plain)
    rw [DollarQuote.escapeChar_of_plain unescaped, List.mem_singleton] at inside
    exact apart (by decide) (inside ▸ plain)

end Instant

theorem SqlToken.infix_filterMap {sql part : Text} (steady : part.all SqlState.isSteady = true)
    (inside : part <:+: sql) : part <:+: (SqlToken.ofText sql).filterMap SqlToken.char? := by
  obtain ⟨before, after, rfl⟩ := inside
  obtain ⟨lead, kept, -⟩ := SqlState.read_steady steady (SqlState.bare.read before).1
  rw [SqlToken.ofText, SqlState.read_append, SqlState.read_append]
  dsimp only
  rw [List.filterMap_append, List.filterMap_append, List.filterMap_append, kept]
  refine (List.suffix_append lead part).isInfix.trans (List.IsInfix.trans ?_ (List.prefix_append _ _).isInfix)
  exact (List.suffix_append _ _).isInfix.trans (List.prefix_append _ _).isInfix

theorem Statement.infix_ddl [LocalZone] {sql part : Text} {zone : TimeZone} {sent : Text}
    (done : (Statement.ddl sql).materialize zone = .ok sent) (steady : part.all SqlState.isSteady = true)
    (inside : part <:+: sql) : part <:+: sent := by
  rw [materialize_ddl] at done
  split at done
  · cases done
    exact SqlToken.infix_filterMap steady inside
  · cases done

/-- The statement that is the default of a column. A serial column takes no default. -/
def ColumnDefinition.rawDefault? (column : ColumnDefinition) : Option Raw :=
  match column.type.isIncrements, column.default with
  | false, some (.raw fragment) => some fragment
  | _, _ => none

def Operation.defaults : Operation → List Raw
  | .schema commands => commands.flatMap fun
    | .table definition => definition.columns.filterMap ColumnDefinition.rawDefault?
    | _ => []
  | _ => []

theorem ColumnDefinition.infix_compile [LocalZone] {column : ColumnDefinition} {table : Text}
    {compiled : Text × List Statement} (done : column.compile table = .ok compiled) {fragment : Raw}
    (default : column.rawDefault? = some fragment) :
    ∃ written, fragment.inlined .local = .ok written ∧ written <:+: compiled.1 := by
  rw [rawDefault?] at default
  split at default
  · next plain held =>
    cases default
    obtain ⟨name, -, done⟩ := bind_ok done
    rw [plain, if_neg Bool.false_ne_true, held] at done
    obtain ⟨clause, defaulted, same⟩ := bind_ok done
    obtain ⟨written, inlined, kept⟩ := bind_ok defaulted
    cases kept
    cases same
    exact ⟨written, inlined, ((List.suffix_append _ _).trans (List.suffix_append _ _)).isInfix⟩
  · cases default

theorem TableDefinition.infix_changes {table : TableDefinition} {name definition : Text}
    {definitions : List Text} (member : definition ∈ definitions) :
    ∃ sql ∈ table.changes name definitions, definition <:+: sql := by
  have created (keyword : Text) : definition <:+: createSql keyword name definitions :=
    (infix_intercalate _ member).trans
      ((List.suffix_append _ _).isInfix.trans (List.prefix_append _ _).isInfix)
  cases action : table.action with
  | create | createIfNotExists =>
    rw [changes, action]
    exact ⟨_, List.mem_singleton_self _, created _⟩
  | alter =>
    rw [changes, action]
    refine ⟨_, List.mem_append_left _ (List.mem_append_left _ (List.mem_map_of_mem member)), ?_⟩
    exact (List.suffix_append _ _).isInfix

theorem TableDefinition.infix_compile [LocalZone] {table : TableDefinition} {statements : List Statement}
    (done : table.compile = .ok statements) {column : ColumnDefinition} (member : column ∈ table.columns)
    {fragment : Raw} (default : column.rawDefault? = some fragment) :
    ∃ sql written, Statement.ddl sql ∈ statements ∧ fragment.inlined .local = .ok written ∧ written <:+: sql := by
  obtain ⟨columns, compiled, same⟩ := bind_ok done
  cases same
  obtain ⟨definition, held, done⟩ := related_of_mem (mapM_ok compiled) member
  obtain ⟨written, inlined, inside⟩ := column.infix_compile done default
  obtain ⟨sql, change, within⟩ := table.infix_changes (List.mem_map_of_mem held)
  exact ⟨sql, written, List.mem_append_left _ (List.mem_append_left _ (List.mem_map_of_mem change)), inlined,
    inside.trans within⟩

theorem Operation.infix_defaults [LocalZone] {operation : Operation} {statements : List Statement}
    (compiled : operation.compile = .ok statements) {fragment : Raw} (member : fragment ∈ operation.defaults) :
    ∃ sql written, Statement.ddl sql ∈ statements ∧ fragment.inlined .local = .ok written ∧ written <:+: sql := by
  cases operation with
  | schema commands =>
    obtain ⟨parts, done, same⟩ := bind_ok compiled
    cases same
    obtain ⟨command, listed, held⟩ := List.mem_flatMap.mp member
    cases command with
    | table definition =>
      obtain ⟨column, inside, default⟩ := List.mem_filterMap.mp held
      obtain ⟨part, kept, done⟩ := related_of_mem (mapM_ok done) listed
      obtain ⟨sql, written, found, rest⟩ := definition.infix_compile done inside default
      exact ⟨sql, written, List.mem_flatten_of_mem kept found, rest⟩
    | _ => cases held
  | _ => cases member

theorem infix_of_materializeAll [LocalZone] {statements : List Statement} {zone : TimeZone} {envelope : Envelope}
    {text : Text} (sent : materializeAll statements zone envelope = .ok text) {statement : Statement}
    (member : statement ∈ statements) :
    ∃ part, statement.materialize zone = .ok part ∧ part <:+: text := by
  obtain ⟨parts, written, same⟩ := bind_ok sent
  obtain ⟨part, held, done⟩ := related_of_mem (mapM_ok written) member
  refine ⟨part, done, (infix_intercalate separator held).trans ?_⟩
  cases envelope <;> cases same
  · exact (List.suffix_append _ _).isInfix.trans (List.prefix_append _ _).isInfix
  · exact List.infix_rfl

/-- What is sent in any zone is one template with literals in place of its
values. The instants among the values are those that are bound to placeholders
of statements, so these are written in the zone that is asked for, and in no
other; an instant in the default of a column is written in the local zone. -/
theorem timestamps_rendered [LocalZone] (operation : Operation) (zone : TimeZone) {text : Text}
    (done : operation.toSql zone = .ok text) :
    ∃ template : Flat, (∀ other, operation.toSql other = template.inlined other) ∧
      (∀ instant, .timestamp instant ∈ template.values ↔ BindsAny instant operation.values) ∧
      (∀ instant, BindsAny instant operation.values →
        DollarQuote.ofText (instant.format zone) <:+: text) ∧
      ∀ fragment ∈ operation.defaults, ∀ instant, BindsAny instant fragment.bindings →
        DollarQuote.ofText (instant.format .local) <:+: text := by
  obtain ⟨statements, compiled, sent⟩ := bind_ok done
  obtain ⟨templates, related, rendered⟩ := materializeAll_template sent
  have renders : ∀ other, operation.toSql other =
      (operation.envelope.template (Flat.joined separator templates)).inlined other := fun other => by
    rw [Operation.toSql, compiled]
    exact rendered other
  have timestamps : ∀ instant, .timestamp instant ∈
      (operation.envelope.template (Flat.joined separator templates)).values ↔
        BindsAny instant operation.values := by
    intro instant
    rw [Envelope.values_template, Flat.values_joined, List.mem_flatMap, Operation.binds_compile compiled]
    constructor
    · rintro ⟨template, member, held⟩
      obtain ⟨statement, listed, made⟩ := related_of_mem related.flip member
      exact ⟨statement, listed, (Statement.timestamp_mem_template_iff made).mp held⟩
    · rintro ⟨statement, listed, binds⟩
      obtain ⟨template, member, made⟩ := related_of_mem related listed
      exact ⟨template, member, (Statement.timestamp_mem_template_iff made).mpr binds⟩
  refine ⟨_, renders, timestamps, fun instant bound => ?_, fun fragment member instant bound => ?_⟩
  · obtain ⟨literal, encoded, inside⟩ :=
      Flat.literal_infix ((renders zone).symm.trans done) ((timestamps instant).mpr bound)
    exact Except.ok.inj encoded ▸ inside
  · obtain ⟨sql, written, listed, inlined, within⟩ := operation.infix_defaults compiled member
    obtain ⟨flat, filled, inlined⟩ := bind_ok inlined
    obtain ⟨literal, encoded, inside⟩ :=
      Flat.literal_infix inlined ((Flat.timestamp_mem_values_iff filled).mpr bound)
    have same : DollarQuote.ofText (instant.format .local) = literal := Except.ok.inj encoded
    rw [← same] at inside
    obtain ⟨part, done, kept⟩ := infix_of_materializeAll sent listed
    exact (Statement.infix_ddl done (instant.steady_literal .local) (inside.trans within)).trans kept

def epoch : Instant := ⟨0, 0⟩

def twoHoursEast : TimeZone := .offset 7200 (by decide)

def defaultingCommand : SchemaCommand := .table {
  name := "t".toList
  action := .create
  columns := [{
    name := "at".toList
    type := .timestamp false
    default := some (.raw ⟨['?'], [.timestamp epoch]⟩) }] }

def datedCommands : Schema := [defaultingCommand, .raw ⟨"select ?".toList, [.timestamp epoch]⟩]

def datedStatements : List Statement :=
  [.ddl ("create table \"t\" (\"at\" timestamptz default ".toList ++
      "$cartodb$1970-01-01 00:00:00.000$cartodb$)".toList),
    .once "select ?".toList [.timestamp epoch] .raw]

theorem timestamps_rendered_mixed :
    ∃ text, (Operation.schema datedCommands).toSql twoHoursEast = .ok text ∧
      "$cartodb$1970-01-01 02:00:00.000$cartodb$".toList <:+: text ∧
      "$cartodb$1970-01-01 00:00:00.000$cartodb$".toList <:+: text := by
  have east : DollarQuote.ofText (epoch.format twoHoursEast) =
      "$cartodb$1970-01-01 02:00:00.000$cartodb$".toList := by decide +kernel
  have here : DollarQuote.ofText (epoch.format .local) =
      "$cartodb$1970-01-01 00:00:00.000$cartodb$".toList := by decide +kernel
  have compiled : (Operation.schema datedCommands).compile = .ok datedStatements := rfl
  have each : ∀ statement ∈ datedStatements, ∃ part, statement.materialize twoHoursEast = .ok part := by
    intro statement member
    obtain rfl | member := List.mem_cons.mp member
    · exact ⟨_, rfl⟩
    · rw [List.mem_singleton.mp member]
      refine Statement.materialize_ok_iff.mpr fun row only => ?_
      rw [List.mem_singleton.mp only]
      exact ⟨_, rfl, fun value held => by rw [List.mem_singleton.mp held]; rfl⟩
  obtain ⟨text, sent⟩ := (@materializeAll_ok_iff _ _ _ .transaction).mpr each
  have done : (Operation.schema datedCommands).toSql twoHoursEast = .ok text := by
    rw [Operation.toSql, compiled]
    exact sent
  obtain ⟨template, -, -, bound, defaults⟩ := timestamps_rendered _ twoHoursEast done
  rw [← east, ← here]
  exact ⟨text, done, bound epoch ⟨_, List.mem_cons_self, .here⟩,
    defaults _ List.mem_cons_self epoch ⟨_, List.mem_cons_self, .here⟩⟩

/-- The zone that is asked for does not reach the default of a column. -/
theorem default_ignores_zone :
    (Operation.schema [defaultingCommand]).toSql twoHoursEast =
        .ok ("BEGIN;\ncreate table \"t\" (\"at\" timestamptz default ".toList ++
          "$cartodb$1970-01-01 00:00:00.000$cartodb$);\nCOMMIT;".toList) ∧
      ¬ "$cartodb$1970-01-01 02:00:00.000$cartodb$".toList <:+:
        "BEGIN;\ncreate table \"t\" (\"at\" timestamptz default ".toList ++
          "$cartodb$1970-01-01 00:00:00.000$cartodb$);\nCOMMIT;".toList ∧
      DollarQuote.ofText (epoch.format twoHoursEast) = "$cartodb$1970-01-01 02:00:00.000$cartodb$".toList :=
  ⟨rfl, by decide +kernel, by decide +kernel⟩

end LiteralSql
