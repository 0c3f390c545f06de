import LiteralSql.Proofs.Rereading
import LiteralSql.Proofs.Separators
import LiteralSql.Proofs.Timestamps

/-! Statements as defaults of columns.

A definition is compiled to a text without values, in which the default of each
column is written out. When it is sent, this text is read for placeholders once
more. It is sent as it is compiled if no default has left a question mark outside
the regions of the text.
-/

set_option autoImplicit false

namespace LiteralSql

open SqlState

theorem unmarked_append_of_quiet {first : Text} (quiet : Quiet first) (second : Text) :
    bare.unmarked (first ++ second) = bare.unmarked second := by
  rw [unmarked_append, quiet.unmarked, quiet.settles, Bool.true_and]

theorem Live.append {first second : Text} (live : Live first) (detached : Layout.Detached second)
    (behind : Live second) : Live (first ++ second) :=
  (SqlToken.ofText_append live (.inr detached)).2 behind

theorem Live.unmarked_append {first second : Text} (live : Live first) (detached : Layout.Detached second) :
    bare.unmarked (first ++ second) = (bare.unmarked first && bare.unmarked second) := by
  rw [SqlState.unmarked_append]
  cases second with
  | nil => rfl
  | cons c rest =>
    have breaks := detached c rfl
    have other : c ≠ '?' := by
      rintro rfl
      cases breaks
    rw [unmarked, unmarked, step_of_breaksMarks live breaks]
    simp [other, SqlState.step]

theorem live_intercalate {between : Text} (quiet : Quiet between) (detached : Layout.Detached between)
    (some : between ≠ []) {texts : List Text} (live : ∀ text ∈ texts, Live text) :
    Live (between.intercalate texts) ∧
      (bare.unmarked (between.intercalate texts) = true ↔ ∀ text ∈ texts, bare.unmarked text = true) := by
  induction texts with
  | nil => exact ⟨rfl, iff_of_true rfl fun _ none => absurd none List.not_mem_nil⟩
  | cons text rest ih =>
    rw [List.forall_mem_cons] at live
    obtain ⟨behind, marks⟩ := ih live.2
    cases rest with
    | nil =>
      rw [List.intercalate_singleton, List.forall_mem_singleton]
      exact ⟨live.1, Iff.rfl⟩
    | cons next others =>
      have follows : Layout.Detached (between ++ between.intercalate (next :: others)) := by
        obtain ⟨c, letters, rfl⟩ := List.exists_cons_of_ne_nil some
        exact detached
      rw [List.intercalate_cons_cons, List.append_assoc, live.1.unmarked_append follows, unmarked_append_of_quiet quiet,
        Bool.and_eq_true, marks]
      exact ⟨live.1.append follows ((live_append quiet.settles _).mpr behind), by simp only [List.forall_mem_cons]⟩

theorem Statement.Tame.quiet_ddl {sql : Text} {layouts : List Layout} (tame : (Statement.ddl sql).Tame layouts) :
    Quiet sql := by
  obtain ⟨layout, rest, rfl⟩ := List.exists_cons_of_ne_nil tame.uniform.inhabited
  have free := tame.uniform.isRawFree layout List.mem_cons_self
  have unbound : layout.params = [] := (List.cons.inj tame.written.rows).1.symm
  have written := tame.written.sql layout List.mem_cons_self
  have quiet := (tame.written.sound layout List.mem_cons_self).quiet_parameterizedFrom free 1
  rwa [Layout.sql_of_unbound free unbound, written] at quiet

namespace ColumnDefinition

theorem compile_default [LocalZone] {table : Text} {column : ColumnDefinition} {compiled : Text × List Statement}
    (done : column.compile table = .ok compiled) :
    ∃ head clause, ({ column with default := none } : ColumnDefinition).compile table = .ok (head, compiled.2) ∧
      compiled.1 = head ++ clause ∧
      if column.type.isIncrements then clause = [] else defaultSql column.default = .ok clause := by
  obtain ⟨name, named, done⟩ := bind_ok done
  have effective : ({ column with default := none } : ColumnDefinition).effectiveName = .ok name := named
  rw [compile, effective]
  dsimp only at done ⊢
  split at done
  · next increments =>
    cases done
    refine ⟨_, [], ?_, (List.append_nil _).symm, ?_⟩
    · exact if_pos increments
    · rw [if_pos increments]
  · next plain =>
    obtain ⟨clause, written, same⟩ := bind_ok done
    cases same
    refine ⟨_, clause, ?_, rfl, ?_⟩
    · refine (if_neg plain).trans (congrArg Except.ok ?_)
      rw [List.append_nil]
    · rwa [if_neg plain]

/-- A definition is read without placeholders, unless they are in the statement that is its default. -/
theorem compile_rawDefault [LocalZone] {table : Text} (named : Quiet table) {column : ColumnDefinition}
    (typed : column.type.isRawFree = true) {compiled : Text × List Statement}
    (done : column.compile table = .ok compiled) :
    (∀ statement ∈ compiled.2, ∃ layouts, statement.Tame layouts) ∧
      (column.rawDefault? = none → Quiet compiled.1) ∧
      ∀ fragment, column.rawDefault? = some fragment → ∃ head written, Quiet (head ++ " default ".toList) ∧
        fragment.inlined .local = .ok written ∧ compiled.1 = head ++ " default ".toList ++ written := by
  obtain ⟨head, clause, base, same, default⟩ := compile_default done
  have free : ({ column with default := none } : ColumnDefinition).isRawFree = true := by
    rw [isRawFree, typed]
    rfl
  -- Without its default the definition is free of raw SQL, so what is known of such ones applies.
  obtain ⟨quiet, comments⟩ := quiet_compile named free base
  have keyword : Quiet " default ".toList := Quiet.of_plain (by decide)
  refine ⟨comments, ?_, ?_⟩
  · intro none
    rw [same]
    refine quiet.append ?_
    split at default
    · rw [default]
      exact Quiet.nil
    · next plain =>
      refine quiet_defaultSql ?_ default
      rw [rawDefault?, Bool.eq_false_iff.mpr plain] at none
      cases held : column.default with
      | none => rfl
      | some value =>
        rw [held] at none
        cases value with
        | raw fragment => cases none
        | _ => rfl
  · intro fragment held
    rw [rawDefault?] at held
    split at held
    · next plain raw =>
      cases held
      rw [plain, if_neg Bool.false_ne_true, raw] at default
      obtain ⟨written, inlined, kept⟩ := bind_ok default
      cases kept
      exact ⟨head, written, quiet.append keyword, inlined, by rw [same, List.append_assoc]⟩
    · cases held

/-- A definition ends outside every region, and an escape in its default is all that leaves a question mark
outside the regions. -/
theorem live_compile [LocalZone] {table : Text} (named : Quiet table) {column : ColumnDefinition}
    (typed : column.type.isRawFree = true) {compiled : Text × List Statement}
    (done : column.compile table = .ok compiled)
    (composed : ∀ fragment, column.rawDefault? = some fragment → fragment.Composed) :
    Live compiled.1 ∧ ((∀ fragment, column.rawDefault? = some fragment → ¬ (Value.ofRaw fragment).Escapes) ↔
      bare.unmarked compiled.1 = true) := by
  obtain ⟨-, quiet, default⟩ := compile_rawDefault named typed done
  cases raw : column.rawDefault? with
  | none => exact ⟨(quiet raw).live, iff_of_true nofun (quiet raw).unmarked⟩
  | some fragment =>
    obtain ⟨head, written, lead, inlined, same⟩ := default fragment raw
    obtain ⟨outside, marks⟩ := (composed fragment raw).inlined inlined
    rw [same, live_append lead.settles, unmarked_append_of_quiet lead, ← marks]
    refine ⟨outside, fun each => each fragment rfl, fun unescaped other held => ?_⟩
    cases held
    exact unescaped

end ColumnDefinition

namespace TableDefinition

theorem quiet_without_columns [LocalZone] (table : TableDefinition) {statements : List Statement}
    (compiled : ({ table with columns := [] } : TableDefinition).compile = .ok statements) {sql : Text}
    (member : Statement.ddl sql ∈ statements) : Quiet sql := by
  obtain ⟨layouts, tame⟩ := tame_compile (by rfl) compiled _ member
  exact tame.quiet_ddl

theorem quiet_changes (table : TableDefinition) {sql : Text}
    (member : sql ∈ table.changes (Identifier.quoteQualified table.name) []) : Quiet sql :=
  table.quiet_without_columns rfl (List.mem_append_left _ (List.mem_append_left _ (List.mem_map_of_mem member)))

theorem quiet_tableComment (table : TableDefinition) {comment : Text} (member : comment ∈ table.comment.toList) :
    Quiet ("comment on table ".toList ++ Identifier.quoteQualified table.name ++ " is ".toList ++
      commentLiteral comment) :=
  table.quiet_without_columns rfl
    (List.mem_append_left _ (List.mem_append_right _ (List.mem_map.mpr ⟨comment, member, rfl⟩)))

theorem unmarked_changes (table : TableDefinition) {definitions : List Text}
    (live : ∀ definition ∈ definitions, Live definition) :
    (∀ sql ∈ table.changes (Identifier.quoteQualified table.name) definitions, bare.unmarked sql = true) ↔
      ∀ definition ∈ definitions, bare.unmarked definition = true := by
  have named := Identifier.quiet_quoteQualified table.name
  have others : ∀ sql ∈ table.changes (Identifier.quoteQualified table.name) [], Quiet sql :=
    fun _ => table.quiet_changes
  generalize Identifier.quoteQualified table.name = name at named others
  have comma : Quiet ", ".toList := Quiet.of_plain (by decide)
  have between : Layout.Detached ", ".toList := fun c same => by
    cases same
    decide
  have closing : Layout.Detached [')'] := fun c same => by
    cases same
    decide
  -- Both ways to create a table differ in their keywords only.
  have created (keyword : Text) (plain : keyword.all Quiet.isPlain = true) :
      (∀ sql ∈ [createSql keyword name definitions], bare.unmarked sql = true) ↔
        ∀ definition ∈ definitions, bare.unmarked definition = true := by
    have space : Quiet [' '] := Quiet.of_plain (by decide)
    have opening : Quiet " (".toList := Quiet.of_plain (by decide)
    have close : Quiet [')'] := Quiet.of_plain (by decide)
    have head := ((Quiet.of_plain plain).append (space.append named)).append opening
    obtain ⟨ends, marks⟩ := live_intercalate comma between (by decide) live
    have whole : createSql keyword name definitions = keyword ++ ([' '] ++ name) ++ " (".toList ++
        (", ".toList.intercalate definitions ++ [')']) := by simp [createSql]
    rw [List.forall_mem_singleton, whole, unmarked_append_of_quiet head, ends.unmarked_append closing, close.unmarked,
      Bool.and_true, marks]
  rw [changes]
  cases action : table.action with
  | create => exact created _ (by decide)
  | createIfNotExists => exact created _ (by decide)
  | alter =>
    have verb : Quiet "add column ".toList := Quiet.of_plain (by decide)
    have head := (quiet_alterHead named).append verb
    rw [changes, action] at others
    dsimp only at others ⊢
    rw [List.append_assoc, List.forall_mem_append, List.forall_mem_map]
    rw [List.map_nil, List.nil_append] at others
    simp only [unmarked_append_of_quiet head]
    exact and_iff_left fun sql member => (others sql member).unmarked

def rawDefaults (table : TableDefinition) : List Raw := table.columns.filterMap ColumnDefinition.rawDefault?

theorem mem_rawDefaults {table : TableDefinition} {fragment : Raw} :
    fragment ∈ table.rawDefaults ↔ ∃ column ∈ table.columns, column.rawDefault? = some fragment :=
  List.mem_filterMap

section
variable {table : TableDefinition} {statements : List Statement}

theorem placed_compile [LocalZone] (typed : ∀ column ∈ table.columns, column.type.isRawFree = true)
    (compiled : table.compile = .ok statements) {fragment : Raw} (default : fragment ∈ table.rawDefaults) :
    ∃ sql written, Statement.ddl sql ∈ statements ∧ fragment.inlined .local = .ok written ∧
      " default ".toList ++ written <:+: sql := by
  obtain ⟨column, member, raw⟩ := mem_rawDefaults.mp default
  obtain ⟨columns, defined, same⟩ := bind_ok compiled
  cases same
  obtain ⟨definition, held, done⟩ := related_of_mem (mapM_ok defined) member
  obtain ⟨-, -, written⟩ :=
    column.compile_rawDefault (Identifier.quiet_quoteQualified table.name) (typed column member) done
  obtain ⟨head, written, -, inlined, same⟩ := written fragment raw
  obtain ⟨sql, change, within⟩ := table.infix_changes (List.mem_map_of_mem held)
  refine ⟨sql, written, List.mem_append_left _ (List.mem_append_left _ (List.mem_map_of_mem change)), inlined, ?_⟩
  rw [same, List.append_assoc] at within
  exact (List.suffix_append _ _).isInfix.trans within

theorem tame_columnComment [LocalZone] (typed : ∀ column ∈ table.columns, column.type.isRawFree = true)
    {columns : List (Text × List Statement)}
    (defined : table.columns.mapM (·.compile (Identifier.quoteQualified table.name)) = .ok columns)
    {comment : Statement} (member : comment ∈ columns.flatMap Prod.snd) : ∃ layouts, comment.Tame layouts := by
  obtain ⟨compiled, held, inside⟩ := List.mem_flatMap.mp member
  obtain ⟨column, listed, done⟩ := related_of_mem (mapM_ok defined).flip held
  obtain ⟨comments, -⟩ :=
    column.compile_rawDefault (Identifier.quiet_quoteQualified table.name) (typed column listed) done
  exact comments comment inside

theorem sent_unchanged_iff [LocalZone] (typed : ∀ column ∈ table.columns, column.type.isRawFree = true)
    (compiled : table.compile = .ok statements) (composed : ∀ fragment ∈ table.rawDefaults, fragment.Composed) :
    (∀ statement ∈ statements, ∀ zone, statement.materialize zone = .ok statement.sql) ↔
      ∀ fragment ∈ table.rawDefaults, ¬ (Value.ofRaw fragment).Escapes := by
  have named := Identifier.quiet_quoteQualified table.name
  obtain ⟨columns, defined, same⟩ := bind_ok compiled
  cases same
  have related := mapM_ok defined
  have each : ∀ column ∈ table.columns, ∀ compiled,
      column.compile (Identifier.quoteQualified table.name) = .ok compiled →
      Live compiled.1 ∧ ((∀ fragment, column.rawDefault? = some fragment → ¬ (Value.ofRaw fragment).Escapes) ↔
        bare.unmarked compiled.1 = true) := fun column member compiled done =>
    column.live_compile named (typed column member) done fun fragment raw =>
      composed fragment (mem_rawDefaults.mpr ⟨column, member, raw⟩)
  have live : ∀ definition ∈ columns.map Prod.fst, Live definition := by
    rw [List.forall_mem_map]
    intro compiled held
    obtain ⟨column, member, done⟩ := related_of_mem related.flip held
    exact (each column member compiled done).1
  have unescaped : (∀ fragment ∈ table.rawDefaults, ¬ (Value.ofRaw fragment).Escapes) ↔
      ∀ definition ∈ columns.map Prod.fst, bare.unmarked definition = true := by
    rw [List.forall_mem_map, ← forall_related_iff related fun column member compiled done =>
      (each column member compiled done).2]
    simp only [mem_rawDefaults, forall_exists_index, and_imp]
    exact ⟨fun all column member fragment raw => all fragment column member raw,
      fun all fragment column member raw => all column member fragment raw⟩
  -- Nothing is asked of the zone: a definition has no values, so it is sent the same in all of them.
  have changes : (∀ sql ∈ table.changes (Identifier.quoteQualified table.name) (columns.map Prod.fst), ∀ zone,
      (Statement.ddl sql).materialize zone = .ok sql) ↔
        ∀ fragment ∈ table.rawDefaults, ¬ (Value.ofRaw fragment).Escapes := by
    rw [unescaped, ← table.unmarked_changes live]
    refine forall₂_congr fun sql member => ?_
    simp only [Statement.materialize_ddl_eq_iff]
    exact ⟨fun sent => sent .utc, fun sent _ => sent⟩
  have columnComments : ∀ comment ∈ columns.flatMap Prod.snd, ∀ zone,
      comment.materialize zone = .ok comment.sql := by
    intro comment member zone
    obtain ⟨layouts, tame⟩ := tame_columnComment typed defined member
    obtain ⟨sql, rfl⟩ := table.compile_ddl compiled (List.mem_append_right _ member)
    exact tame.quiet_ddl.materialize_ddl zone
  rw [List.forall_mem_append, List.forall_mem_append, List.forall_mem_map, List.forall_mem_map]
  refine ⟨fun all => changes.mp all.1.1, fun none => ⟨⟨changes.mpr none, fun comment member => ?_⟩, columnComments⟩⟩
  exact (table.quiet_tableComment member).materialize_ddl

end

end TableDefinition

/-- The default of a column stands in a definition as it is written out, with each escape as one question mark. A
definition is sent as it is compiled just if it is read without question marks outside its regions, and not at all
if they are placeholders; when every default can be written in front of more text, these are the question marks
that were escaped in a default. -/
theorem raw_defaults_kept_iff [LocalZone] {table : TableDefinition}
    (typed : ∀ column ∈ table.columns, column.type.isRawFree = true) {statements : List Statement}
    (compiled : table.compile = .ok statements) :
    (∀ fragment ∈ table.rawDefaults, ∃ sql texts, Statement.ddl sql ∈ statements ∧
      List.Forall₂ (fun value => Spliced .local (value, value.flat)) fragment.bindings texts ∧
      fragment.inlined .local = .ok (SqlToken.spell (SqlToken.ofText fragment.sql) texts) ∧
      " default ".toList ++ SqlToken.spell (SqlToken.ofText fragment.sql) texts <:+: sql) ∧
    (∀ statement ∈ statements, ∃ sql, statement = .ddl sql ∧ ∀ zone,
      (statement.materialize zone = .ok sql ↔ bare.unmarked sql = true) ∧
      statement.materialize zone =
        if placeholderCount sql = 0 then .ok ((SqlToken.ofText sql).filterMap SqlToken.char?)
        else .error (.bindingCount 0 (placeholderCount sql))) ∧
    ((∀ fragment ∈ table.rawDefaults, fragment.Composed) →
      ((∀ statement ∈ statements, ∀ zone, statement.materialize zone = .ok statement.sql) ↔
        ∀ fragment ∈ table.rawDefaults, ¬ (Value.ofRaw fragment).Escapes)) := by
  refine ⟨fun fragment member => ?_, fun statement member => ?_, table.sent_unchanged_iff typed compiled⟩
  · obtain ⟨sql, written, listed, inlined, within⟩ := table.placed_compile typed compiled member
    obtain ⟨texts, rfl, spliced⟩ := fragment.spell_of_inlined inlined
    exact ⟨sql, texts, listed, spliced, inlined, within⟩
  · obtain ⟨sql, rfl⟩ := table.compile_ddl compiled member
    exact ⟨sql, rfl, fun zone => ⟨Statement.materialize_ddl_eq_iff sql zone, Statement.materialize_ddl sql zone⟩⟩

def defaulting (fragment : Raw) : TableDefinition where
  name := "t".toList
  action := .create
  columns := [{ name := "a".toList, type := .text, default := some (.raw fragment) }]

def nestedDefault : Raw := ⟨"f('a?', ??, ?)".toList, [.text "s.b".toList, .raw "g(?)".toList [.int 1]]⟩

theorem raw_defaults_kept_iff_nested :
    (defaulting nestedDefault).compile = .ok
        [.ddl "create table \"t\" (\"a\" text default f('a?', \"s\".\"b\", g(numeric $$1$$)))".toList] ∧
      ∀ zone, (Statement.ddl
        "create table \"t\" (\"a\" text default f('a?', \"s\".\"b\", g(numeric $$1$$)))".toList).materialize zone =
          .ok "create table \"t\" (\"a\" text default f('a?', \"s\".\"b\", g(numeric $$1$$)))".toList := by
  have compiled : (defaulting nestedDefault).compile = .ok
      [.ddl "create table \"t\" (\"a\" text default f('a?', \"s\".\"b\", g(numeric $$1$$)))".toList] := rfl
  have typed : ∀ column ∈ (defaulting nestedDefault).columns, column.type.isRawFree = true := by
    rintro column (_ | ⟨_, ⟨⟩⟩)
    rfl
  have literal : ∀ value ∈ [Value.int 1], value.isRawFree = true := List.forall_mem_singleton.mpr rfl
  have composed : nestedDefault.Composed := by
    refine ⟨by decide, by decide, List.forall_mem_cons.mpr ⟨.literal rfl, List.forall_mem_singleton.mpr ?_⟩⟩
    exact .raw (by decide) (by decide) fun value member => .literal (literal value member)
  have unescaped : ¬ (Value.ofRaw nestedDefault).Escapes := by
    refine Value.escapes_raw.mpr ⟨by decide, List.forall_mem_cons.mpr ⟨Value.not_escapes_of_isRawFree rfl, ?_⟩⟩
    refine List.forall_mem_singleton.mpr (Value.escapes_raw.mpr ⟨by decide, fun value member => ?_⟩)
    exact Value.not_escapes_of_isRawFree (literal value member)
  refine ⟨compiled, fun zone => ?_⟩
  refine ((raw_defaults_kept_iff typed compiled).2.2 ?_).mpr ?_ _ List.mem_cons_self zone
  · exact List.forall_mem_singleton.mpr composed
  · exact List.forall_mem_singleton.mpr unescaped

/-- An escape in a default is one question mark in the definition, where it is taken for a placeholder. With one
more backslash in front of it there is no error, but the definition is sent without the other. -/
theorem escaped_default_rejected :
    (Raw.ofSql "'x' \\? 'y'".toList).Closed ∧
      (defaulting (Raw.ofSql "'x' \\? 'y'".toList)).compile =
        .ok [.ddl "create table \"t\" (\"a\" text default 'x' ? 'y')".toList] ∧
      (∀ zone, (Statement.ddl "create table \"t\" (\"a\" text default 'x' ? 'y')".toList).materialize zone =
        .error (.bindingCount 0 1)) ∧
      (defaulting (Raw.ofSql "'x' \\\\? 'y'".toList)).compile =
        .ok [.ddl "create table \"t\" (\"a\" text default 'x' \\? 'y')".toList] ∧
      ∀ zone, (Statement.ddl "create table \"t\" (\"a\" text default 'x' \\? 'y')".toList).materialize zone =
        .ok "create table \"t\" (\"a\" text default 'x' ? 'y')".toList :=
  ⟨⟨by decide, by decide⟩, rfl, fun zone => rfl, rfl, fun zone => rfl⟩

end LiteralSql
