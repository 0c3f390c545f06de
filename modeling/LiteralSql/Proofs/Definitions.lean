import LiteralSql.Proofs.RawFree
import LiteralSql.Sql.Operation

/-! Schema statements are quiet, whatever the names, comments, allowed values
and defaults are, and so every statement of an operation without raw SQL has a
layout without raw SQL. -/

set_option autoImplicit false

namespace LiteralSql

def ColumnType.isRawFree : ColumnType → Bool
  | .specific _ => false
  | _ => true

def ColumnDefault.isRawFree : ColumnDefault → Bool
  | .raw _ => false
  | _ => true

def ColumnDefinition.isRawFree (column : ColumnDefinition) : Bool :=
  column.type.isRawFree && column.default.all ColumnDefault.isRawFree

def TableDefinition.isRawFree (table : TableDefinition) : Bool :=
  table.columns.all ColumnDefinition.isRawFree

def SchemaCommand.isRawFree : SchemaCommand → Bool
  | .table definition => definition.isRawFree
  | .raw _ => false
  | _ => true

/-- No raw fragment, no raw value and no verbatim type. -/
def Operation.isRawFree : Operation → Bool
  | .select query => query.isRawFree
  | .insert query => query.isRawFree
  | .update query => query.isRawFree
  | .delete query => query.isRawFree
  | .raw _ => false
  | .schema commands => commands.all SchemaCommand.isRawFree

theorem ColumnType.quiet_sql {type : ColumnType} (free : type.isRawFree = true) {name : Text}
    (quoted : Quiet name) : Quiet (type.sql name) := by
  have close : Quiet [')'] := Quiet.of_plain (by decide)
  have comma : Quiet ", ".toList := Quiet.of_plain (by decide)
  have number (count : Nat) : Quiet (Text.ofNat count) := Quiet.of_plain (Quiet.plain_ofNat count)
  cases type with
  | string length =>
    have opening : Quiet "varchar(".toList := Quiet.of_plain (by decide)
    exact (opening.append (number _)).append close
  | decimal precision scale =>
    have opening : Quiet "decimal(".toList := Quiet.of_plain (by decide)
    exact (((opening.append (number _)).append comma).append (number _)).append close
  | datetime withoutZone => exact Quiet.of_plain (by cases withoutZone <;> rfl)
  | timestamp withoutZone => exact Quiet.of_plain (by cases withoutZone <;> rfl)
  | enumeration allowed =>
    have opening : Quiet "text check (".toList := Quiet.of_plain (by decide)
    have among : Quiet " in (".toList := Quiet.of_plain (by decide)
    have closing : Quiet "))".toList := Quiet.of_plain (by decide)
    have literals : Quiet (", ".toList.intercalate (allowed.map Identifier.quoteLiteral)) := by
      refine comma.intercalate fun literal member => ?_
      obtain ⟨value, -, rfl⟩ := List.mem_map.mp member
      exact Identifier.quiet_quoteLiteral value
    exact (((opening.append quoted).append among).append literals).append closing
  | json asBinary => exact Quiet.of_plain (by cases asBinary <;> rfl)
  | specific verbatim => cases free
  | _ => exact Quiet.of_plain rfl

theorem ColumnDefault.quiet_sql [LocalZone] {value : ColumnDefault} (free : value.isRawFree = true) {written : Text}
    (encoded : value.sql = .ok written) : Quiet written := by
  cases value with
  | null =>
    rw [← Except.ok.inj encoded]
    exact Quiet.of_plain (by decide)
  | boolean value =>
    rw [← Except.ok.inj encoded]
    cases value
    · exact Identifier.quiet_quoteLiteral ['0']
    · exact Identifier.quiet_quoteLiteral ['1']
  | integer value =>
    rw [← Except.ok.inj encoded]
    exact Identifier.quiet_quoteLiteral _
  | float value =>
    rw [sql] at encoded
    split at encoded
    · rw [← Except.ok.inj encoded]
      exact Identifier.quiet_quoteLiteral _
    · cases encoded
  | string value =>
    rw [← Except.ok.inj encoded]
    exact Identifier.quiet_quoteLiteral _
  | json document =>
    rw [← Except.ok.inj encoded]
    exact Identifier.quiet_quoteLiteral _
  | raw fragment => cases free

theorem quiet_commentLiteral (comment : Text) : Quiet (commentLiteral comment) := by
  rw [commentLiteral]
  split
  · exact Quiet.of_plain (by decide)
  · exact Identifier.quiet_quoteLiteral comment

structure Statement.Tame (statement : Statement) (layouts : List Layout) : Prop where
  written : statement.Written layouts
  uniform : Layout.Uniform layouts

theorem Statement.Tame.ddl {sql : Text} (quiet : Quiet sql) (begins : sql.Begins) :
    (Statement.ddl sql).Tame [[.text sql]] where
  written := .once (List.append_nil _) rfl (Layout.Sound.text quiet)
  uniform := .single rfl (by rwa [Layout.sql_cons, Layout.sql_nil, List.append_nil])

namespace ColumnDefinition

theorem quiet_defaultSql [LocalZone] {default : Option ColumnDefault}
    (free : default.all ColumnDefault.isRawFree = true)
    {written : Text} (encoded : defaultSql default = .ok written) : Quiet written := by
  cases default with
  | none =>
    rw [← Except.ok.inj encoded]
    exact Quiet.nil
  | some value =>
    obtain ⟨literal, encoded, same⟩ := bind_ok encoded
    have keyword : Quiet " default ".toList := Quiet.of_plain (by decide)
    rw [← Except.ok.inj same]
    exact keyword.append (ColumnDefault.quiet_sql free encoded)

theorem quiet_compile [LocalZone] {table : Text} (named : Quiet table) {column : ColumnDefinition}
    (free : column.isRawFree = true) {definition : Text} {comments : List Statement}
    (compiled : column.compile table = .ok (definition, comments)) :
    Quiet definition ∧ ∀ statement ∈ comments, ∃ layouts, statement.Tame layouts := by
  rw [isRawFree, Bool.and_eq_true] at free
  obtain ⟨name, -, compiled⟩ := bind_ok compiled
  have space : Quiet [' '] := Quiet.of_plain (by decide)
  have quoted := Identifier.quiet_quote name
  have head := (quoted.append space).append (ColumnType.quiet_sql free.1 quoted)
  rw [List.append_assoc] at head
  dsimp only at compiled
  split at compiled
  · cases compiled
    exact ⟨head, fun _ member => absurd member List.not_mem_nil⟩
  · obtain ⟨default, encoded, compiled⟩ := bind_ok compiled
    have nullable : Quiet (nullability column.nullable) := by
      apply Quiet.of_plain
      rcases column.nullable with _ | _ | _ <;> decide
    cases compiled
    refine ⟨(head.append nullable).append (quiet_defaultSql free.2 encoded), ?_⟩
    intro statement member
    obtain ⟨comment, -, rfl⟩ := List.mem_map.mp member
    have keyword : Quiet "comment on column ".toList := Quiet.of_plain (by decide)
    have dot : Quiet ['.'] := Quiet.of_plain (by decide)
    have word : Quiet " is ".toList := Quiet.of_plain (by decide)
    have whole := (((keyword.append named).append (dot.append quoted)).append word).append
      (quiet_commentLiteral comment)
    exact ⟨_, .ddl (by simpa using whole) ⟨'c', _, rfl, by decide⟩⟩

end ColumnDefinition

namespace TableDefinition

theorem quiet_createSql {keyword : Text} (quiet : Quiet keyword) {name : Text} (named : Quiet name)
    {definitions : List Text} (parts : ∀ definition ∈ definitions, Quiet definition) :
    Quiet (createSql keyword name definitions) := by
  have space : Quiet [' '] := Quiet.of_plain (by decide)
  have opening : Quiet " (".toList := Quiet.of_plain (by decide)
  have comma : Quiet ", ".toList := Quiet.of_plain (by decide)
  have close : Quiet [')'] := Quiet.of_plain (by decide)
  have whole := (((quiet.append (space.append named)).append opening).append
    (comma.intercalate parts)).append close
  simpa [createSql] using whole

theorem quiet_alterHead {name : Text} (named : Quiet name) : Quiet (alterHead name) := by
  have keyword : Quiet "alter table ".toList := Quiet.of_plain (by decide)
  have space : Quiet [' '] := Quiet.of_plain (by decide)
  exact (keyword.append named).append space

theorem tame_changes (table : TableDefinition) {name : Text} (named : Quiet name) {definitions : List Text}
    (parts : ∀ definition ∈ definitions, Quiet definition) {sql : Text}
    (member : sql ∈ table.changes name definitions) : (Statement.ddl sql).Tame [[.text sql]] := by
  rw [changes] at member
  split at member
  · rw [List.mem_singleton.mp member]
    exact .ddl (quiet_createSql (Quiet.of_plain (by decide)) named parts) ⟨'c', _, rfl, by decide⟩
  · rw [List.mem_singleton.mp member]
    exact .ddl (quiet_createSql (Quiet.of_plain (by decide)) named parts) ⟨'c', _, rfl, by decide⟩
  · have head := quiet_alterHead named
    simp only [List.mem_append, List.mem_map] at member
    obtain (⟨definition, held, rfl⟩ | ⟨column, -, rfl⟩) | ⟨⟨column, newName⟩, -, rfl⟩ := member
    · have verb : Quiet "add column ".toList := Quiet.of_plain (by decide)
      exact .ddl ((head.append verb).append (parts definition held)) ⟨'a', _, rfl, by decide⟩
    · have verb : Quiet "drop column ".toList := Quiet.of_plain (by decide)
      exact .ddl ((head.append verb).append (Identifier.quiet_quote column)) ⟨'a', _, rfl, by decide⟩
    · have verb : Quiet "rename column ".toList := Quiet.of_plain (by decide)
      have word : Quiet " to ".toList := Quiet.of_plain (by decide)
      exact .ddl ((((head.append verb).append (Identifier.quiet_quote column)).append word).append
        (Identifier.quiet_quote newName)) ⟨'a', _, rfl, by decide⟩

theorem tame_compile [LocalZone] {table : TableDefinition} (free : table.isRawFree = true)
    {statements : List Statement} (compiled : table.compile = .ok statements) :
    ∀ statement ∈ statements, ∃ layouts, statement.Tame layouts := by
  obtain ⟨columns, defined, compiled⟩ := bind_ok compiled
  have named := Identifier.quiet_quoteQualified table.name
  have parts : ∀ column ∈ columns, Quiet column.1 ∧
      ∀ statement ∈ column.2, ∃ layouts, statement.Tame layouts := by
    intro column member
    obtain ⟨source, held, encoded⟩ := related_of_mem (mapM_ok defined).flip member
    exact ColumnDefinition.quiet_compile named (List.all_eq_true.mp free source held) encoded
  have definitions : ∀ definition ∈ columns.map Prod.fst, Quiet definition := by
    intro definition member
    obtain ⟨column, held, rfl⟩ := List.mem_map.mp member
    exact (parts column held).1
  cases compiled
  intro statement member
  simp only [List.mem_append, List.mem_map, List.mem_flatMap] at member
  -- A statement changes the table, comments on it, or comments on one of its columns.
  obtain (⟨sql, member, rfl⟩ | ⟨comment, -, rfl⟩) | ⟨column, held, member⟩ := member
  · exact ⟨_, table.tame_changes named definitions member⟩
  · have keyword : Quiet "comment on table ".toList := Quiet.of_plain (by decide)
    have word : Quiet " is ".toList := Quiet.of_plain (by decide)
    exact ⟨_, .ddl (((keyword.append named).append word).append (quiet_commentLiteral comment))
      ⟨'c', _, rfl, by decide⟩⟩
  · exact (parts column held).2 statement member

end TableDefinition

namespace SchemaCommand

theorem quiet_ifExistsKeyword (present : Bool) : Quiet (ifExistsKeyword present) :=
  Quiet.of_plain (by cases present <;> rfl)

theorem quiet_ifNotExistsKeyword (present : Bool) : Quiet (ifNotExistsKeyword present) :=
  Quiet.of_plain (by cases present <;> rfl)

theorem tame_verb {verb : Text} (plain : verb.all Quiet.isPlain = true) {keyword name : Text}
    (optional : Quiet keyword) (named : Quiet name)
    (begins : verb.Begins) :
    ∀ statement ∈ [Statement.ddl (verb ++ keyword ++ name)], ∃ layouts, statement.Tame layouts := by
  obtain ⟨c, rest, same, letter⟩ := begins
  rw [List.forall_mem_singleton]
  refine ⟨_, .ddl (((Quiet.of_plain plain).append optional).append named) ⟨c, rest ++ keyword ++ name, ?_, letter⟩⟩
  rw [same]
  rfl

theorem tame_compile [LocalZone] {command : SchemaCommand} (free : command.isRawFree = true)
    {statements : List Statement} (compiled : command.compile = .ok statements) :
    ∀ statement ∈ statements, ∃ layouts, statement.Tame layouts := by
  cases command with
  | table definition => exact TableDefinition.tame_compile free compiled
  | dropTable name present =>
    rw [← Except.ok.inj compiled]
    exact tame_verb (by decide) (quiet_ifExistsKeyword present) (Identifier.quiet_quoteQualified name)
      ⟨'d', _, rfl, by decide⟩
  | renameTable name newName =>
    have verb : Quiet "alter table ".toList := Quiet.of_plain (by decide)
    have word : Quiet " rename to ".toList := Quiet.of_plain (by decide)
    rw [← Except.ok.inj compiled, List.forall_mem_singleton]
    exact ⟨_, .ddl (((verb.append (Identifier.quiet_quoteQualified name)).append word).append
      (Identifier.quiet_quote newName)) ⟨'a', _, rfl, by decide⟩⟩
  | createSchema name present =>
    rw [← Except.ok.inj compiled]
    exact tame_verb (by decide) (quiet_ifNotExistsKeyword present) (Identifier.quiet_quote name)
      ⟨'c', _, rfl, by decide⟩
  | dropSchema name present =>
    rw [← Except.ok.inj compiled]
    exact tame_verb (by decide) (quiet_ifExistsKeyword present) (Identifier.quiet_quote name)
      ⟨'d', _, rfl, by decide⟩
  | createExtension name present =>
    rw [← Except.ok.inj compiled]
    exact tame_verb (by decide) (quiet_ifNotExistsKeyword present) (Identifier.quiet_quote name)
      ⟨'c', _, rfl, by decide⟩
  | dropExtension name present =>
    rw [← Except.ok.inj compiled]
    exact tame_verb (by decide) (quiet_ifExistsKeyword present) (Identifier.quiet_quote name)
      ⟨'d', _, rfl, by decide⟩
  | hasTable name =>
    have table : Quiet "select * from information_schema.tables where table_name = ".toList :=
      Quiet.of_plain (by decide)
    have same : "select * from information_schema.tables where table_name = ".toList ++ ['?'] =
        "select * from information_schema.tables where table_name = ?".toList := by decide
    let layout : Layout := [.text "select * from information_schema.tables where table_name = ".toList,
      .value (.text name)]
    have sound : layout.Sound := ⟨table, Layout.Detached.nil, trivial⟩
    rw [← Except.ok.inj compiled, List.forall_mem_singleton]
    exact ⟨[layout], .once same rfl sound, .single rfl ⟨'s', _, rfl, by decide⟩⟩
  | hasColumn owner column =>
    have table : Quiet "select * from information_schema.columns where table_name = ".toList :=
      Quiet.of_plain (by decide)
    have further : Quiet " and column_name = ".toList := Quiet.of_plain (by decide)
    have same : "select * from information_schema.columns where table_name = ".toList ++
        ('?' :: (" and column_name = ".toList ++ ['?'])) =
          "select * from information_schema.columns where table_name = ? and column_name = ?".toList := by
      decide
    let layout : Layout := [.text "select * from information_schema.columns where table_name = ".toList,
      .value (.text owner), .text " and column_name = ".toList, .value (.text column)]
    have sound : layout.Sound :=
      ⟨table, Layout.Detached.cons (by decide) _, further, Layout.Detached.nil, trivial⟩
    rw [← Except.ok.inj compiled, List.forall_mem_singleton]
    exact ⟨[layout], .once same rfl sound, .single rfl ⟨'s', _, rfl, by decide⟩⟩
  | raw fragment => cases free

end SchemaCommand

namespace Operation

theorem raws_of_isRawFree {operation : Operation} (free : operation.isRawFree = true) :
    operation.raws = [] := by
  cases operation with
  | select query => exact Select.raws_of_isRawFree free
  | update query => exact Update.raws_of_isRawFree free
  | delete query => exact Option.raws_of_isRawFree free
  | _ => rfl

theorem uniform_layouts [LocalZone] {operation : Operation} (free : operation.isRawFree = true)
    {statements : List Statement} (compiled : operation.compile = .ok statements) :
    ∀ layouts ∈ operation.layouts, Layout.Uniform layouts := by
  cases operation with
  | select query =>
    exact List.forall_mem_singleton.mpr (.single (Select.isRawFree_layout free) ⟨'s', _, rfl, by decide⟩)
  | insert query =>
    refine Insert.uniform_layouts free fun none => ?_
    rw [compile, Insert.compile, none] at compiled
    cases compiled
  | update query =>
    exact List.forall_mem_singleton.mpr (.single (Update.isRawFree_layout free) ⟨'u', _, rfl, by decide⟩)
  | delete query =>
    exact List.forall_mem_singleton.mpr (.single (Layout.isRawFree_clause _ free) ⟨'d', _, rfl, by decide⟩)
  | raw fragment => cases free
  | schema commands => exact fun layouts member => absurd member List.not_mem_nil

theorem tame_compile [LocalZone] {operation : Operation} (free : operation.isRawFree = true)
    {statements : List Statement} (compiled : operation.compile = .ok statements) :
    ∀ statement ∈ statements, ∃ layouts, statement.Tame layouts := by
  intro statement member
  cases built : operation.isQuery with
  | true =>
    have closed : ∀ fragment ∈ operation.raws, fragment.Closed := by
      rw [raws_of_isRawFree free]
      exact fun fragment inside => absurd inside List.not_mem_nil
    obtain ⟨layouts, held, written⟩ := related_of_mem (operation.written built closed compiled) member
    -- Queries are written by the layouts of their builder.
    exact ⟨layouts, written, uniform_layouts free compiled layouts held⟩
  | false =>
    cases operation with
    | schema commands =>
      obtain ⟨parts, made, same⟩ := bind_ok compiled
      rw [← Except.ok.inj same] at member
      obtain ⟨part, held, member⟩ := List.mem_flatten.mp member
      obtain ⟨command, source, made⟩ := related_of_mem (mapM_ok made).flip held
      exact SchemaCommand.tame_compile (List.all_eq_true.mp free command source) made statement member
    | raw fragment => cases free
    | _ => cases built

end Operation

end LiteralSql
