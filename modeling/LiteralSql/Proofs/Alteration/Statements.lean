import LiteralSql.Proofs.Alteration.Regrouping
import LiteralSql.Proofs.Predicate.Words
import LiteralSql.Proofs.Quoting
import LiteralSql.Proofs.Materialize
import LiteralSql.Sql.Schema.Table

/-! The statements that alter a table, read as changes of its columns.

Each change has one text, and no other change has this text, so statements can
be read in one way only. What is compiled for a sequence of calls are their
changes kind by kind; it does what the calls do in their order if and only if
the changes regroup.
-/

set_option autoImplicit false

namespace LiteralSql

namespace Alteration.Change

def commentSql : Option Text → Text
  | none => "NULL".toList
  | some text => Identifier.quoteLiteral text

def action : Change → Text
  | .add name behind => "add column ".toList ++ (Identifier.quote name ++ ' ' :: behind)
  | .drop name => "drop column ".toList ++ Identifier.quote name
  | .rename name newName =>
    "rename column ".toList ++ (Identifier.quote name ++ ' ' :: ("to ".toList ++ Identifier.quote newName))
  | .comment name text => Identifier.quote name ++ ' ' :: ("is ".toList ++ commentSql text)

def sql (table : Text) (change : Change) : Text :=
  if change.isComment then "comment on column ".toList ++ (Identifier.quoteQualified table ++ '.' :: change.action)
  else TableDefinition.alterHead (Identifier.quoteQualified table) ++ change.action

theorem quote_injective : Function.Injective Identifier.quote := Quoting.name.write_injective

theorem commentSql_injective : Function.Injective commentSql := by
  have marked : ∀ text, commentSql none ≠ commentSql (some text) := fun text same => by
    have heads : some 'N' = some '\'' := congrArg List.head? same
    exact absurd heads (by decide)
  intro first second same
  cases first with
  | none =>
    cases second with
    | none => rfl
    | some text => exact absurd same (marked text)
  | some text =>
    cases second with
    | none => exact absurd same.symm (marked text)
    | some other => exact congrArg some (Quoting.literal.write_injective same)

theorem quote_blank {name other rest others : Text}
    (same : Identifier.quote name ++ ' ' :: rest = Identifier.quote other ++ ' ' :: others) :
    name = other ∧ rest = others := by
  obtain ⟨names, behind⟩ := (Identifier.isWord_quote name).eq_of_blank (Identifier.isWord_quote other) same
  exact ⟨quote_injective names, behind⟩

def letter : Change → Char
  | .add .. => 'a'
  | .drop .. => 'd'
  | .rename .. => 'r'
  | .comment .. => 'c'

theorem head?_action {change : Change} (quiet : change.isComment = false) :
    change.action.head? = some change.letter := by
  cases change with
  | comment name text => cases quiet
  | _ => rfl

theorem eq_of_action {first second : Change} (left : first.isComment = false) (right : second.isComment = false)
    (same : first.action = second.action) : first = second := by
  have letters : first.letter = second.letter := by
    rw [← Option.some.injEq, ← head?_action left, ← head?_action right, same]
  cases first with
  | add name behind =>
    cases second with
    | add other others =>
      obtain ⟨rfl, rfl⟩ := quote_blank (List.append_cancel_left same)
      rfl
    | _ => simp [letter] at letters
  | drop name =>
    cases second with
    | drop other => exact congrArg drop (quote_injective (List.append_cancel_left same))
    | _ => simp [letter] at letters
  | rename name newName =>
    cases second with
    | rename other newOther =>
      obtain ⟨rfl, behind⟩ := quote_blank (List.append_cancel_left same)
      exact congrArg (rename name) (quote_injective (List.append_cancel_left behind))
    | _ => simp [letter] at letters
  | comment name text => cases left

theorem eq_of_comment {first second : Change} (left : first.isComment = true) (right : second.isComment = true)
    (same : first.action = second.action) : first = second := by
  cases first with
  | comment name text =>
    cases second with
    | comment other others =>
      obtain ⟨rfl, behind⟩ := quote_blank same
      exact congrArg (comment name) (commentSql_injective (List.append_cancel_left behind))
    | _ => cases right
  | _ => cases left

theorem sql_injective (table : Text) : Function.Injective (sql table) := by
  intro first second same
  have apart (rest others : Text) :
      TableDefinition.alterHead (Identifier.quoteQualified table) ++ rest ≠ "comment on column ".toList ++ others :=
    fun joined => by
      have heads : some 'a' = some 'c' := congrArg List.head? joined
      exact absurd heads (by decide)
  cases left : first.isComment <;> cases right : second.isComment <;>
    simp only [sql, left, right, if_true, Bool.false_eq_true, if_false] at same
  · exact eq_of_action left right (List.append_cancel_left same)
  · exact absurd same (apart _ _)
  · exact absurd same.symm (apart _ _)
  · exact eq_of_comment left right (List.cons.inj (List.append_cancel_left (List.append_cancel_left same))).2

end Alteration.Change

namespace ColumnDefinition

/-- What the definition says behind the name: the type and, unless the column is
a serial one, what else is asked for. -/
def behind [LocalZone] (column : ColumnDefinition) (name : Text) : Except SqlError Text := do
  let type := column.type.sql (Identifier.quote name)
  if column.type.isIncrements then .ok type
  else .ok (type ++ (nullability column.nullable ++ (← defaultSql column.default)))

/-- The comment that the column gets. A serial column takes none, and an empty
text takes the comment away. -/
def told (column : ColumnDefinition) : Option (Option Text) :=
  if column.type.isIncrements then none
  else column.comment.map fun text => if text.isEmpty then none else some text

end ColumnDefinition

inductive TableCall
  | column (definition : ColumnDefinition)
  | dropColumn (name : Text)
  | renameColumn (name newName : Text)

namespace TableCall

def apply (table : TableDefinition) : TableCall → TableDefinition
  | .column definition => table.addColumn definition
  | .dropColumn name => table.dropColumn name
  | .renameColumn name newName => table.renameColumn name newName

def changes [LocalZone] : TableCall → Except SqlError (List Alteration.Change)
  | .column definition => do
    let name ← definition.effectiveName
    let behind ← definition.behind name
    .ok (.add name behind :: definition.told.toList.map (.comment name))
  | .dropColumn name => .ok [.drop name]
  | .renameColumn name newName => .ok [.rename name newName]

def added? : TableCall → Option ColumnDefinition
  | .column definition => some definition
  | _ => none

def dropped? : TableCall → Option Text
  | .dropColumn name => some name
  | _ => none

def renamed? : TableCall → Option (Text × Text)
  | .renameColumn name newName => some (name, newName)
  | _ => none

end TableCall

def alterTable (name : Text) (calls : List TableCall) : TableDefinition :=
  calls.foldl TableCall.apply { name, action := .alter }

section Calls

open Alteration

variable {name : Text} {calls : List TableCall} {groups : List (List Change)}

theorem foldl_apply (calls : List TableCall) (table : TableDefinition) :
    calls.foldl TableCall.apply table =
      { table with
        columns := table.columns ++ calls.filterMap TableCall.added?
        dropped := table.dropped ++ calls.filterMap TableCall.dropped?
        renamed := table.renamed ++ calls.filterMap TableCall.renamed? } := by
  induction calls generalizing table with
  | nil => simp
  | cons call rest ih =>
    rw [List.foldl_cons, ih]
    cases call <;>
      simp [TableCall.apply, TableDefinition.addColumn, TableDefinition.dropColumn, TableDefinition.renameColumn,
        TableCall.added?, TableCall.dropped?, TableCall.renamed?, List.filterMap_cons]

theorem commentLiteral_eq (text : Text) :
    commentLiteral text = Change.commentSql (if text.isEmpty then none else some text) := by
  rw [commentLiteral]
  split <;> rfl

theorem sql_comment (columnName text : Text) :
    "comment on column ".toList ++ Identifier.quoteQualified name ++ '.' :: Identifier.quote columnName ++
        " is ".toList ++ commentLiteral text =
      (Change.comment columnName (if text.isEmpty then none else some text)).sql name := by
  have blank : " is ".toList = ' ' :: "is ".toList := rfl
  change _ = "comment on column ".toList ++ (Identifier.quoteQualified name ++ '.' :: (Identifier.quote columnName ++
    ' ' :: ("is ".toList ++ Change.commentSql _)))
  rw [commentLiteral_eq, blank]
  simp only [List.append_assoc, List.cons_append]

theorem ColumnDefinition.compile_of_changes [LocalZone] {definition : ColumnDefinition} {group : List Change}
    (read : (TableCall.column definition).changes = .ok group) :
    ∃ columnName behind, group = .add columnName behind :: definition.told.toList.map (.comment columnName) ∧
      definition.compile (Identifier.quoteQualified name) =
        .ok (Identifier.quote columnName ++ ' ' :: behind,
          (definition.told.toList.map (Change.comment columnName)).map fun change => .ddl (change.sql name)) := by
  obtain ⟨columnName, named, read⟩ := bind_ok read
  obtain ⟨behind, defined, read⟩ := bind_ok read
  cases read
  refine ⟨columnName, behind, rfl, ?_⟩
  rw [compile, named]
  change (if definition.type.isIncrements then _ else _) = _
  rw [ColumnDefinition.behind] at defined
  rw [told]
  split
  · next serial =>
    rw [if_pos serial] at defined
    cases defined
    rfl
  · next plain =>
    rw [if_neg plain] at defined
    obtain ⟨default, encoded, same⟩ := bind_ok defined
    cases same
    rw [encoded]
    have whole (type nulls : Text) : Identifier.quote columnName ++ ' ' :: type ++ nulls ++ default =
        Identifier.quote columnName ++ ' ' :: (type ++ (nulls ++ default)) := by
      simp only [List.append_assoc, List.cons_append]
    change Except.ok (Identifier.quote columnName ++ ' ' :: definition.type.sql (Identifier.quote columnName) ++
      nullability definition.nullable ++ default, _) = _
    simp only [sql_comment, whole]
    cases definition.comment <;> rfl

theorem compile_parts [LocalZone]
    (read : List.Forall₂ (fun call group => TableCall.changes call = .ok group) calls groups) :
    ∃ columns, (calls.filterMap TableCall.added?).mapM (ColumnDefinition.compile (Identifier.quoteQualified name)) =
        .ok columns ∧
      (columns.map Prod.fst).map (fun definition => TableDefinition.alterHead (Identifier.quoteQualified name) ++
          "add column ".toList ++ definition) = (groups.flatten.filter Change.isAdd).map (Change.sql name) ∧
      columns.flatMap Prod.snd = (groups.flatten.filter Change.isComment).map fun change => .ddl (change.sql name) := by
  induction read with
  | nil => exact ⟨[], rfl, rfl, rfl⟩
  | @cons call group _ _ head _ ih =>
    obtain ⟨columns, compiled, adds, comments⟩ := ih
    cases call with
    | column definition =>
      obtain ⟨columnName, behind, rfl, compiledHead⟩ := @ColumnDefinition.compile_of_changes name _ _ _ head
      have noAdd : (definition.told.toList.map (Change.comment columnName)).filter Change.isAdd = [] := by
        cases definition.told <;> rfl
      have onlyComments : (definition.told.toList.map (Change.comment columnName)).filter Change.isComment =
          definition.told.toList.map (Change.comment columnName) := by
        cases definition.told <;> rfl
      rw [List.flatten_cons, List.filter_append, List.filter_append, List.filter_cons_of_pos rfl,
        List.filter_cons_of_neg Bool.false_ne_true, noAdd, onlyComments]
      refine ⟨_, mapM_of_related (.cons compiledHead (mapM_ok compiled)), ?_, ?_⟩
      · rw [List.map_cons, List.map_cons, adds, List.cons_append, List.map_cons, List.nil_append]
        simp only [List.append_assoc]
        rfl
      · rw [List.flatMap_cons, comments, List.map_append]
    | dropColumn dropped =>
      cases head
      exact ⟨columns, compiled, adds, comments⟩
    | renameColumn renamed newName =>
      cases head
      exact ⟨columns, compiled, adds, comments⟩

theorem drop_parts [LocalZone]
    (read : List.Forall₂ (fun call group => TableCall.changes call = .ok group) calls groups) :
    (calls.filterMap TableCall.dropped?).map (fun column => TableDefinition.alterHead (Identifier.quoteQualified name) ++
        "drop column ".toList ++ Identifier.quote column) =
      (groups.flatten.filter Change.isDrop).map (Change.sql name) := by
  induction read with
  | nil => rfl
  | @cons call group others _ head _ ih =>
    cases call with
    | column definition =>
      obtain ⟨columnName, behind, rfl, -⟩ := @ColumnDefinition.compile_of_changes name _ _ _ head
      rw [List.flatten_cons, List.filter_append]
      cases definition.told <;> exact ih
    | dropColumn dropped =>
      cases head
      have names : (TableCall.dropColumn dropped :: others).filterMap TableCall.dropped? =
          dropped :: others.filterMap TableCall.dropped? := rfl
      rw [names, List.map_cons, ih, List.append_assoc]
      rfl
    | renameColumn renamed newName =>
      cases head
      exact ih

theorem rename_parts [LocalZone]
    (read : List.Forall₂ (fun call group => TableCall.changes call = .ok group) calls groups) :
    (calls.filterMap TableCall.renamed?).map (fun (column, newName) =>
        TableDefinition.alterHead (Identifier.quoteQualified name) ++ "rename column ".toList ++
          Identifier.quote column ++ " to ".toList ++ Identifier.quote newName) =
      (groups.flatten.filter Change.isRename).map (Change.sql name) := by
  have blank : " to ".toList = ' ' :: "to ".toList := rfl
  induction read with
  | nil => rfl
  | @cons call group others _ head _ ih =>
    cases call with
    | column definition =>
      obtain ⟨columnName, behind, rfl, -⟩ := @ColumnDefinition.compile_of_changes name _ _ _ head
      rw [List.flatten_cons, List.filter_append]
      cases definition.told <;> exact ih
    | dropColumn dropped =>
      cases head
      exact ih
    | renameColumn renamed newName =>
      cases head
      have names : (TableCall.renameColumn renamed newName :: others).filterMap TableCall.renamed? =
          (renamed, newName) :: others.filterMap TableCall.renamed? := rfl
      rw [names, List.map_cons, ih]
      simp only [blank, List.append_assoc, List.cons_append]
      rfl

theorem compile_alterTable [LocalZone] (read : calls.mapM TableCall.changes = .ok groups) :
    (alterTable name calls).compile = .ok ((grouped groups.flatten).map fun change => .ddl (change.sql name)) := by
  have related := mapM_ok read
  obtain ⟨columns, compiled, adds, comments⟩ := @compile_parts name _ _ _ related
  have table : alterTable name calls =
      { name, action := .alter, columns := calls.filterMap TableCall.added?
        dropped := calls.filterMap TableCall.dropped?, renamed := calls.filterMap TableCall.renamed? } :=
    foldl_apply calls _
  have changes : (alterTable name calls).changes (Identifier.quoteQualified name) (columns.map Prod.fst) =
      (groups.flatten.filter Change.isAdd ++ groups.flatten.filter Change.isDrop ++
        groups.flatten.filter Change.isRename).map (Change.sql name) := by
    rw [List.map_append, List.map_append, ← adds, ← drop_parts related, ← rename_parts related, table]
    rfl
  rw [TableDefinition.compile]
  have columnsOf : (alterTable name calls).columns = calls.filterMap TableCall.added? := by rw [table]
  have nameOf : (alterTable name calls).name = name := by rw [table]
  have commentOf : (alterTable name calls).comment = none := by rw [table]
  rw [nameOf, columnsOf, commentOf, compiled]
  change Except.ok (((alterTable name calls).changes (Identifier.quoteQualified name) (columns.map Prod.fst)).map
    Statement.ddl ++ [] ++ columns.flatMap Prod.snd) = _
  rw [changes, comments, grouped, List.append_nil, List.map_map]
  exact congrArg Except.ok List.map_append.symm

theorem attached_of_calls [LocalZone]
    (read : List.Forall₂ (fun call group => TableCall.changes call = .ok group) calls groups) :
    Attached groups.flatten := by
  induction read with
  | nil => exact .nil
  | @cons call group _ _ head _ ih =>
    cases call with
    | column definition =>
      obtain ⟨columnName, behind, rfl, -⟩ := @ColumnDefinition.compile_of_changes [] _ _ _ head
      rw [List.flatten_cons]
      cases definition.told with
      | none => exact .plain rfl ih
      | some text => exact .noted ih
    | dropColumn dropped =>
      cases head
      exact .plain rfl ih
    | renameColumn renamed newName =>
      cases head
      exact .plain rfl ih

/-- The calls are compiled into statements that can be read as changes in one
way only, and the statements do what valid calls do in their order if and only if
the changes regroup. -/
theorem alteration_replays_iff [LocalZone] {held : Text → Option (Option Text)} {final : Table}
    (read : calls.mapM TableCall.changes = .ok groups)
    (valid : run groups.flatten (Table.original held) = some final) :
    ∃ statements : List Change,
      (alterTable name calls).compile = .ok (statements.map fun change => .ddl (change.sql name)) ∧
      (∀ others : List Change, others.map (Change.sql name) = statements.map (Change.sql name) → others = statements) ∧
      (run statements (Table.original held) = some final ↔
        Regroups (Table.original held) groups.flatten final) :=
  ⟨grouped groups.flatten, compile_alterTable read,
    fun _ same => List.map_injective_iff.mpr (Change.sql_injective name) same,
    run_grouped_iff (attached_of_calls (mapM_ok read)) valid⟩

end Calls

section Runs

open Alteration

def twoColumns (name : Text) : Option (Option Text) :=
  if name = "a".toList then some none else if name = "d".toList then some (some "old".toList) else none

def apartCalls : List TableCall :=
  [.renameColumn "a".toList "c".toList,
    .column { name := "b".toList, type := .text, comment := some "new".toList }, .dropColumn "d".toList]

def apartChanges : List (List Change) :=
  [[.rename "a".toList "c".toList], [.add "b".toList "text".toList, .comment "b".toList (some "new".toList)],
    [.drop "d".toList]]

def apartFinal : Table where
  columns name := if name = "b".toList then some ⟨"b".toList, some "text".toList⟩
    else if name = "c".toList then some ⟨"a".toList, none⟩ else none
  comments name := if name = "b".toList then some "new".toList else none

theorem alteration_replays_iff_apart :
    apartCalls.mapM TableCall.changes = .ok apartChanges ∧
    run apartChanges.flatten (Table.original twoColumns) = some apartFinal ∧
    Regroups (Table.original twoColumns) apartChanges.flatten apartFinal ∧
    ∃ statements, (alterTable "t".toList apartCalls).compile =
        .ok (statements.map fun change => .ddl (change.sql "t".toList)) ∧
      run statements (Table.original twoColumns) = some apartFinal := by
  have read : apartCalls.mapM TableCall.changes = .ok apartChanges := rfl
  have valid : run apartChanges.flatten (Table.original twoColumns) = some apartFinal := by
    refine congrArg some (?_ : Table.mk _ _ = _)
    rw [apartFinal, Table.mk.injEq]
    constructor <;> funext name <;> simp only [Table.original, Change.annotate, Function.update_apply] <;>
      grind [twoColumns]
  have regrouped : run (grouped apartChanges.flatten) (Table.original twoColumns) = some apartFinal := by
    refine congrArg some (?_ : Table.mk _ _ = _)
    rw [apartFinal, Table.mk.injEq]
    constructor <;> funext name <;> simp only [Table.original, Change.annotate, Function.update_apply] <;>
      grind [twoColumns]
  have regroups := (run_grouped_iff (attached_of_calls (mapM_ok read)) valid).mp regrouped
  obtain ⟨statements, compiled, -, replays⟩ := @alteration_replays_iff "t".toList _ _ _ _ _ read valid
  exact ⟨read, valid, regroups, statements, compiled, replays.mpr regroups⟩

def oneColumn (name : Text) : Option (Option Text) := if name = "a".toList then some none else none

def renamedOver : List TableCall :=
  [.column { name := "b".toList, type := .text, comment := some "new".toList },
    .renameColumn "b".toList "c".toList, .renameColumn "a".toList "b".toList]

theorem comment_on_renamed_column :
    ∃ groups final last statements, renamedOver.mapM TableCall.changes = .ok groups ∧
      run groups.flatten (Table.original oneColumn) = some final ∧
      (alterTable "t".toList renamedOver).compile = .ok (statements.map fun change => .ddl (change.sql "t".toList)) ∧
      statements.map (Change.sql "t".toList) = ["alter table \"t\" add column \"b\" text".toList,
        "alter table \"t\" rename column \"b\" to \"c\"".toList,
        "alter table \"t\" rename column \"a\" to \"b\"".toList,
        "comment on column \"t\".\"b\" is 'new'".toList] ∧
      run statements (Table.original oneColumn) = some last ∧
      final.columns "c".toList = some ⟨"b".toList, some "text".toList⟩ ∧ last.columns "c".toList = final.columns "c".toList ∧
      final.comments "c".toList = some "new".toList ∧ last.comments "c".toList = none ∧
      final.comments "b".toList = none ∧ last.comments "b".toList = some "new".toList := by
  refine ⟨_, _, _, grouped [.add "b".toList "text".toList, .comment "b".toList (some "new".toList),
    .rename "b".toList "c".toList, .rename "a".toList "b".toList], rfl, rfl, rfl, rfl, rfl, ?_⟩
  decide

end Runs

end LiteralSql
