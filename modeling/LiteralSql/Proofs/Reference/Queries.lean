import LiteralSql.Proofs.Reference.Mentions
import LiteralSql.Sql.Query

/-! Where queries mention tables.

The text of a query is a sketch: texts in which no table is named, and mentions
between them. Another name for a table goes into the mentions and nowhere else.
-/

set_option autoImplicit false

namespace LiteralSql

inductive SketchPart
  | verbatim (text : Text)
  | mention (mention : Mention)

/-- Texts without tables and mentions of tables, in the order in which they are written. -/
abbrev Sketch := List SketchPart

namespace Sketch

def mentions (sketch : Sketch) : List Mention :=
  sketch.filterMap fun
    | .verbatim _ => none
    | .mention mention => some mention

def sql (rename : Text → Text) (sketch : Sketch) : Text :=
  sketch.flatMap fun
    | .verbatim text => text
    | .mention mention => (mention.map rename).sql

end Sketch

/-- What is written for each way to name the tables is one sketch, with these mentions. -/
def Renders (write : (Text → Text) → Text) (mentions : List Mention) : Prop :=
  ∃ sketch : Sketch, sketch.mentions = mentions ∧ ∀ rename, write rename = sketch.sql rename

namespace Renders

theorem verbatim (text : Text) : Renders (fun _ => text) [] :=
  ⟨[.verbatim text], rfl, fun _ => (List.append_nil text).symm⟩

theorem mention (mention : Mention) : Renders (fun rename => (mention.map rename).sql) [mention] :=
  ⟨[.mention mention], rfl, fun _ => (List.append_nil _).symm⟩

variable {first second : (Text → Text) → Text} {mentions others : List Mention}

theorem append (left : Renders first mentions) (right : Renders second others) :
    Renders (fun rename => first rename ++ second rename) (mentions ++ others) := by
  obtain ⟨sketch, rfl, written⟩ := left
  obtain ⟨behind, rfl, writtenBehind⟩ := right
  refine ⟨sketch ++ behind, List.filterMap_append, fun rename => ?_⟩
  change first rename ++ second rename = _
  rw [written, writtenBehind, Sketch.sql, Sketch.sql, Sketch.sql, List.flatMap_append]

theorem behind (text : Text) (right : Renders second others) : Renders (fun rename => text ++ second rename) others :=
  (verbatim text).append right

theorem before (left : Renders first mentions) (text : Text) : Renders (fun rename => first rename ++ text) mentions := by
  have joined := left.append (verbatim text)
  rwa [List.append_nil] at joined

theorem flatMap {A : Type} {write : (Text → Text) → A → Text} {mentions : A → List Mention} (items : List A)
    (each : ∀ item, Renders (fun rename => write rename item) (mentions item)) :
    Renders (fun rename => items.flatMap (write rename)) (items.flatMap mentions) := by
  induction items with
  | nil => exact verbatim []
  | cons item rest ih => exact (each item).append ih

theorem intercalate {A : Type} {write : (Text → Text) → A → Text} {mentions : A → List Mention} (separator : Text)
    (items : List A) (each : ∀ item, Renders (fun rename => write rename item) (mentions item)) :
    Renders (fun rename => separator.intercalate (items.map (write rename))) (items.flatMap mentions) := by
  cases items with
  | nil => exact verbatim []
  | cons item rest =>
    have joined := (each item).append (flatMap rest fun other => (each other).behind separator)
    simpa only [List.map_cons, intercalate_cons, List.flatMap_map, List.flatMap_cons] using joined

end Renders

def renameDotted (rename : Text → Text) (name : Text) : Text :=
  match Text.lastDot? name with
  | some (table, column) => rename table ++ '.' :: column
  | none => name

/-- A dotted name mentions what stands in front of its last dot. -/
def dottedMentions (name : Text) : List Mention :=
  match found : Text.lastDot? name with
  | some (table, column) => [.dotted table column (Text.lastDot?_eq_some.mp found).2]
  | none => []

theorem renders_dotted (name : Text) :
    Renders (fun rename => Identifier.quoteQualified (renameDotted rename name)) (dottedMentions name) := by
  unfold dottedMentions
  split
  · next table column found =>
    have renamed (rename : Text → Text) : renameDotted rename name = rename table ++ '.' :: column := by
      rw [renameDotted, found]
    simp only [renamed]
    exact Renders.mention (.dotted table column (Text.lastDot?_eq_some.mp found).2)
  · next absent =>
    have same (rename : Text → Text) : renameDotted rename name = name := by rw [renameDotted, absent]
    simp only [same]
    exact Renders.verbatim _

theorem renameDotted_id (name : Text) : renameDotted id name = name := by
  rw [renameDotted]
  split
  · next table column found => exact (Text.lastDot?_eq_some.mp found).1.symm
  · rfl

namespace Column

def mapTable (rename : Text → Text) (column : Column) : Column :=
  match column.table with
  | some table => ⟨some (rename table), column.name⟩
  | none => ⟨none, renameDotted rename column.name⟩

def mentions (column : Column) : List Mention :=
  match column.table with
  | some table => [.owned table column.name]
  | none => dottedMentions column.name

theorem renders (column : Column) : Renders (fun rename => (column.mapTable rename).sql) column.mentions := by
  obtain ⟨table, name⟩ := column
  cases table with
  | some table => exact Renders.mention (.owned table name)
  | none => exact renders_dotted name

theorem mapTable_id (column : Column) : column.mapTable id = column := by
  obtain ⟨table, name⟩ := column
  cases table with
  | some table => rfl
  | none => exact congrArg (Column.mk none) (renameDotted_id name)

end Column

namespace Expr

def mapTable (rename : Text → Text) : Expr → Expr
  | .column reference => .column (reference.mapTable rename)
  | .value bound => .value bound
  | .raw fragment => .raw fragment
  | .equalColumns left right => .equalColumns (left.mapTable rename) (right.mapTable rename)
  | .compare comparison operand bound => .compare comparison (operand.mapTable rename) bound
  | .isNull negated operand => .isNull negated (operand.mapTable rename)
  | .between negated operand low high => .between negated (operand.mapTable rename) low high
  | .member negated operand values => .member negated (operand.mapTable rename) values
  | .and left right => .and (left.mapTable rename) (right.mapTable rename)
  | .or left right => .or (left.mapTable rename) (right.mapTable rename)
  | .not operand => .not (operand.mapTable rename)
  | .paren operand => .paren (operand.mapTable rename)

/-- The operand of a membership in an empty list is not written. -/
def mentions : Expr → List Mention
  | .column reference => reference.mentions
  | .value _ | .raw _ => []
  | .equalColumns left right => left.mentions ++ right.mentions
  | .compare _ operand _ | .isNull _ operand | .between _ operand _ _ => operand.mentions
  | .member _ operand values => if values.isEmpty then [] else operand.mentions
  | .and left right | .or left right => left.mentions ++ right.mentions
  | .not operand | .paren operand => operand.mentions

theorem renders (expr : Expr) : Renders (fun rename => (expr.mapTable rename).sql) expr.mentions := by
  induction expr with
  | column reference => exact reference.renders
  | value bound => exact Renders.verbatim _
  | raw fragment => exact Renders.verbatim _
  | equalColumns left right => exact (left.renders.before _).append right.renders
  | compare comparison operand bound ih => exact (ih.before _).before _
  | isNull negated operand ih => exact ih.before _
  | between negated operand low high ih => exact ih.before _
  | member negated operand values ih =>
    simp only [mapTable, sql, mentions]
    split
    · exact Renders.verbatim _
    · exact ((ih.before _).before _).before _
  | and left right ihLeft ihRight => exact (ihLeft.before _).append ihRight
  | or left right ihLeft ihRight => exact (ihLeft.before _).append ihRight
  | not operand ih => exact ih.behind _
  | paren operand ih => exact (ih.behind ['(']).before _

theorem mapTable_id (expr : Expr) : expr.mapTable id = expr := by
  induction expr with
  | column reference => exact congrArg Expr.column reference.mapTable_id
  | equalColumns left right => rw [mapTable, left.mapTable_id, right.mapTable_id]
  | value _ | raw _ => rfl
  | and left right ihLeft ihRight | or left right ihLeft ihRight => rw [mapTable, ihLeft, ihRight]
  | compare _ operand _ ih | isNull _ operand ih | between _ operand _ _ ih | member _ operand _ ih
  | not operand ih | paren operand ih => rw [mapTable, ih]

theorem map_mapTable_id (expr : Option Expr) : expr.map (mapTable id) = expr := by
  rw [funext mapTable_id]
  exact Option.map_id'

end Expr

theorem renders_exprClause (keyword : Text) (expr : Option Expr) :
    Renders (fun rename => exprClause keyword (expr.map (Expr.mapTable rename)))
      (expr.toList.flatMap Expr.mentions) := by
  cases expr with
  | none => exact Renders.verbatim []
  | some expr =>
    have clause := expr.renders.behind keyword
    rwa [Option.toList_some, List.flatMap_singleton]

theorem renders_listClause {A : Type} {write : (Text → Text) → A → Text} {mentions : A → List Mention} (keyword : Text)
    (items : List A) (each : ∀ item, Renders (fun rename => write rename item) (mentions item)) :
    Renders (fun rename => listClause keyword (items.map (write rename))) (items.flatMap mentions) := by
  cases items with
  | nil => exact Renders.verbatim []
  | cons item rest => exact (Renders.intercalate ", ".toList (item :: rest) each).behind keyword

namespace Join

def mapTable (rename : Text → Text) (join : Join) : Join where
  kind := join.kind
  table := rename join.table
  left := renameDotted rename join.left
  right := renameDotted rename join.right

def mentions (join : Join) : List Mention :=
  .joined join.table :: (dottedMentions join.left ++ dottedMentions join.right)

theorem renders (join : Join) : Renders (fun rename => (join.mapTable rename).sql) join.mentions := by
  have condition := ((renders_dotted join.left).before " = ".toList).append (renders_dotted join.right)
  have table := (((Renders.mention (.joined join.table)).behind [' ']).behind join.kind.sql).before " on ".toList
  exact table.append condition

theorem mapTable_id (join : Join) : join.mapTable id = join := by
  rw [mapTable, renameDotted_id, renameDotted_id]
  rfl

end Join

namespace Projection

def mapTable (rename : Text → Text) : Projection → Projection
  | .column name => .column (renameDotted rename name)
  | .countOf name => .countOf (renameDotted rename name)
  | other => other

def mentions : Projection → List Mention
  | .column name | .countOf name => dottedMentions name
  | .all | .count | .raw _ => []

theorem renders (projection : Projection) :
    Renders (fun rename => (projection.mapTable rename).sql) projection.mentions := by
  cases projection with
  | column name => exact renders_dotted name
  | countOf name => exact ((renders_dotted name).behind "count(".toList).before [')']
  | _ => exact Renders.verbatim _

theorem mapTable_id (projection : Projection) : projection.mapTable id = projection := by
  cases projection with
  | column name => exact congrArg Projection.column (renameDotted_id name)
  | countOf name => exact congrArg Projection.countOf (renameDotted_id name)
  | _ => rfl

end Projection

namespace Select

def mapTable (rename : Text → Text) (select : Select) : Select :=
  { select with
    table := rename select.table
    columns := select.columns.map (Projection.mapTable rename)
    joins := select.joins.map (Join.mapTable rename)
    condition := select.condition.map (Expr.mapTable rename)
    groupBy := select.groupBy.map (renameDotted rename)
    having := select.having.map (Expr.mapTable rename)
    orderBy := select.orderBy.map fun term => (renameDotted rename term.1, term.2) }

def mentions (select : Select) : List Mention :=
  select.columns.flatMap Projection.mentions ++ [.table select.table] ++ select.joins.flatMap Join.mentions ++
    select.condition.toList.flatMap Expr.mentions ++ select.groupBy.flatMap dottedMentions ++
    select.having.toList.flatMap Expr.mentions ++ select.orderBy.flatMap fun term => dottedMentions term.1

theorem renders (select : Select) : Renders (fun rename => (select.mapTable rename).sql) select.mentions := by
  have columns : Renders (fun rename => ", ".toList.intercalate
        ((select.columns.map (Projection.mapTable rename)).map Projection.sql))
      (select.columns.flatMap Projection.mentions) := by
    simp only [List.map_map]
    exact Renders.intercalate ", ".toList select.columns Projection.renders
  have joins : Renders (fun rename => (select.joins.map (Join.mapTable rename)).flatMap fun join => ' ' :: join.sql)
      (select.joins.flatMap Join.mentions) := by
    simp only [List.flatMap_map]
    exact Renders.flatMap select.joins fun join => join.renders.behind [' ']
  have groups : Renders (fun rename => listClause " group by ".toList
        ((select.groupBy.map (renameDotted rename)).map Identifier.quoteQualified))
      (select.groupBy.flatMap dottedMentions) := by
    simp only [List.map_map]
    exact renders_listClause " group by ".toList select.groupBy renders_dotted
  have orders : Renders (fun rename => listClause " order by ".toList
        ((select.orderBy.map fun term => (renameDotted rename term.1, term.2)).map fun term =>
          Identifier.quoteQualified term.1 ++ ' ' :: term.2.sql))
      (select.orderBy.flatMap fun term => dottedMentions term.1) := by
    simp only [List.map_map]
    exact renders_listClause " order by ".toList select.orderBy fun term =>
      (renders_dotted term.1).before (' ' :: term.2.sql)
  have head := ((columns.behind ("select ".toList ++ (if select.distinct then "distinct ".toList else []))).before
    " from ".toList).append (Renders.mention (.table select.table))
  have filtered := (head.append joins).append (renders_exprClause " where ".toList select.condition)
  have grouped := (filtered.append groups).append (renders_exprClause " having ".toList select.having)
  have whole := ((grouped.append orders).before (countClause " limit ".toList select.limit)).before
    (countClause " offset ".toList select.offset)
  dsimp only [mapTable, sql, mentions]
  exact whole

theorem mapTable_id (select : Select) : select.mapTable id = select := by
  have orders : select.orderBy.map (fun term => (term.1, term.2)) = select.orderBy := List.map_id' _
  rw [mapTable, funext Projection.mapTable_id, funext Join.mapTable_id, funext renameDotted_id]
  simp only [Expr.map_mapTable_id, List.map_id', orders, id_eq]

end Select

end LiteralSql
