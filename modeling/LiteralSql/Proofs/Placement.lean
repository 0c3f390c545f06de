import LiteralSql.Proofs.Identifier
import LiteralSql.Proofs.Layout
import LiteralSql.Sql.Operation

/-! Every value stands where its builder call put it.

The layout of an operation writes the steps of its builder down in the order of
the text, each value at its step. The statement that the operation compiles to
has the text of the layout, and its rows are the values of the layout.
-/

set_option autoImplicit false

namespace LiteralSql

namespace Layout

theorem Detached.cons {c : Char} (breaks : SqlState.breaksMarks c = true) (rest : Text) :
    Detached (c :: rest) := fun _ same => Option.mem_some.mp same ▸ breaks

theorem Sound.text {sql : Text} (quiet : Quiet sql) : Sound [.text sql] := ⟨quiet, trivial⟩

def commas (items : List Layout) : Layout := [Piece.text ", ".toList].intercalate items

theorem commas_cons_cons (first second : Layout) (rest : List Layout) :
    commas (first :: second :: rest) = first ++ .text ", ".toList :: commas (second :: rest) := by
  simp [commas]

theorem flatMap_commas {A : Type} (part : Piece → List A) (items : List Layout) :
    (commas items).flatMap part =
      (part (.text ", ".toList)).intercalate (items.map fun item => item.flatMap part) := by
  induction items with
  | nil => rfl
  | cons first rest ih =>
    cases rest with
    | nil => simp [commas]
    | cons second rest =>
      rw [commas_cons_cons, List.flatMap_append, List.flatMap_cons, ih, List.map_cons, List.map_cons,
        List.map_cons, List.intercalate_cons_cons, List.append_assoc]

theorem sql_commas (items : List Layout) :
    (commas items).sql = ", ".toList.intercalate (items.map sql) :=
  flatMap_commas Piece.sql items

theorem params_commas (items : List Layout) : (commas items).params = items.flatMap params := by
  have joined : (commas items).params = [].intercalate (items.map params) :=
    flatMap_commas Piece.params items
  rw [joined, List.flatMap_def]
  induction items.map params with
  | nil => rfl
  | cons first rest ih =>
    cases rest with
    | nil => simp
    | cons second rest => simp [ih]

theorem Sound.commas {items : List Layout} (sound : ∀ item ∈ items, Sound item) :
    Sound (commas items) := by
  have comma : Quiet ", ".toList := Quiet.of_plain (by decide)
  induction items with
  | nil => exact trivial
  | cons first rest ih =>
    have head := sound first List.mem_cons_self
    have tail := ih fun item member => sound item (List.mem_cons_of_mem first member)
    cases rest with
    | nil => simpa [Layout.commas] using head
    | cons second rest =>
      rw [commas_cons_cons]
      exact head.append ⟨comma, tail⟩ (Detached.cons (by decide) _)

def values (bound : List Value) : Layout := commas (bound.map fun value => [.value value])

theorem sql_values (bound : List Value) :
    (values bound).sql = ", ".toList.intercalate (bound.map fun _ => ['?']) := by
  rw [values, sql_commas, List.map_map]
  rfl

theorem params_values (bound : List Value) : (values bound).params = bound := by
  rw [values, params_commas]
  simp [List.flatMap_map, Piece.params]

theorem Sound.values (bound : List Value) : Sound (values bound) := by
  apply Sound.commas
  intro item member
  obtain ⟨value, -, rfl⟩ := List.mem_map.mp member
  exact ⟨Detached.nil, trivial⟩

end Layout

namespace Expr

/-- The raw fragments of an expression, also those that an empty list drops. -/
def raws : Expr → List Raw
  | .column _ => []
  | .value _ => []
  | .raw fragment => [fragment]
  | .equalColumns _ _ => []
  | .compare _ operand _ => operand.raws
  | .isNull _ operand => operand.raws
  | .between _ operand _ _ => operand.raws
  | .member _ operand _ => operand.raws
  | .and left right => left.raws ++ right.raws
  | .or left right => left.raws ++ right.raws
  | .not operand => operand.raws
  | .paren operand => operand.raws

/-- The text of the expression with its values in place. An empty list leaves
neither the operand nor its values. -/
def layout : Expr → Layout
  | .column reference => [.text reference.sql]
  | .value bound => [.value bound]
  | .raw fragment => [.raw fragment]
  | .equalColumns left right => [.text (left.sql ++ " = ".toList ++ right.sql)]
  | .compare comparison operand bound =>
    operand.layout ++ [.text (' ' :: comparison.sql ++ [' ']), .value bound]
  | .isNull negated operand =>
    operand.layout ++ [.text (if negated then " is not null".toList else " is null".toList)]
  | .between negated operand low high =>
    operand.layout ++ [.text (if negated then " not between ".toList else " between ".toList),
      .value low, .text " and ".toList, .value high]
  | .member negated operand values =>
    if values.isEmpty then [.text (if negated then "1 = 1".toList else "1 = 0".toList)]
    else operand.layout ++ .text (if negated then " not in (".toList else " in (".toList) ::
      (Layout.values values ++ [.text [')']])
  | .and left right => left.layout ++ .text " and ".toList :: right.layout
  | .or left right => left.layout ++ .text " or ".toList :: right.layout
  | .not operand => .text "not ".toList :: operand.layout
  | .paren operand => .text ['('] :: (operand.layout ++ [.text [')']])

theorem sql_layout (expr : Expr) : expr.layout.sql = expr.sql := by
  induction expr with
  | column reference => exact List.append_nil _
  | value bound => rfl
  | raw fragment => exact List.append_nil _
  | equalColumns left right => exact List.append_nil _
  | compare comparison operand bound ih =>
    rw [layout, Layout.sql_append, ih, Expr.sql]
    simp only [Layout.sql_cons, Layout.sql_nil, Piece.sql, List.append_assoc, List.cons_append]
    rfl
  | isNull negated operand ih =>
    rw [layout, Layout.sql_append, ih, Expr.sql]
    simp only [Layout.sql_cons, Layout.sql_nil, Piece.sql, List.append_nil]
  | between negated operand low high ih =>
    rw [layout, Layout.sql_append, ih, Expr.sql]
    cases negated <;> rfl
  | member negated operand values ih =>
    rw [layout, Expr.sql]
    split
    · exact List.append_nil _
    · rw [Layout.sql_append, ih, Layout.sql_cons, Layout.sql_append, Layout.sql_values]
      simp only [Piece.sql, Layout.sql_cons, Layout.sql_nil, List.append_nil, List.append_assoc]
  | and left right left_ih right_ih =>
    rw [layout, Layout.sql_append, Layout.sql_cons, left_ih, right_ih, Expr.sql, List.append_assoc]
    rfl
  | or left right left_ih right_ih =>
    rw [layout, Layout.sql_append, Layout.sql_cons, left_ih, right_ih, Expr.sql, List.append_assoc]
    rfl
  | not operand ih =>
    rw [layout, Layout.sql_cons, ih]
    rfl
  | paren operand ih =>
    rw [layout, Layout.sql_cons, Layout.sql_append, ih]
    rfl

theorem params_layout (expr : Expr) : expr.layout.params = expr.params := by
  induction expr with
  | column reference => rfl
  | value bound => rfl
  | raw fragment => exact List.append_nil _
  | equalColumns left right => rfl
  | compare comparison operand bound ih =>
    rw [layout, Layout.params_append, ih]
    rfl
  | isNull negated operand ih =>
    rw [layout, Layout.params_append, ih]
    exact List.append_nil _
  | between negated operand low high ih =>
    rw [layout, Layout.params_append, ih]
    rfl
  | member negated operand values ih =>
    rw [layout, Expr.params]
    -- With an empty list the operand is gone, so its values are not there either.
    split
    · rfl
    · rw [Layout.params_append, ih, Layout.params_cons, Layout.params_append, Layout.params_values]
      simp [Piece.params]
  | and left right left_ih right_ih =>
    rw [layout, Layout.params_append, Layout.params_cons, left_ih, right_ih]
    rfl
  | or left right left_ih right_ih =>
    rw [layout, Layout.params_append, Layout.params_cons, left_ih, right_ih]
    rfl
  | not operand ih =>
    rw [layout, Layout.params_cons, ih]
    rfl
  | paren operand ih =>
    rw [layout, Layout.params_cons, Layout.params_append, ih]
    exact List.append_nil _

theorem quiet_column (column : Column) : Quiet column.sql := by
  rw [Column.sql]
  split
  · next table _ =>
    have dot : Quiet ['.'] := Quiet.of_plain (by decide)
    exact (Identifier.quiet_quote table).append (dot.append (Identifier.quiet_quote column.name))
  · exact Identifier.quiet_quoteQualified column.name

theorem quiet_comparison (comparison : Comparison) : Quiet (' ' :: comparison.sql ++ [' ']) := by
  apply Quiet.of_plain
  cases comparison <;> decide

theorem sound_layout {expr : Expr} (closed : ∀ fragment ∈ expr.raws, fragment.Closed) :
    expr.layout.Sound := by
  induction expr with
  | column reference => exact Layout.Sound.text (quiet_column reference)
  | value bound => exact ⟨Layout.Detached.nil, trivial⟩
  | raw fragment => exact ⟨closed fragment List.mem_cons_self, Layout.Detached.nil, trivial⟩
  | equalColumns left right =>
    exact Layout.Sound.text (((quiet_column left).append (Quiet.of_plain (by decide))).append
      (quiet_column right))
  | compare comparison operand bound ih =>
    exact (ih closed).append ⟨quiet_comparison comparison, Layout.Detached.nil, trivial⟩
      (Layout.Detached.cons (by decide) _)
  | isNull negated operand ih =>
    refine (ih closed).append (Layout.Sound.text (Quiet.of_plain ?_)) ?_
    · cases negated <;> decide
    · cases negated <;> exact Layout.Detached.cons (by decide) _
  | between negated operand low high ih =>
    have conj : Quiet " and ".toList := Quiet.of_plain (by decide)
    -- Each operator begins with a blank, and a blank completes no mark of its operand.
    refine (ih closed).append ⟨Quiet.of_plain ?_, ?_, conj, Layout.Detached.nil, trivial⟩ ?_
    · cases negated <;> decide
    · exact Layout.Detached.cons (by decide) _
    · cases negated <;> exact Layout.Detached.cons (by decide) _
  | member negated operand values ih =>
    rw [layout]
    split
    · exact Layout.Sound.text (Quiet.of_plain (by cases negated <;> decide))
    · have close : Quiet [')'] := Quiet.of_plain (by decide)
      refine (ih closed).append ⟨Quiet.of_plain ?_, (Layout.Sound.values values).append
        (Layout.Sound.text close) (Layout.Detached.cons (by decide) _)⟩ ?_
      · cases negated <;> decide
      · cases negated <;> exact Layout.Detached.cons (by decide) _
  | and left right left_ih right_ih =>
    have conj : Quiet " and ".toList := Quiet.of_plain (by decide)
    exact (left_ih fun fragment member => closed fragment (List.mem_append_left _ member)).append
      ⟨conj, right_ih fun fragment member => closed fragment (List.mem_append_right _ member)⟩
      (Layout.Detached.cons (by decide) _)
  | or left right left_ih right_ih =>
    have disj : Quiet " or ".toList := Quiet.of_plain (by decide)
    exact (left_ih fun fragment member => closed fragment (List.mem_append_left _ member)).append
      ⟨disj, right_ih fun fragment member => closed fragment (List.mem_append_right _ member)⟩
      (Layout.Detached.cons (by decide) _)
  | not operand ih => exact ⟨Quiet.of_plain (by decide), ih closed⟩
  | paren operand ih =>
    exact ⟨Quiet.of_plain (by decide), (ih closed).append (Layout.Sound.text (Quiet.of_plain (by decide)))
      (Layout.Detached.cons (by decide) _)⟩

end Expr

namespace Layout

def clause (keyword : Text) : Option Expr → Layout
  | none => []
  | some expr => .text keyword :: expr.layout

theorem sql_clause (keyword : Text) (expr : Option Expr) :
    (clause keyword expr).sql = exprClause keyword expr := by
  cases expr with
  | none => rfl
  | some expr => rw [clause, sql_cons, expr.sql_layout]; rfl

theorem params_clause (keyword : Text) (expr : Option Expr) :
    (clause keyword expr).params = exprParams expr := by
  cases expr with
  | none => rfl
  | some expr => exact expr.params_layout

theorem Sound.clause {keyword : Text} (quiet : Quiet keyword) {expr : Option Expr}
    (closed : ∀ fragment ∈ expr.toList.flatMap Expr.raws, fragment.Closed) :
    Sound (clause keyword expr) := by
  cases expr with
  | none => trivial
  | some expr => exact ⟨quiet, Expr.sound_layout (by simpa using closed)⟩

theorem Detached.clause {c : Char} {rest : Text} (breaks : SqlState.breaksMarks c = true)
    (expr : Option Expr) : Detached (exprClause (c :: rest) expr) := by
  cases expr with
  | none => exact Detached.nil
  | some expr => exact Detached.cons breaks _

theorem Detached.listClause {c : Char} {rest : Text} (breaks : SqlState.breaksMarks c = true)
    (items : List Text) : Detached (listClause (c :: rest) items) := by
  rw [LiteralSql.listClause]
  split
  · exact Detached.nil
  · exact Detached.cons breaks _

theorem Detached.countClause {c : Char} {rest : Text} (breaks : SqlState.breaksMarks c = true)
    (count : Option Nat) : Detached (countClause (c :: rest) count) := by
  cases count with
  | none => exact Detached.nil
  | some count => exact Detached.cons breaks _

end Layout

theorem quiet_listClause {keyword : Text} (quiet : Quiet keyword) {items : List Text}
    (parts : ∀ item ∈ items, Quiet item) : Quiet (listClause keyword items) := by
  have comma : Quiet ", ".toList := Quiet.of_plain (by decide)
  rw [listClause]
  split
  · exact Quiet.nil
  · exact quiet.append (comma.intercalate parts)

theorem quiet_countClause {keyword : Text} (quiet : Quiet keyword) (count : Option Nat) :
    Quiet (countClause keyword count) := by
  cases count with
  | none => exact Quiet.nil
  | some count => exact quiet.append (Quiet.of_plain (Quiet.plain_ofNat count))

namespace Projection

def raws : Projection → List Raw
  | .raw fragment => [fragment]
  | _ => []

def layout : Projection → Layout
  | .column name => [.text (Identifier.quoteQualified name)]
  | .all => [.text ['*']]
  | .count => [.text "count(*)".toList]
  | .countOf name => [.text ("count(".toList ++ Identifier.quoteQualified name ++ [')'])]
  | .raw fragment => [.raw fragment]

theorem sql_layout (projection : Projection) : projection.layout.sql = projection.sql := by
  cases projection <;> exact List.append_nil _

theorem params_layout (projection : Projection) : projection.layout.params = projection.params := by
  cases projection with
  | raw fragment => exact List.append_nil _
  | _ => rfl

theorem sound_layout {projection : Projection}
    (closed : ∀ fragment ∈ projection.raws, fragment.Closed) : projection.layout.Sound := by
  cases projection with
  | column name => exact Layout.Sound.text (Identifier.quiet_quoteQualified name)
  | all => exact Layout.Sound.text (Quiet.of_plain (by decide))
  | count => exact Layout.Sound.text (Quiet.of_plain (by decide))
  | countOf name =>
    have opening : Quiet "count(".toList := Quiet.of_plain (by decide)
    have close : Quiet [')'] := Quiet.of_plain (by decide)
    exact Layout.Sound.text ((opening.append (Identifier.quiet_quoteQualified name)).append close)
  | raw fragment => exact ⟨closed fragment List.mem_cons_self, Layout.Detached.nil, trivial⟩

end Projection

theorem quiet_join (join : Join) : Quiet (' ' :: join.sql) := by
  have on : Quiet " on ".toList := Quiet.of_plain (by decide)
  have space : Quiet [' '] := Quiet.of_plain (by decide)
  have equal : Quiet " = ".toList := Quiet.of_plain (by decide)
  have kind : Quiet (' ' :: join.kind.sql) := by
    apply Quiet.of_plain
    cases join.kind <;> decide
  have target := (kind.append space).append (Identifier.quiet_quote join.table)
  have condition := ((Expr.quiet_column (.named join.left)).append equal).append
    (Expr.quiet_column (.named join.right))
  have whole : ' ' :: join.sql = ((' ' :: join.kind.sql ++ [' '] ++ Identifier.quote join.table) ++
      " on ".toList) ++ ((Column.named join.left).sql ++ " = ".toList ++ (Column.named join.right).sql) := by
    simp only [Join.sql, Expr.sql, List.append_assoc, List.cons_append]
    rfl
  rw [whole]
  exact (target.append on).append condition

namespace Select

def raws (select : Select) : List Raw :=
  select.columns.flatMap Projection.raws ++ select.condition.toList.flatMap Expr.raws ++
    select.having.toList.flatMap Expr.raws

/-- The columns come first, then the condition, then the condition on groups. -/
def layout (select : Select) : Layout :=
  .text ("select ".toList ++ if select.distinct then "distinct ".toList else []) ::
    (Layout.commas (select.columns.map Projection.layout) ++
      .text (" from ".toList ++ Identifier.quoteQualified select.table ++
        select.joins.flatMap fun join => ' ' :: join.sql) ::
      (Layout.clause " where ".toList select.condition ++
        .text (listClause " group by ".toList (select.groupBy.map Identifier.quoteQualified)) ::
        (Layout.clause " having ".toList select.having ++
          [.text (listClause " order by ".toList (select.orderBy.map fun (column, direction) =>
              Identifier.quoteQualified column ++ ' ' :: direction.sql) ++
            countClause " limit ".toList select.limit ++
            countClause " offset ".toList select.offset)])))

theorem sql_layout (select : Select) : select.layout.sql = select.sql := by
  have columns : (select.columns.map Projection.layout).map Layout.sql =
      select.columns.map Projection.sql := by
    simp [Projection.sql_layout]
  rw [layout, Layout.sql_cons, Layout.sql_append, Layout.sql_cons, Layout.sql_append, Layout.sql_cons,
    Layout.sql_append, Layout.sql_cons, Layout.sql_nil, Layout.sql_commas, Layout.sql_clause,
    Layout.sql_clause, columns, List.append_nil]
  unfold Select.sql
  simp only [Piece.sql, List.append_assoc]

theorem params_layout (select : Select) : select.layout.params = select.params := by
  have columns : (select.columns.map Projection.layout).flatMap Layout.params =
      select.columns.flatMap Projection.params := by
    simp [List.flatMap_map, Projection.params_layout]
  rw [layout, Layout.params_cons, Layout.params_append, Layout.params_cons, Layout.params_append,
    Layout.params_cons, Layout.params_append, Layout.params_cons, Layout.params_nil,
    Layout.params_commas, Layout.params_clause, Layout.params_clause, columns]
  simp only [Piece.params, List.nil_append, List.append_nil, Select.params, List.append_assoc]

theorem sound_layout {select : Select} (closed : ∀ fragment ∈ select.raws, fragment.Closed) :
    select.layout.Sound := by
  have within {part : List Raw} (subset : part ⊆ select.raws) : ∀ fragment ∈ part, fragment.Closed :=
    fun fragment member => closed fragment (subset member)
  have columns : (Layout.commas (select.columns.map Projection.layout)).Sound := by
    apply Layout.Sound.commas
    intro item member
    obtain ⟨projection, held, rfl⟩ := List.mem_map.mp member
    apply Projection.sound_layout
    refine within fun fragment inside => ?_
    exact List.mem_append_left _ (List.mem_append_left _ (List.mem_flatMap.mpr ⟨projection, held, inside⟩))
  have condition : (Layout.clause " where ".toList select.condition).Sound :=
    Layout.Sound.clause (Quiet.of_plain (by decide)) (within fun _ inside =>
      List.mem_append_left _ (List.mem_append_right _ inside))
  have having' : (Layout.clause " having ".toList select.having).Sound :=
    Layout.Sound.clause (Quiet.of_plain (by decide)) (within fun _ inside => List.mem_append_right _ inside)
  have head : Quiet ("select ".toList ++ if select.distinct then "distinct ".toList else []) := by
    apply Quiet.of_plain
    cases select.distinct <;> decide
  have source : Quiet (" from ".toList ++ Identifier.quoteQualified select.table ++
      select.joins.flatMap fun join => ' ' :: join.sql) := by
    have keyword : Quiet " from ".toList := Quiet.of_plain (by decide)
    refine (keyword.append (Identifier.quiet_quoteQualified _)).append (Quiet.flatten ?_)
    intro text member
    obtain ⟨join, -, rfl⟩ := List.mem_map.mp member
    exact quiet_join join
  have groups : Quiet (listClause " group by ".toList (select.groupBy.map Identifier.quoteQualified)) := by
    refine quiet_listClause (Quiet.of_plain (by decide)) fun item member => ?_
    obtain ⟨name, -, rfl⟩ := List.mem_map.mp member
    exact Identifier.quiet_quoteQualified name
  have order : Quiet (listClause " order by ".toList (select.orderBy.map fun (column, direction) =>
      Identifier.quoteQualified column ++ ' ' :: direction.sql)) := by
    refine quiet_listClause (Quiet.of_plain (by decide)) fun item member => ?_
    obtain ⟨⟨column, direction⟩, -, rfl⟩ := List.mem_map.mp member
    refine (Identifier.quiet_quoteQualified column).append (Quiet.of_plain ?_)
    cases direction <;> decide
  have limit : Quiet (countClause " limit ".toList select.limit) :=
    quiet_countClause (Quiet.of_plain (by decide)) _
  have offset : Quiet (countClause " offset ".toList select.offset) :=
    quiet_countClause (Quiet.of_plain (by decide)) _
  have last : Layout.Detached (listClause " order by ".toList (select.orderBy.map
      fun (column, direction) => Identifier.quoteQualified column ++ ' ' :: direction.sql) ++
        countClause " limit ".toList select.limit ++ countClause " offset ".toList select.offset ++ []) :=
    (((Layout.Detached.listClause (by decide) _).append (Layout.Detached.countClause (by decide) _)).append
      (Layout.Detached.countClause (by decide) _)).append Layout.Detached.nil
  have grouped : Layout.Detached (listClause " group by ".toList
      (select.groupBy.map Identifier.quoteQualified)) :=
    Layout.Detached.listClause (by decide) _
  have held : Layout.Detached (exprClause " having ".toList select.having) :=
    Layout.Detached.clause (by decide) _
  -- Every part behind an expression begins with a space or is empty, so no mark of a
  -- raw fragment runs over into it.
  refine ⟨head, columns.append ⟨source, condition.append ⟨groups, having'.append
    (Layout.Sound.text ((order.append limit).append offset)) last⟩ ?_⟩ (Layout.Detached.cons (by decide) _)⟩
  rw [Layout.sql_cons, Layout.sql_append, Layout.sql_clause]
  exact grouped.append (held.append last)

end Select

namespace Insert

def rowLayout (insert : Insert) (row : Record) : Layout :=
  .text ("insert into ".toList ++ Identifier.quoteQualified insert.table ++ " (".toList ++
      ", ".toList.intercalate (insert.columns.map Identifier.quote) ++ ") values (".toList) ::
    (Layout.values (cells insert.columns row) ++ [.text [')']])

def layouts (insert : Insert) : List (List Layout) :=
  if insert.columns.isEmpty then
    insert.rows.map fun _ => [[.text ("insert into ".toList ++
      Identifier.quoteQualified insert.table ++ " default values".toList)]]
  else [insert.rows.map insert.rowLayout]

theorem params_rowLayout (insert : Insert) (row : Record) :
    (insert.rowLayout row).params = cells insert.columns row := by
  rw [rowLayout, Layout.params_cons, Layout.params_append, Layout.params_values]
  exact List.append_nil _

theorem sql_rowLayout (insert : Insert) (row : Record) :
    (insert.rowLayout row).sql = "insert into ".toList ++ Identifier.quoteQualified insert.table ++
      " (".toList ++ ", ".toList.intercalate (insert.columns.map Identifier.quote) ++
      ") values (".toList ++ ", ".toList.intercalate (insert.columns.map fun _ => ['?']) ++ [')'] := by
  rw [rowLayout, Layout.sql_cons, Layout.sql_append, Layout.sql_values, cells, List.map_map]
  simp only [Piece.sql, Layout.sql_cons, Layout.sql_nil, List.append_nil, List.append_assoc]
  rfl

theorem quiet_target (table : Text) :
    Quiet ("insert into ".toList ++ Identifier.quoteQualified table) := by
  have keyword : Quiet "insert into ".toList := Quiet.of_plain (by decide)
  exact keyword.append (Identifier.quiet_quoteQualified table)

theorem sound_rowLayout (insert : Insert) (row : Record) : (insert.rowLayout row).Sound := by
  have opening : Quiet " (".toList := Quiet.of_plain (by decide)
  have comma : Quiet ", ".toList := Quiet.of_plain (by decide)
  have between : Quiet ") values (".toList := Quiet.of_plain (by decide)
  have close : Quiet [')'] := Quiet.of_plain (by decide)
  have names : Quiet (", ".toList.intercalate (insert.columns.map Identifier.quote)) := by
    refine comma.intercalate fun name member => ?_
    obtain ⟨column, -, rfl⟩ := List.mem_map.mp member
    exact Identifier.quiet_quote column
  exact ⟨(((quiet_target insert.table).append opening).append names).append between,
    (Layout.Sound.values _).append (Layout.Sound.text close) (Layout.Detached.cons (by decide) _)⟩

end Insert

namespace Update

def raws (update : Update) : List Raw := update.condition.toList.flatMap Expr.raws

def layout (update : Update) : Layout :=
  .text ("update ".toList ++ Identifier.quoteQualified update.table ++ " set ".toList) ::
    (Layout.commas (update.assignments.map fun (column, bound) =>
        [.text (Identifier.quote column ++ " = ".toList), .value bound]) ++
      Layout.clause " where ".toList update.condition)

theorem sql_layout (update : Update) :
    update.layout.sql = "update ".toList ++ Identifier.quoteQualified update.table ++ " set ".toList ++
      ", ".toList.intercalate (update.assignments.map fun (column, _) =>
        Identifier.quote column ++ " = ?".toList) ++
      exprClause " where ".toList update.condition := by
  rw [layout, Layout.sql_cons, Layout.sql_append, Layout.sql_commas, Layout.sql_clause, List.map_map,
    List.append_assoc _ _ (exprClause _ _)]
  congr 4
  funext ⟨column, bound⟩
  simp only [Function.comp_apply, Layout.sql_cons, Layout.sql_nil, Piece.sql, List.append_assoc]
  rfl

theorem params_layout (update : Update) :
    update.layout.params = update.assignments.map Prod.snd ++ exprParams update.condition := by
  rw [layout, Layout.params_cons, Layout.params_append, Layout.params_commas, Layout.params_clause,
    List.flatMap_map]
  simp [Piece.params, ← List.map_eq_flatMap]

theorem sound_layout {update : Update} (closed : ∀ fragment ∈ update.raws, fragment.Closed) :
    update.layout.Sound := by
  have keyword : Quiet "update ".toList := Quiet.of_plain (by decide)
  have set : Quiet " set ".toList := Quiet.of_plain (by decide)
  have equal : Quiet " = ".toList := Quiet.of_plain (by decide)
  refine ⟨(keyword.append (Identifier.quiet_quoteQualified _)).append set, ?_⟩
  refine (Layout.Sound.commas ?_).append (Layout.Sound.clause (Quiet.of_plain (by decide)) closed) ?_
  · intro item member
    obtain ⟨⟨column, bound⟩, -, rfl⟩ := List.mem_map.mp member
    exact ⟨(Identifier.quiet_quote column).append equal, Layout.Detached.nil, trivial⟩
  · rw [Layout.sql_clause]
    exact Layout.Detached.clause (by decide) _

end Update

namespace Delete

def raws (delete : Delete) : List Raw := delete.condition.toList.flatMap Expr.raws

def layout (delete : Delete) : Layout :=
  .text ("delete from ".toList ++ Identifier.quoteQualified delete.table) ::
    Layout.clause " where ".toList delete.condition

theorem sql_layout (delete : Delete) :
    delete.layout.sql = "delete from ".toList ++ Identifier.quoteQualified delete.table ++
      exprClause " where ".toList delete.condition := by
  rw [layout, Layout.sql_cons, Layout.sql_clause]
  rfl

theorem params_layout (delete : Delete) : delete.layout.params = exprParams delete.condition :=
  Layout.params_clause _ _

theorem sound_layout {delete : Delete} (closed : ∀ fragment ∈ delete.raws, fragment.Closed) :
    delete.layout.Sound := by
  have keyword : Quiet "delete from ".toList := Quiet.of_plain (by decide)
  exact ⟨keyword.append (Identifier.quiet_quoteQualified _),
    Layout.Sound.clause (Quiet.of_plain (by decide)) closed⟩

end Delete

end LiteralSql
