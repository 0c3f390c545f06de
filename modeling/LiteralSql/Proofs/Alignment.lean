import LiteralSql.Proofs.Materialize
import LiteralSql.Proofs.Placement

/-! No binding is misaligned.

A statement comes with a layout for each of its rows. Reading the text of the
statement finds the places of the layout again, so filling in a row puts each
value where the layout has it.
-/

set_option autoImplicit false

namespace LiteralSql

/-- The layouts write down the statement, one for each row of its bindings. -/
structure Statement.Written (statement : Statement) (layouts : List Layout) : Prop where
  rows : statement.bindings.rows = layouts.map Layout.params
  sql : ∀ layout ∈ layouts, layout.sql = statement.sql
  sound : ∀ layout ∈ layouts, layout.Sound

/-- The rows fit the placeholders, and filled in with them the text becomes what the layouts are. -/
structure Statement.LaidOut (statement : Statement) (layouts : List Layout) : Prop where
  rows : statement.bindings.rows = layouts.map Layout.params
  sql : ∀ layout ∈ layouts, layout.sql = statement.sql
  counted : ∀ layout ∈ layouts, placeholderCount statement.sql = layout.params.length
  filled : ∀ layout ∈ layouts, Flat.ofBindings statement.sql layout.params = layout.flat

namespace Statement.Written

theorem laidOut {statement : Statement} {layouts : List Layout} (written : statement.Written layouts) :
    statement.LaidOut layouts := by
  have fits : ∀ layout ∈ layouts, placeholderCount statement.sql = layout.params.length ∧
      Flat.ofBindings statement.sql layout.params = layout.flat := by
    intro layout member
    rw [← written.sql layout member]
    exact (written.sound layout member).places.ofBindings
  exact ⟨written.rows, written.sql, fun layout member => (fits layout member).1,
    fun layout member => (fits layout member).2⟩

theorem once {sql : Text} {values : List Value} {kind : StatementKind} {layout : Layout}
    (same : layout.sql = sql) (params : layout.params = values) (sound : layout.Sound) :
    (Statement.once sql values kind).Written [layout] := by
  constructor
  · rw [List.map_singleton, params]
    rfl
  · intro other member
    rw [List.mem_singleton.mp member]
    exact same
  · intro other member
    rw [List.mem_singleton.mp member]
    exact sound

end Statement.Written

theorem Insert.written {insert : Insert} {statements : List Statement}
    (compiled : insert.compile = .ok statements) :
    List.Forall₂ Statement.Written statements insert.layouts := by
  rw [compile] at compiled
  split at compiled
  · cases compiled
  · rw [layouts]
    split
    · next none =>
      rw [if_pos none] at compiled
      cases compiled
      rw [List.forall₂_map_left_iff, List.forall₂_map_right_iff]
      have defaults : Quiet " default values".toList := Quiet.of_plain (by decide)
      exact List.forall₂_same.mpr fun row _ => .once (List.append_nil _) rfl
        (Layout.Sound.text ((quiet_target insert.table).append defaults))
    · next some =>
      rw [if_neg some] at compiled
      cases compiled
      refine .cons ⟨?_, ?_, ?_⟩ .nil
      · rw [List.map_map]
        exact List.map_congr_left fun row _ => (insert.params_rowLayout row).symm
      · intro layout member
        obtain ⟨row, -, rfl⟩ := List.mem_map.mp member
        exact insert.sql_rowLayout row
      · intro layout member
        obtain ⟨row, -, rfl⟩ := List.mem_map.mp member
        exact insert.sound_rowLayout row

theorem Update.written {update : Update} {statement : Statement}
    (compiled : update.compile = .ok statement) (closed : ∀ fragment ∈ update.raws, fragment.Closed) :
    statement.Written [update.layout] := by
  rw [compile] at compiled
  split at compiled
  · cases compiled
  · cases compiled
    exact .once update.sql_layout update.params_layout (sound_layout closed)

namespace Operation

def isQuery : Operation → Bool
  | .select _ | .insert _ | .update _ | .delete _ => true
  | .raw _ | .schema _ => false

def raws : Operation → List Raw
  | .select query => query.raws
  | .insert _ => []
  | .update query => query.raws
  | .delete query => query.raws
  | .raw _ => []
  | .schema _ => []

def layouts : Operation → List (List Layout)
  | .select query => [[query.layout]]
  | .insert query => query.layouts
  | .update query => [[query.layout]]
  | .delete query => [[query.layout]]
  | .raw _ => []
  | .schema _ => []

section
variable {operation : Operation} {statements : List Statement}

theorem written [LocalZone] (built : operation.isQuery = true) (closed : ∀ fragment ∈ operation.raws, fragment.Closed)
    (compiled : operation.compile = .ok statements) :
    List.Forall₂ Statement.Written statements operation.layouts := by
  cases operation with
  | select query =>
    cases compiled
    exact .cons (.once query.sql_layout query.params_layout (Select.sound_layout closed)) .nil
  | insert query => exact Insert.written compiled
  | update query =>
    have made : (query.compile >>= fun statement => .ok [statement]) = .ok statements := compiled
    obtain ⟨statement, done, same⟩ := bind_ok made
    cases same
    exact .cons (Update.written done closed) .nil
  | delete query =>
    cases compiled
    exact .cons (.once query.sql_layout query.params_layout (Delete.sound_layout closed)) .nil
  | raw fragment => cases built
  | schema commands => cases built

end

end Operation

end LiteralSql
