import LiteralSql.Proofs.Alignment
import LiteralSql.Proofs.Dictionary
import LiteralSql.Proofs.Commands

/-! Operations without raw fragments and raw values.

The layouts of such an operation have nothing but quiet texts and values that
become literals, and all rows of a statement have the values at the same places.
-/

set_option autoImplicit false

namespace LiteralSql

def Value.isRawFree : Value → Bool
  | .raw .. => false
  | _ => true

theorem Value.flat_of_isRawFree {value : Value} (free : value.isRawFree = true) :
    value.flat = .ok [.value value] := by
  cases value with
  | raw sql bindings => cases free
  | _ => rfl

def Expr.isRawFree : Expr → Bool
  | .column _ => true
  | .value bound => bound.isRawFree
  | .raw _ => false
  | .equalColumns _ _ => true
  | .compare _ operand bound => operand.isRawFree && bound.isRawFree
  | .isNull _ operand => operand.isRawFree
  | .between _ operand low high => operand.isRawFree && low.isRawFree && high.isRawFree
  | .member _ operand values => operand.isRawFree && values.all Value.isRawFree
  | .and left right => left.isRawFree && right.isRawFree
  | .or left right => left.isRawFree && right.isRawFree
  | .not operand => operand.isRawFree
  | .paren operand => operand.isRawFree

def Projection.isRawFree : Projection → Bool
  | .raw _ => false
  | _ => true

def Select.isRawFree (select : Select) : Bool :=
  select.columns.all Projection.isRawFree && select.condition.all Expr.isRawFree &&
    select.having.all Expr.isRawFree

def Insert.isRawFree (insert : Insert) : Bool :=
  insert.rows.all fun row => row.entries.all fun cell => cell.2.isRawFree

def Update.isRawFree (update : Update) : Bool :=
  (update.assignments.all fun assignment => assignment.2.isRawFree) &&
    update.condition.all Expr.isRawFree

def Delete.isRawFree (delete : Delete) : Bool := delete.condition.all Expr.isRawFree

namespace Piece

def isRawFree : Piece → Bool
  | .text _ => true
  | .value bound => bound.isRawFree
  | .raw _ => false

def shape : Piece → List (Option Char)
  | .text sql => sql.map some
  | .value _ => [none]
  | .raw _ => []

/-- The flat form of a piece that is free of raw fragments. -/
def direct : Piece → Flat
  | .text sql => Flat.ofText sql
  | .value bound => [.value bound]
  | .raw _ => []

end Piece

namespace Flat

theorem parameterizedFrom_append (number : Nat) (first second : Flat) :
    parameterizedFrom number (first ++ second) =
      parameterizedFrom number first ++ parameterizedFrom (number + first.values.length) second := by
  induction first generalizing number with
  | nil => rfl
  | cons item rest ih =>
    cases item with
    | char c => rw [List.cons_append, parameterizedFrom, ih, parameterizedFrom, values, List.cons_append]
    | value held =>
      rw [List.cons_append, parameterizedFrom, ih, parameterizedFrom, values, List.length_cons]
      simp only [List.cons_append, List.append_assoc, Nat.add_assoc, Nat.add_comm 1]

theorem parameterizedFrom_ofText (number : Nat) (text : Text) :
    parameterizedFrom number (ofText text) = text := by
  induction text with
  | nil => rfl
  | cons c rest ih => exact congrArg (c :: ·) ih

def shape (flat : Flat) : List (Option Char) := flat.map fun item =>
  match item with
  | .char c => some c
  | .value _ => none

theorem pieces_eq_of_shape {first second : Flat} (same : first.shape = second.shape) :
    first.pieces = second.pieces := by
  induction first generalizing second with
  | nil =>
    cases second with
    | nil => rfl
    | cons item rest => cases same
  | cons item rest ih =>
    cases second with
    | nil => cases same
    | cons other others =>
      obtain ⟨head, tail⟩ := List.cons.inj same
      cases item <;> cases other <;> cases head
      · rw [pieces, pieces, ih tail]
      · rw [pieces, pieces, ih tail]

end Flat

theorem quiet_parameter (number : Nat) : Quiet ('$' :: Text.ofNat number) := by
  have digits := fun c (member : c ∈ Text.ofNat number) => Text.isDigit_of_mem_ofNat member
  have plain := Quiet.plain_ofNat number
  cases written : Text.ofNat number with
  | nil => exact absurd written (Text.ofNat_ne_nil number)
  | cons digit rest =>
    rw [written] at digits plain
    have isDigit := digits digit List.mem_cons_self
    -- A tag does not begin with a digit, so the dollar sign stands for itself.
    have step : (SqlState.tag []).step digit = SqlState.bare.step digit := by
      have notDollar : digit ≠ '$' := fun same => by
        rw [same] at isDigit
        cases isDigit
      simp [SqlState.step, notDollar, isDigit]
    have reading : SqlState.bare.read ('$' :: digit :: rest) =
        ((SqlState.bare.read (digit :: rest)).1, .bare '$' :: (SqlState.bare.read (digit :: rest)).2) := by
      rw [SqlState.read_cons .bare '$', SqlState.read_cons .bare digit,
        show SqlState.bare.step '$' = (.tag [], [.bare '$']) from rfl, SqlState.read_cons, step]
      rfl
    have after := Quiet.of_plain plain
    constructor
    · rw [reading]
      exact after.settles
    · rw [reading, List.map_cons, after.verbatim]
      rfl
    · rw [reading, List.mem_cons, not_or]
      exact ⟨by decide, after.unbroken⟩

namespace Layout

def isRawFree (layout : Layout) : Bool := layout.all Piece.isRawFree

def shape (layout : Layout) : List (Option Char) := layout.flatMap Piece.shape

def direct (layout : Layout) : Flat := layout.flatMap Piece.direct

section
variable {layout : Layout}

theorem flat_eq_direct (free : layout.isRawFree = true) : layout.flat = .ok layout.direct := by
  induction layout with
  | nil => rfl
  | cons piece rest ih =>
    rw [isRawFree, List.all_cons, Bool.and_eq_true] at free
    have head : piece.flat = .ok piece.direct := by
      cases piece with
      | text sql => rfl
      | value bound => exact Value.flat_of_isRawFree free.1
      | raw fragment => cases free.1
    rw [flat, head, ih free.2]
    rfl

theorem values_direct (free : layout.isRawFree = true) : layout.direct.values = layout.params := by
  induction layout with
  | nil => rfl
  | cons piece rest ih =>
    rw [isRawFree, List.all_cons, Bool.and_eq_true] at free
    rw [direct, List.flatMap_cons, Flat.values_append, params_cons, ← ih free.2]
    cases piece with
    | text sql => exact congrArg (· ++ _) (Flat.values_ofText sql)
    | value bound => rfl
    | raw fragment => cases free.1

theorem shape_direct (layout : Layout) : layout.direct.shape = layout.shape := by
  induction layout with
  | nil => rfl
  | cons piece rest ih =>
    have head : piece.direct.shape = piece.shape := by
      cases piece with
      | text sql => simp [Piece.direct, Flat.ofText, Flat.shape, Piece.shape]
      | value bound => rfl
      | raw fragment => rfl
    rw [shape, List.flatMap_cons, ← head]
    exact List.map_append.trans (congrArg _ ih)

theorem sql_of_unbound (free : layout.isRawFree = true) (unbound : layout.params = []) (number : Nat) :
    layout.direct.parameterizedFrom number = layout.sql := by
  induction layout with
  | nil => rfl
  | cons piece rest ih =>
    rw [isRawFree, List.all_cons, Bool.and_eq_true] at free
    rw [params_cons, List.append_eq_nil_iff] at unbound
    cases piece with
    | text sql =>
      rw [direct, List.flatMap_cons, Flat.parameterizedFrom_append]
      rw [show (Piece.text sql).direct.values = [] from Flat.values_ofText sql, List.length_nil,
        Nat.add_zero, show rest.flatMap Piece.direct = direct rest from rfl, ih free.2 unbound.2]
      exact congrArg (· ++ _) (Flat.parameterizedFrom_ofText number sql)
    | value bound => cases unbound.1
    | raw fragment => cases free.1

theorem Sound.quiet_parameterizedFrom (sound : layout.Sound) (free : layout.isRawFree = true) (number : Nat) :
    Quiet (layout.direct.parameterizedFrom number) := by
  induction layout generalizing number with
  | nil => exact Quiet.nil
  | cons piece rest ih =>
    rw [isRawFree, List.all_cons, Bool.and_eq_true] at free
    rw [direct, List.flatMap_cons, Flat.parameterizedFrom_append]
    cases piece with
    | text sql =>
      refine Quiet.append ?_ (ih sound.2 free.2 _)
      rw [Piece.direct, Flat.parameterizedFrom_ofText]
      exact sound.1
    | value bound =>
      refine Quiet.append ?_ (ih sound.2 free.2 _)
      rw [Piece.direct, Flat.parameterizedFrom, Flat.parameterizedFrom, List.append_nil]
      exact quiet_parameter number
    | raw fragment => cases free.1

end

theorem isRawFree_text (sql : Text) : isRawFree [.text sql] = true := rfl

theorem isRawFree_append {first second : Layout} (left : first.isRawFree = true)
    (right : second.isRawFree = true) : (first ++ second).isRawFree = true := by
  rw [isRawFree, List.all_append, Bool.and_eq_true]
  exact ⟨left, right⟩

theorem isRawFree_commas {items : List Layout} (free : ∀ item ∈ items, item.isRawFree = true) :
    (commas items).isRawFree = true := by
  induction items with
  | nil => rfl
  | cons first rest ih =>
    have head := free first List.mem_cons_self
    have tail := ih fun item member => free item (List.mem_cons_of_mem first member)
    cases rest with
    | nil => simpa [commas] using head
    | cons second rest =>
      rw [commas_cons_cons]
      exact isRawFree_append head tail

theorem isRawFree_values {bound : List Value} (free : bound.all Value.isRawFree = true) :
    (values bound).isRawFree = true := by
  apply isRawFree_commas
  intro item member
  obtain ⟨value, held, rfl⟩ := List.mem_map.mp member
  simpa [isRawFree, Piece.isRawFree] using List.all_eq_true.mp free value held

end Layout

namespace Expr

theorem raws_of_isRawFree {expr : Expr} (free : expr.isRawFree = true) : expr.raws = [] := by
  induction expr with
  | raw fragment => cases free
  | compare comparison operand bound ih =>
    rw [isRawFree, Bool.and_eq_true] at free
    exact ih free.1
  | between negated operand low high ih =>
    rw [isRawFree, Bool.and_eq_true, Bool.and_eq_true] at free
    exact ih free.1.1
  | member negated operand values ih =>
    rw [isRawFree, Bool.and_eq_true] at free
    exact ih free.1
  | and left right left_ih right_ih | or left right left_ih right_ih =>
    rw [isRawFree, Bool.and_eq_true] at free
    rw [raws, left_ih free.1, right_ih free.2]
    rfl
  | isNull negated operand ih => exact ih free
  | not operand ih => exact ih free
  | paren operand ih => exact ih free
  | _ => rfl

theorem isRawFree_layout {expr : Expr} (free : expr.isRawFree = true) : expr.layout.isRawFree = true := by
  have single {bound : Value} (held : bound.isRawFree = true) : Layout.isRawFree [.value bound] = true := by
    rw [Layout.isRawFree, List.all_cons, Piece.isRawFree, held]
    rfl
  induction expr with
  | column reference => rfl
  | value bound => exact single free
  | raw fragment => cases free
  | equalColumns left right => rfl
  | compare comparison operand bound ih =>
    rw [isRawFree, Bool.and_eq_true] at free
    exact Layout.isRawFree_append (ih free.1) (single free.2)
  | isNull negated operand ih => exact Layout.isRawFree_append (ih free) rfl
  | between negated operand low high ih =>
    rw [isRawFree, Bool.and_eq_true, Bool.and_eq_true] at free
    obtain ⟨⟨operand, low⟩, high⟩ := free
    have bounds := Layout.isRawFree_append (single low) (single high)
    exact Layout.isRawFree_append (ih operand) bounds
  | member negated operand values ih =>
    rw [isRawFree, Bool.and_eq_true] at free
    rw [layout]
    split
    · rfl
    · have items := Layout.isRawFree_append (Layout.isRawFree_values free.2) (Layout.isRawFree_text [')'])
      exact Layout.isRawFree_append (ih free.1) items
  | and left right left_ih right_ih | or left right left_ih right_ih =>
    rw [isRawFree, Bool.and_eq_true] at free
    exact Layout.isRawFree_append (left_ih free.1) (right_ih free.2)
  | not operand ih => exact ih free
  | paren operand ih => exact Layout.isRawFree_append (ih free) rfl

end Expr

theorem Option.raws_of_isRawFree {expr : Option Expr} (free : expr.all Expr.isRawFree = true) :
    expr.toList.flatMap Expr.raws = [] := by
  cases expr with
  | none => rfl
  | some held => exact (List.append_nil _).trans (Expr.raws_of_isRawFree free)

theorem Layout.isRawFree_clause (keyword : Text) {expr : Option Expr}
    (free : expr.all Expr.isRawFree = true) : (Layout.clause keyword expr).isRawFree = true := by
  cases expr with
  | none => rfl
  | some held => exact Expr.isRawFree_layout free

namespace Select

theorem raws_of_isRawFree {select : Select} (free : select.isRawFree = true) : select.raws = [] := by
  rw [isRawFree, Bool.and_eq_true, Bool.and_eq_true] at free
  obtain ⟨⟨columns, condition⟩, having'⟩ := free
  have none : select.columns.flatMap Projection.raws = [] := by
    rw [List.flatMap_eq_nil_iff]
    intro projection member
    have held := List.all_eq_true.mp columns projection member
    cases projection with
    | raw fragment => cases held
    | _ => rfl
  rw [raws, none, Option.raws_of_isRawFree condition, Option.raws_of_isRawFree having']
  rfl

theorem isRawFree_layout {select : Select} (free : select.isRawFree = true) :
    select.layout.isRawFree = true := by
  rw [isRawFree, Bool.and_eq_true, Bool.and_eq_true] at free
  obtain ⟨⟨columns, condition⟩, having'⟩ := free
  have items : (Layout.commas (select.columns.map Projection.layout)).isRawFree = true := by
    apply Layout.isRawFree_commas
    intro item member
    obtain ⟨projection, held, rfl⟩ := List.mem_map.mp member
    have plain := List.all_eq_true.mp columns projection held
    cases projection with
    | raw fragment => cases plain
    | _ => rfl
  have groups {last : Text} :
      Layout.isRawFree (Layout.clause " having ".toList select.having ++ [.text last]) = true :=
    Layout.isRawFree_append (Layout.isRawFree_clause " having ".toList having') (Layout.isRawFree_text last)
  exact Layout.isRawFree_append items
    (Layout.isRawFree_append (Layout.isRawFree_clause " where ".toList condition) groups)

end Select

namespace Update

theorem raws_of_isRawFree {update : Update} (free : update.isRawFree = true) : update.raws = [] := by
  rw [isRawFree, Bool.and_eq_true] at free
  exact Option.raws_of_isRawFree free.2

theorem isRawFree_layout {update : Update} (free : update.isRawFree = true) :
    update.layout.isRawFree = true := by
  rw [isRawFree, Bool.and_eq_true] at free
  refine Layout.isRawFree_append (Layout.isRawFree_commas ?_) (Layout.isRawFree_clause _ free.2)
  intro item member
  obtain ⟨⟨column, bound⟩, held, rfl⟩ := List.mem_map.mp member
  have plain : bound.isRawFree = true := List.all_eq_true.mp free.1 (column, bound) held
  rw [Layout.isRawFree, List.all_cons, List.all_cons, Piece.isRawFree, Piece.isRawFree, plain]
  rfl

end Update

namespace Insert

theorem isRawFree_cells {insert : Insert} (free : insert.isRawFree = true) {row : Record}
    (member : row ∈ insert.rows) : (cells insert.columns row).all Value.isRawFree = true := by
  rw [List.all_eq_true]
  intro bound held
  obtain ⟨column, -, rfl⟩ := List.mem_map.mp held
  cases found : row.get? column with
  | none => rfl
  | some value =>
    have entry := Dictionary.get?_eq_some_iff.mp found
    exact List.all_eq_true.mp (List.all_eq_true.mp free row member) (column, value) entry

theorem isRawFree_rowLayout {insert : Insert} (free : insert.isRawFree = true) {row : Record}
    (member : row ∈ insert.rows) : (insert.rowLayout row).isRawFree = true :=
  Layout.isRawFree_append (Layout.isRawFree_values (isRawFree_cells free member)) rfl

theorem shape_rowLayout (insert : Insert) (first second : Record) :
    (insert.rowLayout first).shape = (insert.rowLayout second).shape := by
  -- The values of a row leave holes whose number is that of the columns.
  have holes : ∀ row : Record, (Layout.values (cells insert.columns row)).shape =
      (Piece.shape (.text ", ".toList)).intercalate (insert.columns.map fun _ => [none]) := by
    intro row
    rw [Layout.shape, Layout.values, Layout.flatMap_commas, List.map_map, cells, List.map_map]
    rfl
  have unfolded : ∀ row : Record, (insert.rowLayout row).shape =
      Piece.shape (.text ("insert into ".toList ++ Identifier.quoteQualified insert.table ++ " (".toList ++
        ", ".toList.intercalate (insert.columns.map Identifier.quote) ++ ") values (".toList)) ++
      ((Layout.values (cells insert.columns row)).shape ++ [some ')']) := by
    intro row
    exact congrArg (_ ++ ·) List.flatMap_append
  rw [unfolded, unfolded, holes, holes]

end Insert

/-- The rows of a statement have their values at the same places. -/
structure Layout.Uniform (layouts : List Layout) : Prop where
  inhabited : layouts ≠ []
  isRawFree : ∀ layout ∈ layouts, layout.isRawFree = true
  shape : ∀ first ∈ layouts, ∀ second ∈ layouts, first.shape = second.shape
  begins : ∀ layout ∈ layouts, layout.sql.Begins
  alone : ∀ layout ∈ layouts, layout.params = [] → layouts = [layout]

theorem Layout.Uniform.single {layout : Layout} (free : layout.isRawFree = true)
    (begins : layout.sql.Begins) : Uniform [layout] where
  inhabited := List.cons_ne_nil _ _
  isRawFree _ member := List.mem_singleton.mp member ▸ free
  shape first left second right := by rw [List.mem_singleton.mp left, List.mem_singleton.mp right]
  begins _ member := List.mem_singleton.mp member ▸ begins
  alone _ member _ := List.mem_singleton.mp member ▸ rfl

theorem Insert.uniform_layouts {insert : Insert} (free : insert.isRawFree = true) (some : insert.rows ≠ []) :
    ∀ layouts ∈ insert.layouts, Layout.Uniform layouts := by
  intro parts member
  rw [layouts] at member
  split at member
  · obtain ⟨row, -, rfl⟩ := List.mem_map.mp member
    exact .single rfl ⟨'i', _, rfl, by decide⟩
  · next columns =>
    rw [List.mem_singleton.mp member]
    constructor
    · exact fun none => some (List.map_eq_nil_iff.mp none)
    · intro layout held
      obtain ⟨row, inside, rfl⟩ := List.mem_map.mp held
      exact isRawFree_rowLayout free inside
    · intro first left second right
      obtain ⟨row, -, rfl⟩ := List.mem_map.mp left
      obtain ⟨other, -, rfl⟩ := List.mem_map.mp right
      exact insert.shape_rowLayout row other
    · intro layout held
      obtain ⟨row, -, rfl⟩ := List.mem_map.mp held
      exact ⟨'i', _, rfl, by decide⟩
    -- A row without values would have no columns, and that case has statements of its own.
    · intro layout held unbound
      obtain ⟨row, -, rfl⟩ := List.mem_map.mp held
      rw [params_rowLayout, cells, List.map_eq_nil_iff] at unbound
      exact absurd (List.isEmpty_iff.mpr unbound) columns

end LiteralSql
