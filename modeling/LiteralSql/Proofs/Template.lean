import LiteralSql.Proofs.Fitting

/-! Templates of what is sent.

The zone in which instants are written matters to the literals of values only.
What is sent for a statement is a template, the same one for every zone, with
literals in place of its values; and its values are those of the flat rows.
-/

set_option autoImplicit false

namespace LiteralSql

namespace Flat

theorem inlined_append [LocalZone] (zone : TimeZone) (first second : Flat) :
    inlined zone (first ++ second) =
      (inlined zone first).bind fun head => (inlined zone second).map (head ++ ·) := by
  induction first with
  | nil =>
    rw [List.nil_append]
    cases inlined zone second <;> rfl
  | cons item rest ih =>
    cases item with
    | char c =>
      rw [List.cons_append, inlined, inlined, ih]
      cases inlined zone rest with
      | error error => rfl
      | ok head => cases inlined zone second <;> rfl
    | value held =>
      rw [List.cons_append, inlined, inlined, ih]
      cases held.literal zone with
      | error error => rfl
      | ok literal =>
        cases inlined zone rest with
        | error error => rfl
        | ok head =>
          cases inlined zone second with
          | error error => rfl
          | ok tail => exact congrArg Except.ok (List.append_assoc literal head tail).symm

theorem inlined_ofText [LocalZone] (zone : TimeZone) (text : Text) : inlined zone (ofText text) = .ok text := by
  induction text with
  | nil => rfl
  | cons c rest ih =>
    rw [ofText, List.map_cons, inlined, ← ofText, ih]
    rfl

theorem inlined_text_append [LocalZone] (zone : TimeZone) (text : Text) (flat : Flat) :
    inlined zone (ofText text ++ flat) = (inlined zone flat).map (text ++ ·) := by
  rw [inlined_append, inlined_ofText]
  rfl

theorem inlined_value [LocalZone] (zone : TimeZone) (value : Value) :
    inlined zone [.value value] = value.literal zone := by
  rw [inlined]
  cases value.literal zone with
  | error error => rfl
  | ok literal => exact congrArg Except.ok (List.append_nil literal)

def joined (separator : Text) (parts : List Flat) : Flat := (ofText separator).intercalate parts

theorem inlined_joined [LocalZone] (zone : TimeZone) (separator : Text) (parts : List Flat) :
    inlined zone (joined separator parts) =
      (parts.mapM (inlined zone)).map separator.intercalate := by
  induction parts with
  | nil => rfl
  | cons part rest ih =>
    rw [List.mapM_cons]
    cases rest with
    | nil =>
      rw [joined, List.intercalate_singleton]
      cases inlined zone part with
      | error error => rfl
      | ok text => exact congrArg Except.ok List.intercalate_singleton.symm
    | cons next others =>
      rw [joined, List.intercalate_cons_cons, List.append_assoc, inlined_append, inlined_text_append,
        ← joined, ih]
      cases inlined zone part with
      | error error => rfl
      | ok text =>
        cases written : (next :: others).mapM (inlined zone) with
        | error error => rfl
        | ok texts =>
          have some : texts ≠ [] := by
            rintro rfl
            exact absurd (mapM_ok written).length_eq (by simp)
          obtain ⟨head, tail, rfl⟩ := List.exists_cons_of_ne_nil some
          refine congrArg Except.ok ?_
          rw [List.intercalate_cons_cons, List.append_assoc]

theorem values_joined (separator : Text) (parts : List Flat) :
    (joined separator parts).values = parts.flatMap values := by
  induction parts with
  | nil => rfl
  | cons part rest ih =>
    cases rest with
    | nil => rw [joined, List.intercalate_singleton, List.flatMap_singleton]
    | cons next others =>
      rw [joined, List.intercalate_cons_cons, values_append, values_append, values_ofText, ← joined, ih,
        List.append_nil]
      rfl

theorem literal_infix [LocalZone] {zone : TimeZone} {flat : Flat} {text : Text}
    (written : inlined zone flat = .ok text) {value : Value} (member : value ∈ flat.values) :
    ∃ literal, value.literal zone = .ok literal ∧ literal <:+: text := by
  induction flat generalizing text with
  | nil => cases member
  | cons item rest ih =>
    cases item with
    | char c =>
      rw [inlined] at written
      obtain ⟨others, tail, same⟩ := bind_ok written
      cases same
      obtain ⟨literal, encoded, inside⟩ := ih tail member
      exact ⟨literal, encoded, List.infix_cons inside⟩
    | value held =>
      rw [inlined] at written
      obtain ⟨literal, encoded, written⟩ := bind_ok written
      obtain ⟨others, tail, same⟩ := bind_ok written
      cases same
      rw [values] at member
      obtain rfl | member := List.mem_cons.mp member
      · exact ⟨literal, encoded, (List.prefix_append literal others).isInfix⟩
      · obtain ⟨found, encoded, inside⟩ := ih tail member
        exact ⟨found, encoded, inside.trans (List.suffix_append literal others).isInfix⟩

end Flat

def executeTemplate (name : Text) (row : Flat) : Flat :=
  Flat.ofText ("EXECUTE ".toList ++ name ++ ['(']) ++
    (Flat.joined [','] (row.values.map fun value => [.value value]) ++ Flat.ofText ");\n".toList)

theorem inlined_executeTemplate [LocalZone] (zone : TimeZone) (name : Text) (row : Flat) :
    (executeTemplate name row).inlined zone = executeLine zone name row := by
  have values : (row.values.map fun value => [FlatItem.value value]).mapM (Flat.inlined zone) =
      row.values.mapM (Value.literal zone) := by
    rw [List.mapM_map]
    exact congrArg (row.values.mapM ·) (funext (Flat.inlined_value zone))
  rw [executeTemplate, Flat.inlined_text_append, Flat.inlined_append, Flat.inlined_joined, values,
    Flat.inlined_ofText, executeLine]
  cases row.values.mapM (Value.literal zone) with
  | error error => rfl
  | ok literals =>
    refine congrArg Except.ok ?_
    simp only [List.append_assoc, List.cons_append, List.nil_append]

theorem values_executeTemplate (name : Text) (row : Flat) :
    (executeTemplate name row).values = row.values := by
  rw [executeTemplate, Flat.values_append, Flat.values_append, Flat.values_joined, Flat.values_ofText,
    Flat.values_ofText, List.nil_append, List.append_nil, List.flatMap_map]
  exact List.flatMap_singleton' row.values

def runTemplate : List Flat → Flat
  | [] => []
  | first :: others =>
    let rows := first :: others
    let sql := first.parameterized
    if first.values.isEmpty then
      Flat.ofText (separator.intercalate (List.replicate rows.length sql))
    else
      let name := preparedName sql rows
      Flat.ofText ("PREPARE ".toList ++ name ++ " AS\n".toList ++ sql ++ ";\n".toList) ++
        (rows.flatMap (executeTemplate name) ++ Flat.ofText ("DEALLOCATE ".toList ++ name))

theorem inlined_runTemplate [LocalZone] (zone : TimeZone) (rows : List Flat) :
    (runTemplate rows).inlined zone = renderRun zone rows := by
  have lines (name : Text) (rows : List Flat) :
      Flat.inlined zone (rows.flatMap (executeTemplate name)) =
        (rows.mapM (executeLine zone name)).map List.flatten := by
    induction rows with
    | nil => rfl
    | cons row rest ih =>
      rw [List.flatMap_cons, Flat.inlined_append, inlined_executeTemplate, ih, List.mapM_cons]
      cases executeLine zone name row with
      | error error => rfl
      | ok line => cases rest.mapM (executeLine zone name) <;> rfl
  cases rows with
  | nil => rfl
  | cons first others =>
    rw [runTemplate, renderRun]
    dsimp only
    split
    · exact Flat.inlined_ofText _ _
    · rw [Flat.inlined_text_append, Flat.inlined_append, lines, Flat.inlined_ofText]
      cases (first :: others).mapM (executeLine zone _) with
      | error error => rfl
      | ok written =>
        refine congrArg Except.ok ?_
        simp only [List.append_assoc]

theorem values_runTemplate {rows : List Flat}
    (same : ∀ row ∈ rows, ∀ other ∈ rows, row.pieces = other.pieces) :
    (runTemplate rows).values = rows.flatMap Flat.values := by
  cases rows with
  | nil => rfl
  | cons first others =>
    rw [runTemplate]
    dsimp only
    split
    · next unbound =>
      rw [Flat.values_ofText]
      refine (List.flatMap_eq_nil_iff.mpr fun row member => ?_).symm
      have arity := Flat.length_values_eq (same row member first List.mem_cons_self)
      rw [List.isEmpty_iff.mp unbound] at arity
      exact List.eq_nil_of_length_eq_zero arity
    · have lines (name : Text) (rows : List Flat) :
          Flat.values (rows.flatMap (executeTemplate name)) = rows.flatMap Flat.values := by
        induction rows with
        | nil => rfl
        | cons row rest ih =>
          rw [List.flatMap_cons, List.flatMap_cons, Flat.values_append, ih, values_executeTemplate]
      rw [Flat.values_append, Flat.values_append, Flat.values_ofText, Flat.values_ofText, lines,
        List.nil_append, List.append_nil]

namespace Statement

/-- The template of a statement, if its bindings fill its text. -/
def template (statement : Statement) : Except SqlError Flat :=
  let rows := statement.bindings.rows
  if rows.isEmpty then .ok (Flat.ofText statement.sql)
  else do
    let flats ← rows.mapM (Flat.ofBindings statement.sql)
    .ok (Flat.joined separator ((runs flats).map runTemplate))

theorem materialize_eq [LocalZone] (statement : Statement) (zone : TimeZone) :
    statement.materialize zone = statement.template.bind (Flat.inlined zone) := by
  have blocks (groups : List (List Flat)) :
      (groups.map runTemplate).mapM (Flat.inlined zone) = groups.mapM (renderRun zone) := by
    rw [List.mapM_map]
    exact congrArg (groups.mapM ·) (funext (inlined_runTemplate zone))
  rw [materialize, template]
  split
  · exact (Flat.inlined_ofText zone statement.sql).symm
  · cases statement.bindings.rows.mapM (Flat.ofBindings statement.sql) with
    | error error => rfl
    | ok flats =>
      change _ = Flat.inlined zone (Flat.joined _ _)
      rw [Flat.inlined_joined, blocks]
      rfl

theorem filled_of_template {statement : Statement} {template : Flat}
    (done : statement.template = .ok template) :
    ∃ flats, List.Forall₂ (fun row flat => Flat.ofBindings statement.sql row = .ok flat)
        statement.bindings.rows flats ∧ template.values = flats.flatMap Flat.values := by
  rw [Statement.template] at done
  split at done
  · next none =>
    cases done
    rw [Flat.values_ofText, List.isEmpty_iff.mp none]
    exact ⟨[], .nil, rfl⟩
  · obtain ⟨flats, filled, done⟩ := bind_ok done
    cases done
    obtain ⟨whole, -, same, -⟩ := runs_eq_iff.mp (rfl : runs flats = _)
    refine ⟨flats, mapM_ok filled, ?_⟩
    calc
      _ = (runs flats).flatMap fun run => (runTemplate run).values := by
        rw [Flat.values_joined, List.flatMap_map]
      _ = (runs flats).flatMap fun run => run.flatMap Flat.values :=
        List.flatMap_congr fun run member => values_runTemplate (same run member)
      _ = ((runs flats).flatMap id).flatMap Flat.values := List.flatMap_assoc.symm
      _ = flats.flatMap Flat.values := by rw [List.flatMap_id, ← whole]

end Statement

def Envelope.template (body : Flat) : Envelope → Flat
  | .transaction => Flat.ofText "BEGIN;\n".toList ++ (body ++ Flat.ofText ";\nCOMMIT;".toList)
  | .bare => body

theorem Envelope.inlined_template [LocalZone] (zone : TimeZone) (body : Flat) (envelope : Envelope) :
    (envelope.template body).inlined zone = (body.inlined zone).map envelope.around := by
  cases envelope with
  | transaction =>
    rw [template, Flat.inlined_text_append, Flat.inlined_append, Flat.inlined_ofText]
    cases body.inlined zone with
    | error error => rfl
    | ok text => exact congrArg Except.ok (Envelope.around_transaction text).symm
  | bare =>
    rw [template]
    cases body.inlined zone <;> rfl

theorem Envelope.values_template (body : Flat) (envelope : Envelope) :
    (envelope.template body).values = body.values := by
  cases envelope with
  | transaction =>
    rw [template, Flat.values_append, Flat.values_append, Flat.values_ofText, Flat.values_ofText,
      List.nil_append, List.append_nil]
  | bare => rfl

theorem materializeAll_ok_iff [LocalZone] {statements : List Statement} {zone : TimeZone} {envelope : Envelope} :
    (∃ text, materializeAll statements zone envelope = .ok text) ↔
      ∀ statement ∈ statements, ∃ part, statement.materialize zone = .ok part := by
  rw [← mapM_ok_iff]
  constructor
  · rintro ⟨text, sent⟩
    obtain ⟨parts, written, -⟩ := bind_ok sent
    exact ⟨parts, written⟩
  · rintro ⟨parts, written⟩
    rw [materializeAll, written]
    cases envelope <;> exact ⟨_, rfl⟩

/-- What is sent once is sent for every zone by one template, that of the statements. -/
theorem materializeAll_template [LocalZone] {statements : List Statement} {zone : TimeZone} {envelope : Envelope}
    {text : Text} (sent : materializeAll statements zone envelope = .ok text) :
    ∃ templates : List Flat,
      List.Forall₂ (fun statement template => Statement.template statement = .ok template) statements
        templates ∧
      ∀ other, materializeAll statements other envelope =
        (envelope.template (Flat.joined separator templates)).inlined other := by
  rw [materializeAll] at sent
  obtain ⟨parts, written, -⟩ := bind_ok sent
  obtain ⟨templates, each⟩ : ∃ templates : List Flat,
      List.Forall₂ (fun statement template => Statement.template statement = .ok template) statements
        templates := by
    refine exists_related fun statement member => ?_
    obtain ⟨part, -, done⟩ := related_of_mem (mapM_ok written) member
    rw [statement.materialize_eq] at done
    obtain ⟨template, found, -⟩ := bind_ok done
    exact ⟨template, found⟩
  refine ⟨templates, each, fun other => ?_⟩
  have parts : statements.mapM (fun statement => statement.materialize other) =
      templates.mapM (Flat.inlined other) := by
    clear sent written
    induction each with
    | nil => rfl
    | cons head _ ih =>
      rw [List.mapM_cons, List.mapM_cons, ih, Statement.materialize_eq, head]
      rfl
  rw [Envelope.inlined_template, Flat.inlined_joined, materializeAll, parts]
  cases templates.mapM (Flat.inlined other) with
  | error error => rfl
  | ok texts => cases envelope <;> rfl

end LiteralSql
