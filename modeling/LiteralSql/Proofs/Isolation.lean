import Mathlib.Data.List.SplitBy
import LiteralSql.Proofs.Definitions
import LiteralSql.Proofs.Literal

/-! No name, comment, default or value adds, removes, merges or splits a
command.

A statement without raw SQL is sent as it is, or is prepared, executed for each
row and deallocated. Each of these commands is read on its own, so the whole
text is taken apart at the very places where it was put together.
-/

set_option autoImplicit false

namespace LiteralSql

def prepareCommand (name sql : Text) : Text := "PREPARE ".toList ++ name ++ " AS\n".toList ++ sql

def executeCommand (name : Text) (literals : List Text) : Text :=
  "EXECUTE ".toList ++ name ++ '(' :: [','].intercalate literals ++ [')']

def deallocateCommand (name : Text) : Text := "DEALLOCATE ".toList ++ name

/-- The commands that a statement is sent as: its own text if it has no values,
otherwise a block with one execution for each row. -/
inductive Statement.SentAs [LocalZone] (zone : TimeZone) (statement : Statement) : List Text → Prop
  | unbound (none : statement.bindings.isEmpty = true) : SentAs zone statement [statement.sql]
  | prepared {first : Flat} {others : List Flat} {literals : List (List Text)}
      (some : statement.bindings.isEmpty = false)
      (filled : statement.bindings.rows.mapM (Flat.ofBindings statement.sql) = .ok (first :: others))
      (encoded : List.Forall₂ (fun values written => values.mapM (Value.literal zone) = .ok written)
        statement.bindings.rows literals) :
      SentAs zone statement
        (prepareCommand (preparedName first.parameterized (first :: others)) first.parameterized ::
          (literals.map (executeCommand (preparedName first.parameterized (first :: others))) ++
            [deallocateCommand (preparedName first.parameterized (first :: others))]))

theorem alone_prepareCommand {name sql : Text} (named : Quiet name) (quiet : Quiet sql) :
    (prepareCommand name sql).Alone where
  quiet := by
    have verb : Quiet "PREPARE ".toList := Quiet.of_plain (by decide)
    have word : Quiet " AS\n".toList := Quiet.of_plain (by decide)
    exact ((verb.append named).append word).append quiet
  begins := .inr ⟨'P', _, rfl, by decide⟩

theorem alone_executeCommand {name : Text} (named : Quiet name) {literals : List Text}
    (quiet : ∀ literal ∈ literals, Quiet literal) : (executeCommand name literals).Alone where
  quiet := by
    have verb : Quiet "EXECUTE ".toList := Quiet.of_plain (by decide)
    have opening : Quiet ['('] := Quiet.of_plain (by decide)
    have comma : Quiet [','] := Quiet.of_plain (by decide)
    have close : Quiet [')'] := Quiet.of_plain (by decide)
    exact ((verb.append named).append (opening.append (comma.intercalate quiet))).append close
  begins := .inr ⟨'E', _, rfl, by decide⟩

theorem alone_deallocateCommand {name : Text} (named : Quiet name) : (deallocateCommand name).Alone where
  quiet := by
    have verb : Quiet "DEALLOCATE ".toList := Quiet.of_plain (by decide)
    exact verb.append named
  begins := .inr ⟨'D', _, rfl, by decide⟩

theorem executeLine_ok [LocalZone] {zone : TimeZone} {name : Text} {row : Flat} {line : Text}
    (done : executeLine zone name row = .ok line) : ∃ written,
    row.values.mapM (Value.literal zone) = .ok written ∧ line = executeCommand name written ++ separator := by
  rw [executeLine] at done
  obtain ⟨written, encoded, same⟩ := bind_ok done
  have close : [')'] ++ separator = ");\n".toList := by decide
  refine ⟨written, encoded, (Except.ok.inj same).symm.trans ?_⟩
  unfold executeCommand
  simp only [List.append_assoc, List.cons_append, close]

theorem executeLines_ok [LocalZone] {zone : TimeZone} {name : Text} {rows : List Flat} {lines : List Text}
    (each : List.Forall₂ (fun row line => executeLine zone name row = .ok line) rows lines) :
    ∃ literals, List.Forall₂ (fun values written => values.mapM (Value.literal zone) = .ok written)
        (rows.map Flat.values) literals ∧
      lines = (literals.map (executeCommand name)).map (· ++ separator) := by
  induction each with
  | nil => exact ⟨[], .nil, rfl⟩
  | cons head _ ih =>
    obtain ⟨written, encoded, line⟩ := executeLine_ok head
    obtain ⟨literals, each, lines⟩ := ih
    refine ⟨written :: literals, .cons encoded each, ?_⟩
    rw [line, lines, List.map_cons, List.map_cons]

theorem intercalate_concat (items : List Text) (last : Text) :
    separator.intercalate (items ++ [last]) = (items.map (· ++ separator)).flatten ++ last := by
  induction items with
  | nil => exact List.intercalate_singleton
  | cons item rest ih =>
    rw [List.cons_append, List.intercalate_cons_of_ne_nil (by simp), ih, List.map_cons, List.flatten_cons,
      List.append_assoc (item ++ separator)]

theorem renderRun_ok [LocalZone] {zone : TimeZone} {first : Flat} {others : List Flat} {block : Text}
    (bound : first.values ≠ []) (done : renderRun zone (first :: others) = .ok block) : ∃ literals,
    List.Forall₂ (fun values written => values.mapM (Value.literal zone) = .ok written)
        ((first :: others).map Flat.values) literals ∧
      block = separator.intercalate
        (prepareCommand (preparedName first.parameterized (first :: others)) first.parameterized ::
          (literals.map (executeCommand (preparedName first.parameterized (first :: others))) ++
            [deallocateCommand (preparedName first.parameterized (first :: others))])) := by
  have some : ¬ first.values.isEmpty = true := fun empty => bound (List.isEmpty_iff.mp empty)
  rw [renderRun] at done
  dsimp only at done
  rw [if_neg some] at done
  obtain ⟨lines, each, same⟩ := bind_ok done
  obtain ⟨literals, encoded, rfl⟩ := executeLines_ok (mapM_ok each)
  refine ⟨literals, encoded, (Except.ok.inj same).symm.trans ?_⟩
  unfold prepareCommand deallocateCommand
  simp only [← List.cons_append, intercalate_concat, List.map_cons, List.flatten_cons, List.append_assoc]
  rfl

namespace Statement.Tame

variable {statement : Statement} {layouts : List Layout}

theorem filled (tame : statement.Tame layouts) :
    statement.bindings.rows.mapM (Flat.ofBindings statement.sql) = .ok (layouts.map Layout.direct) := by
  have each : ∀ layout ∈ layouts, Flat.ofBindings statement.sql layout.params = .ok layout.direct := by
    intro layout member
    rw [tame.written.laidOut.filled layout member]
    exact Layout.flat_eq_direct (tame.uniform.isRawFree layout member)
  rw [tame.written.rows]
  clear tame
  induction layouts with
  | nil => rfl
  | cons layout rest ih =>
    rw [List.map_cons, List.mapM_cons, each layout List.mem_cons_self,
      ih fun other member => each other (List.mem_cons_of_mem layout member)]
    rfl

theorem runs_eq (tame : statement.Tame layouts) :
    Statement.runs (layouts.map Layout.direct) = [layouts.map Layout.direct] := by
  apply List.splitBy_of_isChain
  · exact fun none => tame.uniform.inhabited (List.map_eq_nil_iff.mp none)
  · apply List.Pairwise.isChain
    apply List.pairwise_of_forall_mem_list
    intro first left second right
    obtain ⟨layout, held, rfl⟩ := List.mem_map.mp left
    obtain ⟨other, inside, rfl⟩ := List.mem_map.mp right
    apply decide_eq_true
    apply Flat.pieces_eq_of_shape
    rw [Layout.shape_direct, Layout.shape_direct]
    exact tame.uniform.shape layout held other inside

theorem rendered [LocalZone] (tame : statement.Tame layouts) {zone : TimeZone} {part : Text}
    (done : statement.materialize zone = .ok part) :
    renderRun zone (layouts.map Layout.direct) = .ok part := by
  have some : ¬ statement.bindings.rows.isEmpty = true := by
    rw [tame.written.rows, List.isEmpty_iff, List.map_eq_nil_iff]
    exact tame.uniform.inhabited
  rw [materialize, if_neg some] at done
  obtain ⟨flats, filled, done⟩ := bind_ok done
  rw [← Except.ok.inj (tame.filled.symm.trans filled), tame.runs_eq] at done
  obtain ⟨blocks, each, joined⟩ := bind_ok done
  cases mapM_ok each with
  | cons head none =>
    cases none
    rw [← Except.ok.inj joined, List.intercalate_singleton]
    exact head

theorem sentAs_unbound [LocalZone] (tame : statement.Tame layouts) {layout : Layout} (member : layout ∈ layouts)
    (unbound : layout.params = []) {zone : TimeZone} {part : Text}
    (done : statement.materialize zone = .ok part) :
    statement.SentAs zone [part] ∧ part.Alone ∧ part ≠ [] := by
  have block := tame.rendered done
  have rows := tame.written.rows
  have free := tame.uniform.isRawFree layout member
  have values := Layout.values_direct free
  have sql := Layout.sql_of_unbound free unbound 1
  have quiet := (tame.written.sound layout member).quiet_parameterizedFrom free 1
  have begins := tame.uniform.begins layout member
  rw [tame.uniform.alone layout member unbound] at block rows
  rw [unbound] at values
  rw [tame.written.sql layout member] at sql begins
  rw [List.map_singleton, renderRun, values] at block
  have same : layout.direct.parameterized = part := by
    rw [← Except.ok.inj block]
    exact List.intercalate_singleton.symm
  rw [Flat.parameterized, sql] at same
  rw [sql] at quiet
  subst same
  refine ⟨.unbound ?_, ⟨quiet, .inr begins⟩, ?_⟩
  · rw [Bindings.isEmpty, rows, List.map_singleton, unbound]
    rfl
  · obtain ⟨c, others, written, -⟩ := begins
    rw [written]
    exact List.cons_ne_nil c others

theorem sentAs_bound [LocalZone] {layout : Layout} {rest : List Layout} (tame : statement.Tame (layout :: rest))
    (bound : layout.params ≠ []) {zone : TimeZone} {part : Text}
    (done : statement.materialize zone = .ok part) : ∃ texts, statement.SentAs zone texts ∧
      (texts ≠ [] ∧ ∀ text ∈ texts, text.Alone ∧ text ≠ []) ∧ part = separator.intercalate texts := by
  have block := tame.rendered done
  have filled := tame.filled
  have free := tame.uniform.isRawFree layout List.mem_cons_self
  have values : ((layout :: rest).map Layout.direct).map Flat.values = statement.bindings.rows := by
    rw [tame.written.rows, List.map_map]
    exact List.map_congr_left fun other member =>
      Layout.values_direct (tame.uniform.isRawFree other member)
  have some : layout.direct.values ≠ [] := by rwa [Layout.values_direct free]
  obtain ⟨literals, encoded, joined⟩ := renderRun_ok some block
  have each := encoded
  rw [← List.map_cons, values] at encoded
  refine ⟨_, .prepared ?_ filled encoded, ⟨List.cons_ne_nil _ _, ?_⟩, joined⟩
  · rw [Bindings.isEmpty, tame.written.rows, List.map_cons, List.all_cons, List.isEmpty_eq_false_iff.mpr bound]
    rfl
  · have named := quiet_preparedName layout.direct.parameterized ((layout :: rest).map Layout.direct)
    have sql := (tame.written.sound layout List.mem_cons_self).quiet_parameterizedFrom free 1
    intro text member
    rw [List.mem_cons, List.mem_append, List.mem_singleton] at member
    obtain rfl | member | rfl := member
    · exact ⟨alone_prepareCommand named sql, List.cons_ne_nil _ _⟩
    · obtain ⟨written, held, rfl⟩ := List.mem_map.mp member
      obtain ⟨row, -, encoded⟩ := related_of_mem each.flip held
      refine ⟨alone_executeCommand named ?_, List.cons_ne_nil _ _⟩
      intro literal inside
      obtain ⟨value, -, encoded⟩ := related_of_mem (mapM_ok encoded).flip inside
      exact Value.quiet_literal encoded
    · exact ⟨alone_deallocateCommand named, List.cons_ne_nil _ _⟩

theorem sentAs [LocalZone] (tame : statement.Tame layouts) {zone : TimeZone} {part : Text}
    (done : statement.materialize zone = .ok part) : ∃ texts, statement.SentAs zone texts ∧
      (texts ≠ [] ∧ ∀ text ∈ texts, text.Alone ∧ text ≠ []) ∧ part = separator.intercalate texts := by
  obtain ⟨layout, rest, rfl⟩ := List.exists_cons_of_ne_nil tame.uniform.inhabited
  -- All rows have values or none has, so the first layout decides.
  by_cases unbound : layout.params = []
  · obtain ⟨sent, alone⟩ := tame.sentAs_unbound List.mem_cons_self unbound done
    exact ⟨[part], sent, ⟨List.cons_ne_nil _ _, List.forall_mem_singleton.mpr alone⟩,
      List.intercalate_singleton.symm⟩
  · exact tame.sentAs_bound unbound done

end Statement.Tame

theorem intercalate_append {first second : List Text} (left : first ≠ []) (right : second ≠ []) :
    separator.intercalate (first ++ second) =
      separator.intercalate first ++ separator ++ separator.intercalate second := by
  induction first with
  | nil => exact absurd rfl left
  | cons item rest ih =>
    cases rest with
    | nil => rw [List.singleton_append, List.intercalate_cons_of_ne_nil right, List.intercalate_singleton]
    | cons next others =>
      rw [List.cons_append, List.intercalate_cons_of_ne_nil (by simp), ih (List.cons_ne_nil _ _),
        List.intercalate_cons_cons]
      simp only [List.append_assoc]

theorem intercalate_flatten {groups : List (List Text)} (some : ∀ group ∈ groups, group ≠ []) :
    separator.intercalate (groups.map separator.intercalate) = separator.intercalate groups.flatten := by
  induction groups with
  | nil => rfl
  | cons group rest ih =>
    have tail := ih fun other member => some other (List.mem_cons_of_mem group member)
    cases rest with
    | nil => simp
    | cons next others =>
      have more : (next :: others).flatten ≠ [] := by
        rw [List.flatten_cons]
        exact List.append_ne_nil_of_left_ne_nil (some next (by simp)) _
      have whole : (group :: next :: others).flatten = group ++ (next :: others).flatten := rfl
      rw [List.map_cons, List.intercalate_cons_of_ne_nil (by simp), tail, whole,
        intercalate_append (some group List.mem_cons_self) more]

theorem transaction_eq (texts : List Text) :
    ∃ parts : List Text, parts ≠ [] ∧ parts.filter (· ≠ []) = texts.filter (· ≠ []) ∧
    (∀ part ∈ parts, part = [] ∨ part ∈ texts) ∧
    "BEGIN;\n".toList ++ separator.intercalate texts ++ ";\nCOMMIT;".toList =
      separator.intercalate ("BEGIN".toList :: (parts ++ ["COMMIT".toList])) ++ [';'] := by
  have before : "BEGIN;\n".toList = "BEGIN".toList ++ separator := by decide
  have after : ";\nCOMMIT;".toList = separator ++ "COMMIT".toList ++ [';'] := by decide
  have joined : ∀ parts : List Text, parts ≠ [] →
      separator.intercalate ("BEGIN".toList :: (parts ++ ["COMMIT".toList])) ++ [';'] =
        "BEGIN".toList ++ separator ++ separator.intercalate parts ++ (separator ++ "COMMIT".toList ++ [';']) := by
    intro parts some
    rw [List.intercalate_cons_of_ne_nil (by simp), intercalate_append some (List.cons_ne_nil _ _),
      List.intercalate_singleton]
    simp only [List.append_assoc]
  rw [before, after]
  -- Without a statement there is an empty part between the two.
  cases texts with
  | nil => exact ⟨[[]], List.cons_ne_nil _ _, rfl, by simp, (joined [[]] (List.cons_ne_nil _ _)).symm⟩
  | cons text rest =>
    exact ⟨text :: rest, List.cons_ne_nil _ _, rfl, fun part member => .inr member,
      (joined _ (List.cons_ne_nil _ _)).symm⟩

theorem Statement.sentAs_all [LocalZone] {zone : TimeZone} {statements : List Statement} {parts : List Text}
    (tame : ∀ statement ∈ statements, ∃ layouts, statement.Tame layouts)
    (each : List.Forall₂ (fun statement part => statement.materialize zone = .ok part) statements parts) :
    ∃ groups, List.Forall₂ (Statement.SentAs zone) statements groups ∧
      (∀ group ∈ groups, group ≠ [] ∧ ∀ sent ∈ group, sent.Alone ∧ sent ≠ []) ∧
      parts = groups.map separator.intercalate := by
  induction each with
  | nil => exact ⟨[], .nil, fun group member => absurd member List.not_mem_nil, rfl⟩
  | cons done _ ih =>
    obtain ⟨layouts, held⟩ := tame _ List.mem_cons_self
    obtain ⟨group, sent, proper, part⟩ := held.sentAs done
    obtain ⟨groups, others, rest, parts⟩ := ih fun other member => tame other (List.mem_cons_of_mem _ member)
    exact ⟨group :: groups, .cons sent others, List.forall_mem_cons.mpr ⟨proper, rest⟩, by rw [part, parts]; rfl⟩

/-- Read with the rules of the lexer and split at its live semicolons, what is
sent for an operation without raw SQL is a transaction of just the commands of
its statements. None of it is read as a placeholder, and no region stays open. -/
theorem Operation.isolated [LocalZone] (operation : Operation) (free : operation.isRawFree = true) (zone : TimeZone)
    (statements : List Statement) (compiled : operation.compile = .ok statements) (text : Text)
    (sent : materializeAll statements zone .transaction = .ok text) :
    (∃ groups, List.Forall₂ (Statement.SentAs zone) statements groups ∧
      commands text = "BEGIN".toList :: (groups.flatten ++ ["COMMIT".toList])) ∧
    (∀ statement ∈ statements, ∀ row ∈ statement.bindings.rows,
      placeholderCount statement.sql = row.length) ∧
    placeholderCount text = 0 ∧ (SqlState.bare.read text).1 = .bare := by
  have tame := Operation.tame_compile free compiled
  obtain ⟨made, each, done⟩ := bind_ok sent
  obtain ⟨groups, sentAs, proper, same⟩ := Statement.sentAs_all tame (mapM_ok each)
  subst same
  have flat := intercalate_flatten fun group member => (proper group member).1
  have inside : ∀ part ∈ groups.flatten, part.Alone ∧ part ≠ [] := by
    intro part member
    obtain ⟨group, held, member⟩ := List.mem_flatten.mp member
    exact (proper group held).2 part member
  -- The envelope and the commands are joined by one kind of separator throughout.
  obtain ⟨parts, -, kept, within, written⟩ := transaction_eq groups.flatten
  have alone : ∀ part ∈ "BEGIN".toList :: (parts ++ ["COMMIT".toList]), Text.Alone part := by
    intro part member
    rw [List.mem_cons, List.mem_append, List.mem_singleton] at member
    obtain rfl | member | rfl := member
    · exact ⟨Quiet.of_plain (by decide), .inr ⟨'B', _, rfl, by decide⟩⟩
    · obtain rfl | member := within part member
      · exact ⟨Quiet.nil, .inl rfl⟩
      · exact (inside part member).1
    · exact ⟨Quiet.of_plain (by decide), .inr ⟨'C', _, rfl, by decide⟩⟩
  have whole : text = separator.intercalate ("BEGIN".toList :: (parts ++ ["COMMIT".toList])) ++ [';'] := by
    rw [← Except.ok.inj done, flat, written]
  have settled : Settled text := by
    rw [whole]
    exact (Settled.intercalate alone).append ⟨by decide, by decide⟩
  refine ⟨⟨groups, sentAs, ?_⟩, ?_, settled.placeholderCount, settled.settles⟩
  -- Splitting drops empty parts only, and no command is empty.
  · have all : groups.flatten.filter (· ≠ []) = groups.flatten :=
      List.filter_eq_self.mpr fun part member => decide_eq_true (inside part member).2
    rw [whole, commands_intercalate alone, List.filter_cons_of_pos (by decide), List.filter_append, kept, all]
    rfl
  · intro statement member row bound
    obtain ⟨layouts, held⟩ := tame statement member
    rw [held.written.rows] at bound
    obtain ⟨layout, member, rfl⟩ := List.mem_map.mp bound
    exact held.written.laidOut.counted layout member

/-- Every text in it tries to end the region that it is put into. -/
def Operation.hostile : Operation := .schema [
  .table {
    name := "t\"; drop table users; --".toList
    action := .create
    columns := [{
      name := "c?[0]\");".toList
      type := .enumeration ["a'); --".toList, "$$;".toList]
      default := some (.string "'; commit; /*".toList)
      comment := some "it's ?; $cartodb$".toList }] },
  .hasTable "x$cartodb$); drop table users; --".toList]

theorem Operation.isolated_hostile : ∃ statements text,
    Operation.hostile.compile = .ok statements ∧
    materializeAll statements .utc .transaction = .ok text ∧ placeholderCount text = 0 ∧
    ∃ groups, List.Forall₂ (Statement.SentAs .utc) statements groups ∧
      commands text = "BEGIN".toList :: (groups.flatten ++ ["COMMIT".toList]) := by
  have succeeds : (Operation.hostile.toSql .utc).isOk = true := by decide +kernel
  cases sent : Operation.hostile.toSql .utc with
  | error error =>
    rw [sent] at succeeds
    cases succeeds
  | ok text =>
    obtain ⟨statements, compiled, sent⟩ := bind_ok sent
    have isolated := Operation.isolated Operation.hostile rfl .utc statements compiled text sent
    exact ⟨statements, text, compiled, sent, isolated.2.2.1, isolated.1⟩

end LiteralSql
