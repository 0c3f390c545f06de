import LiteralSql.Proofs.Isolation

/-! The commands that the rows of a statement are sent as.

Consecutive rows with the same pieces form a run. A run without values repeats
its text; any other run is prepared once, executed for each of its rows, and
deallocated. Nothing that was prepared is left for the run behind it.
-/

set_option autoImplicit false

namespace LiteralSql

inductive SqlCommand
  | plain (sql : Text)
  | prepare (name sql : Text)
  | execute (name : Text) (literals : List Text)
  | deallocate (name : Text)

namespace SqlCommand

def text : SqlCommand → Text
  | .plain sql => sql
  | .prepare name sql => prepareCommand name sql
  | .execute name literals => executeCommand name literals
  | .deallocate name => deallocateCommand name

/-- The name that is prepared behind a command, if the command may stand where it does. -/
def follow (prepared : Option Text) : SqlCommand → Option (Option Text)
  | .plain _ => if prepared = none then some none else none
  | .prepare name _ => if prepared = none then some (some name) else none
  | .execute name _ => if prepared = some name then some prepared else none
  | .deallocate name => if prepared = some name then some none else none

def block (name sql : Text) (literals : List (List Text)) : List SqlCommand :=
  .prepare name sql :: (literals.map (.execute name) ++ [.deallocate name])

/-- Every name is deallocated before something else is sent. -/
def Balanced (commands : List SqlCommand) : Prop := commands.foldlM follow none = some none

namespace Balanced

theorem nil : Balanced [] := rfl

theorem append {first second : List SqlCommand} (left : Balanced first) (right : Balanced second) :
    Balanced (first ++ second) := by
  rw [Balanced, List.foldlM_append, left]
  exact right

theorem flatten {blocks : List (List SqlCommand)} (each : ∀ commands ∈ blocks, Balanced commands) :
    Balanced blocks.flatten := by
  induction blocks with
  | nil => exact nil
  | cons commands rest ih =>
    rw [List.flatten_cons]
    exact (each commands List.mem_cons_self).append
      (ih fun other member => each other (List.mem_cons_of_mem commands member))

theorem replicate (count : Nat) (sql : Text) : Balanced (List.replicate count (.plain sql)) := by
  induction count with
  | zero => exact nil
  | succ count ih => exact ih

theorem block (name sql : Text) (literals : List (List Text)) : Balanced (SqlCommand.block name sql literals) := by
  have prepared : Option.bind (some (some name)) (fun held =>
      List.foldlM follow held (literals.map (.execute name) ++ [.deallocate name])) = some none := by
    induction literals with
    | nil => simp [follow]
    | cons written rest ih => simpa [follow] using ih
  exact prepared

end Balanced

end SqlCommand

def numberSlots (number : Nat) : List Text → Text
  | [] => []
  | [piece] => piece
  | piece :: next :: rest => piece ++ '$' :: Text.ofNat number ++ numberSlots (number + 1) (next :: rest)

namespace Flat

theorem length_values_eq {flat other : Flat} (same : flat.pieces = other.pieces) :
    flat.values.length = other.values.length := by
  have arity := flat.length_pieces
  rw [same, other.length_pieces] at arity
  exact Nat.succ_inj.mp arity.symm

theorem parameterizedFrom_eq (number : Nat) (flat : Flat) :
    flat.parameterizedFrom number = numberSlots number flat.pieces := by
  induction flat generalizing number with
  | nil => rfl
  | cons item rest ih =>
    obtain ⟨piece, others, split⟩ := pieces_eq_cons rest
    cases item with
    | char c =>
      rw [parameterizedFrom, ih, pieces, split]
      cases others <;> rfl
    | value held =>
      rw [parameterizedFrom, ih, pieces, split]
      rfl

end Flat

/-- What the rows of a run are sent as. -/
inductive RunSent [LocalZone] (zone : TimeZone) (rows : List Flat) : List SqlCommand → Prop
  | plain {sql : Text} (same : ∀ row ∈ rows, row.pieces = [sql]) :
      RunSent zone rows (List.replicate rows.length (.plain sql))
  | prepared {pieces : List Text} {slots : Nat} {literals : List (List Text)}
      (same : ∀ row ∈ rows, row.pieces = pieces) (arity : pieces.length = slots + 1) (some : slots ≠ 0)
      (encoded : List.Forall₂ (fun row written => written.length = slots ∧
        List.Forall₂ (fun value literal => value.literal zone = .ok literal) row.values written) rows literals) :
      RunSent zone rows
        (SqlCommand.block (preparedName (numberSlots 1 pieces) rows) (numberSlots 1 pieces) literals)

/-- What a statement is sent as: its runs are as long as they can be, and stand in the order of the rows. -/
inductive Statement.Script [LocalZone] (zone : TimeZone) (statement : Statement) : List SqlCommand → Prop
  | rowless (none : statement.bindings.rows = []) : Script zone statement [.plain statement.sql]
  | runs {groups : List (List Flat)} {blocks : List (List SqlCommand)} (some : statement.bindings.rows ≠ [])
      (filled : List.Forall₂ (fun row flat => Flat.ofBindings statement.sql row = .ok flat)
        statement.bindings.rows groups.flatten)
      (inhabited : [] ∉ groups)
      (maximal : groups.IsChain fun run next => ∀ row ∈ run, ∀ other ∈ next, row.pieces ≠ other.pieces)
      (sent : List.Forall₂ (RunSent zone) groups blocks) : Script zone statement blocks.flatten

def scriptText (commands : List SqlCommand) : Text := separator.intercalate (commands.map SqlCommand.text)

theorem scriptText_block (name sql : Text) (literals : List (List Text)) :
    scriptText (SqlCommand.block name sql literals) =
      "PREPARE ".toList ++ name ++ " AS\n".toList ++ sql ++ ";\n".toList ++
        (literals.map fun written => executeCommand name written ++ separator).flatten ++
        "DEALLOCATE ".toList ++ name := by
  have texts : (SqlCommand.block name sql literals).map SqlCommand.text =
      (prepareCommand name sql :: literals.map (executeCommand name)) ++ [deallocateCommand name] := by
    simp only [SqlCommand.block, List.map_cons, List.map_append, List.map_map, List.map_nil, List.cons_append]
    rfl
  rw [scriptText, texts, intercalate_concat, List.map_cons, List.flatten_cons, List.map_map]
  unfold prepareCommand deallocateCommand
  simp only [List.append_assoc]
  rfl

theorem executeLine_of_written [LocalZone] {zone : TimeZone} {name : Text} {row : Flat} {written : List Text}
    (encoded : List.Forall₂ (fun value literal => value.literal zone = .ok literal) row.values written) :
    executeLine zone name row = .ok (executeCommand name written ++ separator) := by
  have close : ");\n".toList = [')'] ++ separator := by decide
  rw [executeLine, mapM_of_related encoded, close]
  unfold executeCommand
  simp only [List.append_assoc, List.cons_append]
  rfl

namespace RunSent

variable {zone : TimeZone} {rows : List Flat} {commands : List SqlCommand}

theorem same [LocalZone] (sent : RunSent zone rows commands) {row other : Flat} (left : row ∈ rows)
    (right : other ∈ rows) :
    row.pieces = other.pieces := by
  cases sent with
  | plain same => rw [same row left, same other right]
  | prepared same => rw [same row left, same other right]

theorem balanced [LocalZone] (sent : RunSent zone rows commands) : SqlCommand.Balanced commands := by
  cases sent with
  | plain => exact .replicate _ _
  | prepared => exact .block _ _ _

theorem ne_nil [LocalZone] (sent : RunSent zone rows commands) (some : rows ≠ []) : commands ≠ [] := by
  cases sent with
  | plain => simpa [SqlCommand.block] using some
  | prepared => exact List.cons_ne_nil _ _

theorem rendered [LocalZone] (sent : RunSent zone rows commands) (some : rows ≠ []) :
    renderRun zone rows = .ok (scriptText commands) := by
  obtain ⟨first, others, rfl⟩ := List.exists_cons_of_ne_nil some
  have sql : first.parameterized = numberSlots 1 first.pieces := first.parameterizedFrom_eq 1
  have arity := first.length_pieces
  rw [renderRun]
  dsimp only
  cases sent with
  | @plain piece same =>
    rw [same first List.mem_cons_self] at arity sql
    have unbound : first.values.isEmpty = true :=
      List.isEmpty_iff.mpr (List.eq_nil_of_length_eq_zero (Nat.succ_inj.mp arity.symm))
    rw [if_pos unbound, sql, scriptText, List.map_replicate]
    rfl
  | @prepared pieces slots literals same slotted some encoded =>
    rw [same first List.mem_cons_self] at arity sql
    have bound : ¬ first.values.isEmpty = true := by
      intro empty
      rw [List.isEmpty_iff.mp empty, List.length_nil] at arity
      omega
    have lines : List.Forall₂ (fun row line => executeLine zone (preparedName (numberSlots 1 pieces)
        (first :: others)) row = .ok line) (first :: others) (literals.map fun written =>
        executeCommand (preparedName (numberSlots 1 pieces) (first :: others)) written ++ separator) :=
      List.forall₂_map_right_iff.mpr (encoded.imp fun row written held => executeLine_of_written held.2)
    rw [if_neg bound, sql, mapM_of_related lines, scriptText_block]
    rfl

end RunSent

theorem RunSent.of_rendered [LocalZone] {zone : TimeZone} {rows : List Flat} (some : rows ≠ [])
    (same : ∀ row ∈ rows, ∀ other ∈ rows, row.pieces = other.pieces) {block : Text}
    (done : renderRun zone rows = .ok block) : ∃ commands, RunSent zone rows commands := by
  obtain ⟨first, others, rfl⟩ := List.exists_cons_of_ne_nil some
  have alike : ∀ row ∈ first :: others, row.pieces = first.pieces := fun row member =>
    same row member first List.mem_cons_self
  by_cases unbound : first.values = []
  · have arity := first.length_pieces
    rw [unbound] at arity
    obtain ⟨piece, single⟩ := List.length_eq_one_iff.mp arity
    rw [single] at alike
    exact ⟨_, .plain alike⟩
  · obtain ⟨literals, encoded, -⟩ := renderRun_ok unbound done
    rw [List.forall₂_map_left_iff] at encoded
    have slots : ∀ row ∈ first :: others, row.values.length = first.values.length := fun row member =>
      Flat.length_values_eq (alike row member)
    have written : List.Forall₂ (fun row written => written.length = first.values.length ∧
        List.Forall₂ (fun value literal => Value.literal zone value = .ok literal) row.values written)
        (first :: others) literals :=
      ((List.forall₂_and_left _ _).mpr ⟨slots, encoded⟩).imp fun row written ⟨length, mapped⟩ =>
        ⟨(mapM_ok mapped).length_eq.symm.trans length, mapM_ok mapped⟩
    exact ⟨_, .prepared alike first.length_pieces (fun none => unbound (List.eq_nil_of_length_eq_zero none)) written⟩

theorem isChain_pieces_iff {run : List Flat} :
    run.IsChain (fun row next => decide (row.pieces = next.pieces) = true) ↔
      ∀ row ∈ run, ∀ other ∈ run, row.pieces = other.pieces := by
  constructor
  · intro chain row left other right
    have adjacent : (run.map Flat.pieces).IsChain (· = ·) :=
      (List.isChain_map Flat.pieces).mpr (chain.imp fun _ _ => of_decide_eq_true)
    have pairs := List.isChain_iff_pairwise.mp adjacent
    exact pairs.forall_of_forall (fun _ _ => rfl) (List.mem_map_of_mem left) (List.mem_map_of_mem right)
  · intro same
    apply List.Pairwise.isChain
    apply List.pairwise_of_forall_mem_list
    exact fun row left other right => decide_eq_true (same row left other right)

/-- The runs of rows are the only way to cut them into groups of equal pieces
that do not continue each other. -/
theorem Statement.runs_eq_iff {rows : List Flat} {groups : List (List Flat)} :
    runs rows = groups ↔ rows = groups.flatten ∧ [] ∉ groups ∧
      (∀ run ∈ groups, ∀ row ∈ run, ∀ other ∈ run, row.pieces = other.pieces) ∧
      groups.IsChain fun run next => ∀ row ∈ run, ∀ other ∈ next, row.pieces ≠ other.pieces := by
  rw [runs, List.splitBy_eq_iff]
  refine and_congr_right fun _ => and_congr_right fun inhabited => ?_
  simp only [isChain_pieces_iff]
  refine and_congr_right fun same => ?_
  refine List.IsChain.iff_of_mem_imp fun run next left right => ?_
  have some : run ≠ [] := fun none => inhabited (none ▸ left)
  have more : next ≠ [] := fun none => inhabited (none ▸ right)
  constructor
  · rintro ⟨_, _, differ⟩ row member other inside equal
    refine of_decide_eq_false differ ?_
    calc (run.getLast some).pieces = row.pieces := same run left _ (List.getLast_mem some) row member
      _ = other.pieces := equal
      _ = (next.head more).pieces := same next right other inside _ (List.head_mem more)
  · intro differ
    exact ⟨some, more, decide_eq_false (differ _ (List.getLast_mem some) _ (List.head_mem more))⟩

/-- Rows with a text that was there before, but not right before, are a run of their own. -/
example : (Statement.runs (["a", "a", "b", "a"].map fun text => Flat.ofText text.toList)).map List.length =
    [2, 1, 1] := by decide

theorem scriptText_flatten {blocks : List (List SqlCommand)} (some : [] ∉ blocks) :
    scriptText blocks.flatten = separator.intercalate (blocks.map scriptText) := by
  have texts : blocks.map scriptText =
      (blocks.map (List.map SqlCommand.text)).map separator.intercalate := by
    rw [List.map_map]
    rfl
  rw [texts, intercalate_flatten, scriptText, List.map_flatten]
  intro group member none
  obtain ⟨commands, held, rfl⟩ := List.mem_map.mp member
  exact some (List.map_eq_nil_iff.mp none ▸ held)

namespace Statement

variable {zone : TimeZone} {statement : Statement} {statements : List Statement}
  {commands : List SqlCommand} {scripts : List (List SqlCommand)}

namespace Script

theorem balanced [LocalZone] (script : statement.Script zone commands) : SqlCommand.Balanced commands := by
  cases script with
  | rowless none => exact .replicate 1 statement.sql
  | runs some filled inhabited maximal sent =>
    refine .flatten fun block member => ?_
    obtain ⟨run, -, held⟩ := related_of_mem sent.flip member
    exact held.balanced

theorem blocks_ne_nil [LocalZone] {groups : List (List Flat)} {blocks : List (List SqlCommand)}
    (inhabited : [] ∉ groups)
    (sent : List.Forall₂ (RunSent zone) groups blocks) : [] ∉ blocks := by
  intro member
  obtain ⟨run, held, none⟩ := related_of_mem sent.flip member
  exact none.ne_nil (fun empty => inhabited (empty ▸ held)) rfl

theorem ne_nil [LocalZone] (script : statement.Script zone commands) : commands ≠ [] := by
  cases script with
  | rowless none => exact List.cons_ne_nil _ _
  | @runs groups blocks some filled inhabited maximal sent =>
    intro none
    have blank := blocks_ne_nil inhabited sent
    cases sent with
    | nil => exact some (List.forall₂_nil_right_iff.mp filled)
    | cons head tail =>
      rw [List.flatten_cons, List.append_eq_nil_iff] at none
      exact blank (none.1 ▸ List.mem_cons_self)

theorem rendered [LocalZone] (script : statement.Script zone commands) :
    statement.materialize zone = .ok (scriptText commands) := by
  cases script with
  | rowless none =>
    rw [materialize, none]
    exact congrArg Except.ok List.intercalate_singleton.symm
  | @runs groups blocks some filled inhabited maximal sent =>
    have unempty : ¬ statement.bindings.rows.isEmpty = true := fun empty => some (List.isEmpty_iff.mp empty)
    have same : ∀ run ∈ groups, ∀ row ∈ run, ∀ other ∈ run, row.pieces = other.pieces := by
      intro run member row left other right
      obtain ⟨block, -, held⟩ := related_of_mem sent member
      exact held.same left right
    have cut : Statement.runs groups.flatten = groups :=
      Statement.runs_eq_iff.mpr ⟨rfl, inhabited, same, maximal⟩
    have texts : List.Forall₂ (fun run text => renderRun zone run = .ok text) groups (blocks.map scriptText) := by
      rw [List.forall₂_map_right_iff]
      have some : ∀ run ∈ groups, run ≠ [] := fun run member none => inhabited (none ▸ member)
      exact ((List.forall₂_and_left _ _).mpr ⟨some, sent⟩).imp fun run block held => held.2.rendered held.1
    rw [materialize, if_neg unempty, mapM_of_related filled]
    dsimp only [bind, Except.bind]
    rw [cut, mapM_of_related texts, scriptText_flatten (blocks_ne_nil inhabited sent)]

theorem of_rendered [LocalZone] {text : Text} (done : statement.materialize zone = .ok text) :
    ∃ commands, statement.Script zone commands := by
  by_cases none : statement.bindings.rows = []
  · exact ⟨_, .rowless none⟩
  · rw [materialize, if_neg (fun empty => none (List.isEmpty_iff.mp empty))] at done
    obtain ⟨flats, filled, done⟩ := bind_ok done
    obtain ⟨texts, rendered, -⟩ := bind_ok done
    obtain ⟨whole, inhabited, same, maximal⟩ := Statement.runs_eq_iff.mp (rfl : Statement.runs flats = _)
    have each : ∀ run ∈ Statement.runs flats, ∃ block, RunSent zone run block := by
      intro run member
      obtain ⟨text, -, rendered⟩ := related_of_mem (mapM_ok rendered) member
      exact RunSent.of_rendered (fun empty => inhabited (empty ▸ member)) (same run member) rendered
    obtain ⟨blocks, sent⟩ := exists_related each
    refine ⟨blocks.flatten, .runs none ?_ inhabited maximal sent⟩
    rw [← whole]
    exact mapM_ok filled

end Script

theorem materialize_eq_ok_iff [LocalZone] {text : Text} : statement.materialize zone = .ok text ↔
    ∃ commands, statement.Script zone commands ∧ text = scriptText commands := by
  constructor
  · intro done
    obtain ⟨commands, script⟩ := Script.of_rendered done
    exact ⟨commands, script, Except.ok.inj (done.symm.trans script.rendered)⟩
  · rintro ⟨commands, script, rfl⟩
    exact script.rendered

end Statement

def Envelope.around (body : Text) : Envelope → Text
  | .transaction => "BEGIN;\n".toList ++ body ++ ";\nCOMMIT;".toList
  | .bare => body

theorem Envelope.around_transaction (body : Text) :
    Envelope.transaction.around body = "BEGIN;\n".toList ++ body ++ ";\nCOMMIT;".toList := rfl

theorem Envelope.around_bare (body : Text) : Envelope.bare.around body = body := rfl

theorem Statement.Script.all_rendered [LocalZone] {zone : TimeZone} {statements : List Statement}
    {scripts : List (List SqlCommand)} (each : List.Forall₂ (Statement.Script zone) statements scripts)
    (envelope : Envelope) :
    materializeAll statements zone envelope = .ok (envelope.around (scriptText scripts.flatten)) := by
  have parts : statements.mapM (fun statement => statement.materialize zone) = .ok (scripts.map scriptText) :=
    mapM_of_related (List.forall₂_map_right_iff.mpr (each.imp fun _ _ script => script.rendered))
  have some : [] ∉ scripts := by
    intro member
    obtain ⟨statement, -, none⟩ := related_of_mem each.flip member
    exact none.ne_nil rfl
  rw [materializeAll, parts, scriptText_flatten some]
  cases envelope <;> rfl

theorem materializeAll_eq_ok_iff [LocalZone] {zone : TimeZone} {statements : List Statement} {envelope : Envelope}
    {text : Text} :
    materializeAll statements zone envelope = .ok text ↔
      ∃ scripts, List.Forall₂ (Statement.Script zone) statements scripts ∧
        text = envelope.around (scriptText scripts.flatten) := by
  constructor
  · intro sent
    obtain ⟨parts, rendered, -⟩ := bind_ok sent
    have some : ∀ statement ∈ statements, ∃ commands, statement.Script zone commands := by
      intro statement member
      obtain ⟨part, -, rendered⟩ := related_of_mem (mapM_ok rendered) member
      exact Statement.Script.of_rendered rendered
    obtain ⟨scripts, each⟩ := exists_related some
    exact ⟨scripts, each, Except.ok.inj (sent.symm.trans (Statement.Script.all_rendered each envelope))⟩
  · rintro ⟨scripts, each, rfl⟩
    exact Statement.Script.all_rendered each envelope

/-- What is sent for statements are their runs, in the order of the rows: each
row is executed once, with its own literals, against the text it was filled
into. No name is prepared while another one is. -/
theorem materialized_iff_scripted [LocalZone] (zone : TimeZone) :
    (∀ statement text, Statement.materialize statement zone = .ok text ↔
      ∃ commands, statement.Script zone commands ∧ text = scriptText commands) ∧
    (∀ statements envelope text, materializeAll statements zone envelope = .ok text ↔
      ∃ scripts, List.Forall₂ (Statement.Script zone) statements scripts ∧
        text = envelope.around (scriptText scripts.flatten)) ∧
    ∀ statements scripts, List.Forall₂ (Statement.Script zone) statements scripts →
      SqlCommand.Balanced scripts.flatten := by
  refine ⟨fun _ _ => Statement.materialize_eq_ok_iff, fun _ _ _ => materializeAll_eq_ok_iff,
    fun statements scripts each => .flatten fun script member => ?_⟩
  obtain ⟨statement, -, held⟩ := related_of_mem each.flip member
  exact held.balanced

end LiteralSql
