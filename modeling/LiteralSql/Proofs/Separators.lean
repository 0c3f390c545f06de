import LiteralSql.Proofs.Filling
import LiteralSql.Proofs.Script

/-! Which of the semicolons between commands separate them.

A semicolon is written behind a command without regard to where the command
ends. It separates what it should if the command ends outside every region; a
command that ends in a line comment takes the semicolon into it.
-/

set_option autoImplicit false

namespace LiteralSql

def Live (before : Text) : Prop := (SqlState.bare.read before).1.isOutside = true

instance : DecidablePred Live := fun before => inferInstanceAs (Decidable ((SqlState.bare.read before).1.isOutside = true))

/-- Every quote, dollar quote and block comment is closed. A line comment may go on to the end. -/
def Terminated (sql : Text) : Prop := Live sql ∨ (SqlState.bare.read sql).1 = .lineComment

theorem Terminated.live_iff {sql : Text} (terminated : Terminated sql) :
    Live sql ↔ (SqlState.bare.read sql).1 ≠ .lineComment := by
  constructor
  · intro live comment
    rw [Live, comment] at live
    cases live
  · exact terminated.resolve_right

/-- What stands in front of the semicolons when one is written behind each of these texts. -/
def fronts (before : Text) : List Text → List Text
  | [] => []
  | text :: rest => (before ++ text) :: fronts (before ++ text ++ separator) rest

theorem live_append {first : Text} (settles : (SqlState.bare.read first).1 = .bare) (second : Text) :
    Live (first ++ second) ↔ Live second := by
  rw [Live, SqlState.read_append_of_bare settles, Live]

theorem Quiet.live {text : Text} (quiet : Quiet text) : Live text := by
  rw [Live, quiet.settles]
  rfl

theorem settles_separator {text : Text} (live : Live text) :
    (SqlState.bare.read (text ++ separator)).1 = .bare := by
  have semicolon : ((SqlState.bare.read text).1.step ';').1 = .bare := by
    rw [SqlState.step_of_breaksMarks live (by decide)]
    rfl
  rw [SqlState.read_append]
  change ((((SqlState.bare.read text).1.step ';').1.step '\n').1) = .bare
  rw [semicolon]
  rfl

/-- Nothing of an earlier text reaches a later one unless it takes a separator on its way. -/
theorem fronts_live_iff {before : Text} (settles : (SqlState.bare.read before).1 = .bare) (texts : List Text) :
    (∀ front ∈ fronts before texts, Live front) ↔ ∀ text ∈ texts, Live text := by
  induction texts generalizing before with
  | nil => simp [fronts]
  | cons text rest ih =>
    rw [fronts, List.forall_mem_cons, List.forall_mem_cons, live_append settles]
    refine and_congr_right fun live => ih ?_
    rw [List.append_assoc, SqlState.read_append_of_bare settles]
    exact settles_separator live

theorem fronts_prefix (before : Text) (texts : List Text) :
    ∀ front ∈ fronts before texts, front ++ [';'] <+: before ++ (separator.intercalate texts ++ [';']) := by
  induction texts generalizing before with
  | nil => exact fun front member => absurd member List.not_mem_nil
  | cons text rest ih =>
    cases rest with
    | nil => simp [fronts]
    | cons next others =>
      have whole : before ++ (separator.intercalate (text :: next :: others) ++ [';']) =
          before ++ text ++ separator ++ (separator.intercalate (next :: others) ++ [';']) := by
        rw [List.intercalate_cons_cons]
        simp only [List.append_assoc]
      rw [whole, fronts, List.forall_mem_cons]
      refine ⟨?_, ih (before ++ text ++ separator)⟩
      have first : [';'] <+: separator := by decide
      exact ((List.prefix_append_right_inj _).mpr first).trans (List.prefix_append _ _)

namespace SqlCommand

def sql : SqlCommand → Text
  | .plain sql => sql
  | .prepare _ sql => sql
  | .execute _ _ => []
  | .deallocate _ => []

def Proper : SqlCommand → Prop
  | .plain _ => True
  | .prepare name _ => Quiet name
  | .execute name literals => Quiet name ∧ ∀ literal ∈ literals, Quiet literal
  | .deallocate name => Quiet name

theorem Proper.live_text {command : SqlCommand} (proper : command.Proper) : Live command.text ↔ Live command.sql := by
  cases command with
  | plain sql => exact Iff.rfl
  | prepare name sql =>
    have head : Quiet ("PREPARE ".toList ++ name ++ " AS\n".toList) :=
      ((Quiet.of_plain (by decide)).append proper).append (Quiet.of_plain (by decide))
    exact live_append head.settles sql
  | execute name literals =>
    exact iff_of_true (alone_executeCommand proper.1 proper.2).quiet.live Quiet.nil.live
  | deallocate name => exact iff_of_true (alone_deallocateCommand proper).quiet.live Quiet.nil.live

end SqlCommand

namespace RunSent

variable {zone : TimeZone} {rows : List Flat} {commands : List SqlCommand}

theorem proper [LocalZone] (sent : RunSent zone rows commands) : ∀ command ∈ commands, command.Proper := by
  intro command member
  cases sent with
  | plain same =>
    cases List.eq_of_mem_replicate member
    trivial
  | @prepared pieces slots literals same arity some encoded =>
    have named := quiet_preparedName (numberSlots 1 pieces) rows
    rw [SqlCommand.block, List.mem_cons, List.mem_append, List.mem_singleton] at member
    obtain rfl | member | rfl := member
    · exact named
    · obtain ⟨written, held, rfl⟩ := List.mem_map.mp member
      obtain ⟨row, -, -, encoded⟩ := related_of_mem encoded.flip held
      refine ⟨named, fun literal inside => ?_⟩
      obtain ⟨value, -, encoded⟩ := related_of_mem encoded.flip inside
      exact Value.quiet_literal encoded
    · exact named

theorem sql_of_mem [LocalZone] (sent : RunSent zone rows commands) (some : rows ≠ []) {command : SqlCommand}
    (member : command ∈ commands) : command.sql = [] ∨ ∃ row ∈ rows, command.sql = row.parameterized := by
  obtain ⟨first, others, rfl⟩ := List.exists_cons_of_ne_nil some
  have sql : first.parameterized = numberSlots 1 first.pieces := first.parameterizedFrom_eq 1
  cases sent with
  | plain same =>
    cases List.eq_of_mem_replicate member
    rw [same first List.mem_cons_self] at sql
    exact .inr ⟨first, List.mem_cons_self, sql.symm⟩
  | prepared same =>
    rw [same first List.mem_cons_self] at sql
    rw [SqlCommand.block, List.mem_cons, List.mem_append, List.mem_singleton] at member
    obtain rfl | member | rfl := member
    · exact .inr ⟨first, List.mem_cons_self, sql.symm⟩
    · obtain ⟨written, -, rfl⟩ := List.mem_map.mp member
      exact .inl rfl
    · exact .inl rfl

theorem exists_sql [LocalZone] (sent : RunSent zone rows commands) {row : Flat} (member : row ∈ rows) :
    ∃ command ∈ commands, command.sql = row.parameterized := by
  have sql : row.parameterized = numberSlots 1 row.pieces := row.parameterizedFrom_eq 1
  cases sent with
  | @plain piece same =>
    rw [same row member] at sql
    exact ⟨.plain piece, List.mem_replicate.mpr ⟨fun none => List.ne_nil_of_mem member
      (List.eq_nil_of_length_eq_zero none), rfl⟩, sql.symm⟩
  | prepared same =>
    rw [same row member] at sql
    exact ⟨_, List.mem_cons_self, sql.symm⟩

end RunSent

/-- No value leaves the text of the statement in another region than the text itself. -/
structure Statement.Contained (statement : Statement) : Prop where
  apart : SqlState.bare.apart statement.sql = true
  contained : ∀ row ∈ statement.bindings.rows, ∀ value ∈ row, value.Contained

namespace Statement.Script

variable {zone : TimeZone} {statement : Statement} {commands : List SqlCommand}

theorem proper [LocalZone] (script : statement.Script zone commands) : ∀ command ∈ commands, command.Proper := by
  intro command member
  cases script with
  | rowless none =>
    rw [List.mem_singleton] at member
    subst member
    trivial
  | runs some filled inhabited maximal sent =>
    obtain ⟨block, held, member⟩ := List.mem_flatten.mp member
    obtain ⟨run, -, sent⟩ := related_of_mem sent.flip held
    exact sent.proper command member

theorem live_parameterized_iff (contained : statement.Contained) {row : List Value} {flat : Flat}
    (member : row ∈ statement.bindings.rows) (filled : Flat.ofBindings statement.sql row = .ok flat) :
    Live flat.parameterized ↔ Live statement.sql := by
  have core := Flat.core_parameterized contained.apart (contained.contained row member) filled
  rw [Live, Live, ← SqlState.isOutside_core, core, SqlState.isOutside_core]

theorem live_sql_iff [LocalZone] (script : statement.Script zone commands) (contained : statement.Contained) :
    (∀ command ∈ commands, Live command.sql) ↔ Live statement.sql := by
  cases script with
  | rowless none => exact List.forall_mem_singleton
  | @runs groups blocks some filled inhabited maximal sent =>
    constructor
    · intro live
      obtain ⟨row, others, rows⟩ := List.exists_cons_of_ne_nil some
      have first : row ∈ statement.bindings.rows := rows ▸ List.mem_cons_self
      obtain ⟨flat, member, filled⟩ := related_of_mem filled first
      obtain ⟨run, held, inside⟩ := List.mem_flatten.mp member
      obtain ⟨block, member, sent⟩ := related_of_mem sent held
      obtain ⟨command, within, sql⟩ := sent.exists_sql inside
      rw [← live_parameterized_iff contained first filled, ← sql]
      exact live command (List.mem_flatten.mpr ⟨block, member, within⟩)
    · intro live command member
      obtain ⟨block, held, member⟩ := List.mem_flatten.mp member
      obtain ⟨run, within, sent⟩ := related_of_mem sent.flip held
      obtain none | ⟨flat, inside, sql⟩ := sent.sql_of_mem (fun none => inhabited (none ▸ within)) member
      · rw [none]
        exact Quiet.nil.live
      · obtain ⟨row, bound, filled⟩ := related_of_mem filled.flip (List.mem_flatten.mpr ⟨run, within, inside⟩)
        rw [sql, live_parameterized_iff contained bound filled]
        exact live

end Statement.Script

namespace Envelope

/-- The commands that a semicolon is written behind. In a transaction without a
statement there is an empty command between its beginning and its end. -/
def separated (commands : List SqlCommand) : Envelope → List SqlCommand
  | .bare => commands.dropLast
  | .transaction =>
    .plain "BEGIN".toList :: ((if commands.isEmpty then [.plain []] else commands) ++ [.plain "COMMIT".toList])

def fronts (commands : List SqlCommand) (envelope : Envelope) : List Text :=
  LiteralSql.fronts [] ((envelope.separated commands).map SqlCommand.text)

theorem intercalate_between {texts : List Text} (some : texts ≠ []) (opening closing : Text) :
    separator.intercalate (opening :: (texts ++ [closing])) =
      opening ++ separator ++ separator.intercalate texts ++ separator ++ closing := by
  rw [List.intercalate_cons_of_ne_nil (List.append_ne_nil_of_left_ne_nil some _),
    intercalate_append some (List.cons_ne_nil _ _), List.intercalate_singleton]
  simp only [List.append_assoc]

theorem around_scriptText (commands : List SqlCommand) :
    Envelope.transaction.around (scriptText commands) =
      scriptText (Envelope.transaction.separated commands) ++ [';'] := by
  have before : "BEGIN;\n".toList = "BEGIN".toList ++ separator := by decide
  have after : ";\nCOMMIT;".toList = separator ++ "COMMIT".toList ++ [';'] := by decide
  have inside : scriptText commands =
      separator.intercalate ((if commands.isEmpty then [.plain []] else commands).map SqlCommand.text) := by
    cases commands <;> rfl
  have some : (if commands.isEmpty then [SqlCommand.plain []] else commands).map SqlCommand.text ≠ [] := by
    cases commands <;> exact List.cons_ne_nil _ _
  have texts : (Envelope.transaction.separated commands).map SqlCommand.text = "BEGIN".toList ::
      ((if commands.isEmpty then [.plain []] else commands).map SqlCommand.text ++ ["COMMIT".toList]) := by
    rw [separated, List.map_cons, List.map_append]
    rfl
  rw [around_transaction, inside, scriptText, texts, intercalate_between some, before, after]
  simp only [List.append_assoc]

theorem fronts_prefix (commands : List SqlCommand) (envelope : Envelope) :
    ∀ front ∈ envelope.fronts commands, front ++ [';'] <+: envelope.around (scriptText commands) := by
  intro front member
  have within := LiteralSql.fronts_prefix [] ((envelope.separated commands).map SqlCommand.text) front member
  rw [List.nil_append] at within
  cases envelope with
  | transaction =>
    rwa [around_scriptText, scriptText]
  | bare =>
    refine within.trans ?_
    obtain rfl | ⟨earlier, last, rfl⟩ := List.eq_nil_or_concat' commands
    · cases member
    · have some : earlier.map SqlCommand.text ≠ [] := by
        intro none
        rw [fronts, separated, List.dropLast_concat, none] at member
        cases member
      rw [separated, List.dropLast_concat, around_bare, scriptText, List.map_append, List.map_singleton,
        intercalate_append some (List.cons_ne_nil _ _), List.append_assoc]
      exact (List.prefix_append_right_inj _).mpr ⟨'\n' :: last.text, by simp [separator]⟩

def Separates (commands : List SqlCommand) (envelope : Envelope) : Prop :=
  ∀ front ∈ envelope.fronts commands, Live front

theorem proper_separated {commands : List SqlCommand} (proper : ∀ command ∈ commands, command.Proper)
    (envelope : Envelope) : ∀ command ∈ envelope.separated commands, command.Proper := by
  intro command member
  cases envelope with
  | bare => exact proper command ((List.dropLast_subset commands member))
  | transaction =>
    rw [separated, List.mem_cons, List.mem_append, List.mem_singleton] at member
    obtain rfl | member | rfl := member
    · trivial
    · split at member
      · rw [List.mem_singleton] at member
        subst member
        trivial
      · exact proper command member
    · trivial

theorem separates_iff {commands : List SqlCommand} (proper : ∀ command ∈ commands, command.Proper)
    (envelope : Envelope) : envelope.Separates commands ↔
      ∀ command ∈ envelope.separated commands, Live command.sql := by
  rw [Separates, fronts, fronts_live_iff rfl, List.forall_mem_map]
  exact forall₂_congr fun command member => (proper_separated proper envelope command member).live_text

theorem live_separated_transaction (commands : List SqlCommand) :
    (∀ command ∈ Envelope.transaction.separated commands, Live command.sql) ↔
      ∀ command ∈ commands, Live command.sql := by
  have opening : Live "BEGIN".toList := by decide
  have closing : Live "COMMIT".toList := by decide
  have between : (∀ command ∈ (if commands.isEmpty then [SqlCommand.plain []] else commands), Live command.sql) ↔
      ∀ command ∈ commands, Live command.sql := by
    cases commands with
    | nil => exact iff_of_true (List.forall_mem_singleton.mpr Quiet.nil.live) (List.forall_mem_nil _)
    | cons command rest => exact Iff.rfl
  rw [separated, List.forall_mem_cons, List.forall_mem_append, List.forall_mem_singleton, between]
  exact ⟨fun live => live.2.1, fun live => ⟨opening, live, closing⟩⟩

theorem live_separated (envelope : Envelope) {commands : List SqlCommand}
    (live : ∀ command ∈ commands, Live command.sql) :
    ∀ command ∈ envelope.separated commands, Live command.sql := by
  cases envelope with
  | bare => exact fun command member => live command ((List.dropLast_subset commands member))
  | transaction => exact (live_separated_transaction commands).mpr live

end Envelope

namespace Statement.Script

variable {zone : TimeZone} {statements : List Statement} {scripts : List (List SqlCommand)}

theorem all_proper [LocalZone] (each : List.Forall₂ (Statement.Script zone) statements scripts) :
    ∀ command ∈ scripts.flatten, command.Proper := by
  intro command member
  obtain ⟨script, held, member⟩ := List.mem_flatten.mp member
  obtain ⟨statement, -, sent⟩ := related_of_mem each.flip held
  exact sent.proper command member

theorem all_live_iff [LocalZone] (each : List.Forall₂ (Statement.Script zone) statements scripts)
    (contained : ∀ statement ∈ statements, statement.Contained) :
    (∀ command ∈ scripts.flatten, Live command.sql) ↔ ∀ statement ∈ statements, Live statement.sql := by
  induction each with
  | nil => simp
  | cons script _ ih =>
    rw [List.forall_mem_cons] at contained
    rw [List.flatten_cons, List.forall_mem_append, List.forall_mem_cons, script.live_sql_iff contained.1,
      ih contained.2]

end Statement.Script

theorem Statement.materialize_eq_bare [LocalZone] (statement : Statement) (zone : TimeZone) :
    statement.materialize zone = materializeAll [statement] zone .bare := by
  rw [materializeAll, List.mapM_cons, List.mapM_nil]
  cases statement.materialize zone with
  | error error => rfl
  | ok text => exact congrArg Except.ok List.intercalate_singleton.symm

/-- The semicolons that are added separate the commands just if what is prepared
or sent in front of each of them ends outside every region. Where the texts that
are spliced in leave the text around them as it is, that is so as long as no
statement ends in a line comment. -/
theorem added_semicolons_live_iff [LocalZone] (zone : TimeZone) (envelope : Envelope) (statements : List Statement)
    (text : Text) (sent : materializeAll statements zone envelope = .ok text) :
    (∀ statement, statements = [statement] → envelope = .bare → statement.materialize zone = .ok text) ∧
    ∃ scripts, List.Forall₂ (Statement.Script zone) statements scripts ∧
      text = envelope.around (scriptText scripts.flatten) ∧
      (∀ front ∈ envelope.fronts scripts.flatten, front ++ [';'] <+: text) ∧
      (envelope.Separates scripts.flatten ↔ ∀ command ∈ envelope.separated scripts.flatten, Live command.sql) ∧
      ((∀ statement ∈ statements, statement.Contained ∧ Terminated statement.sql) →
        ((∀ statement ∈ statements, (SqlState.bare.read statement.sql).1 ≠ .lineComment) →
          envelope.Separates scripts.flatten) ∧
        (envelope = .transaction → envelope.Separates scripts.flatten →
          ∀ statement ∈ statements, (SqlState.bare.read statement.sql).1 ≠ .lineComment)) := by
  constructor
  · rintro statement rfl rfl
    rw [Statement.materialize_eq_bare, sent]
  obtain ⟨scripts, each, rfl⟩ := materializeAll_eq_ok_iff.mp sent
  have separates := Envelope.separates_iff (Statement.Script.all_proper each) envelope
  refine ⟨scripts, each, rfl, envelope.fronts_prefix scripts.flatten, separates, fun closed => ?_⟩
  have live := Statement.Script.all_live_iff each fun statement member => (closed statement member).1
  rw [separates]
  constructor
  · intro open_
    apply envelope.live_separated
    exact live.mpr fun statement member => ((closed statement member).2.live_iff).mpr (open_ statement member)
  · rintro rfl separated statement member
    rw [Envelope.live_separated_transaction, live] at separated
    exact ((closed statement member).2.live_iff).mp (separated statement member)

def commented : List Statement :=
  [.once "select ? -- why?\n".toList [.int 1] .raw, .once "select 2".toList [] .raw]

theorem added_semicolons_live_commented : ∃ text scripts, materializeAll commented .utc .transaction = .ok text ∧
    text = Envelope.transaction.around (scriptText scripts) ∧ Envelope.transaction.Separates scripts := by
  have succeeds : (materializeAll commented .utc .transaction).isOk = true := by decide +kernel
  have closed : ∀ statement ∈ commented, statement.Contained ∧ Terminated statement.sql := by
    refine List.forall_mem_cons.mpr ⟨⟨⟨by decide, ?_⟩, .inl (by decide)⟩,
      List.forall_mem_singleton.mpr ⟨⟨by decide, ?_⟩, .inl (by decide)⟩⟩
    · exact List.forall_mem_singleton.mpr (List.forall_mem_singleton.mpr (.literal rfl))
    · exact List.forall_mem_singleton.mpr (List.forall_mem_nil _)
  have uncommented : ∀ statement ∈ commented, (SqlState.bare.read statement.sql).1 ≠ .lineComment := by decide
  cases sent : materializeAll commented .utc .transaction with
  | error error =>
    rw [sent] at succeeds
    cases succeeds
  | ok text =>
    obtain ⟨-, scripts, -, same, -, -, live⟩ := added_semicolons_live_iff .utc .transaction commented text sent
    exact ⟨text, scripts.flatten, rfl, same, (live closed).1 uncommented⟩

def trailing : List Statement := [.once "select 1 -- note".toList [] .raw, .once "select 2".toList [] .raw]

/-- The comment takes the semicolon that is added, and the statement behind it is
read as a part of the one that it ends. -/
theorem trailing_comment_takes_semicolon :
    (∀ statement ∈ trailing, Terminated statement.sql) ∧
    materializeAll trailing .utc .transaction =
      .ok "BEGIN;\nselect 1 -- note;\nselect 2;\nCOMMIT;".toList ∧
    ¬ Live "BEGIN;\nselect 1 -- note".toList ∧
    commands "BEGIN;\nselect 1 -- note;\nselect 2;\nCOMMIT;".toList =
      ["BEGIN".toList, "select 1 -- note;\nselect 2".toList, "COMMIT".toList] := by
  refine ⟨?_, rfl, by decide, by decide⟩
  exact List.forall_mem_cons.mpr ⟨.inr (by decide), List.forall_mem_singleton.mpr (.inl (by decide))⟩

end LiteralSql
