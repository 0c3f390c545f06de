import LiteralSql.Proofs.Recognition
import LiteralSql.Proofs.Splicing

/-! The keys of a template, and the placeholders that are written for them.

A key is found wherever a blank is in front of it, in a quoted region and in a
comment too. The text around it is read as before: a key has no mark in it, and
no mark is begun behind a blank. So the placeholders that are read afterwards are
those of the keys that stand outside every region, and the values are those of
all keys.
-/

set_option autoImplicit false

namespace LiteralSql

namespace CharClass

theorem isTagChar_of_isBlank {c : Char} (blank : isBlank c = true) : SqlState.isTagChar c = false := by
  have code : c.val.toNat = c.toNat := rfl
  rw [← Bool.not_eq_true]
  intro letter
  simp only [isBlank, inRanges, blankRanges, List.any_cons, List.any_nil, Bool.or_false, Bool.or_eq_true,
    Bool.and_eq_true, decide_eq_true_eq] at blank
  simp only [SqlState.isTagChar, Text.isDigit, Bool.or_eq_true, Bool.and_eq_true, decide_eq_true_eq, Char.le_def,
    UInt32.le_iff_toNat_le, Char.ext_iff, ← UInt32.toNat_inj] at letter
  simp only [Char.reduceVal, UInt32.reduceToNat] at letter
  omega

theorem ne_of_class {inClass : Char → Bool} {mark c : Char} (outside : inClass mark = false)
    (member : inClass c = true) : c ≠ mark := by
  rintro rfl
  exact Bool.false_ne_true (outside.symm.trans member)

end CharClass

namespace SqlState

/-- What is kept of the opening mark is what a text can open a region with. -/
def Regular : SqlState → Prop
  | .tag name | .dollarQuoted name _ => ∀ c ∈ name, isTagChar c = true
  | .quoted mark => mark = '\'' ∨ mark = '"'
  | _ => True

theorem regular_stepBare (c : Char) : (stepBare c).1.Regular := by
  unfold stepBare
  split_ifs with quote
  · exact quote
  · exact fun _ none => absurd none List.not_mem_nil
  all_goals trivial

theorem Regular.step {state : SqlState} (regular : state.Regular) (c : Char) : (state.step c).1.Regular := by
  have bare := regular_stepBare c
  cases state with
  | bare => exact bare
  | backslash | question | dash | slash =>
    rw [SqlState.step]
    split
    · trivial
    · exact bare
  | tag name =>
    rw [SqlState.step]
    split_ifs with dollar letter
    · exact regular
    -- A name in a tag grows by characters of tags only.
    · intro d member
      obtain old | new := List.mem_append.mp member
      · exact regular d old
      · exact List.mem_singleton.mp new ▸ (Bool.and_eq_true_iff.mp letter).1
    · exact bare
  | quoted mark =>
    rw [SqlState.step]
    dsimp only
    split
    · trivial
    · exact regular
  | lineComment | blockComment | blockSlash =>
    rw [SqlState.step]
    dsimp only
    split_ifs <;> trivial
  | blockStar depth =>
    rw [SqlState.step, closeBlock]
    dsimp only
    split_ifs <;> trivial
  | dollarQuoted name seen =>
    rw [SqlState.step]
    dsimp only
    split_ifs
    · trivial
    · exact regular
    · exact regular

/-- Neither an opening nor a closing mark has begun. -/
inductive Resting : SqlState → Prop
  | bare : Resting .bare
  | quoted (mark : Char) : Resting (.quoted mark)
  | lineComment : Resting .lineComment
  | blockComment (depth : Nat) : Resting (.blockComment depth)
  | dollarQuoted (name : Text) : Resting (.dollarQuoted name none)

def settle : SqlState → SqlState
  | .quoted mark => .quoted mark
  | .lineComment => .lineComment
  | .blockComment depth | .blockSlash depth | .blockStar depth => .blockComment depth
  | .dollarQuoted name _ => .dollarQuoted name none
  | _ => .bare

theorem resting_settle (state : SqlState) : state.settle.Resting := by
  cases state <;> constructor

def plainToken (state : SqlState) (c : Char) : SqlToken := if state.isOutside then .bare c else .shielded c

theorem Regular.step_foreign {state : SqlState} (regular : state.Regular) {c : Char} (plain : Quiet.isPlain c = true)
    (letter : isTagChar c = false) (star : c ≠ '*') (line : state = .lineComment → c ≠ '\n') :
    state.step c = (state.settle, state.pending ++ [state.settle.plainToken c]) := by
  have bare := Quiet.stepBare_of_plain plain
  have other (mark : Char) (special : Quiet.isPlain mark = false) : c ≠ mark := CharClass.ne_of_class special plain
  have slash : c ≠ '/' := other _ (by decide)
  have dollar : c ≠ '$' := other _ (by decide)
  cases state with
  | bare => exact bare
  | backslash | question | dash => rw [SqlState.step, if_neg (other _ (by decide)), bare]; rfl
  | slash => rw [SqlState.step, if_neg star, bare]; rfl
  | tag name => rw [SqlState.step, if_neg dollar, letter, Bool.false_and, if_neg Bool.false_ne_true, bare]; rfl
  | quoted mark =>
    have differs : c ≠ mark := by
      obtain rfl | rfl := regular <;> exact other _ (by decide)
    rw [SqlState.step, if_neg differs]
    rfl
  | lineComment => rw [SqlState.step, if_neg (line rfl)]; rfl
  | blockComment depth | blockSlash depth | blockStar depth =>
    simp only [SqlState.step, if_neg slash, if_neg star]
    rfl
  | dollarQuoted name seen =>
    -- The name of the tag consists of characters of tags, and this is none.
    have broken :
        (seen.bind fun read => if (read ++ [c]).isPrefixOf name then some (read ++ [c]) else none) = none := by
      cases seen with
      | none => rfl
      | some read =>
        refine if_neg fun begins => ?_
        have inside := (List.isPrefixOf_iff_prefix.mp begins).subset (List.mem_append_right read List.mem_cons_self)
        exact Bool.false_ne_true (letter.symm.trans (regular c inside))
    simp only [SqlState.step, if_neg dollar, broken]
    rfl

theorem Regular.resting {state : SqlState} (regular : state.Regular) {c : Char} (blank : CharClass.isBlank c = true) :
    (state.step c).1.Resting := by
  have plain : Quiet.isPlain c = true := Quiet.isPlain_of_class (by decide) blank
  have star : c ≠ '*' := CharClass.ne_of_class (by decide) blank
  by_cases line : state = .lineComment → c ≠ '\n'
  · rw [regular.step_foreign plain (CharClass.isTagChar_of_isBlank blank) star line]
    exact resting_settle state
  · obtain ⟨rfl, ends⟩ := Classical.not_imp.mp line
    rw [not_not.mp ends]
    exact .bare

/-- A character that ends no region and begins no closing mark. -/
def isInert (c : Char) : Bool := !(['\'', '"', '$', '/', '*', '\n'].contains c)

theorem Resting.read_inert {state : SqlState} (resting : state.Resting) (regular : state.Regular)
    (inside : state.isOutside = false) {text : Text} (inert : text.all isInert = true) :
    state.read text = (state, text.map .shielded) := by
  induction text with
  | nil => rfl
  | cons c rest ih =>
    rw [List.all_cons, Bool.and_eq_true] at inert
    have step : state.step c = (state, [.shielded c]) := by
      have head := inert.1
      simp only [isInert, List.contains_cons, List.contains_nil, Bool.or_false, Bool.not_or, Bool.and_eq_true,
        Bool.not_eq_true', beq_eq_false_iff_ne, ne_eq] at head
      obtain ⟨single, double, dollar, slash, star, line⟩ := head
      cases resting with
      | bare => cases inside
      | quoted mark =>
        have other : c ≠ mark := by
          rintro rfl
          exact regular.elim single double
        simp [SqlState.step, other]
      | lineComment => simp [SqlState.step, line]
      | blockComment depth => simp [SqlState.step, slash, star]
      | dollarQuoted name => simp [SqlState.step, dollar]
    rw [read_cons, step, ih inert.2]
    rfl

theorem step_unmarked {state : SqlState} (settled : state ≠ .question) {c : Char} (other : c ≠ '?') :
    (state.step c).1 ≠ .question ∧ (state.step c).2.filter SqlToken.isPlaceholder = [] := by
  have silent {outcome : SqlState × List SqlToken} (emits : Emits c outcome) :
      outcome.1 ≠ .question ∧ outcome.2.filter SqlToken.isPlaceholder = [] := by
    cases emits with
    | @char next token char settled =>
      constructor
      · rintro rfl
        cases settled
      · cases token with
        | bare | shielded => rfl
        | value | identifier => cases char
    | backslash => exact ⟨nofun, rfl⟩
    | question mark => exact absurd mark other
  cases state with
  | backslash =>
    rw [step, if_neg other]
    exact ⟨(silent (emits_stepBare c)).1, (silent (emits_stepBare c)).2⟩
  | question => exact absurd rfl settled
  | _ => exact silent (emits_step rfl c).1

end SqlState

namespace TemplatePart

open SqlState

def live (state : SqlState) : List TemplatePart → List (Text × Bool)
  | [] => []
  | part :: rest => (if state.isOutside then part.asks?.toList else []) ++ live (state.read part.source).1 rest

def placeholder (key : Text × Bool) : SqlToken := if key.2 then .identifier else .value

section
variable {name : Text} {identifier : Bool}

theorem plain_source (word : ∀ d ∈ name, CharClass.isWord d = true) :
    (key name identifier).source.all Quiet.isPlain = true ∧ (key name identifier).source.all isInert = true := by
  have marks {d : Char} (member : CharClass.isWord d = true) : Quiet.isPlain d = true ∧ isInert d = true := by
    refine ⟨Quiet.isPlain_of_class (by decide) member, ?_⟩
    have apart : ['\'', '"', '$', '/', '*', '\n'].all (fun mark => !CharClass.isWord mark) = true := by decide
    rw [isInert, Bool.not_eq_true', ← Bool.not_eq_true, List.contains_iff_mem]
    intro mark
    have outside := List.all_eq_true.mp apart d mark
    rw [member] at outside
    cases outside
  constructor <;> rw [source, List.all_cons, List.all_append, List.all_eq_true.mpr fun d member => ?_]
  · cases identifier <;> decide
  · exact (marks (word d member)).1
  · cases identifier <;> decide
  · exact (marks (word d member)).2

theorem inert_written : (key name identifier).written.all isInert = true := by
  cases identifier <;> rfl

theorem Recognises.head?_written {template : Text} {parts : List TemplatePart} (recognises : Recognises template parts)
    (unmarked : '?' ∉ template) : (parts.flatMap written).head? ≠ some '?' := by
  cases recognises with
  | nil => nofun
  | char c | @key c =>
    intro same
    rw [List.flatMap_cons] at same
    exact unmarked (Option.some.inj same ▸ List.mem_cons_self)

theorem Recognises.placeholders {template : Text} {parts : List TemplatePart} (recognises : Recognises template parts)
    (unmarked : '?' ∉ template) {state : SqlState} (regular : state.Regular) (settled : state ≠ .question) :
    (state.tokens (parts.flatMap written)).filter SqlToken.isPlaceholder = (live state parts).map placeholder := by
  induction recognises generalizing state with
  | nil =>
    cases state with
    | question => exact absurd rfl settled
    | _ => rfl
  | @char c rest parts _ _ ih =>
    rw [List.mem_cons, not_or] at unmarked
    obtain ⟨next, silent⟩ := step_unmarked settled (Ne.symm unmarked.1)
    have skip : live state (.char c :: parts) = live (state.step c).1 parts := by
      rw [live]
      split <;> rfl
    rw [List.flatMap_cons, skip, ← ih unmarked.2 (regular.step c) next]
    change (state.tokens (c :: parts.flatMap written)).filter _ = _
    rw [tokens_cons, List.filter_append, silent, List.nil_append]
  | @key c name identifier rest parts blank whole _ behind ih =>
    simp only [List.mem_cons, List.mem_append, not_or] at unmarked
    obtain ⟨first, -, unmarked⟩ := unmarked
    obtain ⟨-, silent⟩ := step_unmarked settled (Ne.symm first)
    -- The blank in front of the key has ended whatever mark had begun, so the key is read all outside or all
    -- inside of a region.
    have resting := regular.resting blank
    have regular := regular.step c
    obtain ⟨plain, inert⟩ := @plain_source _ identifier whole.word
    have skip : live state (.char c :: .key name identifier :: parts) =
        live (state.step c).1 (.key name identifier :: parts) := by
      rw [live]
      split <;> rfl
    rw [List.flatMap_cons, skip]
    change (state.tokens (c :: (TemplatePart.key name identifier :: parts).flatMap written)).filter _ = _
    rw [tokens_cons, List.filter_append, silent, List.nil_append, List.flatMap_cons, live]
    generalize (state.step c).1 = here at resting regular
    cases outside : here.isOutside with
    | true =>
      cases resting with
      | bare =>
        have later := @ih unmarked .bare trivial nofun
        rw [Quiet.read_plain plain, if_pos rfl, List.map_append, ← later]
        cases identifier with
        | true => rfl
        | false =>
          change (question.tokens (parts.flatMap written)).filter _ = _
          rw [tokens_question (behind.head?_written unmarked)]
          rfl
      | _ => cases outside
    | false =>
      have settled : here ≠ .question := by
        rintro rfl
        cases outside
      rw [resting.read_inert regular outside inert, if_neg Bool.false_ne_true, List.nil_append,
        ← ih unmarked regular settled, tokens_append, resting.read_inert regular outside inert_written,
        List.filter_append]
      cases identifier <;> rfl

end

theorem resolve_eq_ok_iff {values : Dictionary Value} {parts : List TemplatePart} {fragment : Raw} :
    resolve values parts = .ok fragment ↔ fragment.sql = parts.flatMap written ∧
      List.Forall₂ (fun key value => values.get? key.1 = some value) (parts.filterMap asks?) fragment.bindings := by
  obtain ⟨bindings, done, bound⟩ | ⟨before, name, identifier, after, rfl, -, missing, failed⟩ :=
    resolve_cases values parts
  · have single : Relator.RightUnique fun (key : Text × Bool) value => values.get? key.1 = some value :=
      fun _ _ _ first second => Option.some.inj (first.symm.trans second)
    rw [done]
    constructor
    · intro same
      cases same
      exact ⟨rfl, bound⟩
    · rintro ⟨sql, others⟩
      obtain ⟨_, _⟩ := fragment
      cases sql
      cases List.right_unique_forall₂' single bound others
      rfl
  · rw [failed]
    refine iff_of_false nofun fun both => ?_
    have asked : (name, identifier) ∈ (before ++ .key name identifier :: after).filterMap asks? :=
      List.mem_filterMap.mpr ⟨_, List.mem_append_right before List.mem_cons_self, rfl⟩
    obtain ⟨value, -, held⟩ := related_of_mem both.2 asked
    exact Option.some_ne_none value (held.symm.trans missing)

theorem live_sublist (state : SqlState) (parts : List TemplatePart) :
    List.Sublist (live state parts) (parts.filterMap asks?) := by
  induction parts generalizing state with
  | nil => exact .slnil
  | cons part rest ih =>
    have behind := ih (state.read part.source).1
    rw [live]
    cases part with
    | char c =>
      rw [List.filterMap_cons, asks?]
      split <;> exact behind
    | key name identifier =>
      rw [List.filterMap_cons, asks?]
      split
      · exact behind.cons_cons _
      · exact behind.cons _

def Open (state : SqlState) (parts : List TemplatePart) : Prop :=
  ∀ before name identifier after, parts = before ++ .key name identifier :: after →
    (state.read (before.flatMap source)).1.isOutside = true

theorem open_cons {state : SqlState} {part : TemplatePart} {rest : List TemplatePart} :
    Open state (part :: rest) ↔
      (part.asks?.isSome = true → state.isOutside = true) ∧ Open (state.read part.source).1 rest := by
  have reading (before : List TemplatePart) : (state.read ((part :: before).flatMap source)).1 =
      ((state.read part.source).1.read (before.flatMap source)).1 := by
    rw [List.flatMap_cons, read_append]
  constructor
  · intro free
    refine ⟨fun asks => ?_, fun before name identifier after split => ?_⟩
    · cases part with
      | char c => cases asks
      | key name identifier => exact free [] name identifier rest rfl
    · rw [← reading]
      exact free (part :: before) name identifier after (congrArg (part :: ·) split)
  · rintro ⟨first, behind⟩ before name identifier after split
    cases before with
    | nil =>
      obtain ⟨rfl, -⟩ := List.cons.inj split
      exact first rfl
    | cons head before =>
      obtain ⟨rfl, tail⟩ := List.cons.inj split
      rw [reading]
      exact behind before name identifier after tail

theorem live_eq_iff (state : SqlState) (parts : List TemplatePart) :
    live state parts = parts.filterMap asks? ↔ Open state parts := by
  induction parts generalizing state with
  | nil => exact iff_of_true rfl fun before _ _ _ split => by simp at split
  | cons part rest ih =>
    rw [open_cons, ← ih, live]
    cases part with
    | char c =>
      rw [List.filterMap_cons, asks?]
      split <;> simp
    | key name identifier =>
      rw [List.filterMap_cons, asks?]
      split
      · next outside => simp [outside]
      · next inside =>
        refine iff_of_false (fun same => ?_) fun both => inside (both.1 rfl)
        -- One key more than is live cannot be among the live ones.
        have shorter := (live_sublist (state.read (key name identifier).source).1 rest).length_le
        have length := congrArg List.length same
        simp only [List.nil_append, List.length_cons] at length
        omega

end TemplatePart

/-- A template without question marks asks for a value for each of its keys, in regions too, and
is rewritten at its keys and nowhere else. The placeholders of the result are those of the keys
outside every region, in their order, so there is one for each value just if no key is in a region. -/
theorem named_binds_iff_open (template : Text) (values : Dictionary Value) (unmarked : '?' ∉ template) :
    (TemplatePart.read template).flatMap TemplatePart.source = template ∧
    ((∃ fragment, Raw.named template values = .ok fragment) ↔
      ∀ key ∈ TemplatePart.keys template, ∃ value, values.get? key.1 = some value) ∧
    ∀ fragment, Raw.named template values = .ok fragment →
      fragment.sql = (TemplatePart.read template).flatMap TemplatePart.written ∧
      List.Forall₂ (fun key value => values.get? key.1 = some value) (TemplatePart.keys template) fragment.bindings ∧
      (SqlToken.ofText fragment.sql).filter SqlToken.isPlaceholder =
        (TemplatePart.live .bare (TemplatePart.read template)).map TemplatePart.placeholder ∧
      (placeholderCount fragment.sql = fragment.bindings.length ↔
        TemplatePart.Open .bare (TemplatePart.read template)) ∧
      (Statement.ofRaw fragment = .ok (.once fragment.sql fragment.bindings .raw) ↔
        TemplatePart.Open .bare (TemplatePart.read template)) := by
  have recognises := TemplatePart.recognises_iff.mpr (Eq.refl (TemplatePart.read template))
  refine ⟨recognises.source, ⟨?_, fun each => ?_⟩, fun fragment done => ?_⟩
  · rintro ⟨fragment, done⟩ key member
    obtain ⟨value, -, held⟩ := related_of_mem (TemplatePart.resolve_eq_ok_iff.mp done).2 member
    exact ⟨value, held⟩
  · obtain ⟨bindings, bound⟩ := exists_related each
    exact ⟨⟨_, bindings⟩, TemplatePart.resolve_eq_ok_iff.mpr ⟨rfl, bound⟩⟩
  · obtain ⟨sql, bound⟩ := TemplatePart.resolve_eq_ok_iff.mp done
    have outset : SqlState.bare.Regular := trivial
    have placed := recognises.placeholders unmarked outset nofun
    rw [← sql, ← SqlState.ofText_eq_tokens] at placed
    have count : placeholderCount fragment.sql = (TemplatePart.live .bare (TemplatePart.read template)).length := by
      rw [placeholderCount_eq, List.countP_eq_length_filter, placed, List.length_map]
    -- The live keys are among all keys, so there are as many of them only if they are all live.
    have fits : placeholderCount fragment.sql = fragment.bindings.length ↔
        TemplatePart.Open .bare (TemplatePart.read template) := by
      rw [count, ← bound.length_eq, ← TemplatePart.live_eq_iff]
      exact ⟨(TemplatePart.live_sublist _ _).eq_of_length, congrArg List.length⟩
    refine ⟨sql, bound, placed, fits, ?_⟩
    rw [← fits, Statement.ofRaw]
    split
    · next same => exact iff_of_true rfl same
    · next other => exact iff_of_false nofun other

def castTemplate : Text := "select ':a', b::text from :t: -- it's\n where c = :a::int".toList

def castValues : Dictionary Value := .ofList [("a".toList, .int 3), ("t".toList, .text "t".toList)]

theorem named_binds_iff_open_cast : '?' ∉ castTemplate ∧
    Raw.named castTemplate castValues = .ok ⟨"select ':a', b::text from ?? -- it's\n where c = ?::int".toList,
      [.text "t".toList, .int 3]⟩ ∧
    TemplatePart.Open .bare (TemplatePart.read castTemplate) := by
  have unmarked : '?' ∉ castTemplate := by decide
  have done : Raw.named castTemplate castValues = .ok ⟨"select ':a', b::text from ?? -- it's\n where c = ?::int".toList,
      [.text "t".toList, .int 3]⟩ := rfl
  obtain ⟨-, -, -, fits, -⟩ := (named_binds_iff_open castTemplate castValues unmarked).2.2 _ done
  exact ⟨unmarked, done, fits.mp (by decide)⟩

/-- A key in a string is rewritten, so its value finds no placeholder; without a value it is missed. -/
theorem key_in_string_rewritten :
    Raw.named "select ' :id'".toList (.ofList [("id".toList, .int 3)]) = .ok ⟨"select ' ?'".toList, [.int 3]⟩ ∧
    Statement.ofRaw ⟨"select ' ?'".toList, [.int 3]⟩ = .error (.bindingCount 1 0) ∧
    Raw.named "select ' :id'".toList .empty = .error (.missingNamedBinding "id".toList) := ⟨rfl, rfl, rfl⟩

end LiteralSql
