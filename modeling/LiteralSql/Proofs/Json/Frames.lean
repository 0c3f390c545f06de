import LiteralSql.Json.Tree
import LiteralSql.Proofs.Json.Lexemes

/-! The brackets that are open while a tree is read. -/

set_option autoImplicit false

namespace LiteralSql

def JsonToken.opens? : JsonToken → Option UInt8
  | .openArray => some 0x5B
  | .openObject => some 0x7B
  | _ => none

def JsonToken.closes? : JsonToken → Option UInt8
  | .closeArray => some 0x5B
  | .closeObject => some 0x7B
  | _ => none

theorem JsonToken.scalar_brackets {token : JsonToken} (scalar : token.isScalar = true) :
    token.opens? = none ∧ token.closes? = none := by
  cases token with
  | null | bool value | number numeral => exact ⟨rfl, rfl⟩
  | _ => cases scalar

namespace JsonTree

def bracket? : JsonTree → Option UInt8
  | .array _ => some 0x5B
  | .object _ => some 0x7B
  | _ => none

def Frame.bracket : Frame → UInt8
  | .array _ => 0x5B
  | .object _ _ => 0x7B

namespace State

def brackets : State → List UInt8
  | .value outer => outer.map Frame.bracket
  | .firstItem outer => 0x5B :: outer.map Frame.bracket
  | .firstName outer => 0x7B :: outer.map Frame.bracket
  | .nextName _ outer => 0x7B :: outer.map Frame.bracket
  | .colon _ _ outer => 0x7B :: outer.map Frame.bracket
  | .itemEnd _ outer => 0x5B :: outer.map Frame.bracket
  | .memberEnd _ outer => 0x7B :: outer.map Frame.bracket
  | .complete _ => []

def root? : State → Option UInt8
  | .complete tree => tree.bracket?
  | state => state.brackets.getLast?

end State

theorem brackets_place (tree : JsonTree) (frames : List Frame) :
    (place tree frames).brackets = frames.map Frame.bracket := by
  cases frames with
  | nil => rfl
  | cons frame outer => cases frame <;> rfl

inductive Nests : List UInt8 → JsonToken → List UInt8 → Prop
  | opening {brackets : List UInt8} {token : JsonToken} {bracket : UInt8}
      (opens : token.opens? = some bracket) : Nests brackets token (bracket :: brackets)
  | closing {brackets : List UInt8} {token : JsonToken} {bracket : UInt8}
      (closes : token.closes? = some bracket) : Nests (bracket :: brackets) token brackets
  | within {brackets : List UInt8} {token : JsonToken} (opens : token.opens? = none)
      (closes : token.closes? = none) : Nests brackets token brackets

theorem nests_begin? {frames : List Frame} {token : JsonToken} {next : State}
    (step : begin? frames token = some next) : Nests (frames.map Frame.bracket) token next.brackets := by
  cases token with
  | openArray | openObject =>
    cases step
    exact .opening rfl
  | null | bool value | number numeral | string units =>
    cases step
    rw [brackets_place]
    exact .within rfl rfl
  | closeArray | closeObject | comma | colon => cases step

theorem nests_step {state next : State} {token : JsonToken} (step : state.step token = some next) :
    Nests state.brackets token next.brackets := by
  -- A value begins, a container closes, or a separator stays within its container.
  unfold State.step at step
  split at step
  case h_1 => exact nests_begin? step
  case h_3 => exact nests_begin? step
  case h_2 | h_4 | h_9 | h_11 =>
    cases step
    rw [brackets_place]
    exact .closing rfl
  case h_5 | h_6 | h_7 | h_8 | h_10 =>
    cases step
    exact .within rfl rfl
  case h_12 => cases step

theorem root?_of_inside {state : State} (inside : state.brackets ≠ []) : state.root? = state.brackets.getLast? := by
  cases state with
  | complete tree => exact absurd rfl inside
  | _ => rfl

theorem root?_place_inside (tree : JsonTree) {frames : List Frame} (inside : frames ≠ []) :
    (place tree frames).root? = (frames.map Frame.bracket).getLast? := by
  cases frames with
  | nil => exact absurd rfl inside
  | cons frame outer => cases frame <;> rfl

theorem root?_place_container {tree : JsonTree} {bracket : UInt8} (container : tree.bracket? = some bracket)
    (frames : List Frame) :
    (place tree frames).root? = (bracket :: frames.map Frame.bracket).getLast? := by
  cases frames with
  | nil => exact container
  | cons frame outer =>
    rw [root?_place_inside tree (List.cons_ne_nil _ _), List.map_cons, List.getLast?_cons_cons]

theorem root?_begin? {frames : List Frame} {token : JsonToken} {next : State}
    (step : begin? frames token = some next) (inside : frames ≠ []) :
    next.root? = (frames.map Frame.bracket).getLast? := by
  cases token with
  | openArray | openObject =>
    cases step
    cases frames with
    | nil => exact absurd rfl inside
    | cons frame outer => exact List.getLast?_cons_cons
  | null | bool value | number numeral | string units =>
    cases step
    exact root?_place_inside _ inside
  | closeArray | closeObject | comma | colon => cases step

theorem root?_step {state next : State} {token : JsonToken} (step : state.step token = some next)
    (inside : state.brackets ≠ []) : next.root? = state.root? := by
  unfold State.step at step
  split at step
  case h_1 => exact root?_begin? step fun none => inside (List.map_eq_nil_iff.mpr none)
  case h_3 => exact root?_begin? step (List.cons_ne_nil _ _)
  case h_2 | h_4 | h_9 | h_11 =>
    cases step
    exact root?_place_container rfl _
  case h_5 | h_6 | h_7 | h_8 | h_10 =>
    cases step
    rfl
  case h_12 => cases step

theorem complete_of_place {tree : JsonTree} {frames : List Frame}
    (outside : (place tree frames).brackets = []) : place tree frames = .complete tree := by
  cases frames with
  | nil => rfl
  | cons frame outer => cases frame <;> cases outside

theorem complete_of_step {state next : State} {token : JsonToken} (step : state.step token = some next)
    (outside : next.brackets = []) : ∃ tree, next = .complete tree := by
  have begun {frames : List Frame} (step : begin? frames token = some next) : ∃ tree, next = .complete tree := by
    cases token with
    | openArray | openObject =>
      cases step
      cases outside
    | null | bool value | number numeral | string units =>
      cases step
      exact ⟨_, complete_of_place outside⟩
    | closeArray | closeObject | comma | colon => cases step
  unfold State.step at step
  split at step
  case h_1 => exact begun step
  case h_3 => exact begun step
  case h_2 | h_4 | h_9 | h_11 =>
    cases step
    exact ⟨_, complete_of_place outside⟩
  case h_5 | h_6 | h_7 | h_8 | h_10 =>
    cases step
    cases outside
  case h_12 => cases step

theorem run_cons_eq (state : State) (token : JsonToken) (tokens : List JsonToken) :
    state.run (token :: tokens) = (state.step token).bind fun next => next.run tokens := rfl

theorem run_append (state : State) (first second : List JsonToken) :
    state.run (first ++ second) = (state.run first).bind fun next => next.run second :=
  List.foldlM_append

theorem step_firstItem {token : JsonToken} (other : token ≠ .closeArray) (frames : List Frame) :
    (State.firstItem frames).step token = begin? (.array [] :: frames) token := by
  cases token with
  | closeArray => exact absurd rfl other
  | _ => rfl

theorem run_firstItem {tokens : List JsonToken} (other : ∀ first ∈ tokens.head?, first ≠ .closeArray)
    (some : tokens ≠ []) (frames : List Frame) :
    (State.firstItem frames).run tokens = (State.value (.array [] :: frames)).run tokens := by
  obtain ⟨first, more, rfl⟩ := List.exists_cons_of_ne_nil some
  rw [run_cons_eq, run_cons_eq, step_firstItem (other first rfl)]
  rfl

theorem run_cons {state last : State} {token : JsonToken} {tokens : List JsonToken}
    (run : state.run (token :: tokens) = some last) :
    ∃ next, state.step token = some next ∧ next.run tokens = some last :=
  Option.bind_eq_some_iff.mp run

theorem run_complete {tree : JsonTree} {tokens : List JsonToken} {last : State}
    (run : (State.complete tree).run tokens = some last) : tokens = [] ∧ last = .complete tree := by
  cases tokens with
  | nil =>
    cases run
    exact ⟨rfl, rfl⟩
  | cons token rest =>
    obtain ⟨next, step, -⟩ := run_cons run
    cases step

theorem root?_run {state : State} {tokens : List JsonToken} {tree : JsonTree}
    (run : state.run tokens = some (.complete tree)) (inside : state.brackets ≠ []) :
    tree.bracket? = state.root? := by
  induction tokens generalizing state with
  | nil =>
    cases run
    exact absurd rfl inside
  | cons token rest ih =>
    obtain ⟨next, step, run⟩ := run_cons run
    rw [← root?_step step inside]
    -- The token that closes the last bracket still belongs to the container.
    by_cases outside : next.brackets = []
    · obtain ⟨done, same⟩ := complete_of_step step outside
      rw [same] at run ⊢
      obtain ⟨-, last⟩ := run_complete run
      cases last
      rfl
    · exact ih run outside

theorem run_of_ofTokens? {tokens : List JsonToken} {tree : JsonTree} (done : ofTokens? tokens = some tree) :
    (State.value []).run tokens = some (.complete tree) := by
  rw [ofTokens?] at done
  split at done
  · next last run =>
    cases done
    exact run
  · cases done

/-- The tokens of a tree that begins with a bracket: what follows is read with the bracket open. -/
structure Container (tokens : List JsonToken) (tree : JsonTree) (bracket : UInt8) : Prop where
  kind : tree.bracket? = some bracket
  rest : ∃ first rest state, tokens = first :: rest ∧ JsonToken.opens? first = some bracket ∧
    State.brackets state = [bracket] ∧ state.run rest = some (.complete tree)

theorem ofTokens?_cases {tokens : List JsonToken} {tree : JsonTree} (done : ofTokens? tokens = some tree) :
    (∃ token, tokens = [token] ∧ token.isScalar = true ∧ tree.bracket? = none ∧ ∀ units, tree ≠ .string units) ∨
    (∃ units, tokens = [.string units] ∧ tree = .string units) ∨
    ∃ bracket, Container tokens tree bracket := by
  have run := run_of_ofTokens? done
  cases tokens with
  | nil => cases run
  | cons token rest =>
    obtain ⟨next, step, run⟩ := run_cons run
    cases token with
    | openArray | openObject =>
      cases step
      exact .inr (.inr ⟨_, root?_run run (List.cons_ne_nil _ _), _, rest, _, rfl, rfl, rfl, run⟩)
    | null | bool value | number numeral =>
      cases step
      obtain ⟨rfl, same⟩ := run_complete run
      cases same
      exact .inl ⟨_, rfl, rfl, rfl, nofun⟩
    | string units =>
      cases step
      obtain ⟨rfl, same⟩ := run_complete run
      cases same
      exact .inr (.inl ⟨units, rfl, rfl⟩)
    | closeArray | closeObject | comma | colon => cases step

end JsonTree

end LiteralSql
