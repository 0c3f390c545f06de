import LiteralSql.Proofs.Json.Respelling

/-! A value is read below open containers as it is read alone.

What strings say decides nothing about the brackets, so the two readings are
compared up to the names and the trees that the containers hold.
-/

set_option autoImplicit false

namespace LiteralSql

namespace JsonTree

variable {frames outer inner : List Frame} {tree other : JsonTree}

/-- The same open containers with `frames` outside of them, but for what they hold. -/
def Below (frames outer inner : List Frame) : Prop :=
  ∃ front, inner = front ++ frames ∧ front.map Frame.bracket = outer.map Frame.bracket

theorem Below.refl (frames : List Frame) : Below frames [] frames := ⟨[], rfl, rfl⟩

theorem Below.array (below : Below frames outer inner) (items others : List JsonTree) :
    Below frames (.array items :: outer) (.array others :: inner) := by
  obtain ⟨front, rfl, same⟩ := below
  exact ⟨.array others :: front, rfl, congrArg (0x5B :: ·) same⟩

theorem Below.object (below : Below frames outer inner) (members others : List (List JsonUnit × JsonTree))
    (name called : List JsonUnit) : Below frames (.object members name :: outer) (.object others called :: inner) := by
  obtain ⟨front, rfl, same⟩ := below
  exact ⟨.object others called :: front, rfl, congrArg (0x7B :: ·) same⟩

/-- The second state is the first one below `frames`. A tree that is complete in the first one has
been placed in the second one. -/
inductive State.Follows (frames : List Frame) : State → State → Prop
  | value {outer inner : List Frame} (below : Below frames outer inner) : Follows frames (.value outer) (.value inner)
  | firstItem {outer inner : List Frame} (below : Below frames outer inner) :
      Follows frames (.firstItem outer) (.firstItem inner)
  | firstName {outer inner : List Frame} (below : Below frames outer inner) :
      Follows frames (.firstName outer) (.firstName inner)
  | nextName {outer inner : List Frame} (members others : List (List JsonUnit × JsonTree))
      (below : Below frames outer inner) : Follows frames (.nextName members outer) (.nextName others inner)
  | colon {outer inner : List Frame} (members others : List (List JsonUnit × JsonTree)) (name called : List JsonUnit)
      (below : Below frames outer inner) : Follows frames (.colon members name outer) (.colon others called inner)
  | itemEnd {outer inner : List Frame} (items others : List JsonTree) (below : Below frames outer inner) :
      Follows frames (.itemEnd items outer) (.itemEnd others inner)
  | memberEnd {outer inner : List Frame} (members others : List (List JsonUnit × JsonTree))
      (below : Below frames outer inner) : Follows frames (.memberEnd members outer) (.memberEnd others inner)
  | complete {tree other : JsonTree} (kind : other.bracket? = tree.bracket?) :
      Follows frames (.complete tree) (place other frames)

theorem follows_place (below : Below frames outer inner) (kind : other.bracket? = tree.bracket?) :
    (place tree outer).Follows frames (place other inner) := by
  obtain ⟨front, rfl, same⟩ := below
  cases outer with
  | nil =>
    rw [List.map_nil, List.map_eq_nil_iff] at same
    rw [same]
    exact .complete kind
  | cons frame outer =>
    cases front with
    | nil => cases same
    | cons first front =>
      obtain ⟨head, tail⟩ := List.cons.inj same
      have below : Below frames outer (front ++ frames) := ⟨front, rfl, tail⟩
      cases frame with
      | array items =>
        cases first with
        | array others => exact .itemEnd _ _ below
        | object others called => cases head
      | object members name =>
        cases first with
        | array others => cases head
        | object others called => exact .memberEnd _ _ below

theorem follows_begin? {token found : JsonToken} {next : State} (below : Below frames outer inner)
    (alike : token.Alike found) (step : begin? outer token = some next) :
    ∃ last, begin? inner found = some last ∧ next.Follows frames last := by
  cases alike with
  | same =>
    cases token with
    | openArray =>
      cases step
      exact ⟨_, rfl, .firstItem below⟩
    | openObject =>
      cases step
      exact ⟨_, rfl, .firstName below⟩
    | null | bool value | number numeral | string units =>
      cases step
      exact ⟨_, rfl, follows_place below rfl⟩
    | closeArray | closeObject | comma | colon => cases step
  | string units others =>
    cases step
    exact ⟨_, rfl, follows_place below rfl⟩

theorem follows_step {state below next : State} {token found : JsonToken} (follows : state.Follows frames below)
    (alike : token.Alike found) (step : state.step token = some next) :
    ∃ last, below.step found = some last ∧ next.Follows frames last := by
  unfold State.step at step
  split at step
  case h_1 =>
    cases follows with
    | value place => exact follows_begin? place alike step
  case h_3 other =>
    cases follows with
    | firstItem place =>
      obtain ⟨last, found, follows⟩ := follows_begin? (place.array [] []) alike step
      refine ⟨last, ?_, follows⟩
      rw [step_firstItem, found]
      rintro rfl
      cases alike
      exact other rfl
  -- A container is closed.
  case h_2 | h_4 | h_9 | h_11 =>
    cases step
    cases alike
    cases follows
    next place => exact ⟨_, rfl, follows_place place rfl⟩
  -- A name is read.
  case h_5 | h_6 =>
    cases step
    cases follows
    next place => cases alike <;> exact ⟨_, rfl, .colon _ _ _ _ place⟩
  case h_7 =>
    cases step
    cases alike
    cases follows with
    | colon _ _ _ _ place => exact ⟨_, rfl, .value (place.object _ _ _ _)⟩
  case h_8 =>
    cases step
    cases alike
    cases follows with
    | itemEnd _ _ place => exact ⟨_, rfl, .value (place.array _ _)⟩
  case h_10 =>
    cases step
    cases alike
    cases follows with
    | memberEnd _ _ place => exact ⟨_, rfl, .nextName _ _ place⟩
  case h_12 => cases step

theorem follows_run {state below last : State} {tokens others : List JsonToken} (follows : state.Follows frames below)
    (alike : List.Forall₂ JsonToken.Alike tokens others) (run : state.run tokens = some last) :
    ∃ after, below.run others = some after ∧ last.Follows frames after := by
  induction alike generalizing state below with
  | nil =>
    cases run
    exact ⟨below, rfl, follows⟩
  | cons first _ ih =>
    obtain ⟨next, step, run⟩ := run_cons run
    obtain ⟨between, found, follows⟩ := follows_step follows first step
    obtain ⟨after, rest, follows⟩ := ih follows run
    exact ⟨after, Option.bind_eq_some_iff.mpr ⟨between, found, rest⟩, follows⟩

def State.scan (state : State) (text : Text) : Option State := (JsonToken.readAll text).bind state.run

theorem scan_blank {blanks : Text} (blank : blanks.all JsonToken.isBlank = true) (state : State) (rest : Text) :
    state.scan (blanks ++ rest) = state.scan rest := by
  have same : (blanks ++ rest).dropWhile JsonToken.isBlank = rest.dropWhile JsonToken.isBlank :=
    List.dropWhile_append_of_pos (List.all_eq_true.mp blank)
  rw [State.scan, State.scan, JsonToken.readAll_eq, same, ← JsonToken.readAll_eq]

section
variable {more text written : Text} {tokens others : List JsonToken}

theorem scan_tokens (all : JsonToken.readAll written = (JsonToken.readAll more).map (others ++ ·)) {state next : State}
    (run : state.run others = some next) : state.scan written = next.scan more := by
  rw [State.scan, all, Option.bind_map]
  refine Option.bind_congr fun tokens _ => ?_
  rw [Function.comp_apply, run_append, run, Option.bind_some]

theorem scan_cons {c : Char} (visible : JsonToken.isBlank c = false) {token : JsonToken} {rest : Text}
    (read : JsonToken.read (c :: rest) = some (token, rest)) {state next : State} (step : state.step token = some next) :
    state.scan (c :: rest) = next.scan rest := by
  have start : (c :: rest).dropWhile JsonToken.isBlank = c :: rest := List.dropWhile_cons_of_neg (by simp [visible])
  rw [← start] at read
  refine @scan_tokens rest (c :: rest) [token] (JsonToken.readAll_token read) state next ?_
  rw [run_cons_eq, step]
  rfl

variable (stops : JsonToken.Stops more) (respells : Respells more text written)
include stops respells

theorem grafted (read : JsonToken.readAll text = some tokens) (done : ofTokens? tokens = some tree)
    (frames : List Frame) : ∃ others found, JsonToken.readAll written = (JsonToken.readAll more).map (others ++ ·) ∧
      JsonTree.bracket? found = tree.bracket? ∧ (State.value frames).run others = some (place found frames) := by
  obtain ⟨others, alike, all⟩ := JsonToken.readAll_respells stops respells read
  have begins : (State.value []).Follows frames (.value frames) := .value (.refl frames)
  obtain ⟨after, run, follows⟩ := follows_run begins alike (run_of_ofTokens? done)
  cases follows with
  | @complete _ found kind => exact ⟨others, found, all, kind, run⟩

theorem scan_value (read : JsonToken.readAll text = some tokens) (done : ofTokens? tokens = some tree)
    (frames : List Frame) : ∃ found, JsonTree.bracket? found = tree.bracket? ∧
      (State.value frames).scan written = (place found frames).scan more := by
  obtain ⟨others, found, all, kind, run⟩ := grafted stops respells read done frames
  exact ⟨found, kind, scan_tokens all run⟩

theorem scan_firstItem (read : JsonToken.readAll text = some tokens) (done : ofTokens? tokens = some tree)
    (frames : List Frame) : ∃ found, (State.firstItem frames).scan written = (State.itemEnd [found] frames).scan more := by
  obtain ⟨others, found, all, kind, run⟩ := grafted stops respells read done (.array [] :: frames)
  refine ⟨found, scan_tokens all ?_⟩
  cases others with
  | nil =>
    cases found <;> cases run
  | cons first rest =>
    rw [run_firstItem ?_ (List.cons_ne_nil _ _), run]
    · rfl
    · rintro _ ⟨⟩ rfl
      cases run

theorem scan_name {units : List JsonUnit} (read : JsonToken.readAll text = some [.string units]) :
    ∃ found, ∀ {state next : State}, state.step (.string found) = some next → state.scan written = next.scan more := by
  obtain ⟨others, alike, all⟩ := JsonToken.readAll_respells stops respells read
  cases alike with
  | cons first rest =>
    cases rest
    have single {state next : State} {token : JsonToken} (step : state.step token = some next) :
        state.run [token] = some next := by
      rw [run_cons_eq, step]
      rfl
    cases first with
    | same => exact ⟨_, fun step => scan_tokens all (single step)⟩
    | string _ others => exact ⟨others, fun step => scan_tokens all (single step)⟩

end

end JsonTree

end LiteralSql
