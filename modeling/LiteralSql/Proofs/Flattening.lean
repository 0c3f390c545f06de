import LiteralSql.Proofs.Layout
import LiteralSql.Sql.Flattened

/-! Putting statements together yields their flat forms.

The pieces and the values that have been pushed are those of a flat form, and
what is read off them is what is read off it. Each piece but the first has a
value in front of it.
-/

set_option autoImplicit false

namespace LiteralSql

def Flat.flattened (flat : Flat) : Flattened := ⟨flat.pieces, flat.values⟩

namespace Flattened

theorem pieces_append {first second : Flat} {init tail : List Text} {last head : Text}
    (front : first.pieces = init ++ [last]) (behind : second.pieces = head :: tail) :
    (first ++ second).pieces = init ++ (last ++ head) :: tail := by
  induction first generalizing init last with
  | nil =>
    rw [Flat.pieces] at front
    cases init with
    | nil =>
      obtain rfl : last = [] := by simpa using front.symm
      exact behind
    | cons => simp at front
  | cons item rest ih =>
    obtain ⟨piece, others, split⟩ := Flat.pieces_eq_cons rest
    rw [List.cons_append]
    cases item with
    | char c =>
      rw [Flat.pieces, split] at front
      rw [Flat.pieces]
      cases init with
      | nil =>
        obtain ⟨rfl, rfl⟩ : c :: piece = last ∧ others = [] := by simpa using front
        rw [@ih [] _ split]
        rfl
      | cons first init =>
        obtain ⟨rfl, rfl⟩ : c :: piece = first ∧ others = init ++ [last] := by simpa using front
        rw [@ih (piece :: init) _ split]
        rfl
    | value held =>
      rw [Flat.pieces] at front ⊢
      cases init with
      | nil => simp [split] at front
      | cons first init =>
        obtain ⟨rfl, inner⟩ := List.cons.inj front
        rw [ih inner]
        rfl

theorem pieces_ofText (text : Text) : (Flat.ofText text).pieces = [text] := by
  induction text with
  | nil => rfl
  | cons c rest ih =>
    change Flat.pieces (.char c :: Flat.ofText rest) = _
    rw [Flat.pieces, ih]

section
variable (before : Flat)

theorem exists_last : ∃ init last, before.pieces = init ++ [last] := by
  have some : before.pieces ≠ [] := List.ne_nil_of_length_pos (by rw [Flat.length_pieces]; omega)
  exact ⟨_, _, (List.dropLast_concat_getLast some).symm⟩

theorem pushText_flattened (text : Text) :
    before.flattened.pushText text = (before ++ Flat.ofText text).flattened := by
  obtain ⟨init, last, split⟩ := exists_last before
  rw [Flat.flattened, Flat.flattened, pieces_append split (pieces_ofText text), Flat.values_append, Flat.values_ofText]
  simp [pushText, split]

theorem pushValue_flattened (value : Value) :
    before.flattened.pushValue value = (before ++ [FlatItem.value value]).flattened := by
  obtain ⟨init, last, split⟩ := exists_last before
  have behind : Flat.pieces [.value value] = [] :: [[]] := rfl
  rw [Flat.flattened, Flat.flattened, pieces_append split behind, Flat.values_append]
  simp [pushValue, split, Flat.values]

end

theorem pushSegments_addText (run : Text) (segments : List SqlSegment) (bindings : List Value) (before : Flat) :
    pushSegments (SqlSegment.addText run segments) bindings before.flattened =
      pushSegments segments bindings (before ++ Flat.ofText run).flattened := by
  cases run with
  | nil => simp [SqlSegment.addText, Flat.ofText]
  | cons c rest =>
    rw [SqlSegment.addText, if_neg (by simp), pushSegments, pushText_flattened]

theorem ofTokens_char {token : SqlToken} {c : Char} (char : token.char? = some c) (tokens : List SqlToken) :
    SqlSegment.ofTokens (token :: tokens) =
      SqlSegment.addText (c :: (SqlSegment.gather tokens).1) (SqlSegment.gather tokens).2 := by
  cases token with
  | bare _ =>
    cases char
    rw [SqlSegment.ofTokens, SqlSegment.gather]
    dsimp only
    split <;> rfl
  | shielded _ =>
    cases char
    rfl
  | value | identifier => cases char

/-- Pushing behind a flat form adds this one to it, or fails with it. -/
def Adds (before : Flat) (flat : Except SqlError Flat) (pushed : Except SqlError Flattened) : Prop :=
  pushed = flat.map fun flat => (before ++ flat).flattened

section
variable {before : Flat}

theorem Adds.andThen {text : Flat} {later : Except SqlError Flat} {pushed : Except SqlError Flattened}
    (adds : Adds (before ++ text) later pushed) : Adds before (Flat.andThen (.ok text) later) pushed := by
  rw [Adds, adds, Flat.andThen_ok]
  cases later with
  | error error => rfl
  | ok later => exact congrArg (fun flat => Except.ok (Flat.flattened flat)) (List.append_assoc before text later)

theorem adds_segments (tokens : List SqlToken) {bindings : List Value}
    (nested : ∀ sql inner, .raw sql inner ∈ bindings → ∀ before : Flat,
      Adds before (Flat.ofBindings sql inner) (pushStatement sql inner before.flattened)) :
    Adds before (Flat.fill tokens (Value.flatPairs bindings))
      (pushSegments (SqlSegment.ofTokens tokens) bindings before.flattened) := by
  induction tokens generalizing bindings before with
  | nil => simp [Adds, SqlSegment.ofTokens, SqlSegment.gather, SqlSegment.addText, pushSegments, Flat.fill, Except.map]
  | cons token rest ih =>
    have char {c : Char} (char : token.char? = some c) :
        Adds before (Flat.fill (token :: rest) (Value.flatPairs bindings))
        (pushSegments (SqlSegment.ofTokens (token :: rest)) bindings before.flattened) := by
      have later := @ih (before ++ [.char c]) _ nested
      rw [SqlSegment.ofTokens, pushSegments_addText, List.append_assoc] at later
      rw [Flat.fill_char char, ofTokens_char char, pushSegments_addText]
      exact later.andThen
    cases token with
    | bare c | shielded c => exact char rfl
    | value =>
      change Adds before _ (pushSegments (.value :: SqlSegment.ofTokens rest) bindings before.flattened)
      cases bindings with
      | nil => simp [Adds, pushSegments, Value.flatPairs, Flat.fill, Except.map]
      | cons bound others =>
        have held := fun sql inner member => nested sql inner (List.mem_cons_of_mem bound member)
        rw [Value.flatPairs, Flat.fill_value, pushSegments.eq_def]
        cases bound with
        | raw sql inner =>
          change Adds before (Flat.andThen (Flat.ofBindings sql inner) _)
            (pushStatement sql inner before.flattened >>= _)
          rw [nested sql inner List.mem_cons_self before]
          cases Flat.ofBindings sql inner with
          | error error => rfl
          | ok spliced => exact (ih held).andThen
        | _ =>
          dsimp only
          rw [pushValue_flattened]
          exact (ih held).andThen
    | identifier =>
      change Adds before _ (pushSegments (.identifier :: SqlSegment.ofTokens rest) bindings before.flattened)
      cases bindings with
      | nil => simp [Adds, pushSegments, Value.flatPairs, Flat.fill, Except.map]
      | cons bound others =>
        have held := fun sql inner member => nested sql inner (List.mem_cons_of_mem bound member)
        rw [Value.flatPairs, Flat.fill_identifier, pushSegments.eq_def]
        cases bound with
        | text name =>
          dsimp only
          rw [pushText_flattened]
          exact (ih held).andThen
        | _ => rfl

theorem adds_statement (sql : Text) (bindings : List Value) (before : Flat) :
    Adds before (Flat.ofBindings sql bindings) (pushStatement sql bindings before.flattened) := by
  have count : (SqlSegment.ofText sql).countP SqlSegment.isPlaceholder = placeholderCount sql := rfl
  rw [pushStatement, count, Flat.ofBindings, Flat.fillAll, Value.length_flatPairs]
  by_cases counted : placeholderCount sql = bindings.length
  · rw [if_pos counted, if_pos counted]
    exact adds_segments _ fun sql inner member => adds_statement sql inner
  · rw [if_neg counted, if_neg counted]
    rfl
-- A statement among the bindings is smaller than they are.
termination_by sizeOf bindings
decreasing_by
  have smaller := List.sizeOf_lt_of_mem ‹_›
  simp only [Value.raw.sizeOf_spec] at smaller
  omega

/-- Nothing else is put together, and nothing else fails, than in the flat form. -/
theorem ofBindings_eq (sql : Text) (bindings : List Value) :
    ofBindings sql bindings = (Flat.ofBindings sql bindings).map Flat.flattened :=
  adds_statement sql bindings []

theorem length_pieces {sql : Text} {bindings : List Value} {flat : Flattened}
    (done : ofBindings sql bindings = .ok flat) : flat.pieces.length = flat.values.length + 1 := by
  rw [ofBindings_eq] at done
  cases flattened : Flat.ofBindings sql bindings with
  | error error =>
    rw [flattened] at done
    cases done
  | ok held =>
    rw [flattened] at done
    cases done
    exact held.length_pieces

theorem foldl_pushNumbered {flat : Flat} {piece : Text} {others : List Text} (split : flat.pieces = piece :: others)
    (sql : Text) (number : Nat) : (others.zipIdx (number + 1)).foldl pushNumbered (sql ++ piece) =
      sql ++ flat.parameterizedFrom (number + 1) := by
  induction flat generalizing piece others sql number with
  | nil =>
    cases split
    rfl
  | cons item rest ih =>
    obtain ⟨first, more, inner⟩ := Flat.pieces_eq_cons rest
    rw [Flat.pieces.eq_def] at split
    cases item with
    | char c =>
      simp only [inner, List.cons.injEq] at split
      obtain ⟨rfl, rfl⟩ := split
      have later := ih inner (sql ++ [c]) number
      rwa [List.append_assoc, List.append_assoc] at later
    | value held =>
      simp only [inner, List.cons.injEq] at split
      obtain ⟨rfl, rfl⟩ := split
      have later := ih inner (sql ++ '$' :: Text.ofNat (number + 1)) (number + 1)
      rw [List.zipIdx_cons, List.foldl_cons, pushNumbered, List.append_nil, later, Flat.parameterizedFrom]
      simp

theorem parameterized_flattened (flat : Flat) : flat.flattened.parameterized = flat.parameterized := by
  obtain ⟨piece, others, split⟩ := Flat.pieces_eq_cons flat
  rw [parameterized, Flat.flattened, split]
  exact foldl_pushNumbered split [] 0

theorem typeDescriptor_flattened (flat : Flat) : flat.flattened.typeDescriptor = flat.typeDescriptor := rfl

theorem foldlM_pushLiteral [LocalZone] (zone : TimeZone) {flat : Flat} {piece : Text} {others : List Text}
    (split : flat.pieces = piece :: others) (sql : Text) (before : List Value) :
    ((others.zipIdx (before.length + 1)).foldlM (pushLiteral zone (before ++ flat.values)) (sql ++ piece)).run =
      some ((flat.inlined zone).map (sql ++ ·)) := by
  induction flat generalizing piece others sql before with
  | nil =>
    cases split
    rfl
  | cons item rest ih =>
    obtain ⟨first, more, inner⟩ := Flat.pieces_eq_cons rest
    rw [Flat.pieces.eq_def] at split
    cases item with
    | char c =>
      simp only [inner, List.cons.injEq] at split
      obtain ⟨rfl, rfl⟩ := split
      have later := ih inner (sql ++ [c]) before
      rw [List.append_assoc] at later
      rw [Flat.inlined, Flat.values]
      refine later.trans (congrArg some ?_)
      cases Flat.inlined zone rest with
      | error error => rfl
      | ok text => simp [Except.map, bind, Except.bind]
    | value held =>
      simp only [inner, List.cons.injEq] at split
      obtain ⟨rfl, rfl⟩ := split
      have found : (before ++ held :: Flat.values rest)[before.length]? = some held := by simp
      rw [List.zipIdx_cons, List.foldlM_cons, pushLiteral, Flat.values, Flat.inlined, List.append_nil, found]
      cases written : held.literal zone with
      | error error =>
        simp only [Option.map_some, written]
        rfl
      | ok literal =>
        have later := ih inner (sql ++ literal) (before ++ [held])
        rw [List.append_assoc before, List.length_append] at later
        simp only [Option.map_some, written]
        refine later.trans (congrArg some ?_)
        cases Flat.inlined zone rest with
        | error error => rfl
        | ok text => simp [Except.map, bind, Except.bind]

/-- No value is looked up that is not there. -/
theorem inlined?_flattened [LocalZone] (zone : TimeZone) (flat : Flat) :
    flat.flattened.inlined? zone = some (flat.inlined zone) := by
  obtain ⟨piece, others, split⟩ := Flat.pieces_eq_cons flat
  have whole := foldlM_pushLiteral zone split [] []
  rw [inlined?, Flat.flattened, split]
  refine whole.trans (congrArg some ?_)
  cases flat.inlined zone <;> rfl

end

end Flattened

end LiteralSql
