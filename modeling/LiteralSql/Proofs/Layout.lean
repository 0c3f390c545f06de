import LiteralSql.Proofs.Reading
import LiteralSql.Sql.Flat

/-! Texts with their values in place.

A layout is what a statement looks like to the one who wrote it: pieces of text,
values and raw fragments in one sequence. A statement keeps the text and the
values apart and joins them again by reading the text. The two agree if the
text between the placeholders is quiet, if each raw fragment agrees with its own
bindings, and if no mark runs over from one piece into the next.
-/

set_option autoImplicit false

namespace LiteralSql

namespace Flat

/-- One flat form behind another. The first failure counts. -/
def andThen (first second : Except SqlError Flat) : Except SqlError Flat := do
  .ok ((← first) ++ (← second))

theorem andThen_ok (first : Flat) (second : Except SqlError Flat) :
    andThen (.ok first) second = second.map (first ++ ·) := by
  cases second <;> rfl

@[simp] theorem andThen_error (error : SqlError) (second : Except SqlError Flat) :
    andThen (.error error) second = .error error := rfl

@[simp] theorem andThen_nil (second : Except SqlError Flat) : andThen (.ok []) second = second := by
  cases second <;> rfl

theorem andThen_assoc (first second third : Except SqlError Flat) :
    andThen (andThen first second) third = andThen first (andThen second third) := by
  cases first with
  | error error => rfl
  | ok first =>
    cases second with
    | error error => rfl
    | ok second => cases third <;> simp [andThen_ok, Except.map]

theorem fill_char {token : SqlToken} {c : Char} (char : token.char? = some c) (tokens : List SqlToken)
    (bindings : List (Value × Except SqlError Flat)) :
    fill (token :: tokens) bindings = andThen (.ok [.char c]) (fill tokens bindings) := by
  cases token with
  | bare _ => cases char; cases bindings <;> rfl
  | shielded _ => cases char; cases bindings <;> rfl
  | value => cases char
  | identifier => cases char

def spliceName : Value → Except SqlError Flat
  | .text name => .ok (ofText (Identifier.quoteQualified name))
  | other => .error (.invalidIdentifier other.typeTag)

theorem fill_identifier (tokens : List SqlToken) (bound : Value) (flat : Except SqlError Flat)
    (bindings : List (Value × Except SqlError Flat)) :
    fill (.identifier :: tokens) ((bound, flat) :: bindings) =
      andThen (spliceName bound) (fill tokens bindings) := by
  cases bound <;> rfl

theorem fill_value (tokens : List SqlToken) (bound : Value) (flat : Except SqlError Flat)
    (bindings : List (Value × Except SqlError Flat)) :
    fill (.value :: tokens) ((bound, flat) :: bindings) = andThen flat (fill tokens bindings) := rfl

theorem fill_cons_cases (token : SqlToken) (tokens : List SqlToken) (bindings : List (Value × Except SqlError Flat)) :
    (∃ c, fill (token :: tokens) bindings = andThen (.ok [.char c]) (fill tokens bindings)) ∨
      fill (token :: tokens) bindings = .ok [] ∨
      ∃ bound flat others, bindings = (bound, flat) :: others ∧
        (fill (token :: tokens) bindings = andThen (spliceName bound) (fill tokens others) ∨
          fill (token :: tokens) bindings = andThen flat (fill tokens others)) := by
  cases token with
  | bare c | shielded c => exact .inl ⟨c, fill_char rfl tokens bindings⟩
  | value =>
    cases bindings with
    | nil => exact .inr (.inl rfl)
    | cons binding others => exact .inr (.inr ⟨_, _, others, rfl, .inr (fill_value tokens binding.1 _ others)⟩)
  | identifier =>
    cases bindings with
    | nil => exact .inr (.inl rfl)
    | cons binding others => exact .inr (.inr ⟨_, _, others, rfl, .inl (fill_identifier tokens _ binding.2 others)⟩)

theorem counted_cases {A : Type} {token : SqlToken} {tokens : List SqlToken} {bindings : List A}
    (counted : (token :: tokens).countP SqlToken.isPlaceholder = bindings.length) :
    (∃ c, token.char? = some c ∧ ¬ token.isPlaceholder = true ∧
        tokens.countP SqlToken.isPlaceholder = bindings.length) ∨
      ∃ binding others, bindings = binding :: others ∧
        tokens.countP SqlToken.isPlaceholder = others.length ∧ (token = .value ∨ token = .identifier) := by
  cases token with
  | bare c | shielded c =>
    rw [List.countP_cons_of_neg Bool.false_ne_true] at counted
    exact .inl ⟨c, rfl, Bool.false_ne_true, counted⟩
  | value | identifier =>
    rw [List.countP_cons_of_pos rfl] at counted
    obtain ⟨binding, others, rfl⟩ := List.exists_cons_of_length_eq_add_one counted.symm
    exact .inr ⟨binding, others, rfl, Nat.succ_inj.mp counted, by simp⟩

theorem fill_append {first second : List SqlToken} {left right : List (Value × Except SqlError Flat)}
    (counted : first.countP SqlToken.isPlaceholder = left.length) :
    fill (first ++ second) (left ++ right) = andThen (fill first left) (fill second right) := by
  induction first generalizing left with
  | nil =>
    have empty : left = [] := List.eq_nil_of_length_eq_zero counted.symm
    subst empty
    rw [List.nil_append, List.nil_append, fill, andThen_nil]
  | cons token rest ih =>
    obtain ⟨c, char, -, fewer⟩ | ⟨⟨bound, flat⟩, others, rfl, fewer, rfl | rfl⟩ := counted_cases counted
    · rw [List.cons_append, fill_char char, fill_char char, ih fewer, andThen_assoc]
    · rw [List.cons_append, List.cons_append, fill_value, fill_value, ih fewer, andThen_assoc]
    · rw [List.cons_append, List.cons_append, fill_identifier, fill_identifier, ih fewer, andThen_assoc]

theorem fill_verbatim {tokens : List SqlToken} {text : Text}
    (verbatim : tokens.map SqlToken.char? = text.map some) : fill tokens [] = .ok (ofText text) := by
  induction tokens generalizing text with
  | nil =>
    cases text with
    | nil => rfl
    | cons c rest => cases verbatim
  | cons token tokens ih =>
    cases text with
    | nil => cases verbatim
    | cons c rest =>
      obtain ⟨char, verbatim⟩ := List.cons.inj verbatim
      rw [fill_char char, ih verbatim]
      rfl

end Flat

theorem Value.flatPairs_eq_map (values : List Value) :
    flatPairs values = values.map fun value => (value, value.flat) := by
  induction values with
  | nil => rfl
  | cons value rest ih => rw [flatPairs, ih, List.map_cons]

theorem Value.flatPairs_append (first second : List Value) :
    flatPairs (first ++ second) = flatPairs first ++ flatPairs second := by
  rw [flatPairs_eq_map, List.map_append, ← flatPairs_eq_map, ← flatPairs_eq_map]

theorem Value.length_flatPairs (values : List Value) : (flatPairs values).length = values.length := by
  rw [flatPairs_eq_map, List.length_map]

/-- The text ends outside every region and has a placeholder for each binding. -/
structure Raw.Closed (fragment : Raw) : Prop where
  outside : (SqlState.bare.read fragment.sql).1.isOutside = true
  counted : placeholderCount fragment.sql = fragment.bindings.length

instance (fragment : Raw) : Decidable fragment.Closed :=
  decidable_of_iff ((SqlState.bare.read fragment.sql).1.isOutside = true ∧
      placeholderCount fragment.sql = fragment.bindings.length)
    ⟨fun both => ⟨both.1, both.2⟩, fun closed => ⟨closed.outside, closed.counted⟩⟩

inductive Piece
  | text (sql : Text)
  | value (bound : Value)
  | raw (fragment : Raw)

namespace Piece

def sql : Piece → Text
  | .text sql => sql
  | .value _ => ['?']
  | .raw fragment => fragment.sql

def params : Piece → List Value
  | .text _ => []
  | .value bound => [bound]
  | .raw fragment => fragment.bindings

def flat : Piece → Except SqlError Flat
  | .text sql => .ok (Flat.ofText sql)
  | .value bound => bound.flat
  | .raw fragment => Flat.ofBindings fragment.sql fragment.bindings

end Piece

abbrev Layout := List Piece

namespace Layout

def sql (layout : Layout) : Text := layout.flatMap Piece.sql

def params (layout : Layout) : List Value := layout.flatMap Piece.params

def flat : Layout → Except SqlError Flat
  | [] => .ok []
  | piece :: rest => Flat.andThen piece.flat (flat rest)

@[simp] theorem sql_nil : sql [] = [] := rfl

@[simp] theorem sql_cons (piece : Piece) (rest : Layout) : sql (piece :: rest) = piece.sql ++ sql rest :=
  rfl

@[simp] theorem sql_append (first second : Layout) : sql (first ++ second) = sql first ++ sql second := by
  simp [sql]

@[simp] theorem params_nil : params [] = [] := rfl

@[simp] theorem params_cons (piece : Piece) (rest : Layout) :
    params (piece :: rest) = piece.params ++ params rest := rfl

@[simp] theorem params_append (first second : Layout) :
    params (first ++ second) = params first ++ params second := by
  simp [params]

/-- The text, if there is any, begins with a character that completes no mark. -/
def Detached (text : Text) : Prop := ∀ c ∈ text.head?, SqlState.breaksMarks c = true

/-- Nothing runs over from one piece into the next. -/
def Sound : Layout → Prop
  | [] => True
  | .text sql :: rest => Quiet sql ∧ Sound rest
  | .value _ :: rest => Detached (Layout.sql rest) ∧ Sound rest
  | .raw fragment :: rest => fragment.Closed ∧ Detached (Layout.sql rest) ∧ Sound rest

theorem Detached.nil : Detached [] := fun _ none => by cases none

theorem Detached.append {first second : Text} (left : Detached first) (right : Detached second) :
    Detached (first ++ second) := by
  cases first with
  | nil => exact right
  | cons c rest => exact left

theorem Sound.append {first second : Layout} (left : Sound first) (right : Sound second)
    (detached : Detached second.sql) : Sound (first ++ second) := by
  induction first with
  | nil => exact right
  | cons piece rest ih =>
    have follows : Detached (Layout.sql rest) → Detached (Layout.sql (rest ++ second)) := fun before => by
      rw [sql_append]
      exact before.append detached
    cases piece with
    | text sql => exact ⟨left.1, ih left.2⟩
    | value bound => exact ⟨follows left.1, ih left.2⟩
    | raw fragment => exact ⟨left.1, follows left.2.1, ih left.2.2⟩

end Layout

namespace SqlToken

/-- A text that settles, or one that is followed by a break, is read as if it stood alone. -/
theorem ofText_append {first second : Text} (outside : (SqlState.bare.read first).1.isOutside = true)
    (apart : (SqlState.bare.read first).1 = .bare ∨ Layout.Detached second) :
    ofText (first ++ second) = ofText first ++ ofText second ∧
      ((SqlState.bare.read second).1.isOutside = true →
        (SqlState.bare.read (first ++ second)).1.isOutside = true) := by
  -- Either nothing is pending at the end of `first`, or what is pending is cut off
  -- by the first character of `second`.
  rcases apart with settles | detached
  · have reading := SqlState.read_append_of_bare settles second
    refine ⟨?_, fun after => by rw [reading]; exact after⟩
    simp only [ofText, reading, settles, SqlState.pending, List.append_nil, List.append_assoc]
  · cases second with
    | nil => simp [ofText, outside, SqlState.pending]
    | cons c rest =>
      have reading := SqlState.read_append .bare first (c :: rest)
      rw [SqlState.read_of_breaksMarks outside (detached c rfl)] at reading
      refine ⟨?_, fun after => by rw [reading]; exact after⟩
      simp only [ofText, reading, List.append_assoc]

end SqlToken

/-- Read as a whole, the text has a placeholder for each value, and filling them
in gives the flat form. -/
structure Places (sql : Text) (params : List Value) (flat : Except SqlError Flat) : Prop where
  outside : (SqlState.bare.read sql).1.isOutside = true
  counted : (SqlToken.ofText sql).countP SqlToken.isPlaceholder = params.length
  filled : Flat.fill (SqlToken.ofText sql) (Value.flatPairs params) = flat

namespace Places

theorem append {first second : Text} {left right : List Value} {head tail : Except SqlError Flat}
    (before : Places first left head) (after : Places second right tail)
    (apart : (SqlState.bare.read first).1 = .bare ∨ Layout.Detached second) :
    Places (first ++ second) (left ++ right) (Flat.andThen head tail) := by
  obtain ⟨tokens, outside⟩ := SqlToken.ofText_append before.outside apart
  constructor
  · exact outside after.outside
  · rw [tokens, List.countP_append, before.counted, after.counted, List.length_append]
  · rw [tokens, Value.flatPairs_append, Flat.fill_append, before.filled, after.filled]
    rw [before.counted, Value.length_flatPairs]

theorem of_quiet {sql : Text} (quiet : Quiet sql) : Places sql [] (.ok (Flat.ofText sql)) := by
  have tokens := SqlToken.ofText_of_bare quiet.settles
  constructor
  · rw [quiet.settles]
    rfl
  · rw [tokens, SqlToken.countP_eq_zero quiet.verbatim]
    rfl
  · rw [tokens]
    exact Flat.fill_verbatim quiet.verbatim

theorem of_value (bound : Value) : Places ['?'] [bound] bound.flat where
  outside := rfl
  counted := rfl
  filled := by
    change Flat.andThen bound.flat (.ok []) = bound.flat
    cases bound.flat <;> simp [Flat.andThen_ok, Except.map]

theorem of_raw {fragment : Raw} (closed : fragment.Closed) :
    Places fragment.sql fragment.bindings (Flat.ofBindings fragment.sql fragment.bindings) where
  outside := closed.outside
  counted := by rw [← placeholderCount_eq, closed.counted]
  filled := by
    rw [Flat.ofBindings, Flat.fillAll, if_pos]
    rw [closed.counted, Value.length_flatPairs]

theorem ofBindings {sql : Text} {params : List Value} {flat : Except SqlError Flat}
    (places : Places sql params flat) :
    placeholderCount sql = params.length ∧ Flat.ofBindings sql params = flat := by
  have counted : placeholderCount sql = params.length := by
    rw [placeholderCount_eq, places.counted]
  refine ⟨counted, ?_⟩
  rw [Flat.ofBindings, Flat.fillAll, if_pos, places.filled]
  rw [counted, Value.length_flatPairs]

end Places

theorem Layout.Sound.places {layout : Layout} (sound : layout.Sound) :
    Places layout.sql layout.params layout.flat := by
  induction layout with
  | nil => exact ⟨rfl, rfl, rfl⟩
  | cons piece rest ih =>
    cases piece with
    | text sql =>
      obtain ⟨quiet, sound⟩ := sound
      exact (Places.of_quiet quiet).append (ih sound) (.inl quiet.settles)
    | value bound =>
      obtain ⟨detached, sound⟩ := sound
      exact (Places.of_value bound).append (ih sound) (.inr detached)
    | raw fragment =>
      obtain ⟨closed, detached, sound⟩ := sound
      exact (Places.of_raw closed).append (ih sound) (.inr detached)

end LiteralSql
