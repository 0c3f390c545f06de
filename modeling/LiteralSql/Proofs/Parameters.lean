import LiteralSql.Proofs.Script

/-! The references to parameters in a text that is prepared.

A dollar sign outside every region with digits behind it refers to a parameter.
Slots are written in this way without regard to the text around them: a digit
behind a slot is read as a part of its number, a dollar sign in front of it opens
a dollar quote with it, and what the text itself refers to is read as a slot.
-/

set_option autoImplicit false

namespace LiteralSql

inductive SqlPart
  | char (c : Char)
  | parameter (number : Nat)
  deriving DecidableEq

namespace SqlPart

def splitDigits : List SqlPart → Text × List SqlPart
  | .char c :: rest =>
    if Text.isDigit c then (c :: (splitDigits rest).1, (splitDigits rest).2) else ([], .char c :: rest)
  | parts => ([], parts)

def fill (literals : List Text) : List SqlPart → Option Text
  | [] => some []
  | .char c :: rest => do some (c :: (← fill literals rest))
  | .parameter 0 :: _ => none
  | .parameter (index + 1) :: rest => do some ((← literals[index]?) ++ (← fill literals rest))

/-- Puts a dollar sign in front, which refers to a parameter if digits come next. -/
def refer (parts : List SqlPart) : List SqlPart :=
  match splitDigits parts with
  | ([], _) => .char '$' :: parts
  | (digits, behind) => .parameter (Text.toNat digits) :: behind

theorem splitDigits_append {digits : Text} (numeric : ∀ c ∈ digits, Text.isDigit c = true) (parts : List SqlPart) :
    splitDigits (digits.map .char ++ parts) = (digits ++ (splitDigits parts).1, (splitDigits parts).2) := by
  induction digits with
  | nil => rfl
  | cons c rest ih =>
    rw [List.forall_mem_cons] at numeric
    rw [List.map_cons, List.cons_append, splitDigits, if_pos numeric.1, ih numeric.2]
    rfl

theorem behind_of_no_digits {parts : List SqlPart} (none : (splitDigits parts).1 = []) :
    (splitDigits parts).2 = parts := by
  cases parts with
  | nil => rfl
  | cons part rest =>
    cases part with
    | parameter number => rfl
    | char c =>
      rw [splitDigits] at none ⊢
      split at none
      · cases none
      · next other => rw [if_neg other]

theorem refer_of_no_digits {parts : List SqlPart} (none : (splitDigits parts).1 = []) :
    refer parts = .char '$' :: parts := by
  rw [refer]
  cases split : splitDigits parts with
  | mk digits behind =>
    rw [split] at none
    cases none
    rfl

theorem refer_of_digits {parts : List SqlPart} (some : (splitDigits parts).1 ≠ []) :
    refer parts = .parameter (Text.toNat (splitDigits parts).1) :: (splitDigits parts).2 := by
  rw [refer]
  cases split : splitDigits parts with
  | mk digits behind =>
    rw [split] at some
    cases digits with
    | nil => exact absurd rfl some
    | cons c rest => rfl

theorem refer_eq_char_iff {parts rest : List SqlPart} :
    refer parts = .char '$' :: rest ↔ (splitDigits parts).1 = [] ∧ parts = rest := by
  by_cases none : (splitDigits parts).1 = []
  · simp [refer_of_no_digits none, none]
  · simp [refer_of_digits none, none]

end SqlPart

namespace SqlState

/-- A dollar sign that comes next is outside every region and completes no tag. -/
def admitsReference (state : SqlState) : Bool := (state.step '$').1 = .tag []

def parts (state : SqlState) : Text → List SqlPart
  | [] => []
  | c :: rest =>
    if c = '$' ∧ state.admitsReference = true then SqlPart.refer ((state.step c).1.parts rest)
    else .char c :: (state.step c).1.parts rest

end SqlState

namespace Flat

def partsFrom (number : Nat) : Flat → List SqlPart
  | [] => []
  | .char c :: rest => .char c :: partsFrom number rest
  | .value _ :: rest => .parameter number :: partsFrom (number + 1) rest

def beginsWithDigit : Flat → Bool
  | .char c :: _ => Text.isDigit c
  | _ => false

/-- The slots, and only they, are read as references: a slot stands where a reference
may begin, and no digit is behind a slot or behind a dollar sign of the text that could
refer to something. -/
def legibleFrom (state : SqlState) : Flat → Bool
  | [] => true
  | .char c :: rest =>
    !(c = '$' && state.admitsReference && beginsWithDigit rest) && legibleFrom (state.step c).1 rest
  | .value _ :: rest => state.admitsReference && !beginsWithDigit rest && legibleFrom .bare rest

def Legible (flat : Flat) : Prop := flat.legibleFrom .bare = true

instance (flat : Flat) : Decidable flat.Legible := inferInstanceAs (Decidable (flat.legibleFrom .bare = true))

end Flat

namespace SqlState

theorem no_digits_iff {state : SqlState} {text : Text} :
    (SqlPart.splitDigits (state.parts text)).1 = [] ↔ ∀ c ∈ text.head?, Text.isDigit c = false := by
  cases text with
  | nil => exact iff_of_true rfl nofun
  | cons c rest =>
    have head : (∀ d ∈ (c :: rest).head?, Text.isDigit d = false) ↔ Text.isDigit c = false := by simp
    rw [parts, head]
    split
    · next dollar =>
      rw [dollar.1]
      refine iff_of_true ?_ (by decide)
      by_cases none : (SqlPart.splitDigits ((state.step '$').1.parts rest)).1 = []
      · rw [SqlPart.refer_of_no_digits none]
        rfl
      · rw [SqlPart.refer_of_digits none]
        rfl
    · rw [SqlPart.splitDigits]
      split
      · next digit => simp [digit]
      · next other => simpa using other

theorem parts_digits {digits : Text} (numeric : ∀ c ∈ digits, Text.isDigit c = true) (rest : Text) :
    bare.parts (digits ++ rest) = digits.map .char ++ bare.parts rest := by
  induction digits with
  | nil => rfl
  | cons c others ih =>
    rw [List.forall_mem_cons] at numeric
    have settles : (bare.step c).1 = .bare := by
      have plain : [c].all Quiet.isPlain = true := by
        rw [List.all_cons, Quiet.isPlain_of_isDigit numeric.1]
        rfl
      exact congrArg Prod.fst (Quiet.read_plain plain)
    have other : ¬(c = '$' ∧ bare.admitsReference = true) := by
      rintro ⟨rfl, -⟩
      exact absurd numeric.1 (by decide)
    rw [List.cons_append, parts, if_neg other, settles, ih numeric.2]
    rfl

theorem parts_tag_digits {digits : Text} (some : digits ≠ []) (numeric : ∀ c ∈ digits, Text.isDigit c = true)
    (rest : Text) : (tag []).parts (digits ++ rest) = digits.map .char ++ bare.parts rest := by
  obtain ⟨c, others, rfl⟩ := List.exists_cons_of_ne_nil some
  have digit := numeric c List.mem_cons_self
  have other : c ≠ '$' := by
    rintro rfl
    exact absurd digit (by decide)
  have step : (tag []).step c = bare.step c := by simp [SqlState.step, other, digit]
  rw [← parts_digits numeric, List.cons_append, parts, parts, step, if_neg (fun both => other both.1),
    if_neg (fun both => other both.1)]

end SqlState

theorem Text.toNat_ofNat_append {number : Nat} (positive : 0 < number) (digits : Text) :
    Text.toNat (Text.ofNat number ++ digits) = number ↔ digits = [] := by
  have value : Text.toNat (Text.ofNat number ++ digits) = 10 ^ digits.length * number + Text.toNat digits := by
    rw [Text.toNat_append, Text.toNat_ofNat]
  rw [value]
  constructor
  · intro same
    by_contra some
    have more : 10 ≤ 10 ^ digits.length := Nat.le_self_pow (fun none => some (List.eq_nil_of_length_eq_zero none)) 10
    have larger := Nat.mul_le_mul_right number more
    omega
  · rintro rfl
    simp [Text.toNat]

namespace Flat

open SqlState

theorem no_digits_parameterizedFrom (state : SqlState) (number : Nat) (flat : Flat) :
    (SqlPart.splitDigits (state.parts (flat.parameterizedFrom number))).1 = [] ↔ flat.beginsWithDigit = false := by
  rw [no_digits_iff]
  cases flat with
  | nil => exact iff_of_true nofun rfl
  | cons item rest =>
    cases item with
    | char c => simp [parameterizedFrom, beginsWithDigit]
    | value held =>
      refine iff_of_true ?_ rfl
      intro c first
      cases first
      decide

theorem refer_slot {number : Nat} (positive : 0 < number) (parts rest : List SqlPart) :
    SqlPart.refer ((Text.ofNat number).map .char ++ parts) = .parameter number :: rest ↔
      (SqlPart.splitDigits parts).1 = [] ∧ parts = rest := by
  have numeric : ∀ c ∈ Text.ofNat number, Text.isDigit c = true := fun c => Text.isDigit_of_mem_ofNat
  have split := SqlPart.splitDigits_append numeric parts
  have some : (SqlPart.splitDigits ((Text.ofNat number).map .char ++ parts)).1 ≠ [] := by
    rw [split]
    exact List.append_ne_nil_of_left_ne_nil (Text.ofNat_ne_nil number) _
  rw [SqlPart.refer_of_digits some, split, List.cons.injEq, SqlPart.parameter.injEq,
    Text.toNat_ofNat_append positive]
  refine and_congr_right fun none => ?_
  rw [SqlPart.behind_of_no_digits none]

theorem parts_eq_iff {number : Nat} (positive : 0 < number) (state : SqlState) (flat : Flat) :
    state.parts (flat.parameterizedFrom number) = flat.partsFrom number ↔ flat.legibleFrom state = true := by
  induction flat generalizing state number with
  | nil => exact iff_of_true rfl rfl
  | cons item rest ih =>
    cases item with
    | char c =>
      rw [parameterizedFrom, SqlState.parts, partsFrom, legibleFrom, Bool.and_eq_true, Bool.not_eq_true']
      by_cases refers : c = '$' ∧ state.admitsReference = true
      · obtain ⟨rfl, admits⟩ := refers
        rw [if_pos ⟨rfl, admits⟩, SqlPart.refer_eq_char_iff, no_digits_parameterizedFrom, ih positive, admits]
        rfl
      · have unread : (decide (c = '$') && state.admitsReference) = false := by simpa using refers
        rw [if_neg refers, List.cons.injEq, ih positive, unread, Bool.false_and]
        exact and_congr_left fun _ => iff_of_true rfl rfl
    | value held =>
      rw [parameterizedFrom, List.cons_append, SqlState.parts, partsFrom, legibleFrom, Bool.and_eq_true,
        Bool.and_eq_true, Bool.not_eq_true', and_assoc]
      by_cases admits : state.admitsReference = true
      · have next : (state.step '$').1 = .tag [] := of_decide_eq_true admits
        rw [if_pos ⟨rfl, admits⟩, next,
          parts_tag_digits (Text.ofNat_ne_nil number) fun c => Text.isDigit_of_mem_ofNat, refer_slot positive,
          no_digits_parameterizedFrom, ih (Nat.succ_pos number)]
        exact (and_iff_right admits).symm
      · rw [if_neg fun both => admits both.2]
        refine iff_of_false (fun same => ?_) fun legible => admits legible.1
        cases same

theorem fill_partsFrom [LocalZone] {zone : TimeZone} {flat : Flat} {before literals : List Text}
    (encoded : List.Forall₂ (fun value literal => value.literal zone = .ok literal) flat.values literals) :
    ∃ inlined, flat.inlined zone = .ok inlined ∧
      SqlPart.fill (before ++ literals) (flat.partsFrom (before.length + 1)) = some inlined := by
  induction flat generalizing before literals with
  | nil => exact ⟨[], rfl, rfl⟩
  | cons item rest ih =>
    cases item with
    | char c =>
      obtain ⟨inlined, written, filled⟩ := ih encoded
      refine ⟨c :: inlined, ?_, ?_⟩
      · rw [Flat.inlined, written]
        rfl
      · rw [partsFrom, SqlPart.fill, filled]
        rfl
    | value held =>
      rw [values] at encoded
      cases encoded with
      | @cons _ literal _ others head tail =>
        have shifted := @ih (before ++ [literal]) others tail
        rw [List.length_append, List.length_singleton, List.append_assoc, List.singleton_append] at shifted
        obtain ⟨inlined, written, filled⟩ := shifted
        refine ⟨literal ++ inlined, ?_, ?_⟩
        · rw [Flat.inlined, head, written]
          rfl
        · rw [partsFrom, SqlPart.fill, filled, List.getElem?_append_right (Nat.le_refl _), Nat.sub_self]
          rfl

end Flat

namespace Statement

variable {zone : TimeZone} {sql : Text} {bindings : List Value} {kind : StatementKind} {flat : Flat}

theorem script_once [LocalZone] {literals : List Text} (filled : Flat.ofBindings sql bindings = .ok flat)
    (some : flat.values ≠ [])
    (encoded : List.Forall₂ (fun value literal => value.literal zone = .ok literal) flat.values literals) :
    (once sql bindings kind).Script zone
      (SqlCommand.block (preparedName flat.parameterized [flat]) flat.parameterized [literals]) := by
  have text : flat.parameterized = numberSlots 1 flat.pieces := flat.parameterizedFrom_eq 1
  have run : RunSent zone [flat] (SqlCommand.block (preparedName flat.parameterized [flat]) flat.parameterized
      [literals]) := by
    rw [text]
    exact .prepared (List.forall_mem_singleton.mpr rfl) flat.length_pieces
      (fun none => some (List.eq_nil_of_length_eq_zero none)) (.cons ⟨encoded.length_eq.symm, encoded⟩ .nil)
  have rows : List.Forall₂ (fun row flat => Flat.ofBindings sql row = .ok flat) [bindings] [[flat]].flatten :=
    .cons filled .nil
  have whole : (once sql bindings kind).Script zone [SqlCommand.block (preparedName flat.parameterized [flat])
      flat.parameterized [literals]].flatten :=
    .runs (List.cons_ne_nil _ _) rows (by simp) (List.isChain_singleton _) (.cons run .nil)
  rwa [List.flatten_singleton] at whole

theorem filled_of_materialize [LocalZone] {text : Text}
    (sent : (once sql bindings kind).materialize zone = .ok text) :
    ∃ flat, Flat.ofBindings sql bindings = .ok flat ∧ (flat.values ≠ [] → ∃ literals,
      List.Forall₂ (fun value literal => value.literal zone = .ok literal) flat.values literals) := by
  obtain ⟨commands, script⟩ := Script.of_rendered sent
  cases script with
  | rowless none => cases none
  | runs _ filled _ _ each =>
    obtain ⟨flat, member, filled⟩ := related_of_mem filled (List.mem_singleton_self bindings)
    obtain ⟨run, held, inside⟩ := List.mem_flatten.mp member
    obtain ⟨block, -, run⟩ := related_of_mem each held
    refine ⟨flat, filled, fun some => ?_⟩
    cases run with
    | plain same =>
      have arity := flat.length_pieces
      rw [same flat inside] at arity
      exact absurd (List.eq_nil_of_length_eq_zero (Nat.succ.inj arity.symm)) some
    | prepared _ _ _ encoded =>
      obtain ⟨literals, -, -, encoded⟩ := related_of_mem encoded inside
      exact ⟨literals, encoded⟩

end Statement

/-- What is prepared for a raw statement with values refers to its slots, each by its number,
and to nothing else, just if it is legible. If so, the literals in place of the references
make the text that is written where nothing can be prepared. -/
theorem references_exact_iff [LocalZone] (fragment : Raw) (zone : TimeZone) (statement : Statement) (text : Text)
    (accepted : Statement.ofRaw fragment = .ok statement) (sent : statement.materialize zone = .ok text) :
    ∃ flat, Flat.ofBindings fragment.sql fragment.bindings = .ok flat ∧ (flat.values ≠ [] →
      ∃ literals inlined,
        List.Forall₂ (fun value literal => value.literal zone = .ok literal) flat.values literals ∧
        text = scriptText
          (SqlCommand.block (preparedName flat.parameterized [flat]) flat.parameterized [literals]) ∧
        (SqlState.bare.parts flat.parameterized = flat.partsFrom 1 ↔ flat.Legible) ∧
        fragment.inlined zone = .ok inlined ∧
        (flat.Legible → SqlPart.fill literals (SqlState.bare.parts flat.parameterized) = some inlined)) := by
  obtain rfl : Statement.once fragment.sql fragment.bindings .raw = statement := by
    rw [Statement.ofRaw] at accepted
    split at accepted
    · exact Except.ok.inj accepted
    · cases accepted
  obtain ⟨flat, filled, bound⟩ := Statement.filled_of_materialize sent
  refine ⟨flat, filled, fun some => ?_⟩
  obtain ⟨literals, encoded⟩ := bound some
  obtain ⟨inlined, written, substituted⟩ := @Flat.fill_partsFrom _ zone flat [] literals encoded
  have exact_iff := Flat.parts_eq_iff Nat.one_pos .bare flat
  refine ⟨literals, inlined, encoded, ?_, exact_iff, ?_, fun legible => ?_⟩
  · exact Except.ok.inj (sent.symm.trans (Statement.script_once filled some encoded).rendered)
  · rw [Raw.inlined, filled]
    exact written
  · rw [Flat.parameterized, exact_iff.mpr legible]
    exact substituted

def quotedReference : Raw := ⟨"select '$1', ? || ? -- $2, ?".toList, [.int 5, .text "a".toList]⟩

def quotedStatement : Statement := .once quotedReference.sql quotedReference.bindings .raw

theorem references_exact_quoted : ∃ flat literals inlined,
    Flat.ofBindings quotedReference.sql quotedReference.bindings = .ok flat ∧
    SqlState.bare.parts flat.parameterized = flat.partsFrom 1 ∧
    quotedReference.inlined .utc = .ok inlined ∧
    SqlPart.fill literals (SqlState.bare.parts flat.parameterized) = some inlined := by
  have accepted : Statement.ofRaw quotedReference = .ok quotedStatement := rfl
  have succeeds : (quotedStatement.materialize .utc).isOk = true := by decide +kernel
  cases sent : quotedStatement.materialize .utc with
  | error error =>
    rw [sent] at succeeds
    cases succeeds
  | ok text =>
    obtain ⟨flat, filled, prepared⟩ := references_exact_iff quotedReference .utc _ text accepted sent
    have slots : Flat.ofBindings quotedReference.sql quotedReference.bindings = .ok
        (Flat.ofText "select '$1', ".toList ++ .value (.int 5) :: Flat.ofText " || ".toList ++
          .value (.text "a".toList) :: Flat.ofText " -- $2, ?".toList) := rfl
    obtain rfl := Except.ok.inj (slots.symm.trans filled)
    obtain ⟨literals, inlined, -, -, exact_iff, written, substituted⟩ := prepared nofun
    have legible : Flat.Legible (Flat.ofText "select '$1', ".toList ++ .value (.int 5) :: Flat.ofText " || ".toList ++
        .value (.text "a".toList) :: Flat.ofText " -- $2, ?".toList) := by decide
    exact ⟨_, literals, inlined, filled, exact_iff.mpr legible, written, substituted legible⟩

def digitBehindSlot : Raw := ⟨"select ?1".toList, [.int 5]⟩

/-- The digit makes the slot refer to another parameter, for which there is no literal. -/
theorem digit_behind_slot_misread :
    Statement.ofRaw digitBehindSlot = .ok (.once digitBehindSlot.sql digitBehindSlot.bindings .raw) ∧
    (Statement.once digitBehindSlot.sql digitBehindSlot.bindings .raw).materialize .utc =
      .ok (scriptText (SqlCommand.block (preparedName "select $11".toList
        [Flat.ofText "select ".toList ++ .value (.int 5) :: Flat.ofText "1".toList]) "select $11".toList
        [["numeric $$5$$".toList]])) ∧
    SqlState.bare.parts "select $11".toList = "select ".toList.map .char ++ [.parameter 11] ∧
    SqlPart.fill ["numeric $$5$$".toList] (SqlState.bare.parts "select $11".toList) = none ∧
    digitBehindSlot.inlined .utc = .ok "select numeric $$5$$1".toList := by
  have filled : Flat.ofBindings digitBehindSlot.sql digitBehindSlot.bindings =
      .ok (Flat.ofText "select ".toList ++ .value (.int 5) :: Flat.ofText "1".toList) := rfl
  exact ⟨rfl, (Statement.script_once filled nofun (.cons rfl .nil)).rendered, by decide, by decide, rfl⟩

/-- Neither a reference of the text's own nor a dollar sign in front of a slot is legible. -/
example : ¬ Flat.Legible (Flat.ofText "select $1, ".toList ++ [.value .null]) ∧
    ¬ Flat.Legible (Flat.ofText "select $".toList ++ [.value .null]) := by decide

end LiteralSql
