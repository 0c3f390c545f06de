import LiteralSql.Proofs.Json.Frames
import LiteralSql.Proofs.Rows.Spelling

/-! A capture holds exactly one JSON value.

The bytes of a value are taken one by one: those of a string or of a container
up to its last quote or bracket, those of a number or a keyword all.
-/

set_option autoImplicit false

namespace LiteralSql

namespace Capture

theorem result_inj {first second : Capture} {left right : Progress}
    (same : (first, (Except.ok left : Except DecodeError Progress)) = (second, .ok right)) :
    first = second ∧ left = right := by
  obtain ⟨captures, progress⟩ := Prod.mk.inj same
  exact ⟨captures, Except.ok.inj progress⟩

inductive Pushed (capture : Capture) (byte : UInt8) : Capture → Progress → Prop
  | within {held : Capture} (taken : held.reversed = byte :: capture.reversed)
      (unfinished : held.inString = true ∨ held.brackets ≠ []) : Pushed capture byte held .pending
  | scalar {held : Capture} (taken : held.reversed = byte :: capture.reversed)
      (goesOn : capture.reversed ≠ [] → endsScalar byte = false) : Pushed capture byte held .pending
  | closed {held : Capture} (taken : held.reversed = byte :: capture.reversed)
      (visible : Bytes.isBlank byte = false) : Pushed capture byte held .complete
  | ended (outside : capture.brackets = []) (plain : capture.inString = false) : Pushed capture byte capture .ended

theorem pushed_string {capture held : Capture} {byte : UInt8} {progress : Progress}
    (push : capture.pushString byte = (held, progress)) (inside : capture.inString = true) :
    Pushed capture byte held progress := by
  unfold pushString at push
  dsimp only at push
  repeat' split at push
  all_goals obtain ⟨rfl, rfl⟩ := Prod.mk.inj push
  case isTrue | isFalse.isTrue | isFalse.isFalse.isFalse => exact .within rfl (.inl inside)
  case isFalse.isFalse.isTrue.isTrue quote _ => exact .closed rfl (by rw [quote]; rfl)
  case isFalse.isFalse.isTrue.isFalse quote some =>
    exact .within rfl (.inr fun none => some (List.isEmpty_iff.mpr none))

theorem pushed_bracket {capture held : Capture} {byte opening : UInt8} {progress : Progress}
    (push : closeBracket { capture with reversed := byte :: capture.reversed } opening = (held, .ok progress))
    (visible : Bytes.isBlank byte = false) : Pushed capture byte held progress := by
  unfold closeBracket at push
  dsimp only at push
  split at push
  · obtain ⟨rfl, rfl⟩ := result_inj push
    split
    · exact .closed rfl visible
    · next some => exact .within rfl (.inr fun none => some (List.isEmpty_iff.mpr none))
  · cases (Prod.mk.inj push).2

theorem pushed {capture held : Capture} {byte : UInt8} {progress : Progress}
    (push : capture.push byte = (held, .ok progress)) : Pushed capture byte held progress := by
  unfold Capture.push at push
  dsimp only at push
  split at push
  · next inside =>
    obtain ⟨rfl, rfl⟩ := result_inj push
    exact pushed_string rfl inside
  · next plain =>
    split at push
    · next scalar =>
      rw [Bool.and_eq_true] at scalar
      split at push
      · obtain ⟨rfl, rfl⟩ := result_inj push
        exact .ended (List.isEmpty_iff.mp scalar.2) (Bool.not_eq_true _ ▸ plain)
      · next continues =>
        obtain ⟨rfl, rfl⟩ := result_inj push
        exact .scalar rfl fun _ => Bool.not_eq_true _ ▸ continues
    · next inside =>
      repeat' split at push
      case isTrue =>
        obtain ⟨rfl, rfl⟩ := result_inj push
        exact .within rfl (.inl rfl)
      case isFalse.isTrue =>
        obtain ⟨rfl, rfl⟩ := result_inj push
        exact .within rfl (.inr (List.cons_ne_nil _ _))
      case isFalse.isFalse.isTrue close => exact pushed_bracket push (by rw [close]; rfl)
      case isFalse.isFalse.isFalse.isTrue close => exact pushed_bracket push (by rw [close]; rfl)
      case isFalse.isFalse.isFalse.isFalse.isTrue => cases (Prod.mk.inj push).2
      case isFalse.isFalse.isFalse.isFalse.isFalse =>
        obtain ⟨rfl, rfl⟩ := result_inj push
        -- Such a byte belongs to a scalar, or it stands in a container.
        by_cases outside : capture.brackets = []
        · refine .scalar rfl fun some => absurd ?_ inside
          rw [Bool.and_eq_true, Bool.not_eq_true', List.isEmpty_eq_false_iff, List.isEmpty_iff]
          exact ⟨some, outside⟩
        · exact .within rfl (.inr outside)

def absorb : Capture → List UInt8 → Option Capture
  | capture, [] => some capture
  | capture, byte :: rest =>
    match capture.push byte with
    | (held, .ok .pending) => held.absorb rest
    | _ => none

theorem absorb_cons {capture held : Capture} {byte : UInt8}
    (push : capture.push byte = (held, .ok .pending)) (rest : List UInt8) :
    capture.absorb (byte :: rest) = held.absorb rest := by
  rw [absorb, push]

theorem absorb_append {capture held : Capture} {first : List UInt8}
    (done : capture.absorb first = some held) (second : List UInt8) :
    capture.absorb (first ++ second) = held.absorb second := by
  induction first generalizing capture with
  | nil =>
    cases done
    rfl
  | cons byte rest ih =>
    rw [absorb] at done
    rw [List.cons_append, absorb]
    split at done
    · next next push => exact ih done
    · cases done

def isNeutral (byte : UInt8) : Bool :=
  byte != 0x22 && byte != 0x7B && byte != 0x5B && byte != 0x7D && byte != 0x5D

section
variable {reversed brackets : List UInt8} {byte : UInt8}

theorem push_neutral (inside : brackets ≠ []) (neutral : isNeutral byte = true) :
    push ⟨reversed, brackets, false, false⟩ byte =
      (⟨byte :: reversed, brackets, false, false⟩, .ok .pending) := by
  simp only [isNeutral, Bool.and_eq_true, bne_iff_ne, ne_eq] at neutral
  obtain ⟨⟨⟨⟨quote, openObject⟩, openArray⟩, closeObject⟩, closeArray⟩ := neutral
  have some : brackets.isEmpty = false := List.isEmpty_eq_false_iff.mpr inside
  simp [push, quote, openObject, openArray, closeObject, closeArray, some]

theorem push_quote (inside : reversed = [] ∨ brackets ≠ []) :
    push ⟨reversed, brackets, false, false⟩ 0x22 =
      (⟨0x22 :: reversed, brackets, true, false⟩, .ok .pending) := by
  obtain rfl | inside := inside
  · rfl
  · have some : brackets.isEmpty = false := List.isEmpty_eq_false_iff.mpr inside
    simp [push, some]

theorem push_open (inside : reversed = [] ∨ brackets ≠ []) (bracket : byte = 0x5B ∨ byte = 0x7B) :
    push ⟨reversed, brackets, false, false⟩ byte =
      (⟨byte :: reversed, byte :: brackets, false, false⟩, .ok .pending) := by
  obtain rfl | inside := inside
  · obtain rfl | rfl := bracket <;> rfl
  · have some : brackets.isEmpty = false := List.isEmpty_eq_false_iff.mpr inside
    obtain rfl | rfl := bracket <;> simp [push, some]

theorem push_close {opening : UInt8} (pair : byte = 0x5D ∧ opening = 0x5B ∨ byte = 0x7D ∧ opening = 0x7B) :
    push ⟨reversed, opening :: brackets, false, false⟩ byte =
      (⟨byte :: reversed, brackets, false, false⟩, .ok (if brackets.isEmpty then .complete else .pending)) := by
  obtain ⟨rfl, rfl⟩ | ⟨rfl, rfl⟩ := pair <;> simp [push, closeBracket]

end

theorem absorb_steady {brackets bytes : List UInt8} {inString : Bool}
    (steady : ∀ byte ∈ bytes, ∀ reversed, push ⟨reversed, brackets, inString, false⟩ byte =
      (⟨byte :: reversed, brackets, inString, false⟩, .ok .pending)) (reversed : List UInt8) :
    absorb ⟨reversed, brackets, inString, false⟩ bytes =
      some ⟨bytes.reverse ++ reversed, brackets, inString, false⟩ := by
  induction bytes generalizing reversed with
  | nil => rfl
  | cons byte rest ih =>
    rw [List.forall_mem_cons] at steady
    rw [absorb_cons (steady.1 reversed), ih steady.2, List.reverse_cons, List.append_assoc]
    rfl

theorem absorb_neutral {reversed brackets bytes : List UInt8} (inside : brackets ≠ [])
    (neutral : ∀ byte ∈ bytes, isNeutral byte = true) :
    absorb ⟨reversed, brackets, false, false⟩ bytes =
      some ⟨bytes.reverse ++ reversed, brackets, false, false⟩ :=
  absorb_steady (fun byte member _ => push_neutral inside (neutral byte member)) reversed

theorem absorb_inString {reversed brackets lead : List UInt8}
    (plain : ∀ byte ∈ lead, byte ≠ 0x22 ∧ byte ≠ 0x5C) :
    absorb ⟨reversed, brackets, true, false⟩ lead =
      some ⟨lead.reverse ++ reversed, brackets, true, false⟩ := by
  refine absorb_steady (fun byte member reversed => ?_) reversed
  simp [push, pushString, plain byte member]

theorem absorb_body {reversed brackets bytes : List UInt8} {body : Text}
    (inside : JsonToken.StringBody body) (spells : Spells bytes body) :
    absorb ⟨reversed, brackets, true, false⟩ bytes =
      some ⟨bytes.reverse ++ reversed, brackets, true, false⟩ := by
  induction inside generalizing reversed bytes with
  | nil =>
    cases spells with
    | nil => rfl
  | escape _ ascii _ ih =>
    -- Whatever is escaped is kept, also a quote.
    obtain ⟨_, rfl, after⟩ := spells.cons_inv (by decide)
    obtain ⟨rest, rfl, remaining⟩ := after.cons_inv ascii
    have escape : push ⟨reversed, brackets, true, false⟩ 0x5C =
        (⟨0x5C :: reversed, brackets, true, true⟩, .ok .pending) := rfl
    have taken (byte : UInt8) : push ⟨0x5C :: reversed, brackets, true, true⟩ byte =
        (⟨byte :: 0x5C :: reversed, brackets, true, false⟩, .ok .pending) := rfl
    exact (absorb_cons escape _).trans ((absorb_cons (taken _) rest).trans ((ih remaining).trans (by simp)))
  | char quote backslash _ _ ih =>
    cases spells with
    | @ascii byte bytes _ low spells =>
      have plain : ∀ other ∈ [byte], other ≠ 0x22 ∧ other ≠ 0x5C := by
        rw [List.forall_mem_singleton]
        constructor
        · rintro rfl
          exact quote rfl
        · rintro rfl
          exact backslash rfl
      rw [← List.singleton_append, absorb_append (absorb_inString plain), ih spells]
      simp
    | @foreign lead bytes _ _ _ high _ spells =>
      have plain : ∀ other ∈ lead, other ≠ 0x22 ∧ other ≠ 0x5C := by
        intro other member
        have bound := high other member
        constructor
        · rintro rfl
          exact absurd bound (by decide)
        · rintro rfl
          exact absurd bound (by decide)
      rw [absorb_append (absorb_inString plain), ih spells]
      simp

theorem scalarChar_low {c : Char} (char : JsonToken.isScalarChar c = true) : c.toNat < 0x80 := by
  have below {high : UInt32} (bound : high.toNat < 0x80) (most : c.val ≤ high) : c.toNat < 0x80 :=
    Nat.lt_of_le_of_lt (UInt32.le_iff_toNat_le.mp most) bound
  have between {low high : UInt32} (within : (decide (c.val ≥ low) && decide (c.val ≤ high)) = true) :
      c.val ≤ high := by
    rw [Bool.and_eq_true, decide_eq_true_eq, decide_eq_true_eq] at within
    exact within.2
  have classes : (c.isUpper || c.isLower || c.isDigit || decide (c = '-') || decide (c = '+') ||
      decide (c = '.')) = true := char
  simp only [Bool.or_eq_true, decide_eq_true_eq] at classes
  obtain ((((upper | lower) | digit) | rfl) | rfl) | rfl := classes
  · have range : c.val ≥ 'A'.val ∧ c.val ≤ 'Z'.val := of_decide_eq_true upper
    exact below (by decide) range.2
  · exact below (by decide) (between lower)
  · exact below (by decide) (between digit)
  · decide
  · decide
  · decide

def isScalarByte (byte : UInt8) : Bool :=
  isNeutral byte && !endsScalar byte && byte != 0x3A && byte.toNat < 0x80

theorem scalarChar_byte {c : Char} (char : JsonToken.isScalarChar c = true) :
    isScalarByte c.toNat.toUInt8 = true := by
  have all : ∀ code < 0x80, JsonToken.isScalarChar (Char.ofNat code) = true → isScalarByte code.toUInt8 = true := by
    decide +kernel
  apply all c.toNat (scalarChar_low char)
  rwa [Char.ofNat_toNat]

theorem scalar_bytes {text : Text} (chars : ∀ c ∈ text, JsonToken.isScalarChar c = true) {bytes : List UInt8}
    (spells : Spells bytes text) :
    (∀ byte ∈ bytes, isScalarByte byte = true) ∧ (text ≠ [] → bytes ≠ []) := by
  induction text generalizing bytes with
  | nil =>
    cases spells with
    | nil => exact ⟨by simp, fun some => absurd rfl some⟩
  | cons c rest ih =>
    rw [List.forall_mem_cons] at chars
    obtain ⟨others, rfl, remaining⟩ := spells.cons_inv (scalarChar_low chars.1)
    exact ⟨List.forall_mem_cons.mpr ⟨scalarChar_byte chars.1, (ih chars.2 remaining).1⟩, fun _ => List.cons_ne_nil _ _⟩

theorem blank_bytes {text : Text} (blank : text.all JsonToken.isBlank = true) {bytes : List UInt8}
    (spells : Spells bytes text) : ∀ byte ∈ bytes, Bytes.isBlank byte = true ∧ isNeutral byte = true := by
  induction text generalizing bytes with
  | nil =>
    cases spells with
    | nil => simp
  | cons c rest ih =>
    rw [List.all_cons, Bool.and_eq_true] at blank
    have char : c = ' ' ∨ c = '\t' ∨ c = '\n' ∨ c = '\r' := by
      simpa [JsonToken.isBlank, or_assoc] using blank.1
    have ascii : c.toNat < 0x80 ∧ Bytes.isBlank c.toNat.toUInt8 = true ∧ isNeutral c.toNat.toUInt8 = true := by
      obtain rfl | rfl | rfl | rfl := char <;> decide
    obtain ⟨others, rfl, remaining⟩ := spells.cons_inv ascii.1
    exact List.forall_mem_cons.mpr ⟨ascii.2, ih blank.2 remaining⟩

theorem string_bytes {body : Text} (inside : JsonToken.StringBody body) {bytes : List UInt8}
    (spells : Spells bytes ('"' :: (body ++ ['"']))) : ∃ middle, bytes = 0x22 :: (middle ++ [0x22]) ∧
      ∀ reversed brackets, reversed = [] ∨ brackets ≠ [] →
        absorb ⟨reversed, brackets, false, false⟩ (0x22 :: middle) =
          some ⟨(0x22 :: middle).reverse ++ reversed, brackets, true, false⟩ := by
  obtain ⟨_, rfl, afterQuote⟩ := spells.cons_inv (by decide)
  obtain ⟨middle, last, rfl, middleSpells, lastSpells⟩ := afterQuote.append_inv
  obtain ⟨_, rfl, nothing⟩ := lastSpells.cons_inv (by decide)
  cases nothing
  refine ⟨middle, rfl, fun reversed brackets begins => ?_⟩
  rw [absorb_cons (push_quote begins), absorb_body inside middleSpells, List.reverse_cons, List.append_assoc]
  rfl

theorem push_endQuote (reversed brackets : List UInt8) :
    push ⟨reversed, brackets, true, false⟩ 0x22 =
      (⟨0x22 :: reversed, brackets, false, false⟩, .ok (if brackets.isEmpty then .complete else .pending)) := rfl

theorem sole_byte {c : Char} {bytes : List UInt8} (spells : Spells bytes [c]) (low : c.toNat < 0x80) :
    bytes = [c.toNat.toUInt8] := by
  obtain ⟨_, rfl, nothing⟩ := spells.cons_inv low
  cases nothing
  rfl

theorem opening_byte {token : JsonToken} {bracket : UInt8} (opens : token.opens? = some bracket)
    {lexeme : Text} (word : JsonToken.Lexeme token lexeme) {bytes : List UInt8} (spells : Spells bytes lexeme) :
    bytes = [bracket] ∧ (bracket = 0x5B ∨ bracket = 0x7B) := by
  cases word with
  | openArray =>
    cases opens
    exact ⟨sole_byte spells (by decide), .inl rfl⟩
  | openObject =>
    cases opens
    exact ⟨sole_byte spells (by decide), .inr rfl⟩
  | scalar kind =>
    rw [(JsonToken.scalar_brackets kind).1] at opens
    cases opens
  | closeArray | closeObject | comma | colon | string => cases opens

theorem closing_byte {token : JsonToken} {bracket : UInt8} (closes : token.closes? = some bracket)
    {lexeme : Text} (word : JsonToken.Lexeme token lexeme) {bytes : List UInt8} (spells : Spells bytes lexeme) :
    ∃ byte, bytes = [byte] ∧ (byte = 0x5D ∧ bracket = 0x5B ∨ byte = 0x7D ∧ bracket = 0x7B) := by
  cases word with
  | closeArray =>
    cases closes
    exact ⟨_, sole_byte spells (by decide), .inl ⟨rfl, rfl⟩⟩
  | closeObject =>
    cases closes
    exact ⟨_, sole_byte spells (by decide), .inr ⟨rfl, rfl⟩⟩
  | scalar kind =>
    rw [(JsonToken.scalar_brackets kind).2] at closes
    cases closes
  | openArray | openObject | comma | colon | string => cases closes

theorem absorb_within {token : JsonToken} (opens : token.opens? = none) (closes : token.closes? = none)
    {brackets : List UInt8} (inside : brackets ≠ []) {lexeme : Text} (word : JsonToken.Lexeme token lexeme)
    {bytes : List UInt8} (spells : Spells bytes lexeme) (reversed : List UInt8) :
    absorb ⟨reversed, brackets, false, false⟩ bytes =
      some ⟨bytes.reverse ++ reversed, brackets, false, false⟩ := by
  cases word with
  | openArray | openObject => cases opens
  | closeArray | closeObject => cases closes
  | comma | colon =>
    rw [sole_byte spells (by decide)]
    exact absorb_neutral inside (List.forall_mem_singleton.mpr (by decide))
  | scalar kind some chars =>
    apply absorb_neutral inside
    intro byte member
    have scalar := (scalar_bytes chars spells).1 byte member
    rw [isScalarByte, Bool.and_eq_true, Bool.and_eq_true, Bool.and_eq_true] at scalar
    exact scalar.1.1.1
  | string body =>
    obtain ⟨middle, rfl, taken⟩ := string_bytes body spells
    have last := push_endQuote ((0x22 :: middle).reverse ++ reversed) brackets
    rw [List.isEmpty_eq_false_iff.mpr inside] at last
    rw [← List.cons_append, absorb_append (taken reversed brackets (.inr inside)), absorb_cons last]
    simp [absorb]

theorem absorb_token {before after : List UInt8} {token : JsonToken} (nests : JsonTree.Nests before token after)
    (inside : before ≠ []) (further : after ≠ []) {lexeme : Text} (word : JsonToken.Lexeme token lexeme)
    {bytes : List UInt8} (spells : Spells bytes lexeme) (reversed : List UInt8) :
    absorb ⟨reversed, before, false, false⟩ bytes = some ⟨bytes.reverse ++ reversed, after, false, false⟩ := by
  cases nests with
  | opening opens =>
    obtain ⟨rfl, bracket⟩ := opening_byte opens word spells
    exact absorb_cons (push_open (.inr inside) bracket) []
  | closing closes =>
    obtain ⟨byte, rfl, pair⟩ := closing_byte closes word spells
    have push : push ⟨reversed, _ :: after, false, false⟩ byte = _ := push_close pair
    rw [List.isEmpty_eq_false_iff.mpr further] at push
    exact absorb_cons push []
  | within opens closes => exact absorb_within opens closes inside word spells reversed

def partner (opening : UInt8) : UInt8 :=
  if opening = 0x5B then 0x5D else if opening = 0x7B then 0x7D else opening

/-- The last byte is the first one that completes the capture. -/
def Closes (capture : Capture) (bytes : List UInt8) (last : UInt8) : Prop :=
  ∃ inner held done, bytes = inner ++ [last] ∧ capture.absorb inner = some held ∧
    held.push last = (done, .ok .complete)

theorem Closes.of_absorb {capture held : Capture} {first second : List UInt8} {last : UInt8}
    (absorbed : capture.absorb first = some held) (closes : held.Closes second last) :
    capture.Closes (first ++ second) last := by
  obtain ⟨inner, full, done, rfl, absorbed', push⟩ := closes
  refine ⟨first ++ inner, full, done, (List.append_assoc _ _ _).symm, ?_, push⟩
  rw [absorb_append absorbed, absorbed']

theorem closes_token {before : List UInt8} {token : JsonToken} (nests : JsonTree.Nests before token [])
    (inside : before ≠ []) {lexeme : Text} (word : JsonToken.Lexeme token lexeme) {bytes : List UInt8}
    (spells : Spells bytes lexeme) (reversed : List UInt8) :
    ∃ bracket, before = [bracket] ∧ Closes ⟨reversed, before, false, false⟩ bytes (partner bracket) := by
  cases nests with
  | @closing _ _ bracket closes =>
    obtain ⟨byte, rfl, pair⟩ := closing_byte closes word spells
    have last : byte = partner bracket := by
      obtain ⟨rfl, rfl⟩ | ⟨rfl, rfl⟩ := pair <;> rfl
    exact ⟨bracket, rfl, [], _, _, by rw [last]; rfl, rfl, last ▸ push_close pair⟩
  | within => exact absurd rfl inside

theorem closes_run {text : Text} {tokens : List JsonToken} (spread : JsonToken.Spread text tokens)
    {state : JsonTree.State} {tree : JsonTree} (run : state.run tokens = some (.complete tree))
    (inside : state.brackets ≠ []) {bytes : List UInt8} (spells : Spells bytes text) (reversed : List UInt8) :
    ∃ value trailing bracket, bytes = value ++ trailing ∧ (∀ byte ∈ trailing, Bytes.isBlank byte = true) ∧
      state.root? = some bracket ∧ Closes ⟨reversed, state.brackets, false, false⟩ value (partner bracket) := by
  -- The brackets of the capture are those of the parser before every token. They come
  -- apart only when both become empty, and then only blanks are left.
  induction spread generalizing state bytes reversed with
  | nil =>
    cases run
    exact absurd rfl inside
  | cons blank word more ih =>
    obtain ⟨next, step, run⟩ := JsonTree.run_cons run
    have nests := JsonTree.nests_step step
    obtain ⟨blanks, others, rfl, blankSpells, otherSpells⟩ := spells.append_inv
    obtain ⟨lexeme, rest, rfl, wordSpells, restSpells⟩ := otherSpells.append_inv
    have skipped : absorb ⟨reversed, state.brackets, false, false⟩ blanks = _ :=
      absorb_neutral inside fun byte member => (blank_bytes blank blankSpells byte member).2
    by_cases outside : next.brackets = []
    · obtain ⟨done, rfl⟩ := JsonTree.complete_of_step step outside
      obtain ⟨rfl, -⟩ := JsonTree.run_complete run
      cases more with
      | nil trailing =>
        obtain ⟨bracket, sole, closes⟩ := closes_token nests inside word wordSpells (blanks.reverse ++ reversed)
        refine ⟨blanks ++ lexeme, rest, bracket, (List.append_assoc _ _ _).symm, ?_, ?_, ?_⟩
        · exact fun byte member => (blank_bytes trailing restSpells byte member).1
        · rw [JsonTree.root?_of_inside inside, sole]
          rfl
        · exact .of_absorb skipped closes
    · obtain ⟨value, trailing, bracket, rfl, final, root, closes⟩ :=
        ih run outside restSpells (lexeme.reverse ++ (blanks.reverse ++ reversed))
      have absorbed := absorb_token nests inside outside word wordSpells (blanks.reverse ++ reversed)
      refine ⟨blanks ++ (lexeme ++ value), trailing, bracket, by simp, final, ?_, ?_⟩
      · rw [← JsonTree.root?_step step inside, root]
      · exact .of_absorb skipped (.of_absorb absorbed closes)

end Capture

end LiteralSql
