import Mathlib.Data.List.TakeWhile
import LiteralSql.Json.Lexer

/-! The characters that a token takes.

A token is one bracket, comma or colon, a run of letters, digits and signs, or
a string that ends at its first quote without a backslash before it. A text
that is read into tokens is their characters with blanks between them.
-/

set_option autoImplicit false

namespace LiteralSql

namespace JsonToken

def isScalarChar (c : Char) : Bool := c.isAlphanum || c = '-' || c = '+' || c = '.'

/-- What a quote does not end before its time. -/
inductive StringBody : Text → Prop
  | nil : StringBody []
  | escape {c : Char} {rest : Text} (visible : 0x20 ≤ c.toNat) (ascii : c.toNat < 0x80) (body : StringBody rest) :
      StringBody ('\\' :: c :: rest)
  | char {c : Char} {rest : Text} (quote : c ≠ '"') (backslash : c ≠ '\\') (visible : 0x20 ≤ c.toNat)
      (body : StringBody rest) : StringBody (c :: rest)

def isScalar : JsonToken → Bool
  | .null | .bool _ | .number _ => true
  | _ => false

inductive Lexeme : JsonToken → Text → Prop
  | openArray : Lexeme .openArray ['[']
  | closeArray : Lexeme .closeArray [']']
  | openObject : Lexeme .openObject ['{']
  | closeObject : Lexeme .closeObject ['}']
  | comma : Lexeme .comma [',']
  | colon : Lexeme .colon [':']
  | scalar {token : JsonToken} {text : Text} (kind : token.isScalar = true) (some : text ≠ [])
      (chars : ∀ c ∈ text, isScalarChar c = true) : Lexeme token text
  | string {units : List JsonUnit} {body : Text} (inside : StringBody body) :
      Lexeme (.string units) ('"' :: body ++ ['"'])

theorem escape_ascii {c plain : Char} (known : escape? c = some plain) : 0x20 ≤ c.toNat ∧ c.toNat < 0x80 := by
  unfold escape? at known
  split at known
  any_goals decide
  cases known

theorem digit_ascii {c : Char} {value : Nat} (digit : Hex.digitValue? c = some value) :
    0x20 ≤ c.toNat ∧ c.toNat < 0x80 := by
  have between {first last : Char} (range : first ≤ c ∧ c ≤ last) (visible : 0x20 ≤ first.toNat)
      (ascii : last.toNat < 0x80) : 0x20 ≤ c.toNat ∧ c.toNat < 0x80 :=
    ⟨Nat.le_trans visible (UInt32.le_iff_toNat_le.mp (Char.le_def.mp range.1)),
      Nat.lt_of_le_of_lt (UInt32.le_iff_toNat_le.mp (Char.le_def.mp range.2)) ascii⟩
  unfold Hex.digitValue? at digit
  split at digit
  · next range => exact between range (by decide) (by decide)
  split at digit
  · next range => exact between range (by decide) (by decide)
  split at digit
  · next range => exact between range (by decide) (by decide)
  · cases digit

theorem StringBody.digit {c : Char} {value : Nat} (digit : Hex.digitValue? c = some value) {rest : Text}
    (body : StringBody rest) : StringBody (c :: rest) := by
  refine .char ?_ ?_ (digit_ascii digit).1 body
  · rintro rfl
    cases digit
  · rintro rfl
    cases digit

theorem hexCode_body {a b c d : Char} {value : Nat} (code : hexCode? a b c d = some value) {rest : Text}
    (body : StringBody rest) : StringBody (a :: b :: c :: d :: rest) := by
  simp only [hexCode?, Option.bind_eq_bind, Option.bind_eq_some_iff] at code
  obtain ⟨first, ha, second, hb, third, hc, fourth, hd, -⟩ := code
  exact .digit ha (.digit hb (.digit hc (.digit hd body)))

theorem readString_body {text after : Text} {units : List JsonUnit}
    (done : readString text = some (units, after)) : ∃ body, StringBody body ∧ text = body ++ '"' :: after := by
  fun_induction readString text generalizing units with
  | case1 => cases done
  | case2 rest =>
    cases done
    exact ⟨[], .nil, rfl⟩
  | case3 a b c d rest ih =>
    simp only [Option.bind_eq_bind, Option.bind_eq_some_iff] at done
    obtain ⟨value, code, ⟨others, remaining⟩, tail, same⟩ := done
    cases same
    obtain ⟨body, inside, rfl⟩ := ih tail
    exact ⟨'\\' :: 'u' :: a :: b :: c :: d :: body, .escape (by decide) (by decide) (hexCode_body code inside), rfl⟩
  | case4 c rest _ ih =>
    simp only [Option.bind_eq_bind, Option.bind_eq_some_iff] at done
    obtain ⟨plain, known, ⟨others, remaining⟩, tail, same⟩ := done
    cases same
    obtain ⟨body, inside, rfl⟩ := ih tail
    obtain ⟨visible, ascii⟩ := escape_ascii known
    exact ⟨'\\' :: c :: body, .escape visible ascii inside, rfl⟩
  | case5 => cases done
  | case6 c rest _ _ _ _ => cases done
  | case7 c rest quote escaped plain last visible ih =>
    rw [Option.map_eq_some_iff] at done
    obtain ⟨⟨others, remaining⟩, tail, same⟩ := done
    cases same
    obtain ⟨body, inside, rfl⟩ := ih tail
    obtain ⟨next, others, shape⟩ := List.exists_cons_of_ne_nil
      (List.append_ne_nil_of_right_ne_nil body (List.cons_ne_nil '"' after))
    have backslash : c ≠ '\\' := fun same => plain next others same shape
    exact ⟨c :: body, .char quote backslash (Nat.not_lt.mp visible) inside, rfl⟩

theorem isScalarChar_of_isDigit {c : Char} (digit : Text.isDigit c = true) : isScalarChar c = true := by
  have digit : c.isDigit = true := by simpa [Text.isDigit, Char.isDigit, Char.le_def] using digit
  simp [isScalarChar, Char.isAlphanum, digit]

/-- The text after a part of a number, and the characters of that part. -/
def ScalarRun (text after : Text) : Prop :=
  ∃ run : Text, (∀ c ∈ run, isScalarChar c = true) ∧ text = run ++ after

theorem ScalarRun.refl (text : Text) : ScalarRun text text := ⟨[], by simp, rfl⟩

theorem ScalarRun.trans {text between after : Text} (first : ScalarRun text between)
    (second : ScalarRun between after) : ScalarRun text after := by
  obtain ⟨run, chars, rfl⟩ := first
  obtain ⟨others, more, rfl⟩ := second
  refine ⟨run ++ others, ?_, (List.append_assoc _ _ _).symm⟩
  intro c member
  obtain member | member := List.mem_append.mp member
  · exact chars c member
  · exact more c member

theorem ScalarRun.cons {c : Char} {text after : Text} (char : isScalarChar c = true)
    (rest : ScalarRun text after) : ScalarRun (c :: text) after :=
  ScalarRun.trans ⟨[c], by simpa using char, rfl⟩ rest

theorem ScalarRun.digits (text : Text) : ScalarRun text (text.dropWhile Text.isDigit) := by
  refine ⟨text.takeWhile Text.isDigit, ?_, List.takeWhile_append_dropWhile.symm⟩
  intro c member
  exact isScalarChar_of_isDigit (List.all_eq_true.mp List.all_takeWhile c member)

theorem ScalarRun.afterDigits {text after : Text} (some : text.takeWhile Text.isDigit ≠ [])
    (rest : ScalarRun (text.dropWhile Text.isDigit) after) :
    ∃ run : Text, run ≠ [] ∧ (∀ c ∈ run, isScalarChar c = true) ∧ text = run ++ after := by
  obtain ⟨run, chars, split⟩ := rest
  refine ⟨text.takeWhile Text.isDigit ++ run, List.append_ne_nil_of_left_ne_nil some run, ?_, ?_⟩
  · intro c member
    obtain digit | member := List.mem_append.mp member
    · exact isScalarChar_of_isDigit (List.all_eq_true.mp List.all_takeWhile c digit)
    · exact chars c member
  · rw [List.append_assoc, ← split, List.takeWhile_append_dropWhile]

theorem readExponent_run {text after : Text} {exponent : Bool × Text}
    (done : readExponent text = some (exponent, after)) : ScalarRun text after := by
  unfold readExponent at done
  dsimp only at done
  split at done
  · split at done
    · cases done
    · cases done
      exact .cons (by decide) (.digits _)
  · split at done
    · cases done
    · cases done
      exact .cons (by decide) (.digits _)
  · split at done
    · cases done
    · cases done
      exact .digits _

theorem readFraction_run {text after : Text} {fraction : Option Text}
    (done : readFraction text = some (fraction, after)) : ScalarRun text after := by
  unfold readFraction at done
  split at done
  · dsimp only at done
    split at done
    · cases done
    · cases done
      exact .cons (by decide) (.digits _)
  · cases done
    exact .refl _

theorem readAfterWhole_run {negative : Bool} {whole text after : Text} {numeral : JsonNumeral}
    (done : readAfterWhole negative whole text = some (numeral, after)) : ScalarRun text after := by
  obtain ⟨⟨fraction, afterFraction⟩, point, rest⟩ := Option.bind_eq_some_iff.mp done
  have front := readFraction_run point
  dsimp only at rest
  split at rest
  · obtain ⟨⟨exponent, last⟩, power, same⟩ := Option.bind_eq_some_iff.mp rest
    cases same
    exact front.trans (.cons (by decide) (readExponent_run power))
  · obtain ⟨⟨exponent, last⟩, power, same⟩ := Option.bind_eq_some_iff.mp rest
    cases same
    exact front.trans (.cons (by decide) (readExponent_run power))
  · cases rest
    exact front

theorem readNumber_run {negative : Bool} {text after : Text} {numeral : JsonNumeral}
    (done : readNumber negative text = some (numeral, after)) :
    ∃ run : Text, run ≠ [] ∧ (∀ c ∈ run, isScalarChar c = true) ∧ text = run ++ after := by
  unfold readNumber at done
  dsimp only at done
  split at done
  · cases done
  · next zero => exact ScalarRun.afterDigits (by simp [zero]) (readAfterWhole_run done)
  · cases done
  · next some _ _ => exact ScalarRun.afterDigits some (readAfterWhole_run done)

theorem read_lexeme {text after : Text} {token : JsonToken} (done : read text = some (token, after)) :
    ∃ lexeme, Lexeme token lexeme ∧ text = lexeme ++ after := by
  unfold read at done
  split at done
  case h_1 =>
    cases done
    exact ⟨_, .openArray, rfl⟩
  case h_2 =>
    cases done
    exact ⟨_, .closeArray, rfl⟩
  case h_3 =>
    cases done
    exact ⟨_, .openObject, rfl⟩
  case h_4 =>
    cases done
    exact ⟨_, .closeObject, rfl⟩
  case h_5 =>
    cases done
    exact ⟨_, .comma, rfl⟩
  case h_6 =>
    cases done
    exact ⟨_, .colon, rfl⟩
  case h_7 =>
    cases done
    exact ⟨['n', 'u', 'l', 'l'], .scalar rfl (by decide) (List.all_eq_true.mp (by decide)), rfl⟩
  case h_8 =>
    cases done
    exact ⟨['t', 'r', 'u', 'e'], .scalar rfl (by decide) (List.all_eq_true.mp (by decide)), rfl⟩
  case h_9 =>
    cases done
    exact ⟨['f', 'a', 'l', 's', 'e'], .scalar rfl (by decide) (List.all_eq_true.mp (by decide)), rfl⟩
  case h_10 rest =>
    obtain ⟨⟨units, last⟩, inside, same⟩ := Option.map_eq_some_iff.mp done
    cases same
    obtain ⟨body, closed, rfl⟩ := readString_body inside
    exact ⟨'"' :: body ++ ['"'], .string closed, by simp⟩
  case h_11 rest =>
    obtain ⟨⟨numeral, last⟩, digits, same⟩ := Option.map_eq_some_iff.mp done
    cases same
    obtain ⟨run, -, chars, rfl⟩ := readNumber_run digits
    exact ⟨'-' :: run, .scalar rfl (by simp) (List.forall_mem_cons.mpr ⟨by decide, chars⟩), rfl⟩
  case h_12 =>
    obtain ⟨⟨numeral, last⟩, digits, same⟩ := Option.map_eq_some_iff.mp done
    cases same
    obtain ⟨run, some, chars, rfl⟩ := readNumber_run digits
    exact ⟨run, .scalar rfl some chars, rfl⟩

theorem Lexeme.some {token : JsonToken} {lexeme : Text} (word : Lexeme token lexeme) : lexeme ≠ [] := by
  cases word with
  | scalar kind some chars => exact some
  | _ => exact List.cons_ne_nil _ _

theorem visible_of_isScalarChar {c : Char} (scalar : isScalarChar c = true) : 0x20 ≤ c.toNat := by
  by_contra control
  have none : ∀ code < 0x20, isScalarChar (Char.ofNat code) = false := by decide
  have plain := none c.toNat (Nat.not_le.mp control)
  rw [Char.ofNat_toNat, scalar] at plain
  cases plain

theorem StringBody.visible {body : Text} (inside : StringBody body) : ∀ c ∈ body, 0x20 ≤ c.toNat := by
  induction inside with
  | nil => simp
  | escape visible _ _ ih => exact List.forall_mem_cons.mpr ⟨by decide, List.forall_mem_cons.mpr ⟨visible, ih⟩⟩
  | char _ _ visible _ ih => exact List.forall_mem_cons.mpr ⟨visible, ih⟩

theorem Lexeme.visible {token : JsonToken} {lexeme : Text} (word : Lexeme token lexeme) :
    ∀ c ∈ lexeme, 0x20 ≤ c.toNat := by
  cases word with
  | scalar kind some chars => exact fun c member => visible_of_isScalarChar (chars c member)
  | string inside =>
    rw [List.forall_mem_append, List.forall_mem_cons, List.forall_mem_singleton]
    exact ⟨⟨by decide, inside.visible⟩, by decide⟩
  | _ => exact List.forall_mem_singleton.mpr (by decide)

/-- Tokens with blanks before, between and behind them. -/
inductive Spread : Text → List JsonToken → Prop
  | nil {blanks : Text} (blank : blanks.all isBlank = true) : Spread blanks []
  | cons {blanks lexeme rest : Text} {token : JsonToken} {tokens : List JsonToken}
      (blank : blanks.all isBlank = true) (word : Lexeme token lexeme) (more : Spread rest tokens) :
      Spread (blanks ++ (lexeme ++ rest)) (token :: tokens)

theorem Spread.visible {text : Text} {tokens : List JsonToken} (spread : Spread text tokens) :
    ∀ c ∈ text, isBlank c = true ∨ 0x20 ≤ c.toNat := by
  induction spread with
  | nil blank => exact fun c member => .inl (List.all_eq_true.mp blank c member)
  | cons blank word _ ih =>
    rw [List.forall_mem_append, List.forall_mem_append]
    exact ⟨fun c member => .inl (List.all_eq_true.mp blank c member), fun c member => .inr (word.visible c member), ih⟩

theorem read_length {text after : Text} {token : JsonToken} (done : read text = some (token, after)) :
    after.length < text.length := by
  obtain ⟨lexeme, word, rfl⟩ := read_lexeme done
  have positive := List.length_pos_iff.mpr word.some
  rw [List.length_append]
  omega

theorem readAll_go {text : Text} {fuel other : Nat} (enough : text.length ≤ fuel) (also : text.length ≤ other) :
    readAll.go fuel text = readAll.go other text := by
  induction fuel generalizing text other with
  | zero =>
    cases text with
    | nil => cases other <;> rfl
    | cons c rest => cases enough
  | succ fuel ih =>
    cases other with
    | zero =>
      cases text with
      | nil => rfl
      | cons c rest => cases also
    | succ other =>
      rw [readAll.go, readAll.go]
      split
      · rfl
      · next c rest some =>
        have shorter : (c :: rest).length ≤ text.length := some ▸ (List.dropWhile_sublist isBlank).length_le
        refine Option.bind_congr fun (token, after) done => ?_
        have less := read_length done
        dsimp only
        rw [@ih after other (by omega) (by omega)]

theorem readAll_eq (text : Text) : readAll text =
    if text.dropWhile isBlank = [] then some []
    else (read (text.dropWhile isBlank)).bind fun (token, after) => (readAll after).map (token :: ·) := by
  rw [readAll, readAll_go le_rfl (Nat.le_succ _), readAll.go]
  split
  · next none => rw [none, if_pos rfl]
  · next c rest some =>
    have shorter : (c :: rest).length ≤ text.length := some ▸ (List.dropWhile_sublist isBlank).length_le
    rw [some, if_neg (List.cons_ne_nil c rest)]
    refine Option.bind_congr fun (token, after) done => ?_
    have less := read_length done
    dsimp only
    rw [readAll_go (Nat.le_of_lt (Nat.lt_of_lt_of_le less shorter)) le_rfl, ← readAll]
    cases readAll after <;> rfl

theorem readAll_token {text after : Text} {token : JsonToken}
    (first : read (text.dropWhile isBlank) = some (token, after)) :
    readAll text = (readAll after).map (token :: ·) := by
  have some : text.dropWhile isBlank ≠ [] := by
    intro none
    rw [none] at first
    exact Nat.not_lt_zero _ (read_length first)
  rw [readAll_eq, if_neg some, first, Option.bind_some]

theorem readAll_cases {text : Text} {tokens : List JsonToken} (done : readAll text = some tokens) :
    (text.dropWhile isBlank = [] ∧ tokens = []) ∨
    ∃ token after others, read (text.dropWhile isBlank) = some (token, after) ∧ readAll after = some others ∧
      tokens = token :: others := by
  rw [readAll_eq] at done
  split at done
  · next none =>
    cases done
    exact .inl ⟨none, rfl⟩
  · obtain ⟨⟨token, after⟩, first, rest⟩ := Option.bind_eq_some_iff.mp done
    obtain ⟨others, more, rfl⟩ := Option.map_eq_some_iff.mp rest
    exact .inr ⟨token, after, others, first, more, rfl⟩

theorem readAll_spread {text : Text} {tokens : List JsonToken} (done : readAll text = some tokens) :
    Spread text tokens := by
  induction tokens generalizing text with
  | nil =>
    obtain ⟨none, -⟩ | ⟨_, _, _, _, _, same⟩ := readAll_cases done
    · exact .nil (List.all_eq_true.mpr (List.dropWhile_eq_nil_iff.mp none))
    · cases same
  | cons token tokens ih =>
    obtain ⟨-, none⟩ | ⟨_, after, _, first, rest, same⟩ := readAll_cases done
    · cases none
    · cases same
      obtain ⟨lexeme, word, split⟩ := read_lexeme first
      have whole : text = text.takeWhile isBlank ++ (lexeme ++ after) := by
        rw [← split, List.takeWhile_append_dropWhile]
      rw [whole]
      exact .cons List.all_takeWhile word (ih rest)

end JsonToken

end LiteralSql
