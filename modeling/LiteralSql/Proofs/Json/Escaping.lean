import LiteralSql.Proofs.DollarQuote
import LiteralSql.Proofs.Json.Quotes
import LiteralSql.Proofs.Json.Reading

/-! A printed document whose backslashes are escaped once more.

A quote in a text then ends its string too early, and what follows cannot be
read. Without quotes the escapes become part of the texts, so another document
is read as soon as one text has an escape.
-/

set_option autoImplicit false

namespace LiteralSql

namespace Json

def isPlain (c : Char) : Bool := c ≠ '"' && c ≠ '\\' && 0x20 ≤ c.toNat

theorem escapeChar_of_isPlain {c : Char} (plain : isPlain c = true) : escapeChar c = [c] := by
  simp only [isPlain, Bool.and_eq_true, decide_eq_true_eq] at plain
  exact escapeChar_of_plain plain.1.1 plain.1.2 (not_lt.mpr plain.2)

theorem escapeChar_of_special {c : Char} (special : isPlain c = false) :
    ∃ rest, escapeChar c = '\\' :: rest ∧ rest ≠ [] ∧ ∀ x ∈ rest, ¬x.toNat < 0x20 ∧ (x = '"' → c = '"') := by
  by_cases control : c.toNat < 0x20
  · have codes : ∀ code < 0x20, (escapeChar (Char.ofNat code)).head? = some '\\' ∧
        (escapeChar (Char.ofNat code)).tail ≠ [] ∧
        (escapeChar (Char.ofNat code)).tail.all (fun x => !decide (x.toNat < 0x20) && x != '"') = true := by decide
    obtain ⟨backslash, some, each⟩ := codes c.toNat control
    rw [Char.ofNat_toNat] at backslash some each
    refine ⟨_, (List.cons_head?_tail backslash).symm, some, fun x member => ?_⟩
    have held := List.all_eq_true.mp each x member
    simp only [Bool.and_eq_true, Bool.not_eq_true', decide_eq_false_iff_not, bne_iff_ne] at held
    exact ⟨held.1, fun quote => absurd quote held.2⟩
  · simp only [isPlain, Bool.and_eq_false_iff, decide_eq_false_iff_not, not_not, not_le] at special
    obtain (rfl | rfl) | low := special
    · exact ⟨['"'], rfl, nofun, List.forall_mem_singleton.mpr ⟨by decide, fun _ => rfl⟩⟩
    · exact ⟨['\\'], rfl, nofun, List.forall_mem_singleton.mpr ⟨by decide, nofun⟩⟩
    · exact absurd low control

theorem visible_of_mem_escapeChar {c x : Char} (member : x ∈ escapeChar c) : ¬x.toNat < 0x20 := by
  cases plain : isPlain c with
  | true =>
    rw [escapeChar_of_isPlain plain, List.mem_singleton] at member
    simp only [isPlain, Bool.and_eq_true, decide_eq_true_eq] at plain
    rw [member]
    exact not_lt.mpr plain.2
  | false =>
    obtain ⟨rest, written, -, each⟩ := escapeChar_of_special plain
    rw [written, List.mem_cons] at member
    obtain rfl | member := member
    · decide
    · exact (each x member).1

theorem quote_not_mem_escapeChar {c : Char} (other : c ≠ '"') : '"' ∉ escapeChar c := by
  intro member
  cases plain : isPlain c with
  | true =>
    rw [escapeChar_of_isPlain plain, List.mem_singleton] at member
    exact other member.symm
  | false =>
    obtain ⟨rest, written, -, each⟩ := escapeChar_of_special plain
    rw [written, List.mem_cons] at member
    obtain backslash | member := member
    · cases backslash
    · exact other ((each '"' member).2 rfl)

def escaped (text : Text) : Text := text.flatMap escapeChar

end Json

namespace JsonToken

open Json

theorem quotesPair_inside {text : Text} (none : '"' ∉ text) (rest : Text) :
    quotesPair true (text ++ rest) = quotesPair true rest := by
  induction text with
  | nil => rfl
  | cons c others ih =>
    rw [List.mem_cons, not_or] at none
    rw [List.cons_append, quotesPair, if_neg (Ne.symm none.1), ih none.2, Bool.true_and, ite_self]

theorem quote_not_mem_double {text : Text} (none : '"' ∉ text) : '"' ∉ Text.double '\\' text := by
  intro member
  obtain ⟨c, held, written⟩ := List.mem_flatMap.mp member
  split at written
  · simp at written
  · rw [List.mem_singleton.mp written] at none
    exact none held

theorem double_escaped_cons (c : Char) (text : Text) : Text.double '\\' (escaped (c :: text)) =
    Text.double '\\' (escapeChar c) ++ Text.double '\\' (escaped text) := by
  rw [escaped, List.flatMap_cons, Text.double_append, ← escaped]

theorem quotesPair_outside {text rest : Text}
    (pair : quotesPair false (Text.double '\\' (escaped text) ++ '"' :: rest) = true) :
    quotesPair true rest = true := by
  induction text with
  | nil => exact pair
  | cons c others ih =>
    rw [double_escaped_cons, List.append_assoc] at pair
    cases plain : isPlain c with
    | true =>
      rw [escapeChar_of_isPlain plain] at pair
      simp only [isPlain, Bool.and_eq_true, decide_eq_true_eq] at plain
      have same : Text.double '\\' [c] = [c] := by rw [Text.double, List.flatMap_singleton, if_neg plain.1.2]
      rw [same, List.singleton_append, quotesPair_char plain.1.1 plain.1.2] at pair
      exact ih pair
    | false =>
      obtain ⟨escape, written, -⟩ := escapeChar_of_special plain
      rw [written] at pair
      cases pair

/-- Inside of quotes a doubled string ends at its own quote, unless it holds
another one: then what follows is read the other way round. -/
theorem quotesPair_string {text rest : Text}
    (pair : quotesPair true (Text.double '\\' (escaped text) ++ '"' :: rest) = true) :
    '"' ∉ text ∧ quotesPair false rest = true ∨ quotesPair true rest = true := by
  induction text with
  | nil => exact .inl ⟨List.not_mem_nil, pair⟩
  | cons c others ih =>
    rw [double_escaped_cons, List.append_assoc] at pair
    by_cases quote : c = '"'
    · subst quote
      -- Of an escaped quote the backslash is doubled, and the quote ends the string.
      exact .inr (quotesPair_outside pair)
    · rw [quotesPair_inside (quote_not_mem_double (quote_not_mem_escapeChar quote))] at pair
      refine (ih pair).imp_left fun both => ⟨?_, both.2⟩
      rw [List.mem_cons, not_or]
      exact ⟨Ne.symm quote, both.1⟩

theorem scalar_digits {digits : Text} (written : digits.Digits) : ∀ c ∈ digits, isScalarChar c = true :=
  fun c member => isScalarChar_of_isDigit (written.2 c member)

theorem scalar_numeral {numeral : JsonNumeral} (written : numeral.Written) :
    ∀ c ∈ numeral.text, isScalarChar c = true := by
  obtain ⟨negative, whole, fraction, exponent⟩ := numeral
  intro c member
  rw [JsonNumeral.text, List.mem_append, List.mem_append, List.mem_append] at member
  obtain sign | digits | point | power := member
  · cases negative with
    | true => rw [List.mem_singleton.mp sign]; rfl
    | false => cases sign
  · exact scalar_digits written.whole c digits
  · cases fraction with
    | none => cases point
    | some digits =>
      obtain rfl | digit := List.mem_cons.mp point
      · rfl
      · exact scalar_digits (written.fraction digits rfl) c digit
  · cases exponent with
    | none => cases power
    | some part =>
      obtain ⟨down, digits⟩ := part
      obtain rfl | sign := List.mem_cons.mp power
      · rfl
      · obtain rfl | digit := List.mem_cons.mp sign
        · cases down <;> rfl
        · exact scalar_digits (written.exponent (down, digits) rfl) c digit

theorem plain_of_isScalarChar {c : Char} (scalar : isScalarChar c = true) : isPlain c = true := by
  have codes : ∀ code < 0x20, isScalarChar (Char.ofNat code) = false := by decide
  by_contra special
  simp only [isPlain, Bool.and_eq_true, decide_eq_true_eq, not_and_or, not_not, not_le] at special
  obtain (rfl | rfl) | control := special
  · cases scalar
  · cases scalar
  · have other := codes c.toNat control
    rw [Char.ofNat_toNat, scalar] at other
    cases other

theorem plain_text {token : JsonToken} (written : token.Written) :
    (∀ c ∈ token.text, isPlain c = true) ∨
      ∃ text, token = .string (units text) ∧ token.text = '"' :: (escaped text ++ ['"']) := by
  cases token with
  | string units =>
    obtain ⟨text, rfl⟩ := written
    exact .inr ⟨text, rfl, (quote_eq text).symm⟩
  | number numeral => exact .inl fun c member => plain_of_isScalarChar (scalar_numeral written c member)
  | bool value => cases value <;> exact .inl (List.all_eq_true.mp (by decide))
  | _ => exact .inl (List.all_eq_true.mp (by decide))

theorem bare_of_plain {text : Text} (plain : ∀ c ∈ text, isPlain c = true) : Bare text :=
  bare_of_all (by decide) plain

theorem double_bare {text : Text} (bare : Bare text) : Text.double '\\' text = text := by
  induction text with
  | nil => rfl
  | cons c others ih =>
    obtain ⟨⟨-, backslash⟩, bare⟩ := List.forall_mem_cons.mp bare
    rw [Text.double, List.flatMap_cons, if_neg backslash, ← Text.double, ih bare, List.singleton_append]

theorem double_string (text : Text) : Text.double '\\' ('"' :: (escaped text ++ ['"'])) =
    '"' :: (Text.double '\\' (escaped text) ++ ['"']) := by
  rw [Text.double, List.flatMap_cons, List.flatMap_append]
  rfl

section Tokens

variable {tokens : List JsonToken} (each : ∀ token ∈ tokens, token.Written)
include each

theorem not_quotesPair_inside : quotesPair true (Text.double '\\' (tokens.flatMap text)) = false := by
  induction tokens with
  | nil => rfl
  | cons token others ih =>
    rw [List.forall_mem_cons] at each
    rw [List.flatMap_cons, Text.double_append]
    obtain plain | ⟨text, -, written⟩ := plain_text each.1
    · rw [double_bare (bare_of_plain plain), quotesPair_bare (bare_of_plain plain)]
      exact ih each.2
    · by_contra pair
      rw [written, double_string, List.cons_append, List.append_assoc, List.singleton_append] at pair
      have reversed := quotesPair_outside (eq_true_of_ne_false pair)
      rw [ih each.2] at reversed
      cases reversed

theorem quote_not_mem_of_quotesPair (pair : quotesPair false (Text.double '\\' (tokens.flatMap text)) = true)
    {string : Text} (member : .string (units string) ∈ tokens) : '"' ∉ string := by
  induction tokens with
  | nil => cases member
  | cons token others ih =>
    rw [List.forall_mem_cons] at each
    rw [List.flatMap_cons, Text.double_append] at pair
    obtain plain | ⟨text, rfl, written⟩ := plain_text each.1
    · rw [double_bare (bare_of_plain plain), quotesPair_bare (bare_of_plain plain)] at pair
      obtain rfl | member := List.mem_cons.mp member
      · exact absurd (plain '"' List.mem_cons_self) (by decide)
      · exact ih each.2 pair member
    · rw [written, double_string, List.cons_append, List.append_assoc, List.singleton_append] at pair
      obtain ⟨absent, pair⟩ | reversed := quotesPair_string pair
      · obtain same | member := List.mem_cons.mp member
        · have text_eq := congrArg unitsText? (JsonToken.string.inj same)
          rw [unitsText?_units, unitsText?_units] at text_eq
          rwa [Option.some.inj text_eq]
        · exact ih each.2 pair member
      · rw [not_quotesPair_inside each.2] at reversed
        cases reversed

end Tokens

end JsonToken

end LiteralSql
