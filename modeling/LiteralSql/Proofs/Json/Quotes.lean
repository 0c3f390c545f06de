import LiteralSql.Proofs.Json.Printing
import LiteralSql.Text

/-! Quotes and backslashes in the text of tokens.

In a text whose backslashes come in pairs no quote stands behind an escape, so
every quote opens or closes a string. If such a text is read, its quotes come
in pairs too, and all backslashes stand inside of them.
-/

set_option autoImplicit false

namespace LiteralSql

namespace JsonToken

/-- Quotes come in pairs, and outside of them no backslash occurs. -/
def quotesPair : Bool → Text → Bool
  | inside, [] => !inside
  | inside, c :: rest =>
    if c = '"' then quotesPair (!inside) rest
    else if c = '\\' then inside && quotesPair inside rest
    else quotesPair inside rest

inductive Paired : Text → Prop
  | nil : Paired []
  | both {rest : Text} (more : Paired rest) : Paired ('\\' :: '\\' :: rest)
  | char {c : Char} {rest : Text} (other : c ≠ '\\') (more : Paired rest) : Paired (c :: rest)

theorem paired_double (text : Text) : Paired (Text.double '\\' text) := by
  induction text with
  | nil => exact .nil
  | cons c rest ih =>
    rw [Text.double, List.flatMap_cons, ← Text.double]
    split
    · exact .both ih
    · next other => exact .char other ih

theorem Paired.tail {c : Char} {rest : Text} (paired : Paired (c :: rest)) (other : c ≠ '\\') : Paired rest := by
  cases paired with
  | both more => exact absurd rfl other
  | char _ more => exact more

def Bare (text : Text) : Prop := ∀ c ∈ text, c ≠ '"' ∧ c ≠ '\\'

theorem quotesPair_char {c : Char} (quote : c ≠ '"') (backslash : c ≠ '\\') (inside : Bool) (rest : Text) :
    quotesPair inside (c :: rest) = quotesPair inside rest := by
  rw [quotesPair, if_neg quote, if_neg backslash]

theorem quotesPair_bare {text : Text} (bare : Bare text) (inside : Bool) (rest : Text) :
    quotesPair inside (text ++ rest) = quotesPair inside rest := by
  induction text with
  | nil => rfl
  | cons c others ih =>
    obtain ⟨⟨quote, backslash⟩, bare⟩ := List.forall_mem_cons.mp bare
    rw [List.cons_append, quotesPair_char quote backslash, ih bare]

theorem Paired.behind {text rest : Text} (paired : Paired (text ++ rest)) (bare : Bare text) : Paired rest := by
  induction text with
  | nil => exact paired
  | cons c others ih =>
    obtain ⟨⟨-, backslash⟩, bare⟩ := List.forall_mem_cons.mp bare
    exact ih (paired.tail backslash) bare

theorem StringBody.quotesPair {body rest : Text} (inside : StringBody body) (paired : Paired (body ++ '"' :: rest)) :
    quotesPair true (body ++ '"' :: rest) = JsonToken.quotesPair false rest ∧ Paired rest := by
  induction inside with
  | nil => exact ⟨rfl, paired.tail (by decide)⟩
  | @escape c others _ _ _ ih =>
    cases paired with
    | both more => exact ih more
    | char other _ => exact absurd rfl other
  | @char c others quote backslash _ _ ih =>
    rw [List.cons_append, quotesPair_char quote backslash]
    exact ih (paired.tail backslash)

theorem bare_of_all {holds : Char → Bool} (apart : ['"', '\\'].all (fun c => !holds c) = true) {text : Text}
    (each : ∀ c ∈ text, holds c = true) : Bare text := by
  intro c member
  have held := each c member
  simp only [List.all_cons, List.all_nil, Bool.and_true, Bool.and_eq_true, Bool.not_eq_true'] at apart
  constructor
  · rintro rfl
    rw [apart.1] at held
    cases held
  · rintro rfl
    rw [apart.2] at held
    cases held

theorem bare_scalar {text : Text} (chars : ∀ c ∈ text, isScalarChar c = true) : Bare text :=
  bare_of_all (by decide) chars

theorem bare_blanks {blanks : Text} (blank : blanks.all isBlank = true) : Bare blanks :=
  bare_of_all (by decide) (List.all_eq_true.mp blank)

theorem Lexeme.cases {token : JsonToken} {lexeme : Text} (word : Lexeme token lexeme) :
    Bare lexeme ∨ ∃ body, StringBody body ∧ lexeme = '"' :: body ++ ['"'] := by
  cases word with
  | scalar _ _ chars => exact .inl (bare_scalar chars)
  | string inside => exact .inr ⟨_, inside, rfl⟩
  | _ => exact .inl (by simp [Bare])

theorem Spread.quotesPair {text : Text} {tokens : List JsonToken} (spread : Spread text tokens)
    (paired : Paired text) : quotesPair false text = true := by
  induction spread with
  | nil blank =>
    have skipped := quotesPair_bare (bare_blanks blank) false []
    rw [List.append_nil] at skipped
    rw [skipped]
    rfl
  | @cons blanks lexeme rest token tokens blank word _ ih =>
    have behind := paired.behind (bare_blanks blank)
    rw [quotesPair_bare (bare_blanks blank)]
    obtain bare | ⟨body, inside, rfl⟩ := word.cases
    · rw [quotesPair_bare bare]
      exact ih (behind.behind bare)
    · rw [List.append_assoc, List.singleton_append, List.cons_append] at behind ⊢
      obtain ⟨closed, more⟩ := inside.quotesPair (behind.tail (by decide))
      change JsonToken.quotesPair true _ = true
      rw [closed]
      exact ih more

end JsonToken

end LiteralSql
