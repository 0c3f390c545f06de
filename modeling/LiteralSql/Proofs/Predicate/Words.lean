import LiteralSql.Proofs.Identifier
import LiteralSql.Sql.Query

/-! The words of a predicate's text.

A word ends at a blank, a parenthesis or a comma. Between double quotes nothing
ends it, so the reference to a column is one word, whatever the column is called.
-/

set_option autoImplicit false

namespace LiteralSql

/-- What a reader of predicates tells apart. A word that is no keyword and no
operator is an operand. -/
inductive Token
  | operand (word : Text)
  | comparison (word : Text)
  | pattern (word : Text)
  | conjunction
  | disjunction
  | negation
  | is
  | null
  | between
  | membership
  | opening
  | closing
  | comma
  deriving DecidableEq

namespace Token

def reserved : List (Text × Token) :=
  [("and".toList, conjunction), ("or".toList, disjunction), ("not".toList, negation),
    ("is".toList, is), ("null".toList, null), ("between".toList, between),
    ("in".toList, membership), ("like".toList, pattern "like".toList),
    ("ilike".toList, pattern "ilike".toList), ("=".toList, comparison "=".toList),
    ("!=".toList, comparison "!=".toList), ("<".toList, comparison "<".toList),
    ("<=".toList, comparison "<=".toList), (">".toList, comparison ">".toList),
    (">=".toList, comparison ">=".toList)]

def ofWord (word : Text) : Token :=
  match reserved.find? (·.1 == word) with
  | some entry => entry.2
  | none => operand word

theorem ofWord_of_foreign {word : Text} (foreign : ∀ entry ∈ reserved, entry.1 ≠ word) :
    ofWord word = operand word := by
  have missed : reserved.find? (·.1 == word) = none :=
    List.find?_eq_none.mpr fun entry member => by simpa using foreign entry member
  rw [ofWord, missed]

def flush : Text → List Token
  | [] => []
  | word => [ofWord word]

def punctuation? : Char → Option Token
  | '(' => some opening
  | ')' => some closing
  | ',' => some comma
  | _ => none

/-- Splits a text into tokens. `word` is what has been read of the present word,
and `inside` tells whether a double quote is open. -/
def read (inside : Bool) (word : Text) : Text → List Token
  | [] => flush word
  | c :: rest =>
    if c = '"' then read (!inside) (word ++ [c]) rest
    else if inside then read true (word ++ [c]) rest
    else if c.isWhitespace then flush word ++ read false [] rest
    else match punctuation? c with
      | some mark => flush word ++ mark :: read false [] rest
      | none => read false (word ++ [c]) rest

def ofText (text : Text) : List Token := read false [] text

def quotedBehind (inside : Bool) (text : Text) : Bool :=
  text.foldl (fun inside c => if c = '"' then !inside else inside) inside

def Closes (text : Text) : Prop := quotedBehind false text = false

/-- A text whose beginning ends the word before it. -/
def Parts : Text → Prop
  | [] => True
  | c :: _ => c.isWhitespace = true ∨ (punctuation? c).isSome = true

theorem Closes.nil : Closes [] := rfl

theorem Closes.append {first second : Text} (left : Closes first) (right : Closes second) :
    Closes (first ++ second) := by
  have start : quotedBehind false first = false := left
  rw [Closes, quotedBehind, List.foldl_append]
  change quotedBehind (quotedBehind false first) second = false
  rw [start, right]

theorem read_parts {rest : Text} (parts : Parts rest) (word : Text) :
    read false word rest = flush word ++ read false [] rest := by
  cases rest with
  | nil => exact (List.append_nil _).symm
  | cons c rest =>
    have unquoted : c ≠ '"' := by
      rintro rfl
      obtain blank | mark := parts
      · exact absurd blank (by decide)
      · exact absurd mark (by decide)
    rw [read, read, if_neg unquoted, if_neg unquoted, if_neg Bool.false_ne_true,
      if_neg Bool.false_ne_true]
    obtain blank | mark := parts
    · rw [if_pos blank, if_pos blank]
      rfl
    · obtain ⟨token, found⟩ := Option.isSome_iff_exists.mp mark
      rw [found]
      split <;> rfl

theorem read_append {text rest : Text} (parts : Parts rest) {inside : Bool} (word : Text)
    (closes : quotedBehind inside text = false) :
    read inside word (text ++ rest) = read inside word text ++ ofText rest := by
  induction text generalizing inside word with
  | nil =>
    cases closes
    exact read_parts parts word
  | cons c behind ih =>
    rw [quotedBehind, List.foldl_cons] at closes
    rw [List.cons_append, read, read]
    split
    · next quote =>
      rw [if_pos quote] at closes
      exact ih _ closes
    · next plain =>
      rw [if_neg plain] at closes
      split
      · next quoted =>
        rw [quoted] at closes
        exact ih _ closes
      · next unquoted =>
        rw [Bool.not_eq_true] at unquoted
        rw [unquoted] at closes
        split
        · rw [ih _ closes, List.append_assoc]
        · split
          · rw [ih _ closes, List.append_assoc, List.cons_append]
          · exact ih _ closes

theorem ofText_append {first second : Text} (closes : Closes first) (parts : Parts second) :
    ofText (first ++ second) = ofText first ++ ofText second :=
  read_append parts [] closes

def stays (inside : Bool) : Text → Option Bool
  | [] => some inside
  | c :: rest =>
    if c = '"' then stays (!inside) rest
    else if inside then stays true rest
    else if c.isWhitespace || (punctuation? c).isSome then none
    else stays false rest

theorem stays_append (inside : Bool) (first second : Text) :
    stays inside (first ++ second) = (stays inside first).bind (stays · second) := by
  induction first generalizing inside with
  | nil => rfl
  | cons c rest ih =>
    rw [List.cons_append, stays, stays]
    split
    · exact ih _
    · split
      · exact ih _
      · split
        · rfl
        · exact ih _

def IsWord (text : Text) : Prop := stays false text = some false

theorem read_of_stays {text : Text} {inside after : Bool} (held : stays inside text = some after)
    (word : Text) : read inside word text = flush (word ++ text) ∧ quotedBehind inside text = after := by
  induction text generalizing inside word with
  | nil =>
    cases held
    exact ⟨by rw [List.append_nil]; rfl, rfl⟩
  | cons c rest ih =>
    have joined : word ++ c :: rest = word ++ [c] ++ rest := (List.append_cons word c rest)
    rw [stays] at held
    rw [read, quotedBehind, List.foldl_cons, joined]
    split at held
    · next quote =>
      rw [if_pos quote, if_pos quote]
      exact ih held _
    · next plain =>
      rw [if_neg plain, if_neg plain]
      split at held
      · next quoted =>
        rw [if_pos quoted, quoted]
        exact ih held _
      · next unquoted =>
        split at held
        · cases held
        · next solid =>
          rw [Bool.or_eq_true, not_or, Bool.not_eq_true, Bool.not_eq_true,
            Option.isSome_eq_false_iff, Option.isNone_iff_eq_none] at solid
          rw [Bool.not_eq_true] at unquoted
          rw [unquoted, if_neg Bool.false_ne_true, solid.1, if_neg Bool.false_ne_true, solid.2]
          exact ih held _

namespace IsWord

theorem closes {text : Text} (whole : IsWord text) : Closes text := (read_of_stays whole []).2

theorem ofText_eq {text : Text} (whole : IsWord text) : ofText text = flush text :=
  (read_of_stays whole []).1

theorem nil : IsWord [] := rfl

theorem append {first second : Text} (left : IsWord first) (right : IsWord second) :
    IsWord (first ++ second) := by
  have start : stays false first = some false := left
  rw [IsWord, stays_append, start]
  exact right

theorem not_append_blank {text : Text} (whole : IsWord text) (rest : Text) : ¬ IsWord (text ++ ' ' :: rest) := by
  have start : stays false text = some false := whole
  rw [IsWord, stays_append, start]
  exact Option.some_ne_none _ ∘ Eq.symm

theorem eq_of_blank {first second rest others : Text} (left : IsWord first) (right : IsWord second)
    (same : first ++ ' ' :: rest = second ++ ' ' :: others) : first = second ∧ rest = others := by
  rcases List.append_eq_append_iff.mp same with ⟨between, longer, behind⟩ | ⟨between, longer, behind⟩
  · cases between with
    | nil => exact ⟨(longer.trans (List.append_nil _)).symm, (List.cons.inj behind).2⟩
    | cons c between =>
      obtain ⟨rfl, -⟩ := List.cons.inj behind
      exact absurd (longer ▸ right) (left.not_append_blank between)
  · cases between with
    | nil => exact ⟨longer.trans (List.append_nil _), (List.cons.inj behind).2.symm⟩
    | cons c between =>
      obtain ⟨rfl, -⟩ := List.cons.inj behind
      exact absurd (longer ▸ left) (right.not_append_blank between)

def ends : Text := [' ', '\t', '\r', '\n', '(', ')', ',', '"']

theorem of_not_mem_ends {c : Char} (other : c ∉ ends) : IsWord [c] := by
  simp only [ends, List.mem_cons, List.not_mem_nil, or_false, not_or] at other
  obtain ⟨space, tab, carriage, line, opening, closing, comma, quote⟩ := other
  have solid : c.isWhitespace = false := by simp [Char.isWhitespace, space, tab, carriage, line]
  have unmarked : punctuation? c = none := by
    unfold punctuation?
    split <;> first | contradiction | rfl
  rw [IsWord, stays, if_neg quote, if_neg Bool.false_ne_true, solid, unmarked]
  rfl

theorem of_all {text : Text} {inClass : Char → Bool} (apart : ends.any inClass = false)
    (members : text.all inClass = true) : IsWord text := by
  induction text with
  | nil => exact nil
  | cons c rest ih =>
    rw [List.all_cons, Bool.and_eq_true] at members
    have other : c ∉ ends := fun member =>
      Bool.false_ne_true (apart.symm.trans (List.any_eq_true.mpr ⟨c, member, members.1⟩))
    exact append (of_not_mem_ends other) (ih members.2)

theorem intercalate {separator : Text} (between : IsWord separator) {texts : List Text}
    (whole : ∀ text ∈ texts, IsWord text) : IsWord (separator.intercalate texts) :=
  Text.intercalate_of_append nil append between whole

theorem enclosed (name : Text) : IsWord ('"' :: Text.double '"' name ++ ['"']) := by
  have body : stays true (Text.double '"' name) = some true := by
    induction name with
    | nil => rfl
    | cons c rest ih =>
      have unfolded : Text.double '"' (c :: rest) =
          (if c = '"' then ['"', '"'] else [c]) ++ Text.double '"' rest := rfl
      rw [unfolded, stays_append]
      split
      · exact ih
      · next plain =>
        have kept : stays true [c] = some true := by rw [stays, if_neg plain]; rfl
        rw [kept]
        exact ih
  rw [IsWord, List.cons_append, stays, if_pos rfl]
  change stays true _ = _
  rw [stays_append, body]
  rfl

end IsWord

end Token

namespace Identifier

theorem isWord_enclose (name : Text) : Token.IsWord (enclose name) := by
  rw [enclose]
  split
  · rfl
  · exact Token.IsWord.enclosed name

theorem isWord_quote (name : Text) : Token.IsWord (quote name) := by
  have outside := all_splitSubscripts name
  rw [quote]
  generalize splitSubscripts name = parts at outside ⊢
  obtain ⟨base, subscripts⟩ := parts
  dsimp only at outside ⊢
  split
  · exact (isWord_enclose base).append (Token.IsWord.of_all (by decide) outside)
  · exact isWord_enclose name

theorem isWord_quoteQualified (name : Text) : Token.IsWord (quoteQualified name) := by
  refine @Token.IsWord.intercalate ['.'] rfl _ fun part member => ?_
  obtain ⟨source, -, rfl⟩ := List.mem_map.mp member
  exact isWord_quote source

theorem quote_begins (name : Text) : ∃ c rest, quote name = c :: rest ∧ (c = '"' ∨ c = '*') := by
  have enclosed : ∀ text, ∃ c rest, enclose text = c :: rest ∧ (c = '"' ∨ c = '*') := by
    intro text
    rw [enclose]
    split
    · exact ⟨_, _, rfl, .inr rfl⟩
    · exact ⟨_, _, rfl, .inl rfl⟩
  rw [quote]
  generalize splitSubscripts name = parts
  obtain ⟨base, subscripts⟩ := parts
  dsimp only
  split
  · obtain ⟨c, rest, same, known⟩ := enclosed base
    exact ⟨c, rest ++ subscripts, by rw [same]; rfl, known⟩
  · exact enclosed name

end Identifier

namespace Column

theorem isWord_sql (column : Column) : Token.IsWord column.sql := by
  unfold sql
  split
  · next table _ =>
    have dot : Token.IsWord ['.'] := rfl
    exact (Identifier.isWord_quote table).append (dot.append (Identifier.isWord_quote column.name))
  · exact Identifier.isWord_quoteQualified column.name

theorem sql_begins (column : Column) : ∃ c rest, column.sql = c :: rest ∧ (c = '"' ∨ c = '*') := by
  unfold sql
  split
  · next table _ =>
    obtain ⟨c, rest, same, known⟩ := Identifier.quote_begins table
    exact ⟨c, _, by rw [same]; rfl, known⟩
  · obtain ⟨part, parts, split⟩ := List.exists_cons_of_ne_nil (Text.split_ne_nil '.' column.name)
    obtain ⟨c, rest, same, known⟩ := Identifier.quote_begins part
    rw [Identifier.quoteQualified, split, List.map_cons, same]
    cases parts with
    | nil => exact ⟨c, rest, List.intercalate_singleton, known⟩
    | cons next others => exact ⟨c, _, by rw [List.map_cons, List.intercalate_cons_cons]; rfl, known⟩

theorem tokens_sql (column : Column) : Token.ofText column.sql = [.operand column.sql] := by
  obtain ⟨c, rest, same, known⟩ := column.sql_begins
  have foreign : ∀ entry ∈ Token.reserved, entry.1 ≠ column.sql := by
    have strange : ∀ entry ∈ Token.reserved, entry.1.head? ≠ some '"' ∧ entry.1.head? ≠ some '*' := by
      decide
    intro entry member written
    have begins : entry.1.head? = some c := by rw [written, same]; rfl
    obtain rfl | rfl := known
    · exact (strange entry member).1 begins
    · exact (strange entry member).2 begins
  rw [column.isWord_sql.ofText_eq, ← Token.ofWord_of_foreign foreign, same]
  rfl

end Column

end LiteralSql
