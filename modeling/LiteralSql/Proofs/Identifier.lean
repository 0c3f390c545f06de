import LiteralSql.Proofs.Reading
import LiteralSql.Sql.Identifier

/-! Quoted names and plain literals are quiet, whatever they are made of.

A mark inside the quotes is written twice, which closes the region and opens it
again at once. What stays outside of them is a star or a sequence of subscripts.
-/

set_option autoImplicit false

namespace LiteralSql

namespace SqlState

theorem read_quoted {mark : Char} (opens : stepBare mark = (.quoted mark, [.shielded mark]))
    (text : Text) :
    (quoted mark).read (Text.double mark text) = (.quoted mark, (Text.double mark text).map .shielded) := by
  have close : (quoted mark).step mark = (.bare, [.shielded mark]) := by simp [step]
  have reopen : bare.step mark = (.quoted mark, [.shielded mark]) := opens
  induction text with
  | nil => rfl
  | cons c rest ih =>
    have unfolded : Text.double mark (c :: rest) =
        (if c = mark then [mark, mark] else [c]) ++ Text.double mark rest := rfl
    rw [unfolded]
    split
    · rw [List.cons_append, List.cons_append, List.nil_append, read_cons, close, read_cons, reopen, ih]
      rfl
    · next other =>
      have stay : (quoted mark).step c = (.quoted mark, [.shielded c]) := by simp [step, other]
      rw [List.cons_append, List.nil_append, read_cons, stay, ih]
      rfl

theorem read_double {mark : Char} (opens : stepBare mark = (.quoted mark, [.shielded mark]))
    (text : Text) :
    (quoted mark).read (Text.double mark text ++ [mark]) =
      (.bare, (Text.double mark text ++ [mark]).map .shielded) := by
  have close : (quoted mark).step mark = (.bare, [.shielded mark]) := by simp [step]
  rw [read_append, read_quoted opens, read_cons, close, List.map_append]
  rfl

end SqlState

theorem Quiet.of_double {mark : Char}
    (opens : SqlState.stepBare mark = (.quoted mark, [.shielded mark])) (text : Text) :
    Quiet (mark :: Text.double mark text ++ [mark]) := by
  apply Quiet.of_shielded
  rw [List.cons_append, SqlState.read_cons,
    show SqlState.bare.step mark = (.quoted mark, [.shielded mark]) from opens,
    SqlState.read_double opens]
  rfl

namespace Identifier

def isSubscriptChar (c : Char) : Bool := c == '[' || c == ']' || Text.isDigit c

theorem all_of_insideSubscript {afterDigit : Bool} {text : Text}
    (inside : insideSubscript afterDigit text = true) : text.all isSubscriptChar = true := by
  have bracket : isSubscriptChar ']' = true ∧ isSubscriptChar '[' = true := by decide
  fun_induction insideSubscript afterDigit text with
  | case1 => rfl
  | case2 afterDigit rest ih =>
    rw [Bool.and_eq_true] at inside
    simp [bracket, ih inside.2]
  | case3 afterDigit rest _ =>
    rw [Bool.and_eq_true, List.isEmpty_iff] at inside
    simp [inside.2, bracket]
  | case4 afterDigit c rest _ _ ih =>
    rw [Bool.and_eq_true] at inside
    rw [List.all_cons, isSubscriptChar, inside.1, Bool.or_true, ih inside.2]
    rfl

theorem all_of_isSubscripts {text : Text} (subscripts : isSubscripts text = true) :
    text.all isSubscriptChar = true := by
  unfold isSubscripts at subscripts
  split at subscripts
  · have bracket : isSubscriptChar '[' = true := by decide
    rw [List.all_cons, bracket, all_of_insideSubscript subscripts]
    rfl
  · cases subscripts

theorem all_splitSubscripts (name : Text) : (splitSubscripts name).2.all isSubscriptChar = true := by
  induction name with
  | nil => rfl
  | cons c rest ih =>
    rw [splitSubscripts]
    split
    · next subscripts => exact all_of_isSubscripts subscripts
    · exact ih

theorem splitSubscripts_plain (name : Text) :
    (splitSubscripts name).2.all Quiet.isPlain = true :=
  List.all_eq_true.mpr fun c member =>
    Quiet.isPlain_of_class (by decide) (List.all_eq_true.mp (all_splitSubscripts name) c member)

theorem quiet_enclose (name : Text) : Quiet (enclose name) := by
  rw [enclose]
  split
  · exact Quiet.of_plain (by decide)
  · exact Quiet.of_double rfl name

theorem quiet_quote (name : Text) : Quiet (quote name) := by
  have outside := splitSubscripts_plain name
  rw [quote]
  generalize splitSubscripts name = parts at outside ⊢
  obtain ⟨base, subscripts⟩ := parts
  dsimp only at outside ⊢
  split
  · exact (quiet_enclose base).append (Quiet.of_plain outside)
  · exact quiet_enclose name

theorem quiet_quoteQualified (name : Text) : Quiet (quoteQualified name) := by
  apply Quiet.intercalate (Quiet.of_plain (by decide))
  intro part member
  obtain ⟨source, -, rfl⟩ := List.mem_map.mp member
  exact quiet_quote source

theorem quiet_quoteLiteral (text : Text) : Quiet (quoteLiteral text) := Quiet.of_double rfl text

/-- Reads to the quote that closes a literal; two quotes stand for one. The
text comes with what follows it. -/
def insideLiteral? : Text → Option (Text × Text)
  | [] => none
  | '\'' :: '\'' :: rest => (insideLiteral? rest).map fun (text, after) => ('\'' :: text, after)
  | '\'' :: rest => some ([], rest)
  | c :: rest => (insideLiteral? rest).map fun (text, after) => (c :: text, after)

def readLiteral? : Text → Option (Text × Text)
  | '\'' :: rest => insideLiteral? rest
  | _ => none

theorem readLiteral?_quoteLiteral (text : Text) {rest : Text} (closed : rest.head? ≠ some '\'') :
    readLiteral? (quoteLiteral text ++ rest) = some (text, rest) := by
  suffices inside : insideLiteral? (Text.double '\'' text ++ '\'' :: rest) = some (text, rest) by
    change insideLiteral? (Text.double '\'' text ++ ['\''] ++ rest) = _
    rw [List.append_assoc]
    exact inside
  induction text with
  | nil =>
    cases rest with
    | nil => rfl
    | cons c others =>
      have other : c ≠ '\'' := fun same => closed (congrArg some same)
      rw [Text.double_nil, List.nil_append, insideLiteral?]
      rintro _ ⟨⟩
      exact other rfl
  | cons c others ih =>
    rw [Text.double, List.flatMap_cons, ← Text.double]
    split
    · next quote =>
      rw [quote]
      change (insideLiteral? (Text.double '\'' others ++ '\'' :: rest)).map _ = _
      rw [ih]
      rfl
    · next other =>
      rw [List.singleton_append, List.cons_append, insideLiteral?, ih]
      · rfl
      all_goals intros; contradiction

end Identifier

end LiteralSql
