import LiteralSql.Proofs.Text
import LiteralSql.Sql.Lexer

/-! Texts that are read the same way wherever they stand.

Reading a text may end with a mark that has only begun, and the next character
could complete it. Most characters complete none. A quiet text begins and ends
outside every region, and nothing in it is a placeholder or ends a statement.
-/

set_option autoImplicit false

namespace LiteralSql

namespace SqlState

/-- The character completes no mark that the text before it may have begun. -/
def breaksMarks (c : Char) : Bool :=
  c != '?' && c != '-' && c != '*' && c != '$' && !isTagChar c

theorem step_of_breaksMarks {state : SqlState} {c : Char} (outside : state.isOutside = true)
    (breaks : breaksMarks c = true) :
    state.step c = ((stepBare c).1, state.pending ++ (stepBare c).2) := by
  simp only [breaksMarks, Bool.and_eq_true, bne_iff_ne, ne_eq, Bool.not_eq_true'] at breaks
  obtain ⟨⟨⟨⟨question, dash⟩, star⟩, dollar⟩, tagChar⟩ := breaks
  -- Each state outside a region waits for one of the characters that `c` is not.
  cases state with
  | bare => rfl
  | backslash => simp [step, pending, question]
  | question => simp [step, pending, question]
  | dash => simp [step, pending, dash]
  | slash => simp [step, pending, star]
  | tag name => simp [step, pending, dollar, tagChar]
  | _ => cases outside

theorem read_of_breaksMarks {state : SqlState} {c : Char} (outside : state.isOutside = true)
    (breaks : breaksMarks c = true) (rest : Text) :
    state.read (c :: rest) =
      ((bare.read (c :: rest)).1, state.pending ++ (bare.read (c :: rest)).2) := by
  rw [read_cons, read_cons, step_of_breaksMarks outside breaks, List.append_assoc]
  rfl

theorem read_append_of_bare {first : Text} (settles : (bare.read first).1 = .bare) (second : Text) :
    bare.read (first ++ second) =
      ((bare.read second).1, (bare.read first).2 ++ (bare.read second).2) := by
  rw [read_append, settles]

end SqlState

def SqlToken.char? : SqlToken → Option Char
  | .bare c => some c
  | .shielded c => some c
  | .value => none
  | .identifier => none

theorem SqlToken.countP_eq_zero {tokens : List SqlToken} {text : Text}
    (verbatim : tokens.map char? = text.map some) : tokens.countP isPlaceholder = 0 := by
  induction tokens generalizing text with
  | nil => rfl
  | cons token rest ih =>
    cases text with
    | nil => cases verbatim
    | cons c others =>
      obtain ⟨head, tail⟩ := List.cons.inj verbatim
      cases token with
      | bare _ => simpa [isPlaceholder] using ih tail
      | shielded _ => simpa [isPlaceholder] using ih tail
      | value => cases head
      | identifier => cases head

theorem SqlToken.ofText_of_bare {text : Text} (settles : (SqlState.bare.read text).1 = .bare) :
    ofText text = (SqlState.bare.read text).2 := by
  simp [ofText, settles, SqlState.pending]

/-- Read from outside every region, the text ends there again, stands for
itself, and has no semicolon that would end a statement. -/
structure Quiet (text : Text) : Prop where
  settles : (SqlState.bare.read text).1 = .bare
  verbatim : (SqlState.bare.read text).2.map SqlToken.char? = text.map some
  unbroken : SqlToken.bare ';' ∉ (SqlState.bare.read text).2

namespace Quiet

def marks : Text := ['\'', '"', '$', '-', '/', '\\', '?', ';']

def isPlain (c : Char) : Bool := !marks.contains c

theorem isPlain_of_class {inClass : Char → Bool} (apart : marks.any inClass = false) {c : Char}
    (member : inClass c = true) : isPlain c = true := by
  rw [isPlain, Bool.not_eq_true', ← Bool.not_eq_true, List.contains_iff_mem]
  intro mark
  exact absurd (List.any_eq_true.mpr ⟨c, mark, member⟩) (by simp [apart])

theorem isPlain_of_isDigit {c : Char} (digit : Text.isDigit c = true) : isPlain c = true :=
  isPlain_of_class (by decide) digit

theorem plain_ofNat (number : Nat) : (Text.ofNat number).all isPlain = true :=
  List.all_eq_true.mpr fun _ member => isPlain_of_isDigit (Text.isDigit_of_mem_ofNat member)

theorem nil : Quiet [] := ⟨rfl, rfl, List.not_mem_nil⟩

theorem append {first second : Text} (left : Quiet first) (right : Quiet second) :
    Quiet (first ++ second) := by
  have reading := SqlState.read_append_of_bare left.settles second
  constructor
  · rw [reading]
    exact right.settles
  · rw [reading, List.map_append, List.map_append, left.verbatim, right.verbatim]
  · rw [reading]
    simp [left.unbroken, right.unbroken]

theorem stepBare_of_plain {c : Char} (plain : isPlain c = true) : SqlState.stepBare c = (.bare, [.bare c]) := by
  simp only [isPlain, marks, List.contains_cons, List.contains_nil, Bool.or_false, Bool.not_or,
    Bool.and_eq_true, Bool.not_eq_true', beq_eq_false_iff_ne, ne_eq] at plain
  simp [SqlState.stepBare, plain]

theorem read_plain {text : Text} (plain : text.all isPlain = true) :
    SqlState.bare.read text = (.bare, text.map .bare) := by
  induction text with
  | nil => rfl
  | cons c rest ih =>
    rw [List.all_cons, Bool.and_eq_true] at plain
    have step : SqlState.bare.step c = (.bare, [.bare c]) := stepBare_of_plain plain.1
    rw [SqlState.read_cons, step, ih plain.2]
    rfl

theorem of_plain {text : Text} (plain : text.all isPlain = true) : Quiet text := by
  constructor
  · rw [read_plain plain]
  · rw [read_plain plain, List.map_map]
    rfl
  · rw [read_plain plain]
    intro live
    obtain ⟨c, member, same⟩ := List.mem_map.mp live
    cases same
    exact absurd (List.all_eq_true.mp plain ';' member) (by decide)

theorem of_shielded {text : Text}
    (reading : SqlState.bare.read text = (.bare, text.map .shielded)) : Quiet text := by
  constructor
  · rw [reading]
  · rw [reading, List.map_map]
    rfl
  · rw [reading]
    simp

theorem flatten {texts : List Text} (quiet : ∀ text ∈ texts, Quiet text) : Quiet texts.flatten := by
  induction texts with
  | nil => exact nil
  | cons text rest ih =>
    rw [List.flatten_cons]
    exact (quiet text List.mem_cons_self).append
      (ih fun other member => quiet other (List.mem_cons_of_mem text member))

theorem intercalate {separator : Text} (between : Quiet separator) {texts : List Text}
    (quiet : ∀ text ∈ texts, Quiet text) : Quiet (separator.intercalate texts) :=
  Text.intercalate_of_append nil append between quiet

end Quiet

end LiteralSql
