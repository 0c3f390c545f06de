import LiteralSql.Proofs.Reading
import LiteralSql.Sql.Statement
import LiteralSql.Text.CharClass

/-! The commands of a text: what stands between the semicolons that are
outside every region. -/

set_option autoImplicit false

namespace LiteralSql

namespace SqlState

/-- Splits a text at the semicolons outside every region. -/
def splitLive (state : SqlState) : Text → List Text
  | [] => [[]]
  | c :: rest =>
    let parts := (state.step c).1.splitLive rest
    if c = ';' ∧ state.isOutside = true then [] :: parts
    else match parts with
      | [] => [[c]]
      | part :: others => (c :: part) :: others

theorem splitLive_semicolon {state : SqlState} {text : Text}
    (unbroken : SqlToken.bare ';' ∉ (state.read text).2)
    (outside : (state.read text).1.isOutside = true) (rest : Text) :
    state.splitLive (text ++ ';' :: rest) = text :: bare.splitLive rest := by
  induction text generalizing state with
  | nil =>
    have next : (state.step ';').1 = .bare := by
      have live : state.isOutside = true := outside
      rw [step_of_breaksMarks live (by decide)]
      rfl
    rw [List.nil_append, splitLive, next]
    exact if_pos ⟨rfl, outside⟩
  | cons c others ih =>
    rw [read_cons] at unbroken outside
    -- A semicolon that is read outside would be a bare token, and there is none.
    have head : ¬ (c = ';' ∧ state.isOutside = true) := by
      rintro ⟨rfl, live⟩
      rw [step_of_breaksMarks live (by decide)] at unbroken
      exact unbroken (List.mem_append_left _ (List.mem_append_right _ List.mem_cons_self))
    rw [List.cons_append, splitLive, if_neg head,
      ih (fun inside => unbroken (List.mem_append_right _ inside)) outside]

end SqlState

def Text.trim (text : Text) : Text := text.dropWhile CharClass.isBlank

def Text.Begins (text : Text) : Prop := ∃ c rest, text = c :: rest ∧ CharClass.isBlank c = false

theorem Text.Begins.trim {text : Text} (begins : text.Begins) : text.trim = text := by
  obtain ⟨c, rest, rfl, letter⟩ := begins
  rw [Text.trim, List.dropWhile_cons_of_neg]
  rw [letter]
  exact Bool.false_ne_true

/-- What is between the semicolons, empty parts aside. -/
def commands (text : Text) : List Text := ((SqlState.bare.splitLive text).map Text.trim).filter (· ≠ [])

theorem commands_semicolon {text : Text} (quiet : Quiet text) (rest : Text) :
    commands (text ++ ';' :: rest) = [text.trim].filter (· ≠ []) ++ commands rest := by
  have outside : (SqlState.bare.read text).1.isOutside = true := by
    rw [quiet.settles]
    rfl
  rw [commands, SqlState.splitLive_semicolon quiet.unbroken outside, List.map_cons,
    ← List.singleton_append, List.filter_append]
  rfl

/-- Nothing, or a text that is read on its own and begins with a word. -/
structure Text.Alone (text : Text) : Prop where
  quiet : Quiet text
  begins : text = [] ∨ text.Begins

theorem Text.Alone.trim {text lead : Text} (alone : text.Alone) (blank : lead.all CharClass.isBlank = true) :
    Text.trim (lead ++ text) = text := by
  have skip : Text.trim (lead ++ text) = text.trim :=
    List.dropWhile_append_of_pos fun c member => List.all_eq_true.mp blank c member
  rw [skip]
  obtain rfl | begins := alone.begins
  · rfl
  · exact begins.trim

theorem commands_intercalate {parts : List Text} (alone : ∀ part ∈ parts, part.Alone) :
    commands (separator.intercalate parts ++ [';']) = parts.filter (· ≠ []) := by
  -- All but the first one come after the line break of a separator.
  suffices general : ∀ lead ∈ [[], ['\n']], commands (lead ++ (separator.intercalate parts ++ [';'])) =
      parts.filter (· ≠ []) from general [] List.mem_cons_self
  induction parts with
  | nil => decide
  | cons part rest ih =>
    intro lead member
    have head := alone part List.mem_cons_self
    have tail := ih (fun other held => alone other (List.mem_cons_of_mem part held)) ['\n'] (by decide)
    have blank : lead.all CharClass.isBlank = true := by
      revert lead
      decide
    have quiet : Quiet (lead ++ part) := by
      refine Quiet.append (Quiet.of_plain ?_) head.quiet
      revert lead
      decide
    have taken := commands_semicolon quiet
    rw [head.trim blank] at taken
    cases rest with
    | nil =>
      rw [List.intercalate_singleton, ← List.append_assoc, taken]
      exact List.append_nil _
    | cons next others =>
      have split : lead ++ (separator.intercalate (part :: next :: others) ++ [';']) =
          (lead ++ part) ++ ';' :: (['\n'] ++ (separator.intercalate (next :: others) ++ [';'])) := by
        rw [List.intercalate_cons_cons]
        simp [separator]
      rw [split, taken, tail, ← List.filter_append]
      rfl

structure Settled (text : Text) : Prop where
  settles : (SqlState.bare.read text).1 = .bare
  verbatim : (SqlState.bare.read text).2.map SqlToken.char? = text.map some

namespace Settled

theorem append {first second : Text} (left : Settled first) (right : Settled second) :
    Settled (first ++ second) := by
  have reading := SqlState.read_append_of_bare left.settles second
  constructor
  · rw [reading]
    exact right.settles
  · rw [reading, List.map_append, List.map_append, left.verbatim, right.verbatim]

theorem intercalate {parts : List Text} (alone : ∀ part ∈ parts, part.Alone) :
    Settled (separator.intercalate parts) := by
  have between : Settled separator := ⟨by decide, by decide⟩
  induction parts with
  | nil => exact ⟨rfl, rfl⟩
  | cons part rest ih =>
    have quiet := (alone part List.mem_cons_self).quiet
    have head : Settled part := ⟨quiet.settles, quiet.verbatim⟩
    have tail := ih fun other held => alone other (List.mem_cons_of_mem part held)
    cases rest with
    | nil => rwa [List.intercalate_singleton]
    | cons next others =>
      rw [List.intercalate_cons_cons]
      exact (head.append between).append tail

theorem placeholderCount {text : Text} (settled : Settled text) : placeholderCount text = 0 := by
  rw [placeholderCount_eq, SqlToken.ofText_of_bare settled.settles]
  exact SqlToken.countP_eq_zero settled.verbatim

end Settled

end LiteralSql
