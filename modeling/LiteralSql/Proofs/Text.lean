import Mathlib.Algebra.Group.Nat.Defs
import Mathlib.Data.List.Basic
import LiteralSql.Text

/-! Facts about splitting and joining texts and about writing numbers. -/

set_option autoImplicit false

namespace LiteralSql

namespace Text

@[simp] theorem split_nil (separator : Char) : split separator [] = [[]] := rfl

@[simp] theorem split_cons_self (separator : Char) (rest : Text) :
    split separator (separator :: rest) = [] :: split separator rest := by
  simp [split]

theorem split_cons_of_ne {separator c : Char} (other : c ≠ separator) (rest : Text) :
    ∃ run runs, split separator rest = run :: runs ∧
      split separator (c :: rest) = (c :: run) :: runs := by
  cases runs : split separator rest with
  | nil => exact absurd runs (split_ne_nil separator rest)
  | cons run runs' => exact ⟨run, runs', rfl, by simp [split, other, runs]⟩

theorem length_split (separator : Char) (text : Text) :
    (split separator text).length = text.count separator + 1 := by
  induction text with
  | nil => rfl
  | cons c rest ih =>
    by_cases same : c = separator
    · subst same
      simp [ih]
    · obtain ⟨run, runs, before, after⟩ := split_cons_of_ne same rest
      rw [before] at ih
      rw [after, List.count_cons_of_ne same]
      exact ih

theorem split_of_not_mem {separator : Char} {text : Text} (absent : separator ∉ text) :
    split separator text = [text] := by
  induction text with
  | nil => rfl
  | cons c rest ih =>
    simp only [List.mem_cons, not_or] at absent
    obtain ⟨run, runs, before, after⟩ := split_cons_of_ne (Ne.symm absent.1) rest
    rw [ih absent.2] at before
    cases before
    exact after

theorem split_append (separator : Char) (front last : Text) :
    split separator (front ++ separator :: last) = split separator front ++ split separator last := by
  induction front with
  | nil => rw [List.nil_append, split_cons_self, split_nil]; rfl
  | cons c rest ih =>
    by_cases same : c = separator
    · subst same
      rw [List.cons_append, split_cons_self, split_cons_self, ih, List.cons_append]
    · obtain ⟨run, runs, before, whole⟩ := split_cons_of_ne same rest
      obtain ⟨longer, others, joined, wholeJoined⟩ := split_cons_of_ne same (rest ++ separator :: last)
      rw [ih, before, List.cons_append] at joined
      obtain ⟨rfl, rfl⟩ := List.cons.inj joined
      rw [List.cons_append, wholeJoined, whole, List.cons_append]

theorem intercalate_split (separator : Char) (text : Text) :
    [separator].intercalate (split separator text) = text := by
  induction text with
  | nil => rfl
  | cons c rest ih =>
    by_cases same : c = separator
    · subst same
      obtain ⟨run, runs, runsOf⟩ := List.exists_cons_of_ne_nil (split_ne_nil c rest)
      rw [split_cons_self, runsOf, List.intercalate_cons_cons, ← runsOf, ih]
      rfl
    · obtain ⟨run, runs, before, after⟩ := split_cons_of_ne same rest
      rw [before] at ih
      rw [after]
      cases runs with
      | nil =>
        rw [List.intercalate_singleton] at ih ⊢
        rw [ih]
      | cons next others =>
        rw [List.intercalate_cons_cons] at ih ⊢
        rw [← ih]
        rfl

theorem intercalate_inj {separator : Char} {parts others : List Text} (some : parts ≠ []) (more : others ≠ [])
    (free : ∀ part ∈ parts, separator ∉ part) (clear : ∀ part ∈ others, separator ∉ part) :
    [separator].intercalate parts = [separator].intercalate others ↔ parts = others := by
  refine ⟨fun same => ?_, congrArg _⟩
  rw [← List.splitOn_intercalate separator free some, same, List.splitOn_intercalate separator clear more]

/-- Of two texts that are the same, the last separators stand at the same place. -/
theorem append_cons_inj {separator : Char} {before behind front rear : Text} (free : separator ∉ behind)
    (clear : separator ∉ rear) :
    before ++ separator :: behind = front ++ separator :: rear ↔ before = front ∧ behind = rear := by
  refine ⟨fun same => ?_, fun ⟨left, right⟩ => by rw [left, right]⟩
  obtain ⟨between, longer, tail⟩ | ⟨between, longer, tail⟩ := List.append_eq_append_iff.mp same
  · cases between with
    | nil =>
      rw [List.append_nil] at longer
      exact ⟨longer.symm, (List.cons.inj tail).2⟩
    | cons c between => exact absurd ((List.cons.inj tail).2 ▸ List.mem_append_cons_self) free
  · cases between with
    | nil =>
      rw [List.append_nil] at longer
      exact ⟨longer, (List.cons.inj tail).2.symm⟩
    | cons c between => exact absurd ((List.cons.inj tail).2 ▸ List.mem_append_cons_self) clear

theorem exists_of_position? {pattern text : Text} {position : Nat} (found : position? pattern text = some position) :
    ∃ before behind, text = before ++ (pattern ++ behind) ∧ before.length = position := by
  induction text generalizing position with
  | nil =>
    rw [position?] at found
    split at found
    · next empty =>
      subst empty
      exact ⟨[], [], rfl, Option.some.inj found⟩
    · cases found
  | cons c rest ih =>
    rw [position?] at found
    split at found
    · next first =>
      obtain ⟨behind, same⟩ := List.isPrefixOf_iff_prefix.mp first
      exact ⟨[], behind, same.symm, Option.some.inj found⟩
    · obtain ⟨later, foundLater, rfl⟩ := Option.map_eq_some_iff.mp found
      obtain ⟨before, behind, rfl, rfl⟩ := ih foundLater
      exact ⟨c :: before, behind, rfl, rfl⟩

theorem exists_position?_le (pattern before behind : Text) :
    ∃ position ≤ before.length, position? pattern (before ++ (pattern ++ behind)) = some position := by
  induction before with
  | nil =>
    refine ⟨0, Nat.le_refl 0, ?_⟩
    have first : pattern.isPrefixOf (pattern ++ behind) = true :=
      List.isPrefixOf_iff_prefix.mpr (List.prefix_append _ _)
    rw [List.nil_append]
    cases whole : pattern ++ behind with
    | nil => exact if_pos (List.append_eq_nil_iff.mp whole).1
    | cons c rest => exact if_pos (whole ▸ first)
  | cons c rest ih =>
    obtain ⟨position, bound, found⟩ := ih
    rw [List.cons_append, position?]
    split
    · exact ⟨0, Nat.zero_le _, rfl⟩
    · exact ⟨position + 1, Nat.succ_le_succ bound, by rw [found]; rfl⟩

/-- What a separator and texts have, and joining keeps, their list has too. -/
theorem intercalate_of_append {holds : Text → Prop} (nil : holds [])
    (append : ∀ {first second : Text}, holds first → holds second → holds (first ++ second))
    {separator : Text} (between : holds separator) {texts : List Text}
    (each : ∀ text ∈ texts, holds text) : holds (separator.intercalate texts) := by
  induction texts with
  | nil => exact nil
  | cons text rest ih =>
    have tail := ih fun other member => each other (List.mem_cons_of_mem text member)
    have head := each text List.mem_cons_self
    cases rest with
    | nil => rwa [List.intercalate_singleton]
    | cons next others =>
      rw [List.intercalate_cons_cons]
      exact append (append head between) tail

theorem not_mem_intercalate {c : Char} {separator : Text} (between : c ∉ separator) {texts : List Text}
    (each : ∀ text ∈ texts, c ∉ text) : c ∉ separator.intercalate texts :=
  @intercalate_of_append (c ∉ ·) List.not_mem_nil (fun left right => List.not_mem_append left right) _ between _ each

theorem ofNat_ne_nil (number : Nat) : ofNat number ≠ [] := Nat.toDigits_ne_nil

theorem ofNat_injective : Function.Injective ofNat := by
  intro first second same
  have read := congrArg (Nat.ofDigitChars 10 · 0) same
  simpa [ofNat, Nat.ofDigitChars_ten_toDigits] using read

theorem isDigit_of_mem_ofNat {number : Nat} {c : Char} (member : c ∈ ofNat number) :
    isDigit c = true := by
  have digit := Nat.isDigit_of_mem_toDigits (by decide) (by decide) member
  simpa [isDigit, Char.isDigit, Char.le_def] using digit

theorem toNat_ofNat (number : Nat) : toNat (ofNat number) = number :=
  Nat.ofDigitChars_ten_toDigits

theorem toNat_append (first second : Text) :
    toNat (first ++ second) = 10 ^ second.length * toNat first + toNat second := by
  change Nat.ofDigitChars 10 (first ++ second) 0 = _
  rw [Nat.ofDigitChars_append, Nat.ofDigitChars_eq_ofDigitChars_zero]
  rfl

theorem toNat_zeros (count : Nat) : toNat (List.replicate count '0') = 0 := by
  change Nat.ofDigitChars 10 (List.replicate count '0') 0 = 0
  rw [Nat.ofDigitChars_replicate_zero, Nat.mul_zero]

theorem head?_ofNat {number : Nat} (positive : 0 < number) : (ofNat number).head? ≠ some '0' := by
  induction number using Nat.strongRecOn with
  | ind number ih =>
    obtain small | large := Nat.lt_or_ge number 10
    · have digits : ∀ digit < 10, 0 < digit → (ofNat digit).head? ≠ some '0' := by decide
      exact digits number small positive
    · rw [ofNat, Nat.toDigits_of_base_le (by decide) large,
        List.head?_append_of_ne_nil _ Nat.toDigits_ne_nil]
      exact ih (number / 10) (by omega) (by omega)

end Text

theorem intercalate_cons {α : Type} (separator part : List α) (parts : List (List α)) :
    separator.intercalate (part :: parts) = part ++ parts.flatMap (separator ++ ·) := by
  induction parts generalizing part with
  | nil => rw [List.intercalate_singleton, List.flatMap_nil, List.append_nil]
  | cons next others ih => rw [List.intercalate_cons_cons, ih, List.flatMap_cons, List.append_assoc, List.append_assoc]

theorem flatMap_intercalate {α β : Type} (write : α → List β) (separator : List α) (parts : List (List α)) :
    (separator.intercalate parts).flatMap write =
      (separator.flatMap write).intercalate (parts.map fun part => part.flatMap write) := by
  cases parts with
  | nil => rfl
  | cons part others =>
    rw [List.map_cons, intercalate_cons, intercalate_cons, List.flatMap_append, List.flatMap_assoc, List.flatMap_map]
    simp only [List.flatMap_append]

theorem infix_intercalate {α : Type} (separator : List α) {part : List α} {parts : List (List α)}
    (member : part ∈ parts) : part <:+: separator.intercalate parts := by
  cases parts with
  | nil => cases member
  | cons first others =>
    rw [intercalate_cons]
    obtain rfl | member := List.mem_cons.mp member
    · exact (List.prefix_append _ _).isInfix
    · have joined : separator ++ part <:+: others.flatMap (separator ++ ·) :=
        List.infix_of_mem_flatten (List.mem_map_of_mem member)
      exact (List.suffix_append _ _).isInfix.trans (joined.trans (List.suffix_append _ _).isInfix)

end LiteralSql
