import LiteralSql.Proofs.Predicate.Rendered

/-! Conditions of a select, set and extended one after another.

The last condition that was set, with every later one as a conjunct or a
disjunct, is what the calls mean. The text after `where` means it if and only if
the condition that the select ends up with is grouped. Otherwise a conjunct that
is added last may restrict only the last alternative.
-/

set_option autoImplicit false

namespace LiteralSql

/-- The calls that give a select its condition, the last one outermost. -/
inductive Filters
  | none
  | filter (before : Filters) (condition : Expr)
  | andFilter (before : Filters) (condition : Expr)
  | orFilter (before : Filters) (condition : Expr)

namespace Filters

def onto (select : Select) : Filters → Select
  | none => select
  | filter before condition => (before.onto select).filter condition
  | andFilter before condition => (before.onto select).andFilter condition
  | orFilter before condition => (before.onto select).orFilter condition

def ArePredicates : Filters → Prop
  | none => True
  | filter before condition => before.ArePredicates ∧ condition.IsPredicate
  | andFilter before condition => before.ArePredicates ∧ condition.IsPredicate
  | orFilter before condition => before.ArePredicates ∧ condition.IsPredicate

def atoms : Filters → List Expr
  | none => []
  | filter _ condition => condition.atoms
  | andFilter before condition => before.atoms ++ condition.atoms
  | orFilter before condition => before.atoms ++ condition.atoms

/-- What the calls mean. Without a condition every row is selected, but the first
condition that is added as an alternative has no other one beside it. -/
def meaning (truth : Nat → Truth) : Filters → Truth
  | none => .yes
  | filter _ condition => condition.meaning truth 0
  | andFilter before condition =>
    (before.meaning truth).and (condition.meaning truth before.atoms.length)
  | orFilter none condition => condition.meaning truth 0
  | orFilter before condition =>
    (before.meaning truth).or (condition.meaning truth before.atoms.length)

theorem condition_onto {filters : Filters} (predicates : filters.ArePredicates)
    (called : filters ≠ none) {select : Select} (fresh : select.condition = .none) :
    ∃ held : Expr, (filters.onto select).condition = some held ∧ held.IsPredicate ∧
      held.atoms = filters.atoms ∧ ∀ truth, held.meaning truth 0 = filters.meaning truth := by
  induction filters with
  | none => exact absurd rfl called
  | filter before condition => exact ⟨condition, rfl, predicates.2, rfl, fun _ => rfl⟩
  | andFilter before condition ih =>
    -- The first call has no condition to join, whatever its kind.
    by_cases first : before = none
    · subst first
      refine ⟨condition, ?_, predicates.2, rfl, fun truth => (Truth.yes_and _).symm⟩
      simp only [onto, Select.andFilter, fresh]
    · obtain ⟨held, found, predicate, atoms, meaning⟩ := ih predicates.1 first
      refine ⟨held.and condition, ?_, predicate.and predicates.2, ?_, fun truth => ?_⟩
      · simp only [onto, Select.andFilter, found]
      · rw [Expr.atoms, atoms]
        rfl
      · rw [Expr.meaning, meaning, atoms, Nat.zero_add]
        rfl
  | orFilter before condition ih =>
    by_cases first : before = none
    · subst first
      refine ⟨condition, ?_, predicates.2, rfl, fun truth => rfl⟩
      simp only [onto, Select.orFilter, fresh]
    · obtain ⟨held, found, predicate, atoms, meaning⟩ := ih predicates.1 first
      refine ⟨held.or condition, ?_, predicate.or predicates.2, ?_, fun truth => ?_⟩
      · simp only [onto, Select.orFilter, found]
      · rw [Expr.atoms, atoms]
        rfl
      · rw [Expr.meaning, meaning, atoms, Nat.zero_add]
        cases before with
        | none => exact absurd rfl first
        | _ => rfl

end Filters

/-- The text of the condition is always a predicate on the atoms of the calls, and
its truth table is that of the calls if and only if the condition is grouped. -/
theorem condition_means_iff (select : Select) (filters : Filters)
    (fresh : select.condition = none) (called : filters ≠ .none)
    (predicates : filters.ArePredicates) :
    ∃ held formula, (filters.onto select).condition = some held ∧
      PredicateReader.read? held.sql = some (formula, filters.atoms.map (Token.ofText ·.sql)) ∧
      ((∀ truth, formula.value truth = filters.meaning truth) ↔ held.grouped false = true) := by
  obtain ⟨held, condition, predicate, atoms, meaning⟩ :=
    Filters.condition_onto predicates called fresh
  obtain ⟨after, run, complete, clauses⟩ := predicate.reads {} [] []
  obtain ⟨formula, found, value⟩ := complete.formula
  have text : ∀ truth, formula.value truth = (held.absorb truth 0 false {}).value := fun truth => by
    rw [value, clauses]
    rfl
  refine ⟨held, formula, condition, ?_, fun means => ?_, fun grouped truth => ?_⟩
  · rw [PredicateReader.read?, run, atoms]
    simp [PredicateReader.result?, found]
  · refine @Expr.IsPredicate.grouped_of_means held predicate 0 false fun truth => ?_
    rw [← text, means, ← meaning]
    rfl
  · rw [text, (predicate.means_of_grouped truth grouped).2, ← meaning, Truth.no_or]
    rfl

def flagged (name : Char) : Expr := .compare .eq (.columnNamed [name]) (.bool true)

theorem condition_means_parenthesized :
    ∃ formula, PredicateReader.read? "\"a\" = ? and (\"b\" = ? or \"c\" = ?)".toList =
        some (formula, [flagged 'a', flagged 'b', flagged 'c'].map (Token.ofText ·.sql)) ∧
      ∀ truth, formula.value truth = (truth 0).and ((truth 1).or (truth 2)) := by
  have flag (name : Char) : (flagged name).IsPredicate := .atom (.compare .eq _ _)
  obtain ⟨held, formula, condition, read, means⟩ := condition_means_iff { table := ['t'] }
    ((Filters.none.orFilter (flagged 'a')).andFilter (.paren (.or (flagged 'b') (flagged 'c'))))
    rfl (fun same => nomatch same) ⟨⟨trivial, flag 'a'⟩, .paren (.or (flag 'b') (flag 'c'))⟩
  cases condition
  exact ⟨formula, read, means.mpr (by decide)⟩

/-- The last conjunct does not restrict the first alternative. -/
theorem added_conjunct_bypassed :
    let filters := (Filters.none.filter (.or (flagged 'a') (flagged 'b'))).andFilter (flagged 'c')
    let truth : Nat → Truth := fun index => if index = 0 then .yes else .no
    (filters.onto { table := ['t'] }).condition.map Expr.sql =
        some "\"a\" = ? or \"b\" = ? and \"c\" = ?".toList ∧
      (PredicateReader.read? "\"a\" = ? or \"b\" = ? and \"c\" = ?".toList).map
        (fun read => read.1.value truth) = some .yes ∧
      filters.meaning truth = .no :=
  ⟨by decide, by decide, by decide⟩

end LiteralSql
