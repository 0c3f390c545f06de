import LiteralSql.Proofs.Predicate.Reader

/-! What the text of a predicate is read as.

Reading the text leaves the clauses that the predicate adds, so what has been
read has the value of the text; the tree has it too if and only if it is grouped.
-/

set_option autoImplicit false

namespace LiteralSql

namespace Frame

def negated (frame : Frame) : Bool := frame.negations % 2 == 1

def clauses (frame : Frame) (truth : Nat → Truth) : Clauses where
  earlier := frame.earlier.elim .no (·.value truth)
  clause := frame.clause.elim .yes (·.value truth)

def IsComplete (frame : Frame) : Prop := frame.negations = 0 ∧ frame.clause.isSome = true

theorem odd_succ (count : Nat) : ((count + 1) % 2 == 1) = !(count % 2 == 1) := by
  obtain even | odd := Nat.mod_two_eq_zero_or_one count
  · simp [Nat.add_mod, even]
  · simp [Nat.add_mod, odd]

theorem value_negate (truth : Nat → Truth) (formula : Formula) (count : Nat) :
    (formula.negate count).value truth = (formula.value truth).signed (count % 2 == 1) := by
  induction count with
  | zero => rfl
  | succ count ih =>
    rw [Formula.negate, Formula.value, ih, odd_succ, Truth.signed_flip]
    cases count % 2 == 1 <;> rfl

theorem isComplete_add (frame : Frame) (literal : Formula) : (frame.add literal).IsComplete :=
  ⟨rfl, rfl⟩

theorem clauses_add (frame : Frame) (literal : Formula) (truth : Nat → Truth) :
    (frame.add literal).clauses truth =
      (frame.clauses truth).add ((literal.value truth).signed frame.negated) := by
  obtain ⟨earlier, clause, negations⟩ := frame
  cases clause with
  | none => simp [add, clauses, Clauses.add, value_negate, negated]
  | some clause => simp [add, clauses, Clauses.add, value_negate, negated, Formula.value]

theorem IsComplete.negated_eq {frame : Frame} (complete : frame.IsComplete) : frame.negated = false := by
  rw [negated, complete.1]
  rfl

theorem IsComplete.formula {frame : Frame} (complete : frame.IsComplete) :
    ∃ formula, frame.formula? = some formula ∧
      ∀ truth, formula.value truth = (frame.clauses truth).value := by
  obtain ⟨earlier, clause, negations⟩ := frame
  obtain ⟨clause, rfl⟩ := Option.isSome_iff_exists.mp complete.2
  cases earlier with
  | none => exact ⟨clause, rfl, fun truth => (Truth.no_or _).symm⟩
  | some earlier => exact ⟨earlier.or clause, rfl, fun truth => rfl⟩

end Frame

namespace PredicateReader

/-- From a place inside an atom, the tokens are what is left of it. -/
def Completes (expected : Expected) (tokens : List Token) : Prop :=
  ∀ frame outer atom atoms, run ⟨expected, frame, outer, atom, atoms⟩ tokens =
    some ⟨.connective, frame.add (.atom atoms.length), outer, [], atoms ++ [atom ++ tokens]⟩

namespace Completes

theorem last {expected : Expected} {token : Token}
    (ends : ∀ frame outer atom atoms, step ⟨expected, frame, outer, atom, atoms⟩ token =
      some (finish ⟨expected, frame, outer, atom, atoms⟩ token)) : Completes expected [token] := by
  intro frame outer atom atoms
  rw [run, ends]
  rfl

theorem cons {expected next : Expected} {token : Token} {rest : List Token}
    (extends_ : ∀ frame outer atom atoms, step ⟨expected, frame, outer, atom, atoms⟩ token =
      some (extend ⟨expected, frame, outer, atom, atoms⟩ token next))
    (completes : Completes next rest) : Completes expected (token :: rest) := by
  intro frame outer atom atoms
  rw [run, extends_]
  refine (completes frame outer (atom ++ [token]) atoms).trans ?_
  rw [List.append_assoc, List.singleton_append]

theorem rightOperand (word : Text) : Completes .rightOperand [.operand word] :=
  last fun _ _ _ _ => rfl

theorem bounds (low high : Text) :
    Completes .lowerBound [.operand low, .conjunction, .operand high] :=
  .cons (fun _ _ _ _ => rfl) (.cons (fun _ _ _ _ => rfl) (rightOperand high))

theorem items {values : List Value} (nonempty : values ≠ []) :
    Completes .listItem
      (Token.ofText (", ".toList.intercalate (values.map fun _ => ['?']) ++ [')'])) := by
  induction values with
  | nil => exact absurd rfl nonempty
  | cons value rest ih =>
    cases rest with
    | nil => exact .cons (fun _ _ _ _ => rfl) (last fun _ _ _ _ => rfl)
    | cons next others =>
      have behind := ih (List.cons_ne_nil next others)
      rw [List.map_cons, List.map_cons, List.intercalate_cons_cons, List.append_assoc,
        List.append_assoc]
      exact .cons (fun _ _ _ _ => rfl) (.cons (fun _ _ _ _ => rfl) behind)

theorem comparison (comparison : Comparison) :
    Completes .operator (Token.ofText (' ' :: comparison.sql ++ " ?".toList)) := by
  cases comparison with
  | notLike =>
    exact .cons (fun _ _ _ _ => rfl) (.cons (fun _ _ _ _ => rfl) (rightOperand ['?']))
  | _ => exact .cons (fun _ _ _ _ => rfl) (rightOperand ['?'])

theorem null (negated : Bool) :
    Completes .operator
      (Token.ofText (if negated then " is not null".toList else " is null".toList)) := by
  cases negated with
  | false => exact .cons (fun _ _ _ _ => rfl) (last fun _ _ _ _ => rfl)
  | true =>
    exact .cons (fun _ _ _ _ => rfl) (.cons (fun _ _ _ _ => rfl) (last fun _ _ _ _ => rfl))

theorem between (negated : Bool) :
    Completes .operator (Token.ofText
      (if negated then " not between ? and ?".toList else " between ? and ?".toList)) := by
  cases negated with
  | false => exact .cons (fun _ _ _ _ => rfl) (bounds ['?'] ['?'])
  | true => exact .cons (fun _ _ _ _ => rfl) (.cons (fun _ _ _ _ => rfl) (bounds ['?'] ['?']))

theorem member (negated : Bool) {values : List Value} (nonempty : values ≠ []) :
    Completes .operator (Token.ofText ((if negated then " not in (".toList else " in (".toList) ++
      (", ".toList.intercalate (values.map fun _ => ['?']) ++ [')']))) := by
  cases negated with
  | false => exact .cons (fun _ _ _ _ => rfl) (.cons (fun _ _ _ _ => rfl) (items nonempty))
  | true =>
    exact .cons (fun _ _ _ _ => rfl)
      (.cons (fun _ _ _ _ => rfl) (.cons (fun _ _ _ _ => rfl) (items nonempty)))

theorem column (column : Column) {rest : Text} (parts : Token.Parts rest)
    (completes : Completes .operator (Token.ofText rest)) :
    Completes .literal (Token.ofText (column.sql ++ rest)) := by
  rw [Token.ofText_append column.isWord_sql.closes parts, column.tokens_sql]
  exact .cons (fun _ _ _ _ => rfl) completes

end Completes

end PredicateReader

namespace Expr

variable {expr : Expr}

open PredicateReader

theorem IsAtom.completes (atom : expr.IsAtom) : Completes .literal (Token.ofText expr.sql) := by
  cases atom with
  | equalColumns left right =>
    rw [sql, List.append_assoc]
    refine .column left (.inl rfl) ?_
    have tokens : Token.ofText (" = ".toList ++ right.sql) =
        .comparison "=".toList :: Token.ofText right.sql := rfl
    rw [tokens, right.tokens_sql]
    exact .cons (fun _ _ _ _ => rfl) (.rightOperand right.sql)
  | compare comparison column value =>
    rw [sql, sql, List.append_assoc]
    exact .column column (.inl rfl) (.comparison comparison)
  | isNull negated column =>
    refine .column column ?_ (.null negated)
    cases negated <;> exact .inl rfl
  | between negated column low high =>
    refine .column column ?_ (.between negated)
    cases negated <;> exact .inl rfl
  | member negated column values =>
    rw [sql]
    split
    -- An empty list is written as a comparison of two constants.
    · have constant (word : Text) :
          Completes .literal [.operand "1".toList, .comparison "=".toList, .operand word] :=
        .cons (fun _ _ _ _ => rfl) (.cons (fun _ _ _ _ => rfl) (.rightOperand word))
      cases negated
      · exact constant ['0']
      · exact constant ['1']
    · next nonempty =>
      rw [List.isEmpty_iff] at nonempty
      rw [sql, List.append_assoc, List.append_assoc]
      refine .column column ?_ (.member negated nonempty)
      cases negated <;> exact .inl rfl

theorem IsAtom.closes (atom : expr.IsAtom) : Token.Closes expr.sql := by
  cases atom with
  | equalColumns left right =>
    have equal : Token.Closes " = ".toList := rfl
    exact (left.isWord_sql.closes.append equal).append right.isWord_sql.closes
  | compare comparison column value =>
    rw [sql, sql, List.append_assoc]
    refine column.isWord_sql.closes.append ?_
    cases comparison <;> rfl
  | isNull negated column => exact column.isWord_sql.closes.append (by cases negated <;> rfl)
  | between negated column low high => exact column.isWord_sql.closes.append (by cases negated <;> rfl)
  | member negated column values =>
    rw [sql]
    split
    · cases negated <;> rfl
    · have comma : Token.Closes ", ".toList := rfl
      have items : Token.Closes (", ".toList.intercalate (values.map fun _ => ['?'])) :=
        Text.intercalate_of_append Token.Closes.nil Token.Closes.append comma fun item member => by
          obtain ⟨_, -, rfl⟩ := List.mem_map.mp member
          rfl
      have keyword : Token.Closes (if negated then " not in (".toList else " in (".toList) := by
        cases negated <;> rfl
      have closing : Token.Closes [')'] := rfl
      exact ((column.isWord_sql.closes.append keyword).append items).append closing

theorem IsPredicate.closes (predicate : expr.IsPredicate) : Token.Closes expr.sql := by
  induction predicate with
  | atom atom => exact atom.closes
  | and _ _ left_ih right_ih =>
    have connective : Token.Closes " and ".toList := rfl
    exact (left_ih.append connective).append right_ih
  | or _ _ left_ih right_ih =>
    have connective : Token.Closes " or ".toList := rfl
    exact (left_ih.append connective).append right_ih
  | not _ ih =>
    have connective : Token.Closes "not ".toList := rfl
    exact connective.append ih
  | paren _ ih =>
    have opening : Token.Closes ['('] := rfl
    have closing : Token.Closes [')'] := rfl
    exact (opening.append ih).append closing

/-- Reading the text of a predicate adds its atoms and its clauses to what has been read. -/
theorem IsPredicate.reads (predicate : expr.IsPredicate) (frame : Frame) (outer : List Frame)
    (atoms : List (List Token)) :
    ∃ after : Frame, run ⟨.literal, frame, outer, [], atoms⟩ (Token.ofText expr.sql) =
        some ⟨.connective, after, outer, [], atoms ++ expr.atoms.map (Token.ofText ·.sql)⟩ ∧
      after.IsComplete ∧
      ∀ truth, after.clauses truth =
        expr.absorb truth atoms.length frame.negated (frame.clauses truth) := by
  -- The reader works from left to right, so what it has held by then is arbitrary in each case.
  induction predicate generalizing frame outer atoms with
  | atom atom =>
    refine ⟨_, ?_, frame.isComplete_add (.atom atoms.length), fun truth => ?_⟩
    · rw [atom.atoms_eq]
      exact atom.completes frame outer [] atoms
    · rw [atom.absorb_eq]
      exact frame.clauses_add _ truth
  | @and left right leftPredicate _ left_ih right_ih =>
    obtain ⟨middle, leftRun, leftComplete, leftText⟩ := left_ih frame outer atoms
    obtain ⟨after, rightRun, complete, rightText⟩ :=
      right_ih middle outer (atoms ++ left.atoms.map (Token.ofText ·.sql))
    have tokens : Token.ofText (Expr.and left right).sql =
        Token.ofText left.sql ++ .conjunction :: Token.ofText right.sql := by
      have behind : Token.Parts (" and ".toList ++ right.sql) := .inl rfl
      rw [sql, List.append_assoc, Token.ofText_append leftPredicate.closes behind]
      rfl
    refine ⟨after, ?_, complete, fun truth => ?_⟩
    · rw [tokens, run_append, leftRun, Expr.atoms, List.map_append, ← List.append_assoc]
      exact rightRun
    · rw [rightText, leftText, leftComplete.negated_eq, List.length_append, List.length_map]
      rfl
  | @or left right leftPredicate _ left_ih right_ih =>
    obtain ⟨middle, leftRun, leftComplete, leftText⟩ := left_ih frame outer atoms
    obtain ⟨formula, found, value⟩ := leftComplete.formula
    obtain ⟨after, rightRun, complete, rightText⟩ :=
      right_ih { earlier := formula } outer (atoms ++ left.atoms.map (Token.ofText ·.sql))
    have tokens : Token.ofText (Expr.or left right).sql =
        Token.ofText left.sql ++ .disjunction :: Token.ofText right.sql := by
      have behind : Token.Parts (" or ".toList ++ right.sql) := .inl rfl
      rw [sql, List.append_assoc, Token.ofText_append leftPredicate.closes behind]
      rfl
    refine ⟨after, ?_, complete, fun truth => ?_⟩
    · rw [tokens, run_append, leftRun, Expr.atoms, List.map_append, ← List.append_assoc]
      refine Eq.trans ?_ rightRun
      rw [Option.bind_some, run, step_disjunction found]
      rfl
    -- At an `or` all that has been read becomes one alternative, and nothing stands beside it yet.
    · have alternatives : Frame.clauses { earlier := formula } truth =
          { earlier := (left.absorb truth atoms.length frame.negated (frame.clauses truth)).value } := by
        rw [← leftText, ← value]
        rfl
      rw [rightText, alternatives, List.length_append, List.length_map]
      rfl
  | @not operand _ ih =>
    obtain ⟨after, innerRun, complete, innerText⟩ :=
      ih { frame with negations := frame.negations + 1 } outer atoms
    have flipped : Frame.negated { frame with negations := frame.negations + 1 } = !frame.negated :=
      Frame.odd_succ frame.negations
    refine ⟨after, innerRun, complete, fun truth => ?_⟩
    rw [innerText, flipped]
    rfl
  | @paren operand inner ih =>
    -- A parenthesis is read with a frame of its own, which comes back as one literal.
    obtain ⟨within, innerRun, innerComplete, innerText⟩ := ih {} (frame :: outer) atoms
    obtain ⟨formula, found, value⟩ := innerComplete.formula
    have tokens : Token.ofText (Expr.paren operand).sql =
        .opening :: (Token.ofText operand.sql ++ [.closing]) := by
      have behind : Token.Parts [')'] := .inr rfl
      rw [sql, ← show Token.ofText [')'] = [.closing] from rfl,
        ← Token.ofText_append inner.closes behind]
      rfl
    refine ⟨frame.add formula, ?_, frame.isComplete_add formula, fun truth => ?_⟩
    · rw [tokens, run]
      change (run ⟨.literal, {}, frame :: outer, [], atoms⟩ _) = _
      rw [run_append, innerRun, Option.bind_some, run, step_closing found]
      rfl
    · rw [frame.clauses_add, value, innerText]
      rfl

end Expr

end LiteralSql
