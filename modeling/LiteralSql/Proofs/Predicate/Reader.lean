import LiteralSql.Proofs.Predicate.Truth
import LiteralSql.Proofs.Predicate.Words

/-! How a text is read as a predicate.

A negation binds tighter than a conjunction, and a conjunction tighter than a
disjunction; the `and` of a range belongs to the range. A comparison, a pattern,
a null test, a range and a list of values are atoms, numbered from the left.
-/

set_option autoImplicit false

namespace LiteralSql

inductive Formula
  | atom (index : Nat)
  | and (left right : Formula)
  | or (left right : Formula)
  | not (operand : Formula)

def Formula.value (truth : Nat → Truth) : Formula → Truth
  | atom index => truth index
  | and left right => (left.value truth).and (right.value truth)
  | or left right => (left.value truth).or (right.value truth)
  | not operand => (operand.value truth).not

def Formula.negate (formula : Formula) : Nat → Formula
  | 0 => formula
  | count + 1 => not (formula.negate count)

/-- What has been read between two parentheses: the alternatives before the last
`or`, the conjunction behind it, and the negations of the literal to come. -/
structure Frame where
  earlier : Option Formula := none
  clause : Option Formula := none
  negations : Nat := 0

namespace Frame

def add (frame : Frame) (literal : Formula) : Frame :=
  let signed := literal.negate frame.negations
  { frame with
    clause := some (match frame.clause with
      | some clause => clause.and signed
      | none => signed)
    negations := 0 }

def formula? (frame : Frame) : Option Formula :=
  frame.clause.map fun clause => match frame.earlier with
    | some earlier => earlier.or clause
    | none => clause

end Frame

inductive Expected
  | literal
  | operator
  | negatedOperator
  | nullTest (negated : Bool)
  | rightOperand
  | lowerBound
  | rangeAnd
  | listOpening
  | listItem
  | listSeparator
  | connective
  deriving DecidableEq

structure PredicateReader where
  expected : Expected := .literal
  frame : Frame := {}
  outer : List Frame := []
  atom : List Token := []
  atoms : List (List Token) := []

namespace PredicateReader

def extend (reader : PredicateReader) (token : Token) (expected : Expected) : PredicateReader :=
  { reader with expected := expected, atom := reader.atom ++ [token] }

def finish (reader : PredicateReader) (token : Token) : PredicateReader :=
  { reader with
    expected := .connective
    frame := reader.frame.add (.atom reader.atoms.length)
    atom := []
    atoms := reader.atoms ++ [reader.atom ++ [token]] }

def close (reader : PredicateReader) : Option PredicateReader :=
  match reader.outer, reader.frame.formula? with
  | frame :: outer, some formula => some { reader with frame := frame.add formula, outer := outer }
  | _, _ => none

def step (reader : PredicateReader) (token : Token) : Option PredicateReader :=
  match reader.expected, token with
  | .literal, .negation =>
    some { reader with frame.negations := reader.frame.negations + 1 }
  | .literal, .opening =>
    some { reader with frame := {}, outer := reader.frame :: reader.outer }
  | .literal, .operand _ => some (reader.extend token .operator)
  | .operator, .comparison _ => some (reader.extend token .rightOperand)
  | .operator, .pattern _ => some (reader.extend token .rightOperand)
  | .operator, .is => some (reader.extend token (.nullTest false))
  | .operator, .between => some (reader.extend token .lowerBound)
  | .operator, .membership => some (reader.extend token .listOpening)
  | .operator, .negation => some (reader.extend token .negatedOperator)
  | .negatedOperator, .pattern _ => some (reader.extend token .rightOperand)
  | .negatedOperator, .between => some (reader.extend token .lowerBound)
  | .negatedOperator, .membership => some (reader.extend token .listOpening)
  | .nullTest false, .negation => some (reader.extend token (.nullTest true))
  | .nullTest _, .null => some (reader.finish token)
  | .rightOperand, .operand _ => some (reader.finish token)
  | .lowerBound, .operand _ => some (reader.extend token .rangeAnd)
  | .rangeAnd, .conjunction => some (reader.extend token .rightOperand)
  | .listOpening, .opening => some (reader.extend token .listItem)
  | .listItem, .operand _ => some (reader.extend token .listSeparator)
  | .listSeparator, .comma => some (reader.extend token .listItem)
  | .listSeparator, .closing => some (reader.finish token)
  | .connective, .conjunction => some { reader with expected := .literal }
  | .connective, .disjunction =>
    some { reader with expected := .literal, frame := { earlier := reader.frame.formula? } }
  | .connective, .closing => reader.close
  | _, _ => none

def run (reader : PredicateReader) : List Token → Option PredicateReader
  | [] => some reader
  | token :: rest => (reader.step token).bind (·.run rest)

def result? (reader : PredicateReader) : Option (Formula × List (List Token)) :=
  match reader.expected, reader.outer, reader.frame.formula? with
  | .connective, [], some formula => some (formula, reader.atoms)
  | _, _, _ => none

def read? (text : Text) : Option (Formula × List (List Token)) :=
  (run {} (Token.ofText text)).bind result?

theorem run_append (reader : PredicateReader) (first second : List Token) :
    reader.run (first ++ second) = (reader.run first).bind (·.run second) := by
  induction first generalizing reader with
  | nil => rfl
  | cons token rest ih =>
    rw [List.cons_append, run, run, Option.bind_assoc]
    congr 1
    funext next
    exact ih next

theorem step_disjunction {frame : Frame} {formula : Formula} (found : frame.formula? = some formula)
    (outer : List Frame) (atoms : List (List Token)) :
    step ⟨.connective, frame, outer, [], atoms⟩ .disjunction =
      some ⟨.literal, { earlier := formula }, outer, [], atoms⟩ := by
  rw [← found]
  rfl

theorem step_closing {frame : Frame} {formula : Formula} (found : frame.formula? = some formula)
    (around : Frame) (outer : List Frame) (atoms : List (List Token)) :
    step ⟨.connective, frame, around :: outer, [], atoms⟩ .closing =
      some ⟨.connective, around.add formula, outer, [], atoms⟩ := by
  change close _ = _
  simp only [close, found]

end PredicateReader

end LiteralSql
