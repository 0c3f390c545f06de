import LiteralSql.Sql.Query

/-! Truth tables of predicates.

A predicate has a value as the tree of the steps that built it, and its text has
one by the precedence of the connectives. The two are the same for every truth of
the atoms if and only if the predicate is grouped.
-/

set_option autoImplicit false

namespace LiteralSql

inductive Truth
  | yes
  | no
  | unknown
  deriving DecidableEq

namespace Truth

def and : Truth → Truth → Truth
  | no, _ => no
  | _, no => no
  | yes, other => other
  | other, yes => other
  | unknown, unknown => unknown

def or : Truth → Truth → Truth
  | yes, _ => yes
  | _, yes => yes
  | no, other => other
  | other, no => other
  | unknown, unknown => unknown

def not : Truth → Truth
  | yes => no
  | no => yes
  | unknown => unknown

def signed (negated : Bool) (truth : Truth) : Truth := if negated then truth.not else truth

def ofBool (held : Bool) : Truth := if held then yes else no

@[simp] theorem yes_and (truth : Truth) : yes.and truth = truth := by cases truth <;> rfl

@[simp] theorem and_yes (truth : Truth) : truth.and yes = truth := by cases truth <;> rfl

@[simp] theorem no_and (truth : Truth) : no.and truth = no := by cases truth <;> rfl

@[simp] theorem and_no (truth : Truth) : truth.and no = no := by cases truth <;> rfl

@[simp] theorem no_or (truth : Truth) : no.or truth = truth := by cases truth <;> rfl

@[simp] theorem or_no (truth : Truth) : truth.or no = truth := by cases truth <;> rfl

@[simp] theorem or_yes (truth : Truth) : truth.or yes = yes := by cases truth <;> rfl

@[simp] theorem not_not (truth : Truth) : truth.not.not = truth := by cases truth <;> rfl

theorem and_assoc (first second third : Truth) :
    (first.and second).and third = first.and (second.and third) := by
  cases first <;> cases second <;> cases third <;> rfl

theorem or_assoc (first second third : Truth) :
    (first.or second).or third = first.or (second.or third) := by
  cases first <;> cases second <;> cases third <;> rfl

theorem signed_flip (negated : Bool) (truth : Truth) :
    truth.signed (!negated) = truth.not.signed negated := by
  cases negated
  · rfl
  · exact (not_not truth).symm

theorem not_ofBool (held : Bool) : (ofBool held).not = ofBool (!held) := by cases held <;> rfl

theorem signed_injective {negated : Bool} {first second : Truth}
    (same : first.signed negated = second.signed negated) : first = second := by
  cases negated
  · exact same
  · rw [← not_not first, ← not_not second]
    exact congrArg not same

end Truth

namespace Expr

inductive IsAtom : Expr → Prop
  | equalColumns (left right : Column) : IsAtom (.equalColumns left right)
  | compare (comparison : Comparison) (column : Column) (value : Value) :
      IsAtom (.compare comparison (.column column) value)
  | isNull (negated : Bool) (column : Column) : IsAtom (.isNull negated (.column column))
  | between (negated : Bool) (column : Column) (low high : Value) :
      IsAtom (.between negated (.column column) low high)
  | member (negated : Bool) (column : Column) (values : List Value) :
      IsAtom (.member negated (.column column) values)

inductive IsPredicate : Expr → Prop
  | atom {expr : Expr} (atom : expr.IsAtom) : IsPredicate expr
  | and {left right : Expr} (first : left.IsPredicate) (second : right.IsPredicate) :
      IsPredicate (.and left right)
  | or {left right : Expr} (first : left.IsPredicate) (second : right.IsPredicate) :
      IsPredicate (.or left right)
  | not {operand : Expr} (inner : operand.IsPredicate) : IsPredicate (.not operand)
  | paren {operand : Expr} (inner : operand.IsPredicate) : IsPredicate (.paren operand)

def atoms : Expr → List Expr
  | .and left right => left.atoms ++ right.atoms
  | .or left right => left.atoms ++ right.atoms
  | .not operand => operand.atoms
  | .paren operand => operand.atoms
  | atom => [atom]

def meaning (truth : Nat → Truth) (first : Nat) : Expr → Truth
  | .and left right => (left.meaning truth first).and (right.meaning truth (first + left.atoms.length))
  | .or left right => (left.meaning truth first).or (right.meaning truth (first + left.atoms.length))
  | .not operand => (operand.meaning truth first).not
  | .paren operand => operand.meaning truth first
  | _ => truth first

def single : Expr → Bool
  | .and left right => left.single && right.single
  | .or _ _ => false
  | .not operand => operand.single
  | _ => true

/-- Every disjunction below a conjunction is in parentheses, and so is every
conjunction or disjunction below an odd number of negations; `negated` tells
whether the number is odd so far. -/
def grouped (negated : Bool) : Expr → Bool
  | .and left right =>
    !negated && left.single && right.single && left.grouped false && right.grouped false
  | .or left right => !negated && left.grouped false && right.grouped false
  | .not operand => operand.grouped (!negated)
  | .paren operand => operand.grouped false
  | _ => true

end Expr

/-- The value of a text that has been read in part: of the alternatives before
the last `or`, and of the conjunction behind it. -/
structure Clauses where
  earlier : Truth := .no
  clause : Truth := .yes

namespace Clauses

def value (clauses : Clauses) : Truth := clauses.earlier.or clauses.clause

def add (clauses : Clauses) (literal : Truth) : Clauses :=
  { clauses with clause := clauses.clause.and literal }

theorem add_add (clauses : Clauses) (first second : Truth) :
    (clauses.add first).add second = clauses.add (first.and second) := by
  simp only [add, Truth.and_assoc]

theorem value_add (earlier literal : Truth) :
    (Clauses.add { earlier } literal).value = earlier.or literal := by
  rw [value, add, Truth.yes_and]

/-- Takes in clauses of which the first one, also the last one if it is the only
one, comes to `lead` and the others to `no`. -/
def leadWith (clauses : Clauses) (single : Bool) (lead : Truth) : Clauses :=
  if single then clauses.add lead else ⟨clauses.earlier.or (clauses.clause.and lead), .no⟩

theorem value_leadWith (clauses : Clauses) (single : Bool) (lead : Truth) :
    (clauses.leadWith single lead).value = clauses.earlier.or (clauses.clause.and lead) := by
  cases single
  · exact Truth.or_no _
  · rfl

theorem leadWith_leadWith (clauses : Clauses) (first second : Bool) (lead : Truth) :
    (clauses.leadWith first lead).leadWith second .yes = clauses.leadWith (first && second) lead := by
  cases first <;> cases second <;> simp [leadWith, add]

theorem leadWith_yes (clauses : Clauses) : clauses.leadWith true .yes = clauses := by
  simp [leadWith, add]

theorem leadWith_no (clauses : Clauses) (second : Bool) (lead : Truth) :
    Clauses.leadWith { earlier := clauses.earlier.or (clauses.clause.and lead) } second .no =
      clauses.leadWith false lead := by
  cases second <;> simp [leadWith, add]

end Clauses

namespace Expr

/-- What the text adds to the clauses before it. Behind an odd number of
negations its first literal is negated. -/
def absorb (truth : Nat → Truth) (first : Nat) (negated : Bool) (clauses : Clauses) : Expr → Clauses
  | .and left right =>
    right.absorb truth (first + left.atoms.length) false (left.absorb truth first negated clauses)
  | .or left right =>
    right.absorb truth (first + left.atoms.length) false
      { earlier := (left.absorb truth first negated clauses).value }
  | .not operand => operand.absorb truth first (!negated) clauses
  | .paren operand => clauses.add ((operand.absorb truth first false {}).value.signed negated)
  | _ => clauses.add ((truth first).signed negated)

variable {expr : Expr}

theorem IsAtom.atoms_eq (atom : expr.IsAtom) : expr.atoms = [expr] := by cases atom <;> rfl

theorem IsAtom.meaning_eq (atom : expr.IsAtom) (truth : Nat → Truth) (first : Nat) :
    expr.meaning truth first = truth first := by cases atom <;> rfl

theorem IsAtom.absorb_eq (atom : expr.IsAtom) (truth : Nat → Truth) (first : Nat) (negated : Bool)
    (clauses : Clauses) :
    expr.absorb truth first negated clauses = clauses.add ((truth first).signed negated) := by
  cases atom <;> rfl

theorem IsAtom.single_eq (atom : expr.IsAtom) : expr.single = true := by cases atom <;> rfl

theorem IsAtom.grouped_eq (atom : expr.IsAtom) (negated : Bool) : expr.grouped negated = true := by
  cases atom <;> rfl

theorem IsPredicate.congr (predicate : expr.IsPredicate) {truth other : Nat → Truth} {first : Nat}
    (same : ∀ index, first ≤ index → index < first + expr.atoms.length → truth index = other index) :
    expr.meaning truth first = expr.meaning other first ∧
      ∀ negated clauses, expr.absorb truth first negated clauses = expr.absorb other first negated clauses := by
  induction predicate generalizing first with
  | atom atom =>
    have here : truth first = other first := by
      refine same first (Nat.le_refl first) ?_
      rw [atom.atoms_eq]
      exact Nat.lt_succ_self first
    simp only [atom.meaning_eq, atom.absorb_eq, here, implies_true, and_self]
  | @and left right _ _ left_ih right_ih =>
    rw [atoms, List.length_append] at same
    obtain ⟨leftMeaning, leftText⟩ := left_ih fun index low high => same index low (by omega)
    obtain ⟨rightMeaning, rightText⟩ := @right_ih (first + left.atoms.length) fun index low high =>
      same index (by omega) (by omega)
    exact ⟨by rw [meaning, meaning, leftMeaning, rightMeaning],
      fun _ _ => by rw [absorb, absorb, leftText, rightText]⟩
  | @or left right _ _ left_ih right_ih =>
    rw [atoms, List.length_append] at same
    obtain ⟨leftMeaning, leftText⟩ := left_ih fun index low high => same index low (by omega)
    obtain ⟨rightMeaning, rightText⟩ := @right_ih (first + left.atoms.length) fun index low high =>
      same index (by omega) (by omega)
    exact ⟨by rw [meaning, meaning, leftMeaning, rightMeaning],
      fun _ _ => by rw [absorb, absorb, leftText, rightText]⟩
  | not _ ih =>
    obtain ⟨inner, innerText⟩ := ih same
    exact ⟨congrArg Truth.not inner, fun _ _ => innerText _ _⟩
  | paren _ ih =>
    obtain ⟨inner, innerText⟩ := ih same
    exact ⟨inner, fun _ _ => by rw [absorb, absorb, innerText]⟩

/-- Two neighbours have no atom in common, so each can have a truth of its own. -/
theorem IsPredicate.combine {left right : Expr} (leftPredicate : left.IsPredicate)
    (rightPredicate : right.IsPredicate) (first : Nat) (leftTruth rightTruth : Nat → Truth) :
    ∃ truth, (left.meaning truth first = left.meaning leftTruth first ∧
        ∀ negated clauses, left.absorb truth first negated clauses =
          left.absorb leftTruth first negated clauses) ∧
      right.meaning truth (first + left.atoms.length) =
        right.meaning rightTruth (first + left.atoms.length) ∧
      ∀ negated clauses, right.absorb truth (first + left.atoms.length) negated clauses =
        right.absorb rightTruth (first + left.atoms.length) negated clauses :=
  ⟨fun index => if index < first + left.atoms.length then leftTruth index else rightTruth index,
    leftPredicate.congr fun _ _ high => if_pos high,
    rightPredicate.congr fun _ low _ => if_neg (Nat.not_lt.mpr low)⟩

/-- A predicate can be true and can be false, and its text then agrees with it in
the first clause and has no other clause that holds. -/
theorem IsPredicate.attains (predicate : expr.IsPredicate) (first : Nat) (negated held : Bool) :
    ∃ truth, expr.meaning truth first = .ofBool held ∧
      ∀ clauses, expr.absorb truth first negated clauses =
        clauses.leadWith expr.single ((Truth.ofBool held).signed negated) := by
  -- Both sides get truths of their own: the first one leads, and the second one is neutral beside it.
  induction predicate generalizing first negated held with
  | atom atom =>
    refine ⟨fun _ => .ofBool held, atom.meaning_eq _ _, fun clauses => ?_⟩
    rw [atom.absorb_eq, atom.single_eq]
    rfl
  | @and left right leftPredicate rightPredicate left_ih right_ih =>
    obtain ⟨leftTruth, leftHeld, leftLeads⟩ := left_ih first negated held
    obtain ⟨rightTruth, rightHeld, rightLeads⟩ := right_ih (first + left.atoms.length) false true
    obtain ⟨truth, ⟨leftMeaning, leftText⟩, rightMeaning, rightText⟩ :=
      leftPredicate.combine rightPredicate first leftTruth rightTruth
    refine ⟨truth, ?_, fun clauses => ?_⟩
    · rw [meaning, leftMeaning, rightMeaning, leftHeld, rightHeld]
      exact Truth.and_yes _
    · rw [absorb, leftText, rightText, leftLeads, rightLeads]
      exact Clauses.leadWith_leadWith _ _ _ _
  | @or left right leftPredicate rightPredicate left_ih right_ih =>
    obtain ⟨leftTruth, leftHeld, leftLeads⟩ := left_ih first negated held
    obtain ⟨rightTruth, rightHeld, rightLeads⟩ := right_ih (first + left.atoms.length) false false
    obtain ⟨truth, ⟨leftMeaning, leftText⟩, rightMeaning, rightText⟩ :=
      leftPredicate.combine rightPredicate first leftTruth rightTruth
    refine ⟨truth, ?_, fun clauses => ?_⟩
    · rw [meaning, leftMeaning, rightMeaning, leftHeld, rightHeld]
      exact Truth.or_no _
    · rw [absorb, leftText, rightText, leftLeads, rightLeads, Clauses.value_leadWith]
      exact Clauses.leadWith_no _ _ _
  | not _ ih =>
    obtain ⟨truth, inner, innerLeads⟩ := ih first (!negated) (!held)
    refine ⟨truth, ?_, fun clauses => ?_⟩
    · rw [meaning, inner, Truth.not_ofBool, Bool.not_not]
    · rw [absorb, innerLeads, Truth.signed_flip, Truth.not_ofBool, Bool.not_not]
      rfl
  | paren _ ih =>
    obtain ⟨truth, inner, innerLeads⟩ := ih first false held
    refine ⟨truth, inner, fun clauses => ?_⟩
    rw [absorb, innerLeads, Clauses.value_leadWith, Truth.no_or, Truth.yes_and]
    rfl

/-- A text with an `or` outside parentheses can hold by what is behind it alone. -/
theorem IsPredicate.overrules (predicate : expr.IsPredicate) (several : expr.single = false)
    (first : Nat) :
    ∃ truth, ∀ negated clauses, (expr.absorb truth first negated clauses).value = .yes := by
  induction predicate generalizing first with
  | atom atom => exact absurd (atom.single_eq.symm.trans several) Bool.true_eq_false.mp
  | @and left right leftPredicate rightPredicate left_ih right_ih =>
    rw [single, Bool.and_eq_false_iff] at several
    obtain leftSeveral | rightSeveral := several
    · obtain ⟨leftTruth, leftHolds⟩ := left_ih leftSeveral first
      obtain ⟨rightTruth, -, rightLeads⟩ :=
        rightPredicate.attains (first + left.atoms.length) false true
      obtain ⟨truth, ⟨-, leftText⟩, -, rightText⟩ :=
        leftPredicate.combine rightPredicate first leftTruth rightTruth
      refine ⟨truth, fun negated clauses => ?_⟩
      rw [absorb, leftText, rightText, rightLeads, Clauses.value_leadWith]
      exact (congrArg _ (Truth.and_yes _)).trans (leftHolds negated clauses)
    · obtain ⟨truth, rightHolds⟩ := right_ih rightSeveral (first + left.atoms.length)
      exact ⟨truth, fun negated clauses => rightHolds false _⟩
  | @or left right leftPredicate rightPredicate =>
    obtain ⟨truth, -, rightLeads⟩ := rightPredicate.attains (first + left.atoms.length) false true
    refine ⟨truth, fun negated clauses => ?_⟩
    rw [absorb, rightLeads, Clauses.value_leadWith]
    exact (congrArg _ (Truth.yes_and _)).trans (Truth.or_yes _)
  | not _ ih =>
    obtain ⟨truth, holds⟩ := ih several first
    exact ⟨truth, fun negated clauses => holds (!negated) clauses⟩
  | paren => cases several

theorem IsPredicate.means_of_grouped (predicate : expr.IsPredicate) (truth : Nat → Truth)
    {first : Nat} {negated : Bool} (grouped : expr.grouped negated = true) :
    (expr.single = true → ∀ clauses, expr.absorb truth first negated clauses =
        clauses.add ((expr.meaning truth first).signed negated)) ∧
      ∀ earlier, (expr.absorb truth first negated { earlier }).value =
        earlier.or ((expr.meaning truth first).signed negated) := by
  induction predicate generalizing first negated with
  | atom atom =>
    have added := atom.absorb_eq truth first negated
    rw [atom.meaning_eq]
    exact ⟨fun _ => added, fun earlier => by rw [added, Clauses.value_add]⟩
  | @and left right _ _ left_ih right_ih =>
    -- A conjunction that is grouped has no negation open and no bare alternative on either side.
    simp only [Expr.grouped, Bool.and_eq_true, Bool.not_eq_true'] at grouped
    obtain ⟨⟨⟨⟨rfl, leftSingle⟩, rightSingle⟩, leftGrouped⟩, rightGrouped⟩ := grouped
    have added : ∀ clauses, (Expr.and left right).absorb truth first false clauses =
        clauses.add ((Expr.and left right).meaning truth first) := by
      intro clauses
      rw [absorb, (left_ih leftGrouped).1 leftSingle, (right_ih rightGrouped).1 rightSingle,
        Clauses.add_add]
      rfl
    exact ⟨fun _ => added, fun earlier => by rw [added, Clauses.value_add]; rfl⟩
  | or _ _ left_ih right_ih =>
    simp only [Expr.grouped, Bool.and_eq_true, Bool.not_eq_true'] at grouped
    obtain ⟨⟨rfl, leftGrouped⟩, rightGrouped⟩ := grouped
    refine ⟨fun single => absurd single Bool.false_ne_true, fun earlier => ?_⟩
    rw [absorb, (right_ih rightGrouped).2, (left_ih leftGrouped).2, Truth.or_assoc]
    rfl
  | not _ ih =>
    have inner := @ih first (!negated) grouped
    simp only [Truth.signed_flip] at inner
    exact inner
  | paren _ ih =>
    have inner := (@ih first false grouped).2 .no
    rw [Truth.no_or] at inner
    have added : ∀ clauses, (Expr.paren _).absorb truth first negated clauses =
        clauses.add (((Expr.paren _).meaning truth first).signed negated) := fun clauses => by
      rw [absorb, inner]
      rfl
    exact ⟨fun _ => added, fun earlier => by rw [added, Clauses.value_add]⟩

theorem IsPredicate.grouped_of_means (predicate : expr.IsPredicate) {first : Nat} {negated : Bool}
    (means : ∀ truth, (expr.absorb truth first negated {}).value =
      (expr.meaning truth first).signed negated) : expr.grouped negated = true := by
  induction predicate generalizing first negated with
  | atom atom => exact atom.grouped_eq negated
  | @and left right leftPredicate rightPredicate left_ih right_ih =>
    -- What the two sides come to by tables of their own is what they come to by one table.
    have apart : ∀ leftTruth rightTruth,
        (right.absorb rightTruth (first + left.atoms.length) false
            (left.absorb leftTruth first negated {})).value =
          ((left.meaning leftTruth first).and
            (right.meaning rightTruth (first + left.atoms.length))).signed negated := by
      intro leftTruth rightTruth
      obtain ⟨truth, ⟨leftMeaning, leftText⟩, rightMeaning, rightText⟩ :=
        leftPredicate.combine rightPredicate first leftTruth rightTruth
      rw [← leftMeaning, ← rightMeaning, ← leftText, ← rightText]
      exact means truth
    obtain ⟨leftTrue, leftYes, leftLeads⟩ := leftPredicate.attains first negated true
    obtain ⟨rightFalse, rightNo, rightVanishes⟩ :=
      rightPredicate.attains (first + left.atoms.length) false false
    have bound := apart leftTrue rightFalse
    rw [leftLeads, rightVanishes, leftYes, rightNo, Clauses.value_leadWith] at bound
    cases negated with
    | true =>
      generalize left.single = single at bound
      cases single <;> cases bound
    | false =>
      have leftSingle : left.single = true := by
        cases several : left.single with
        | true => rfl
        | false => rw [several] at bound; cases bound
      have rightSingle : right.single = true := by
        cases several : right.single with
        | true => rfl
        | false =>
          obtain ⟨rightTruth, holds⟩ := rightPredicate.overrules several (first + left.atoms.length)
          obtain ⟨leftFalse, leftNo, -⟩ := leftPredicate.attains first false false
          have overruled := apart leftFalse rightTruth
          rw [holds, leftNo] at overruled
          cases overruled.trans (Truth.no_and (right.meaning rightTruth (first + left.atoms.length)))
      obtain ⟨rightTrue, rightYes, rightLeads⟩ :=
        rightPredicate.attains (first + left.atoms.length) false true
      have leftGrouped : left.grouped false = true := left_ih fun truth => by
        have kept := apart truth rightTrue
        rw [rightLeads, rightSingle, rightYes] at kept
        exact ((congrArg Clauses.value (Clauses.leadWith_yes _)).symm.trans kept).trans
          (Truth.and_yes _)
      have rightGrouped : right.grouped false = true := right_ih fun truth => by
        have kept := apart leftTrue truth
        rw [leftLeads, leftSingle, leftYes] at kept
        exact kept.trans (Truth.yes_and _)
      simp [grouped, leftSingle, rightSingle, leftGrouped, rightGrouped]
  | @or left right leftPredicate rightPredicate left_ih right_ih =>
    have apart : ∀ leftTruth rightTruth,
        (right.absorb rightTruth (first + left.atoms.length) false
            { earlier := (left.absorb leftTruth first negated {}).value }).value =
          ((left.meaning leftTruth first).or
            (right.meaning rightTruth (first + left.atoms.length))).signed negated := by
      intro leftTruth rightTruth
      obtain ⟨truth, ⟨leftMeaning, leftText⟩, rightMeaning, rightText⟩ :=
        leftPredicate.combine rightPredicate first leftTruth rightTruth
      rw [← leftMeaning, ← rightMeaning, ← leftText, ← rightText]
      exact means truth
    obtain ⟨leftFalse, leftNo, leftVanishes⟩ := leftPredicate.attains first negated false
    cases negated with
    | true =>
      obtain ⟨rightTrue, rightYes, rightLeads⟩ :=
        rightPredicate.attains (first + left.atoms.length) false true
      have bound := apart leftFalse rightTrue
      rw [rightLeads, leftNo, rightYes, Clauses.value_leadWith] at bound
      exact absurd ((Truth.or_yes _).symm.trans bound) (by decide)
    | false =>
      obtain ⟨rightFalse, rightNo, rightVanishes⟩ :=
        rightPredicate.attains (first + left.atoms.length) false false
      have leftGrouped : left.grouped false = true := left_ih fun truth => by
        have kept := apart truth rightFalse
        rw [rightVanishes, rightNo, Clauses.value_leadWith] at kept
        exact ((Truth.or_no _).symm.trans kept).trans (Truth.or_no _)
      have rightGrouped : right.grouped false = true := right_ih fun truth => by
        have kept := apart leftFalse truth
        rw [leftVanishes, leftNo, Clauses.value_leadWith] at kept
        exact kept.trans (Truth.no_or _)
      simp [grouped, leftGrouped, rightGrouped]
  | not _ ih =>
    refine @ih first (!negated) fun truth => ?_
    rw [Truth.signed_flip]
    exact means truth
  | paren _ ih =>
    refine @ih first false fun truth => ?_
    have inner := means truth
    rw [absorb, Clauses.value_add, Truth.no_or] at inner
    exact Truth.signed_injective inner

end Expr

end LiteralSql
