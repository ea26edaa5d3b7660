import Refute.Expr.Basic

/-!
# Negation normal form

Implications and biconditionals are spelled out, `!=` becomes a negated `==`, and negation moves
inward over conjunctions, disjunctions and quantifiers until it rests on atoms. One pass does all of
it: the pass knows whether the place it has reached is negated from outside. The arguments of atoms
are left alone, and an implication or biconditional that does not have two operands is kept.
-/

namespace Refute.Expr

/-- A conjunction or disjunction of operands that are normal already; under negation it is the other
one. -/
def junction (operator dual : Operator) (negated : Bool) (args : List Expr) : Expr :=
  node (.op (if negated then dual else operator)) args

mutual

/-- The negation normal form of an expression, or of its negation when `flip` is set. -/
def nnf (flip : Bool) : Expr → Expr
  | ⟨.op .and, negated, args⟩ => junction .and .or (negated != flip) (nnfArgs (negated != flip) args)
  | ⟨.op .or, negated, args⟩ => junction .or .and (negated != flip) (nnfArgs (negated != flip) args)
  | ⟨.op .implication, negated, [a, b]⟩ =>
    junction .or .and (negated != flip) [nnf (!(negated != flip)) a, nnf (negated != flip) b]
  | ⟨.op .biconditional, negated, [a, b]⟩ =>
    junction .and .or (negated != flip)
      [junction .or .and (negated != flip) [nnf (!(negated != flip)) a, nnf (negated != flip) b],
        junction .or .and (negated != flip) [nnf (!(negated != flip)) b, nnf (negated != flip) a]]
  | ⟨.op .implication, negated, args⟩ => ⟨.op .implication, negated != flip, nnfArgs false args⟩
  | ⟨.op .biconditional, negated, args⟩ => ⟨.op .biconditional, negated != flip, nnfArgs false args⟩
  | ⟨.op .notEquals, negated, args⟩ => ⟨.op .equals, !(negated != flip), args⟩
  | ⟨.binder b, negated, args⟩ =>
    node (.binder { b with quantifier := if negated != flip then b.quantifier.dual else b.quantifier })
      (nnfArgs (negated != flip) args)
  | ⟨head, negated, args⟩ => ⟨head, negated != flip, args⟩

/-- The negation normal forms of operands, or of their negations when `flip` is set. -/
def nnfArgs (flip : Bool) : List Expr → List Expr
  | [] => []
  | a :: as => nnf flip a :: nnfArgs flip as

end

/-- Operands are brought to negation normal form one by one. -/
theorem nnfArgs_eq_map (flip : Bool) (args : List Expr) :
    nnfArgs flip args = args.map (nnf flip) := by
  induction args with
  | nil => rfl
  | cons a as ih => simp [nnfArgs, ih]

/-- The negation normal form of an expression. -/
def eliminateConnectives (e : Expr) : Expr := nnf false e

end Refute.Expr
