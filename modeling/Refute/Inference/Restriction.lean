import Refute.Unifier.Unify

/-!
# Restricted unification

Inferences use unifiers under restrictions. A variable that is free in the hypothesis stands for one
fixed individual and may not be bound. A Skolem term may only be bound to a variable or another
Skolem term. Two different variables that stand as literals unify only if one of them is universal.
-/

namespace Refute

namespace Binding

/-- The binding is forbidden under the given hypothesis variables. -/
def isRestricted (hypothesis : List Variable) (binding : Binding) : Bool :=
  match binding.unknown.head with
  | .var v => hypothesis.contains v
  | .skolem _ => !binding.replacement.isUnknown
  | _ => false

end Binding

namespace Unifier

/-- Refuses a unifier for its first forbidden binding. -/
def check (hypothesis : List Variable) (u : Unifier) : Except UnifyError Unit :=
  match u.bindings.find? (Binding.isRestricted hypothesis) with
  | some binding => .error (.restricted binding)
  | none => .ok ()

end Unifier

namespace Expr

/-- The unifier of two terms in the given order, if its bindings are allowed. -/
def unifyChecked (hypothesis : List Variable) (left right : Expr) : Except UnifyError Unifier := do
  let u ← left.unify right
  u.check hypothesis
  .ok u

/-- Two different variables of which neither is universal. -/
def areFixedVariables (left right : Expr) : Bool :=
  match left.head, right.head with
  | .var v, .var w => v != w && !v.universal && !w.universal
  | _, _ => false

/-- The unifier of two terms under the restrictions. Both orders are tried, since one may bind a
restricted variable where the other does not. -/
def unifyRestricted (hypothesis : List Variable) (left right : Expr) : Except UnifyError Unifier :=
  if areFixedVariables left right then .error (.symbolClash left right)
  else
    match unifyChecked hypothesis left right with
    | .ok u => .ok u
    | .error _ => unifyChecked hypothesis right left

/-- The unifier by which a literal resolves against the literal whose negation is given. -/
def resolvingUnifier (hypothesis : List Variable) (literal negation : Expr) :
    Except UnifyError Unifier :=
  if literal.negated != negation.negated then .error (.polarity literal negation.negate)
  else unifyRestricted hypothesis literal negation

end Expr

end Refute
