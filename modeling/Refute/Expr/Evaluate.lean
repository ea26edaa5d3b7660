import Refute.Expr.Basic

/-!
# Evaluation

An expression without quantifiers and Skolem functions has a value once its variables have:
constants stand for their values, functions and relations run their operations, comparisons compare
the values of their sides, and connectives join two booleans. A negated expression has to be a
boolean.
-/

namespace Refute

/-- Values for variables; the last binding of a variable counts. -/
structure Environment where
  /-- The bindings, the last one first. -/
  bindings : List (Variable × Value)

namespace Environment

/-- The environment without bindings. -/
def empty : Environment := ⟨[]⟩

/-- Gives a variable a value. -/
def bind (env : Environment) (v : Variable) (value : Value) : Environment :=
  ⟨(v, value) :: env.bindings⟩

/-- The value of a variable. -/
def get? (env : Environment) (v : Variable) : Option Value :=
  (env.bindings.find? fun binding => binding.1 == v).map (·.2)

end Environment

namespace Expr

/-- The boolean that an operand of the named operator is. -/
def expectBool (name : String) : Value → Except EvalError Bool
  | .bool truth => .ok truth
  | other => .error (.kindMismatch name .bool other.kind)

/-- Equality of the first two values; a missing value equals a missing value only. -/
def equalSides (values : List Value) : Bool :=
  values[0]? == values[1]?

/-- The truth of two joined booleans, if the operator is a connective. -/
def truthOf : Operator → Bool → Bool → Option Bool
  | .and, a, b => some (a && b)
  | .or, a, b => some (a || b)
  | .implication, a, b => some (!a || b)
  | .biconditional, a, b => some (a == b)
  | _, _, _ => none

/-- The value of joined operands; every operand has to be a boolean, and there have to be two. -/
def joinValues (operator : Operator) (values : List Value) : Except EvalError Value := do
  let truths ← values.mapM (expectBool operator.render)
  match truths with
  | [a, b] =>
    match truthOf operator a b with
    | some truth => .ok (.bool truth)
    | none => .error (.notEvaluable operator.render)
  | _ => .error (.notEvaluable operator.render)

/-- The value of an expression with the given sign, from its value without it. -/
def applySign (negated : Bool) (value : Value) : Except EvalError Value :=
  if negated then do
    let truth ← expectBool "!" value
    .ok (.bool !truth)
  else .ok value

mutual

/-- The value of an expression. -/
def evaluate (env : Environment) : Expr → Except EvalError Value
  | ⟨head, negated, args⟩ => do
    let value ← match head with
      | .var v =>
        match env.get? v with
        | some value => .ok value
        | none => .error (.unbound v.render)
      | .const c => .ok c.value
      | .fn f => do f.evaluate (← evaluateArgs env args)
      | .rel r => do .ok (.bool (← r.holds (← evaluateArgs env args)))
      | .op .not => .error (.notEvaluable head.render)
      | .op .equals => do .ok (.bool (equalSides (← evaluateArgs env args)))
      | .op .notEquals => do .ok (.bool (!equalSides (← evaluateArgs env args)))
      | .op operator => do joinValues operator (← evaluateArgs env args)
      | other => .error (.notEvaluable other.render)
    applySign negated value

/-- The values of the arguments, or the first error among them. -/
def evaluateArgs (env : Environment) : List Expr → Except EvalError (List Value)
  | [] => .ok []
  | a :: as => do
    let value ← evaluate env a
    let values ← evaluateArgs env as
    .ok (value :: values)

end

/-- Arguments are evaluated from left to right. -/
theorem evaluateArgs_eq_mapM (env : Environment) (args : List Expr) :
    evaluateArgs env args = args.mapM (evaluate env) := by
  induction args with
  | nil => rfl
  | cons a as ih =>
    rw [List.mapM_cons, evaluateArgs, ih]
    rfl

end Expr

end Refute
