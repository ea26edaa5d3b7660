import Mathlib.Logic.Basic
import Refute.Expr.Evaluate

/-!
# Values of expressions

Which error an expression without a value ends in depends on the order of its operands and on the
names of its operators; whether it has a value, and which, depends on its operands only through
theirs. `Expr.value?` and `Expr.truth?` forget the errors. What a connective joins has a value when
there are two operands that are truths, and negation turns truths around.
-/

namespace Refute

/-- The truth that a value is. -/
def Value.truth? : Value → Option Bool
  | .bool truth => some truth
  | _ => none

namespace Expr

variable (env : Environment)

/-- The value of an expression that has one. -/
def value? (e : Expr) : Option Value := (e.evaluate env).toOption

/-- The value of an expression that has a truth for its value. -/
def truth? (e : Expr) : Option Bool := (e.value? env).bind Value.truth?

variable {env}

/-- An expression has the value that it evaluates to. -/
theorem value?_eq_some_iff {e : Expr} {value : Value} :
    e.value? env = some value ↔ e.evaluate env = .ok value := by
  unfold value?
  cases e.evaluate env <;> simp [Except.toOption]

/-- Expressions have the same values when evaluation gives the same results apart from errors. -/
theorem value?_eq_iff {e f : Expr} :
    e.value? env = f.value? env ↔
      ∀ value, e.evaluate env = .ok value ↔ f.evaluate env = .ok value := by
  simp only [← value?_eq_some_iff]
  exact ⟨fun same value => by rw [same], Option.ext⟩

/-! ### Operands -/

section Options

variable {ε α β γ : Type}

/-- Forgetting the errors of a sequence forgets those of its parts. -/
theorem toOption_bind (first : Except ε α) (next : α → Except ε β) :
    (first >>= next).toOption = first.toOption.bind fun value => (next value).toOption := by
  cases first <;> rfl

/-- Forgetting the errors of a list of computations forgets those of each. -/
theorem toOption_mapM (f : α → Except ε β) (as : List α) :
    (as.mapM f).toOption = as.mapM fun a => (f a).toOption := by
  induction as with
  | nil => rfl
  | cons a as ih =>
    rw [List.mapM_cons, List.mapM_cons, toOption_bind]
    refine Option.bind_congr fun value _ => ?_
    rw [toOption_bind, ih]
    rfl

/-- Two passes that may fail are one. -/
theorem mapM_bind_mapM (f : α → Option β) (g : β → Option γ) (as : List α) :
    ((as.mapM f).bind fun bs => bs.mapM g) = as.mapM fun a => (f a).bind g := by
  induction as with
  | nil => rfl
  | cons a as ih =>
    rw [List.mapM_cons, List.mapM_cons, ← ih]
    cases f a with
    | none => rfl
    | some b =>
      cases as.mapM f with
      | none => cases g b <;> simp
      | some bs => simp [List.mapM_cons]

/-- There are as many results as members. -/
theorem length_of_mapM {f : α → Option β} {as : List α} {bs : List β} (run : as.mapM f = some bs) :
    bs.length = as.length := by
  induction as generalizing bs with
  | nil =>
    obtain rfl := Option.some.inj run
    rfl
  | cons a as ih =>
    simp only [List.mapM_cons, Option.bind_eq_bind, Option.bind_eq_some_iff, Option.pure_def,
      Option.some.injEq] at run
    obtain ⟨b, -, rest, others, rfl⟩ := run
    exact congrArg Nat.succ (ih others)

end Options

/-- Arguments have values when each of them has. -/
theorem toOption_evaluateArgs (env : Environment) (args : List Expr) :
    (evaluateArgs env args).toOption = args.mapM (value? env) := by
  rw [evaluateArgs_eq_mapM]
  exact toOption_mapM _ _

/-- The value of an application depends on the values of its operands. -/
theorem value?_congr (head : Symbol) (negated : Bool) {args others : List Expr}
    (same : args.mapM (value? env) = others.mapM (value? env)) :
    value? env ⟨head, negated, args⟩ = value? env ⟨head, negated, others⟩ := by
  rw [← toOption_evaluateArgs, ← toOption_evaluateArgs] at same
  have follow : ∀ next : List Value → Except EvalError Value,
      (evaluateArgs env args >>= next).toOption = (evaluateArgs env others >>= next).toOption := by
    intro next
    rw [toOption_bind, toOption_bind, same]
  unfold value? evaluate
  cases head with
  | fn f => exact follow _
  | rel r => exact follow _
  | op operator =>
    cases operator with
    | not => rfl
    | _ => exact follow _
  | _ => rfl

/-- An operand can be replaced by one with the same value. -/
theorem value?_operand {head : Symbol} {negated : Bool} {before after : List Expr} {a b : Expr}
    (same : a.value? env = b.value? env) :
    value? env ⟨head, negated, before ++ a :: after⟩ =
      value? env ⟨head, negated, before ++ b :: after⟩ := by
  refine value?_congr head negated ?_
  rw [List.mapM_append, List.mapM_append, List.mapM_cons, List.mapM_cons, same]

/-! ### Signs and connectives -/

/-- The sign is applied to what the expression is without it. -/
theorem evaluate_signed (env : Environment) (head : Symbol) (negated : Bool) (args : List Expr) :
    evaluate env ⟨head, negated, args⟩ = evaluate env ⟨head, false, args⟩ >>= applySign negated := by
  unfold evaluate
  cases head with
  | var v =>
    dsimp only
    cases env.get? v <;> rfl
  | fn f =>
    simp only [bind_assoc]
    rfl
  | rel r =>
    simp only [bind_assoc]
    rfl
  | op operator =>
    cases operator with
    | not => rfl
    | _ =>
      simp only [bind_assoc]
      rfl
  | _ => rfl

/-- The values that pass for truths are the truths. -/
theorem toOption_expectBool (name : String) (value : Value) :
    (expectBool name value).toOption = value.truth? := by
  cases value <;> rfl

/-- A negated expression has the contrary truth, if it has a truth without the sign. -/
theorem value?_negated (head : Symbol) (args : List Expr) :
    value? env ⟨head, true, args⟩ =
      (truth? env ⟨head, false, args⟩).map fun truth => .bool !truth := by
  unfold truth? value?
  rw [evaluate_signed, toOption_bind]
  cases (evaluate env ⟨head, false, args⟩).toOption with
  | none => rfl
  | some value => cases value <;> rfl

/-- The truth of a negated expression is the contrary one. -/
theorem truth?_negate (e : Expr) : e.negate.truth? env = (e.truth? env).map not := by
  obtain ⟨head, negated, args⟩ := e
  have contrary : truth? env ⟨head, true, args⟩ = (truth? env ⟨head, false, args⟩).map not := by
    rw [truth?, value?_negated]
    cases truth? env ⟨head, false, args⟩ <;> rfl
  cases negated with
  | false => exact contrary
  | true =>
    change truth? env ⟨head, false, args⟩ = _
    rw [contrary]
    cases truth? env ⟨head, false, args⟩ <;> simp

/-- The value of joined truths. -/
def join? (operator : Operator) : List Bool → Option Value
  | [a, b] => (truthOf operator a b).map Value.bool
  | _ => none

/-- Values are joined if all of them are truths. -/
theorem toOption_joinValues (operator : Operator) (values : List Value) :
    (joinValues operator values).toOption = (values.mapM Value.truth?).bind (join? operator) := by
  unfold joinValues
  rw [toOption_bind, toOption_mapM]
  simp only [toOption_expectBool]
  refine Option.bind_congr fun truths _ => ?_
  rcases truths with _ | ⟨a, _ | ⟨b, _ | ⟨c, rest⟩⟩⟩
  · rfl
  · rfl
  · change _ = (truthOf operator a b).map Value.bool
    dsimp only
    cases truthOf operator a b <;> rfl
  · rfl

/-- A connective has a value if its operands are truths that it joins. -/
theorem value?_joined {operator : Operator} (joins : operator.isConnective) (args : List Expr) :
    value? env ⟨.op operator, false, args⟩ = (args.mapM (truth? env)).bind (join? operator) := by
  have opened : evaluate env ⟨.op operator, false, args⟩ =
      evaluateArgs env args >>= joinValues operator := by
    unfold evaluate
    cases operator with
    | not => cases joins
    | equals => cases joins
    | notEquals => cases joins
    | _ => exact congrArg _ (funext fun values => bind_pure _)
  unfold value?
  rw [opened, toOption_bind, toOption_evaluateArgs]
  simp only [toOption_joinValues]
  rw [← Option.bind_assoc, mapM_bind_mapM]
  rfl

/-- What joins two truths has a truth for its value. -/
theorem value?_connective {operator : Operator} (joins : operator.isConnective) (negated : Bool)
    (a b : Expr) :
    value? env ⟨.op operator, negated, [a, b]⟩ =
      (a.truth? env).bind fun first => (b.truth? env).bind fun second =>
        (truthOf operator first second).map fun truth => .bool (truth != negated) := by
  have plain : value? env ⟨.op operator, false, [a, b]⟩ =
      (a.truth? env).bind fun first => (b.truth? env).bind fun second =>
        (truthOf operator first second).map Value.bool := by
    rw [value?_joined joins]
    cases first : a.truth? env <;> cases second : b.truth? env <;> simp [first, second, join?]
  cases negated with
  | false => simpa using plain
  | true =>
    rw [value?_negated, truth?, plain]
    cases a.truth? env with
    | none => rfl
    | some first =>
      cases b.truth? env with
      | none => rfl
      | some second =>
        cases joined : truthOf operator first second <;> simp [joined, Value.truth?]

/-- A connective of two operands has a truth if both have one. -/
theorem truth?_connective {operator : Operator} (joins : operator.isConnective) (negated : Bool)
    (a b : Expr) :
    truth? env ⟨.op operator, negated, [a, b]⟩ =
      (a.truth? env).bind fun first => (b.truth? env).bind fun second =>
        (truthOf operator first second).map (· != negated) := by
  rw [truth?, value?_connective joins, Option.bind_assoc]
  refine Option.bind_congr fun first _ => ?_
  rw [Option.bind_assoc]
  refine Option.bind_congr fun second _ => ?_
  cases truthOf operator first second <;> rfl

/-- A connective joins two operands and no other number of them. -/
theorem value?_connective_of_length_ne {operator : Operator} (joins : operator.isConnective)
    (negated : Bool) {args : List Expr} (other : args.length ≠ 2) :
    value? env ⟨.op operator, negated, args⟩ = none := by
  have plain : value? env ⟨.op operator, false, args⟩ = none := by
    rw [value?_joined joins, Option.bind_eq_none_iff]
    intro truths run
    have length := length_of_mapM run
    unfold join?
    split
    · exact absurd length.symm other
    · rfl
  cases negated with
  | false => exact plain
  | true => rw [value?_negated, truth?, plain]; rfl

/-- A quantified expression has no value. -/
theorem value?_binder (binder : Binder) (negated : Bool) (args : List Expr) :
    value? env ⟨.binder binder, negated, args⟩ = none := by
  unfold value? evaluate
  rfl

/-- Sides that differ are not equal. -/
theorem value?_notEquals (negated : Bool) (args : List Expr) :
    value? env ⟨.op .notEquals, negated, args⟩ = value? env ⟨.op .equals, !negated, args⟩ := by
  unfold value? evaluate
  rw [toOption_bind, toOption_bind]
  refine Option.bind_congr fun values _ => ?_
  cases negated <;> simp [applySign, expectBool, Except.toOption, bind, Except.bind]

end Expr

end Refute
