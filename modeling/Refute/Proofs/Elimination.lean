import Mathlib.Algebra.Order.BigOperators.Group.List
import Mathlib.Tactic.Ring
import Refute.Normal.Negation
import Refute.Proofs.Evaluation
import Refute.Proofs.Rewriting

/-!
# Elimination of connectives

Negation normal form is what six rules lead to: two spell out implications and biconditionals, one
says with a negated `==` that two sides differ, and three move a negation inward. The rules apply
anywhere above the atoms, also where a connective or quantifier has a wrong number of operands, and
wherever they are applied first, they come to an end and leave the same expression. None of them
changes the value of an expression, so an expression and its normal form have the same value or
none.
-/

open Relation (ReflTransGen)

namespace Refute

namespace Expr

/-- The rules. -/
inductive Elimination : Expr → Expr → Prop
  /-- Sides that differ are not equal. -/
  | notEquals (negated : Bool) (args : List Expr) :
      Elimination ⟨.op .notEquals, negated, args⟩ ⟨.op .equals, !negated, args⟩
  /-- The first operand is false or the second one is true. -/
  | implication (negated : Bool) (a b : Expr) :
      Elimination ⟨.op .implication, negated, [a, b]⟩ ⟨.op .or, negated, [a.negate, b]⟩
  /-- Each operand implies the other. -/
  | biconditional (negated : Bool) (a b : Expr) :
      Elimination ⟨.op .biconditional, negated, [a, b]⟩
        ⟨.op .and, negated, [binary .or a.negate b, binary .or b.negate a]⟩
  /-- A negated conjunction is a disjunction of negations. -/
  | conjunction (args : List Expr) :
      Elimination ⟨.op .and, true, args⟩ (node (.op .or) (args.map negate))
  /-- A negated disjunction is a conjunction of negations. -/
  | disjunction (args : List Expr) :
      Elimination ⟨.op .or, true, args⟩ (node (.op .and) (args.map negate))
  /-- A negated quantifier is the dual one over the negation. -/
  | quantified (binder : Binder) (args : List Expr) :
      Elimination ⟨.binder binder, true, args⟩
        (node (.binder { binder with quantifier := binder.quantifier.dual }) (args.map negate))

/-- One rule is applied, at the root or below connectives and quantifiers. -/
def Eliminates : Expr → Expr → Prop :=
  Rewrites (fun head _ _ => head.isConnective || head.isBinder) Elimination

/-! ### Values -/

/-- De Morgan's rules hold whatever the number of operands: unless there are two, neither side has a
value. -/
theorem value?_dual {operator other : Operator} (joins : operator.isConnective)
    (joinsToo : other.isConnective)
    (same : ∀ a b, truthOf operator a b = (truthOf other (!a) (!b)).map not) (args : List Expr)
    (env : Environment) :
    Expr.value? env ⟨.op operator, true, args⟩ =
      Expr.value? env (node (.op other) (args.map negate)) := by
  unfold node
  by_cases two : args.length = 2
  · obtain ⟨a, b, rfl⟩ := List.length_eq_two.1 two
    rw [List.map_cons, List.map_singleton, value?_connective joins, value?_connective joinsToo,
      truth?_negate, truth?_negate]
    cases a.truth? env <;> cases b.truth? env <;> simp [same, Function.comp_def]
  · rw [value?_connective_of_length_ne joins true two,
      value?_connective_of_length_ne joinsToo false (by simpa using two)]

/-- The rules keep the value of an expression, also where it has none. -/
theorem Elimination.value? {e f : Expr} (rule : Elimination e f) (env : Environment) :
    e.value? env = f.value? env := by
  cases rule with
  | notEquals negated args => exact value?_notEquals negated args
  | implication negated a b =>
    rw [value?_connective rfl, value?_connective rfl, truth?_negate]
    cases a.truth? env <;> simp [truthOf]
  | biconditional negated a b =>
    rw [value?_connective rfl, value?_connective rfl, binary, binary, node, node,
      truth?_connective rfl, truth?_connective rfl, truth?_negate, truth?_negate]
    cases a.truth? env with
    | none => rfl
    | some first =>
      cases b.truth? env with
      | none => rfl
      | some second => cases first <;> cases second <;> rfl
  | conjunction args => exact value?_dual rfl rfl (by decide) args env
  | disjunction args => exact value?_dual rfl rfl (by decide) args env
  | quantified binder args => rw [node, value?_binder, value?_binder]

/-- Applying a rule inside an expression keeps its value. -/
theorem Eliminates.value? {e f : Expr} (step : Eliminates e f) (env : Environment) :
    e.value? env = f.value? env :=
  Rewrites.congr (fun rule => rule.value? env) (fun _ => value?_operand) step

/-! ### Effort

The effort of an expression bounds the number of rules that can be applied to it. A negation that
moves inward may add negations further inside, so it squares what it stands before. -/

/-- The effort for an expression without its sign, from that for its operands. -/
def effortOf (head : Symbol) (operands : List Nat) : Nat :=
  match head, operands with
  | .op .implication, [a, b] => a * a + b + 3
  | .op .biconditional, [a, b] => a * a + a + (b * b + b) + 7
  | .op .notEquals, operands => (operands.sum + 2) * (operands.sum + 2) + 1
  | _, operands => operands.sum + 2

/-- The effort for an expression with its sign. -/
def signedEffort (negated : Bool) (effort : Nat) : Nat :=
  if negated then effort * effort else effort

mutual

/-- The effort for an expression. -/
def effort : Expr → Nat
  | ⟨head, negated, args⟩ => signedEffort negated (effortOf head (efforts args))

/-- The efforts for operands. -/
def efforts : List Expr → List Nat
  | [] => []
  | a :: as => effort a :: efforts as

end

/-- The efforts for operands are those for each of them. -/
theorem efforts_eq_map (args : List Expr) : efforts args = args.map effort := by
  induction args with
  | nil => rfl
  | cons a as ih => simp [efforts, ih]

/-- More effort without a sign is more effort with it. -/
theorem signedEffort_lt {small large : Nat} (less : small < large) (negated : Bool) :
    signedEffort negated small < signedEffort negated large := by
  cases negated with
  | false => exact less
  | true => exact Nat.mul_self_lt_mul_self less

/-- A negation takes no effort away. -/
theorem le_signedEffort (negated : Bool) (effort : Nat) : effort ≤ signedEffort negated effort := by
  cases negated with
  | false => exact le_rfl
  | true => exact Nat.le_mul_self effort

/-- An expression without its sign takes more effort than its operands together. -/
theorem sum_lt_effortOf (head : Symbol) (operands : List Nat) :
    operands.sum < effortOf head operands := by
  unfold effortOf
  split
  · rename_i a b
    have := Nat.le_mul_self a
    simp only [List.sum_cons, List.sum_nil]
    omega
  · simp only [List.sum_cons, List.sum_nil]
    omega
  · have := Nat.le_mul_self (operands.sum + 2)
    omega
  · omega

/-- More effort for an operand is more effort for the expression. -/
theorem effortOf_lt (head : Symbol) (before after : List Nat) {small large : Nat}
    (less : small < large) :
    effortOf head (before ++ small :: after) < effortOf head (before ++ large :: after) := by
  have squares := Nat.mul_self_lt_mul_self less
  have sums : (before ++ small :: after).sum < (before ++ large :: after).sum := by
    simp only [List.sum_append, List.sum_cons]
    omega
  cases head with
  | op operator =>
    cases operator with
    | notEquals => exact Nat.succ_lt_succ (Nat.mul_self_lt_mul_self (by omega))
    | implication | biconditional =>
      rcases before with _ | ⟨first, _ | ⟨second, before⟩⟩ <;>
        rcases after with _ | ⟨third, _ | ⟨fourth, after⟩⟩ <;> simp [effortOf] at sums ⊢ <;> omega
    | _ => exact Nat.add_lt_add_right sums 2
  | _ => exact Nat.add_lt_add_right sums 2

/-- An expression takes more effort than each of its operands. -/
theorem effort_operand_lt {head : Symbol} {negated : Bool} {args : List Expr} {arg : Expr}
    (member : arg ∈ args) : arg.effort < effort ⟨head, negated, args⟩ := by
  have within : arg.effort ≤ (efforts args).sum := by
    rw [efforts_eq_map]
    exact List.le_sum_of_mem (List.mem_map_of_mem member)
  calc arg.effort ≤ (efforts args).sum := within
    _ < effortOf head (efforts args) := sum_lt_effortOf head _
    _ ≤ effort ⟨head, negated, args⟩ := le_signedEffort negated _

/-- A negation at most squares the effort. -/
theorem effort_negate_le (e : Expr) : e.negate.effort ≤ e.effort * e.effort := by
  obtain ⟨head, negated, args⟩ := e
  cases negated with
  | false => exact le_rfl
  | true => exact (Nat.le_mul_self _).trans (Nat.le_mul_self _)

/-- Negating all operands at most squares the effort for them together. -/
theorem sum_efforts_negate_le (args : List Expr) :
    (efforts (args.map negate)).sum ≤ (efforts args).sum * (efforts args).sum := by
  induction args with
  | nil => exact le_rfl
  | cons a as ih =>
    have first := effort_negate_le a
    have square : (a.effort + (efforts as).sum) * (a.effort + (efforts as).sum) =
        a.effort * a.effort + (efforts as).sum * (efforts as).sum +
          2 * (a.effort * (efforts as).sum) := by ring
    simp only [List.map_cons, efforts, List.sum_cons]
    omega

/-- Moving a negation inward takes less effort than the square that it stands for. -/
theorem effort_inward_lt {head dual : Symbol} {args : List Expr}
    (cost : effortOf head (efforts args) = (efforts args).sum + 2)
    (costToo : effortOf dual (efforts (args.map negate)) = (efforts (args.map negate)).sum + 2) :
    effort (node dual (args.map negate)) < effort ⟨head, true, args⟩ := by
  have negated := sum_efforts_negate_le args
  have square : ((efforts args).sum + 2) * ((efforts args).sum + 2) =
      (efforts args).sum * (efforts args).sum + 4 * (efforts args).sum + 4 := by ring
  simp only [node, effort, signedEffort, cost, costToo, Bool.false_eq_true, ↓reduceIte]
  omega

/-- Every rule lowers the effort. -/
theorem Elimination.effort_lt {e f : Expr} (rule : Elimination e f) : f.effort < e.effort := by
  cases rule with
  | notEquals negated args =>
    change signedEffort (!negated) ((efforts args).sum + 2) <
      signedEffort negated (((efforts args).sum + 2) * ((efforts args).sum + 2) + 1)
    have := Nat.le_mul_self ((efforts args).sum + 2)
    cases negated with
    | false => exact Nat.lt_succ_self _
    | true => exact (Nat.lt_succ_of_le this).trans_le (Nat.le_mul_self _)
  | implication negated a b =>
    refine signedEffort_lt ?_ negated
    have := effort_negate_le a
    simp only [efforts, effortOf, List.sum_cons, List.sum_nil]
    omega
  | biconditional negated a b =>
    refine signedEffort_lt ?_ negated
    have := effort_negate_le a
    have := effort_negate_le b
    simp only [binary, node, effort, signedEffort, efforts, effortOf, List.sum_cons, List.sum_nil,
      Bool.false_eq_true, ↓reduceIte]
    omega
  | conjunction args | disjunction args => exact effort_inward_lt rfl rfl
  | quantified binder args => exact effort_inward_lt rfl rfl

/-- Every step lowers the effort. -/
theorem Eliminates.effort_lt {e f : Expr} (step : Eliminates e f) : f.effort < e.effort := by
  induction step with
  | root rule => exact rule.effort_lt
  | operand _ _ ih =>
    refine signedEffort_lt ?_ _
    simp only [efforts_eq_map, List.map_append, List.map_cons]
    exact effortOf_lt _ _ _ ih

/-- No run of the rules raises the effort. -/
theorem effort_le_of_run {e f : Expr} (run : ReflTransGen Eliminates e f) :
    f.effort ≤ e.effort := by
  induction run with
  | refl => exact le_rfl
  | tail _ step ih => exact step.effort_lt.le.trans ih

/-- From no expression do the steps go on for ever. -/
theorem acc_eliminates (e : Expr) : Acc (fun f g => Eliminates g f) e :=
  (Subrelation.wf Eliminates.effort_lt (measure effort).wf).apply e

/-! ### The normal form -/

/-- A sign counts like a negation from outside. -/
theorem nnf_negate (flip : Bool) (e : Expr) : nnf flip e.negate = nnf (!flip) e := by
  obtain ⟨head, negated, args⟩ := e
  have sign : ((!negated) != flip) = (negated != !flip) := by cases negated <;> cases flip <;> rfl
  cases head with
  | op operator =>
    cases operator with
    | implication | biconditional =>
      rcases args with _ | ⟨a, _ | ⟨b, _ | ⟨c, rest⟩⟩⟩ <;> simp only [negate, nnf, sign]
    | _ => simp only [negate, nnf, sign]
  | _ => simp only [negate, nnf, sign]

/-- The two sides of a rule have one normal form. -/
theorem Elimination.nnf_eq {e f : Expr} (rule : Elimination e f) (flip : Bool) :
    nnf flip e = nnf flip f := by
  cases rule with
  | notEquals negated args => cases negated <;> cases flip <;> simp [nnf]
  | implication negated a b => simp [nnf, nnfArgs, nnf_negate]
  | biconditional negated a b => simp [nnf, nnfArgs, nnf_negate, binary, node]
  | conjunction args | disjunction args =>
    cases flip <;> simp [nnf, nnfArgs_eq_map, nnf_negate, junction, node]
  | quantified binder args =>
    have involutive : binder.quantifier.dual.dual = binder.quantifier := by
      cases binder.quantifier <;> rfl
    cases flip <;> simp [nnf, nnfArgs_eq_map, nnf_negate, node, involutive]

/-- Applying a rule does not change the normal form. -/
theorem Eliminates.nnf_eq {e f : Expr} (step : Eliminates e f) (flip : Bool) :
    nnf flip e = nnf flip f := by
  refine congrFun (Rewrites.congr (F := fun e flip => nnf flip e) (fun rule => funext rule.nnf_eq)
    ?_ step) flip
  intro head negated before after a b entered same
  have same : ∀ flip, nnf flip a = nnf flip b := congrFun same
  funext flip
  cases head with
  | binder binder => simp [nnf, nnfArgs_eq_map, same]
  | op operator =>
    cases operator with
    | and | or => simp [nnf, nnfArgs_eq_map, same]
    | implication | biconditional =>
      -- Two operands are spelled out, any other number of them is entered.
      rcases before with _ | ⟨first, _ | ⟨second, before⟩⟩ <;>
        rcases after with _ | ⟨third, _ | ⟨fourth, after⟩⟩ <;> simp [nnf, nnfArgs_eq_map, same]
    | _ => cases entered
  | _ => cases entered

/-- Where no rule applies, the pass enters the operands or stays away. -/
theorem eliminateConnectives_cases (head : Symbol) (negated : Bool) (args : List Expr) :
    (∃ f, Elimination ⟨head, negated, args⟩ f) ∨
      (head.isConnective || head.isBinder) ∧ eliminateConnectives ⟨head, negated, args⟩ =
        ⟨head, negated, args.map eliminateConnectives⟩ ∨
      eliminateConnectives ⟨head, negated, args⟩ = ⟨head, negated, args⟩ := by
  unfold eliminateConnectives
  cases head with
  | binder binder =>
    cases negated with
    | true => exact .inl ⟨_, .quantified binder args⟩
    | false => exact .inr (.inl ⟨rfl, by simp [nnf, nnfArgs_eq_map, node]⟩)
  | op operator =>
    cases operator with
    | and =>
      cases negated with
      | true => exact .inl ⟨_, .conjunction args⟩
      | false => exact .inr (.inl ⟨rfl, by simp [nnf, nnfArgs_eq_map, junction, node]⟩)
    | or =>
      cases negated with
      | true => exact .inl ⟨_, .disjunction args⟩
      | false => exact .inr (.inl ⟨rfl, by simp [nnf, nnfArgs_eq_map, junction, node]⟩)
    | implication =>
      rcases args with _ | ⟨a, _ | ⟨b, _ | ⟨c, rest⟩⟩⟩
      case cons.cons.nil => exact .inl ⟨_, .implication negated a b⟩
      all_goals exact .inr (.inl ⟨rfl, by simp [nnf, nnfArgs_eq_map]⟩)
    | biconditional =>
      rcases args with _ | ⟨a, _ | ⟨b, _ | ⟨c, rest⟩⟩⟩
      case cons.cons.nil => exact .inl ⟨_, .biconditional negated a b⟩
      all_goals exact .inr (.inl ⟨rfl, by simp [nnf, nnfArgs_eq_map]⟩)
    | notEquals => exact .inl ⟨_, .notEquals negated args⟩
    | _ => exact .inr (.inr (by simp [nnf]))
  | _ => exact .inr (.inr (by simp [nnf]))

/-- Steps lead from an expression to its negation normal form. -/
theorem run_eliminateConnectives (e : Expr) : ReflTransGen Eliminates e e.eliminateConnectives := by
  -- A rule at the root may copy operands, so the induction is on the effort.
  obtain ⟨head, negated, args⟩ := e
  obtain ⟨f, rule⟩ | ⟨entered, same⟩ | same := eliminateConnectives_cases head negated args
  · have less := rule.effort_lt
    have rest := run_eliminateConnectives f
    rw [eliminateConnectives, ← rule.nnf_eq] at rest
    exact .head (.root rule) rest
  · have operands : ∀ arg ∈ args, ReflTransGen Eliminates (id arg) arg.eliminateConnectives := by
      intro arg member
      have less : arg.effort < effort ⟨head, negated, args⟩ := effort_operand_lt member
      exact run_eliminateConnectives arg
    have run : ReflTransGen Eliminates ⟨head, negated, args.map id⟩ _ := run_map entered operands
    rwa [List.map_id, ← same] at run
  · rw [same]
termination_by e.effort

/-- All expressions that the rules lead to have the same normal form. -/
theorem eliminateConnectives_eq_of_run {e f : Expr} (run : ReflTransGen Eliminates e f) :
    e.eliminateConnectives = f.eliminateConnectives :=
  eq_of_run (fun step => step.nnf_eq false) run

/-- No rule applies to a negation normal form. -/
theorem settled_eliminateConnectives (e : Expr) : Settled Eliminates e.eliminateConnectives := by
  intro f step
  have same : f.eliminateConnectives = e.eliminateConnectives :=
    (eliminateConnectives_eq_of_run ((run_eliminateConnectives e).tail step)).symm
  have less := effort_le_of_run (run_eliminateConnectives f)
  rw [same] at less
  exact absurd step.effort_lt less.not_gt

/-- Negation normal form keeps the value of every expression that has one and gives none to the
others. It is idempotent, and it is what the rules leave: they cannot be applied for ever, and when
none applies any more, it is reached, in whatever order they were applied. -/
theorem eliminateConnectives_keeps_values_and_is_normal_form (e : Expr) :
    (∀ env value, e.evaluate env = .ok value ↔ e.eliminateConnectives.evaluate env = .ok value) ∧
    e.eliminateConnectives.eliminateConnectives = e.eliminateConnectives ∧
    Acc (fun f g => Eliminates g f) e ∧
    ∀ f, ReflTransGen Eliminates e f ∧ Settled Eliminates f ↔ f = e.eliminateConnectives := by
  have run := run_eliminateConnectives e
  refine ⟨fun env => value?_eq_iff.1 (eq_of_run (fun step => step.value? env) run),
    (eliminateConnectives_eq_of_run run).symm, acc_eliminates e, fun f => ⟨?_, ?_⟩⟩
  · rintro ⟨reached, settled⟩
    rw [eliminateConnectives_eq_of_run reached]
    exact settled.eq_of_run (run_eliminateConnectives f)
  · rintro rfl
    exact ⟨run, settled_eliminateConnectives e⟩

end Expr

end Refute
