import Refute.Normal.Distribution
import Refute.Proofs.Evaluation
import Refute.Proofs.Identity
import Refute.Proofs.Rewriting

/-!
# Distribution of disjunction

Two rules split a disjunction along a conjunction that it has for an operand. They copy the other
operand, and what they leave can be far larger than what was there; but each of them lowers the
spread, so they come to an end however they are applied. `Expr.distribute` reaches an expression to
which no rule applies. There may be several such expressions; `Expr.distributeOnce` applies the
rules in a fixed order, and it reaches the same one. Where conjunctions and disjunctions have two
operands each, that is a conjunction of clauses; elsewhere a conjunction may be left below a
disjunction, and the pass would leave it there again.
-/

open Relation (ReflTransGen)

namespace Refute

namespace Expr

/-- The rules. -/
inductive Distribution : Expr → Expr → Prop
  /-- A conjunction to the left is split. -/
  | left (a b c : Expr) :
      Distribution (binary .or (binary .and a b) c) (binary .and (binary .or a c) (binary .or b c))
  /-- A conjunction to the right is split. -/
  | right (a b c : Expr) :
      Distribution (binary .or a (binary .and b c)) (binary .and (binary .or a b) (binary .or a c))

/-- Conjunctions are entered, and disjunctions of two operands. -/
def Entered (head : Symbol) (negated : Bool) (count : Nat) : Prop :=
  negated = false ∧ (head = .op .and ∨ head = .op .or ∧ count = 2)

/-- What is entered is a conjunction or a disjunction. -/
theorem Entered.junction {head : Symbol} {negated : Bool} {count : Nat}
    (entered : Entered head negated count) :
    ∃ operator, (operator = .and ∨ operator = .or) ∧ head = .op operator := by
  obtain ⟨-, rfl | ⟨rfl, -⟩⟩ := entered
  · exact ⟨.and, .inl rfl, rfl⟩
  · exact ⟨.or, .inr rfl, rfl⟩

/-- One rule is applied, at the root or below conjunctions and disjunctions. -/
def Distributes : Expr → Expr → Prop := Rewrites Entered Distribution

/-- A property that holds of what is not entered, and passes from the operands to what is entered,
holds of all expressions. -/
@[elab_as_elim]
theorem entered_induction {motive : Expr → Prop}
    (conjunction : ∀ args, (∀ arg ∈ args, motive arg) → motive (node (.op .and) args))
    (disjunction : ∀ a b, motive a → motive b → motive (binary .or a b))
    (other : ∀ head negated args, ¬ Entered head negated args.length →
      motive ⟨head, negated, args⟩)
    (e : Expr) : motive e := by
  induction e using Expr.induction with
  | node head negated args ih =>
    by_cases entered : Entered head negated args.length
    · obtain ⟨rfl, rfl | ⟨rfl, two⟩⟩ := entered
      · exact conjunction args ih
      · obtain ⟨a, b, rfl⟩ := List.length_eq_two.1 two
        exact disjunction a b (ih a (by simp)) (ih b (by simp))
    · exact other head negated args entered

/-- Distribution goes into all operands of a conjunction. -/
theorem distribute_conjunction (args : List Expr) :
    distribute (node (.op .and) args) = node (.op .and) (args.map distribute) := by
  rw [node, distribute, distributeArgs_eq_map]
  rfl

/-- Distribution leaves what it does not enter. -/
theorem distribute_of_not_entered {head : Symbol} {negated : Bool} {args : List Expr}
    (other : ¬ Entered head negated args.length) :
    distribute ⟨head, negated, args⟩ = ⟨head, negated, args⟩ := by
  rw [distribute.eq_3]
  · rintro others ⟨⟩
    exact other ⟨rfl, .inl rfl⟩
  · rintro a b ⟨⟩
    exact other ⟨rfl, .inr ⟨rfl, rfl⟩⟩

/-! ### Values -/

/-- The rules keep the value of an expression, also where it has none. -/
theorem Distribution.value? {e f : Expr} (rule : Distribution e f) (env : Environment) :
    e.value? env = f.value? env := by
  cases rule with
  | left a b c =>
    simp only [binary, node]
    rw [value?_connective rfl, value?_connective rfl, truth?_connective rfl, truth?_connective rfl,
      truth?_connective rfl]
    cases a.truth? env <;> cases b.truth? env <;> cases c.truth? env <;>
      simp [truthOf, Bool.or_and_distrib_right]
  | right a b c =>
    simp only [binary, node]
    rw [value?_connective rfl, value?_connective rfl, truth?_connective rfl, truth?_connective rfl,
      truth?_connective rfl]
    cases a.truth? env <;> cases b.truth? env <;> cases c.truth? env <;>
      simp [truthOf, Bool.or_and_distrib_left]

/-- Applying a rule inside an expression keeps its value. -/
theorem Distributes.value? {e f : Expr} (step : Distributes e f) (env : Environment) :
    e.value? env = f.value? env :=
  Rewrites.congr (fun rule => rule.value? env) (fun _ => value?_operand) step

/-! ### Spread -/

mutual

/-- The spread of an expression bounds the number of rules that can be applied to it. A disjunction
multiplies, since it is copied for each side of a conjunction. -/
def spread : Expr → Nat
  | ⟨.op .and, false, args⟩ => spreadArgs args + 2
  | ⟨.op .or, false, [a, b]⟩ => spread a * spread b
  | _ => 2

/-- The spread of the operands of a conjunction. -/
def spreadArgs : List Expr → Nat
  | [] => 0
  | a :: as => spread a + spreadArgs as

end

/-- A conjunction adds up the spread of its operands. -/
theorem spread_conjunction (args : List Expr) :
    spread (node (.op .and) args) = spreadArgs args + 2 := by
  rw [node, spread]

/-- The spread of a conjunction of two operands. -/
theorem spread_binary_and (a b : Expr) : spread (binary .and a b) = spread a + spread b + 2 := by
  rw [binary, spread_conjunction]
  rfl

/-- A disjunction multiplies the spread of its two operands. -/
theorem spread_disjunction (a b : Expr) : spread (binary .or a b) = spread a * spread b := by
  rw [binary, node, spread]

/-- What is not entered has the least spread. -/
theorem spread_of_not_entered {head : Symbol} {negated : Bool} {args : List Expr}
    (other : ¬ Entered head negated args.length) : spread ⟨head, negated, args⟩ = 2 := by
  rw [spread.eq_3]
  · rintro others ⟨⟩
    exact other ⟨rfl, .inl rfl⟩
  · rintro a b ⟨⟩
    exact other ⟨rfl, .inr ⟨rfl, rfl⟩⟩

/-- No expression has less spread than a literal. -/
theorem two_le_spread (e : Expr) : 2 ≤ e.spread := by
  induction e using entered_induction with
  | conjunction args ih =>
    rw [spread_conjunction]
    omega
  | disjunction a b left right =>
    rw [spread_disjunction]
    calc 2 ≤ 2 * 2 := by decide
      _ ≤ a.spread * b.spread := Nat.mul_le_mul left right
  | other head negated args other => exact Nat.le_of_eq (spread_of_not_entered other).symm

/-- Less spread in one operand is less spread in all of them. -/
theorem spreadArgs_lt {a b : Expr} (less : b.spread < a.spread) (before after : List Expr) :
    spreadArgs (before ++ b :: after) < spreadArgs (before ++ a :: after) := by
  induction before with
  | nil => exact Nat.add_lt_add_right less _
  | cons first before ih => exact Nat.add_lt_add_left ih _

/-- Every rule lowers the spread. -/
theorem Distribution.spread_lt {e f : Expr} (rule : Distribution e f) : f.spread < e.spread := by
  cases rule with
  | left a b c =>
    have := two_le_spread c
    rw [spread_binary_and, spread_disjunction, spread_disjunction, spread_disjunction,
      spread_binary_and, Nat.add_mul, Nat.add_mul]
    omega
  | right a b c =>
    have := two_le_spread a
    rw [spread_binary_and, spread_disjunction, spread_disjunction, spread_disjunction,
      spread_binary_and, Nat.mul_add, Nat.mul_add]
    omega

/-- Every step lowers the spread. -/
theorem Distributes.spread_lt {e f : Expr} (step : Distributes e f) : f.spread < e.spread := by
  induction step with
  | root rule => exact rule.spread_lt
  | @operand head negated before after a b entered _ ih =>
    obtain ⟨rfl, rfl | ⟨rfl, two⟩⟩ := entered
    · have less := spreadArgs_lt ih before after
      change spread (node (.op .and) _) < spread (node (.op .and) _)
      rw [spread_conjunction, spread_conjunction]
      exact Nat.add_lt_add_right less 2
    · rcases before with _ | ⟨first, _ | ⟨second, before⟩⟩
      · obtain ⟨c, rfl⟩ := List.length_eq_one_iff.1 (Nat.succ.inj two)
        have := two_le_spread c
        change spread (binary .or b c) < spread (binary .or a c)
        rw [spread_disjunction, spread_disjunction]
        exact Nat.mul_lt_mul_of_pos_right ih (by omega)
      · obtain rfl := List.length_eq_zero_iff.1 (Nat.succ.inj (Nat.succ.inj two))
        have := two_le_spread first
        change spread (binary .or first b) < spread (binary .or first a)
        rw [spread_disjunction, spread_disjunction]
        exact Nat.mul_lt_mul_of_pos_left ih (by omega)
      · simp at two

/-- From no expression do the steps go on for ever. -/
theorem acc_distributes (e : Expr) : Acc (fun f g => Distributes g f) e :=
  (Subrelation.wf Distributes.spread_lt (measure spread).wf).apply e

/-! ### Settled expressions -/

/-- No rule applies to a conjunction exactly if none applies to an operand. -/
theorem settled_conjunction_iff {args : List Expr} :
    Settled Distributes (node (.op .and) args) ↔ ∀ arg ∈ args, Settled Distributes arg := by
  refine settled_iff.trans ⟨fun settled => settled.2 ⟨rfl, .inl rfl⟩, fun settled => ?_⟩
  refine ⟨?_, fun _ => settled⟩
  rintro f ⟨⟩

/-- A disjunction is settled when its operands are and neither of them is split. -/
theorem settled_disjunction_iff {a b : Expr} :
    Settled Distributes (binary .or a b) ↔ (Settled Distributes a ∧ Settled Distributes b) ∧
      (∀ c d, a ≠ binary .and c d) ∧ ∀ c d, b ≠ binary .and c d := by
  refine settled_iff.trans ⟨?_, ?_⟩
  · rintro ⟨root, operands⟩
    have inside := operands ⟨rfl, .inr ⟨rfl, rfl⟩⟩
    refine ⟨⟨inside a (by simp), inside b (by simp)⟩, ?_, ?_⟩
    · rintro c d rfl
      exact root _ (.left c d b)
    · rintro c d rfl
      exact root _ (.right a c d)
  · rintro ⟨⟨left, right⟩, wholeLeft, wholeRight⟩
    refine ⟨?_, fun _ => List.forall_mem_cons.2 ⟨left, List.forall_mem_singleton.2 right⟩⟩
    intro f rule
    cases rule with
    | left c d b => exact wholeLeft c d rfl
    | right a c d => exact wholeRight c d rfl

/-- No rule applies to what is not entered. -/
theorem settled_of_not_entered {head : Symbol} {negated : Bool} {args : List Expr}
    (other : ¬ Entered head negated args.length) : Settled Distributes ⟨head, negated, args⟩ := by
  refine settled_iff.2 ⟨?_, fun entered => absurd entered other⟩
  intro f rule
  cases rule with
  | left a b c => exact other ⟨rfl, .inr ⟨rfl, rfl⟩⟩
  | right a b c => exact other ⟨rfl, .inr ⟨rfl, rfl⟩⟩

/-! ### What distribution reaches -/

/-- A property that passes from two operands to their conjunction and holds of everything else holds
of all expressions. -/
@[elab_as_elim]
theorem split_induction {motive : Expr → Prop}
    (conjunction : ∀ a b, motive a → motive b → motive (binary .and a b))
    (whole : ∀ e, (∀ a b, e ≠ binary .and a b) → motive e) (e : Expr) : motive e := by
  induction e using Expr.induction with
  | node head negated args ih =>
    by_cases splits : ∃ a b, (⟨head, negated, args⟩ : Expr) = binary .and a b
    · obtain ⟨a, b, ⟨⟩⟩ := splits
      exact conjunction a b (ih a (by simp)) (ih b (by simp))
    · exact whole _ fun a b same => splits ⟨a, b, same⟩

/-- The rules lead from a disjunction to its split along the right operand. -/
theorem run_disjoinRight (left right : Expr) :
    ReflTransGen Distributes (binary .or left right) (disjoinRight left right) := by
  induction right using split_induction with
  | conjunction a b first second =>
    exact .head (.root (.right left a b)) (run_binary ⟨rfl, .inl rfl⟩ first second)
  | whole right whole => rw [disjoinRight_of_ne whole]

/-- The rules lead from a disjunction to its split along both operands. -/
theorem run_disjoin (left right : Expr) :
    ReflTransGen Distributes (binary .or left right) (disjoin left right) := by
  induction left using split_induction with
  | conjunction a b first second =>
    exact .head (.root (.left a b right)) (run_binary ⟨rfl, .inl rfl⟩ first second)
  | whole left whole =>
    rw [disjoin_of_ne whole]
    exact run_disjoinRight left right

/-- Steps lead from an expression to its distributed form. -/
theorem run_distribute (e : Expr) : ReflTransGen Distributes e e.distribute := by
  induction e using entered_induction with
  | conjunction args ih =>
    rw [distribute_conjunction]
    have run : ReflTransGen Distributes (node (.op .and) (args.map id)) _ :=
      run_map ⟨rfl, .inl rfl⟩ ih
    rwa [List.map_id] at run
  | disjunction a b left right =>
    rw [distribute_or]
    exact (run_binary ⟨rfl, .inr ⟨rfl, rfl⟩⟩ left right).trans (run_disjoin _ _)
  | other head negated args other => rw [distribute_of_not_entered other]

/-- No rule applies to a conjunction of two operands exactly if none applies to either. -/
theorem settled_binary_and_iff {a b : Expr} :
    Settled Distributes (binary .and a b) ↔ Settled Distributes a ∧ Settled Distributes b := by
  rw [binary, settled_conjunction_iff, List.forall_mem_cons, List.forall_mem_singleton]

/-- The split along the right operand leaves nothing to do if the left one is no conjunction. -/
theorem settled_disjoinRight {left right : Expr} (settledLeft : Settled Distributes left)
    (wholeLeft : ∀ a b, left ≠ binary .and a b) (settledRight : Settled Distributes right) :
    Settled Distributes (disjoinRight left right) := by
  induction right using split_induction with
  | conjunction a b first second =>
    obtain ⟨settledA, settledB⟩ := settled_binary_and_iff.1 settledRight
    exact settled_binary_and_iff.2 ⟨first settledA, second settledB⟩
  | whole right wholeRight =>
    rw [disjoinRight_of_ne wholeRight]
    exact settled_disjunction_iff.2 ⟨⟨settledLeft, settledRight⟩, wholeLeft, wholeRight⟩

/-- The split along both operands leaves nothing to do. -/
theorem settled_disjoin {left right : Expr} (settledLeft : Settled Distributes left)
    (settledRight : Settled Distributes right) : Settled Distributes (disjoin left right) := by
  induction left using split_induction with
  | conjunction a b first second =>
    obtain ⟨settledA, settledB⟩ := settled_binary_and_iff.1 settledLeft
    exact settled_binary_and_iff.2 ⟨first settledA, second settledB⟩
  | whole left whole =>
    rw [disjoin_of_ne whole]
    exact settled_disjoinRight settledLeft whole settledRight

/-- No rule applies to a distributed form. -/
theorem settled_distribute (e : Expr) : Settled Distributes e.distribute := by
  induction e using entered_induction with
  | conjunction args ih =>
    rw [distribute_conjunction, settled_conjunction_iff]
    simpa using ih
  | disjunction a b left right =>
    rw [distribute_or]
    exact settled_disjoin left right
  | other head negated args other =>
    rw [distribute_of_not_entered other]
    exact settled_of_not_entered other

/-! ### One pass in order

A pass distributes the operands of a disjunction and then splits it, along the left operand if that
is a conjunction of two and otherwise along the right one; what the split leaves is distributed
again, which need not be smaller. It does have less spread, and a pass carries that along with its
result.
-/

/-- The operands of a conjunction of two. -/
def conjuncts? : Expr → Option (Expr × Expr)
  | ⟨.op .and, false, [a, b]⟩ => some (a, b)
  | _ => none

/-- A conjunction of two is what has two conjuncts. -/
theorem conjuncts?_eq_some_iff {e a b : Expr} : e.conjuncts? = some (a, b) ↔ e = binary .and a b := by
  constructor
  · intro found
    unfold conjuncts? at found
    split at found
    · cases found
      rfl
    · cases found
  · rintro rfl
    rfl

/-- What has no two conjuncts is no conjunction of two. -/
theorem ne_of_conjuncts?_eq_none {e : Expr} (whole : e.conjuncts? = none) (a b : Expr) :
    e ≠ binary .and a b := by
  intro same
  rw [conjuncts?_eq_some_iff.2 same] at whole
  cases whole

/-- An operand of a conjunction has less spread. -/
theorem spread_lt_conjunction {args : List Expr} {arg : Expr} (member : arg ∈ args) :
    arg.spread < (node (.op .and) args).spread := by
  rw [spread_conjunction]
  induction args with
  | nil => exact absurd member List.not_mem_nil
  | cons first rest ih =>
    rw [spreadArgs]
    rcases List.mem_cons.1 member with rfl | later
    · omega
    · have less := ih later
      omega

/-- The operands of a disjunction have less spread. -/
theorem spread_lt_disjunction (a b : Expr) :
    a.spread < (binary .or a b).spread ∧ b.spread < (binary .or a b).spread := by
  have left := two_le_spread a
  have right := two_le_spread b
  rw [spread_disjunction]
  constructor
  · calc a.spread < a.spread * 2 := by omega
      _ ≤ a.spread * b.spread := Nat.mul_le_mul_left _ right
  · calc b.spread < 2 * b.spread := by omega
      _ ≤ a.spread * b.spread := Nat.mul_le_mul_right _ left

/-- Operands of no more spread make a conjunction of no more spread. -/
theorem spread_conjunction_map_le {α : Type} {f g : α → Expr} (operands : List α)
    (smaller : ∀ x, (f x).spread ≤ (g x).spread) :
    (node (.op .and) (operands.map f)).spread ≤ (node (.op .and) (operands.map g)).spread := by
  rw [spread_conjunction, spread_conjunction]
  refine Nat.add_le_add_right ?_ 2
  induction operands with
  | nil => exact Nat.le_refl _
  | cons x rest ih => exact Nat.add_le_add (smaller x) ih

/-- A rule leaves two operands of less spread than there was. -/
theorem Distribution.operands_lt {e a b : Expr} (rule : Distribution e (binary .and a b)) :
    a.spread < e.spread ∧ b.spread < e.spread := by
  have less := rule.spread_lt
  rw [spread_binary_and] at less
  omega

/-- If what a rule leaves is replaced by operands of no more spread, there is no more spread than
before. -/
theorem Distribution.spread_le {e whole a b c d : Expr} (rule : Distribution e (binary .and a b))
    (left : c.spread ≤ a.spread) (right : d.spread ≤ b.spread) (small : e.spread ≤ whole.spread) :
    (binary .and c d).spread ≤ whole.spread := by
  have less := rule.spread_lt
  rw [spread_binary_and] at less ⊢
  omega

/-- One pass, with the reason why it comes to an end. -/
def distributeOnce : (e : Expr) → { f : Expr // f.spread ≤ e.spread }
  | ⟨.op .and, false, args⟩ =>
    let pass := fun arg : { arg // arg ∈ args } => distributeOnce arg.1
    ⟨node (.op .and) (args.attach.map fun arg => (pass arg).1), by
      have smaller := spread_conjunction_map_le args.attach fun arg => (pass arg).2
      rwa [List.attach_map_subtype_val] at smaller⟩
  | ⟨.op .or, false, [left, right]⟩ =>
    match distributeOnce left, distributeOnce right with
    | ⟨l, smallLeft⟩, ⟨r, smallRight⟩ =>
      have small : (binary .or l r).spread ≤ (binary .or left right).spread := by
        rw [spread_disjunction, spread_disjunction]
        exact Nat.mul_le_mul smallLeft smallRight
      match splitsLeft : l.conjuncts?, splitsRight : r.conjuncts? with
      | some (a, b), _ =>
        have rule : Distribution (binary .or l r) (binary .and (binary .or a r) (binary .or b r)) :=
          conjuncts?_eq_some_iff.1 splitsLeft ▸ .left a b r
        let first := distributeOnce (binary .or a r)
        let second := distributeOnce (binary .or b r)
        ⟨binary .and first.1 second.1, rule.spread_le first.2 second.2 small⟩
      | none, some (b, c) =>
        have rule : Distribution (binary .or l r) (binary .and (binary .or l b) (binary .or l c)) :=
          conjuncts?_eq_some_iff.1 splitsRight ▸ .right l b c
        let first := distributeOnce (binary .or l b)
        let second := distributeOnce (binary .or l c)
        ⟨binary .and first.1 second.1, rule.spread_le first.2 second.2 small⟩
      | none, none => ⟨binary .or l r, small⟩
  | e => ⟨e, Nat.le_refl _⟩
termination_by e => e.spread
decreasing_by
  · exact spread_lt_conjunction arg.2
  · exact (spread_lt_disjunction _ _).1
  · exact (spread_lt_disjunction _ _).2
  · exact Nat.lt_of_lt_of_le rule.operands_lt.1 small
  · exact Nat.lt_of_lt_of_le rule.operands_lt.2 small
  · exact Nat.lt_of_lt_of_le rule.operands_lt.1 small
  · exact Nat.lt_of_lt_of_le rule.operands_lt.2 small

/-- A distributed form is what distribution makes of it. -/
theorem distribute_of_settled {e : Expr} (settled : Settled Distributes e) : e.distribute = e :=
  (settled.eq_of_run (run_distribute e)).symm

/-- Distributed operands are joined as they are. -/
theorem distribute_or_of_settled {a b : Expr} (settledLeft : Settled Distributes a)
    (settledRight : Settled Distributes b) : distribute (binary .or a b) = disjoin a b := by
  rw [distribute_or, distribute_of_settled settledLeft, distribute_of_settled settledRight]

/-- One pass in order leads to the distributed form. -/
theorem distributeOnce_eq (e : Expr) : (distributeOnce e).1 = e.distribute := by
  fun_induction distributeOnce e with
  | case1 args pass each =>
    change node (.op .and) _ = distribute (node (.op .and) args)
    rw [distribute_conjunction, List.map_congr_left fun arg _ => each arg,
      List.attach_map_val]
  | case2 left right l _ r _ atRight atLeft _ a b splits _ first second sameLeft sameRight joinFirst
      joinSecond =>
    rw [atLeft] at sameLeft
    rw [atRight] at sameRight
    obtain rfl : l = binary .and a b := conjuncts?_eq_some_iff.1 splits
    have settledLeft := sameLeft ▸ settled_distribute left
    have settledRight := sameRight ▸ settled_distribute right
    obtain ⟨settledA, settledB⟩ := settled_binary_and_iff.1 settledLeft
    rw [distribute_or_of_settled settledA settledRight] at joinFirst
    rw [distribute_or_of_settled settledB settledRight] at joinSecond
    change binary .and first.1 second.1 = distribute (binary .or left right)
    rw [distribute_or, ← sameLeft, ← sameRight]
    exact congrArg₂ (binary .and) joinFirst joinSecond
  | case3 left right l _ r _ atRight atLeft _ b c whole splits _ first second sameLeft sameRight
      joinFirst joinSecond =>
    rw [atLeft] at sameLeft
    rw [atRight] at sameRight
    obtain rfl : r = binary .and b c := conjuncts?_eq_some_iff.1 splits
    have settledLeft := sameLeft ▸ settled_distribute left
    have settledRight := sameRight ▸ settled_distribute right
    obtain ⟨settledB, settledC⟩ := settled_binary_and_iff.1 settledRight
    have whole := ne_of_conjuncts?_eq_none whole
    rw [distribute_or_of_settled settledLeft settledB, disjoin_of_ne whole] at joinFirst
    rw [distribute_or_of_settled settledLeft settledC, disjoin_of_ne whole] at joinSecond
    change binary .and first.1 second.1 = distribute (binary .or left right)
    rw [distribute_or, ← sameLeft, ← sameRight, disjoin_of_ne whole]
    exact congrArg₂ (binary .and) joinFirst joinSecond
  | case4 left right l _ r _ atRight atLeft _ wholeLeft wholeRight sameLeft sameRight =>
    rw [atLeft] at sameLeft
    rw [atRight] at sameRight
    change binary .or l r = distribute (binary .or left right)
    rw [distribute_or, ← sameLeft, ← sameRight, disjoin_of_ne (ne_of_conjuncts?_eq_none wholeLeft),
      disjoinRight_of_ne (ne_of_conjuncts?_eq_none wholeRight)]
  | case5 e noConjunction noDisjunction => exact (distribute.eq_3 e noConjunction noDisjunction).symm

/-! ### Conjunctive normal form -/

/-- Conjunctions and disjunctions have two operands each, as far as only conjunctions and
disjunctions stand above them. -/
inductive Paired : Expr → Prop
  /-- Two operands. -/
  | junction {operator : Operator} {a b : Expr} (either : operator = .and ∨ operator = .or)
      (left : Paired a) (right : Paired b) : Paired (binary operator a b)
  /-- Neither a conjunction nor a disjunction, or a negated one. -/
  | other {head : Symbol} {negated : Bool} {args : List Expr}
      (part : negated ∨ head ≠ .op .and ∧ head ≠ .op .or) : Paired ⟨head, negated, args⟩

/-- A conjunction or disjunction is paired if it has two operands and these are paired. -/
theorem paired_junction_iff {operator : Operator} {args : List Expr}
    (either : operator = .and ∨ operator = .or) :
    Paired (node (.op operator) args) ↔ args.length = 2 ∧ ∀ arg ∈ args, Paired arg := by
  constructor
  · intro paired
    cases paired with
    | junction _ left right => simp [left, right]
    | other part => rcases either with rfl | rfl <;> simp at part
  · rintro ⟨two, operands⟩
    obtain ⟨a, b, rfl⟩ := List.length_eq_two.1 two
    exact .junction either (operands a (by simp)) (operands b (by simp))

/-- A conjunction or disjunction of two operands is paired exactly if they are. -/
theorem paired_binary_iff {operator : Operator} {a b : Expr}
    (either : operator = .and ∨ operator = .or) :
    Paired (binary operator a b) ↔ Paired a ∧ Paired b := by
  rw [binary, paired_junction_iff either]
  simp

/-- The rules keep whether an expression is paired. -/
theorem Distributes.paired_iff {e f : Expr} (step : Distributes e f) : Paired e ↔ Paired f := by
  refine Iff.of_eq (Rewrites.congr (fun rule => propext ?_) (fun entered same => propext ?_) step)
  · cases rule with
    | left a b c | right a b c =>
      rw [paired_binary_iff (.inr rfl), paired_binary_iff (.inl rfl), paired_binary_iff (.inl rfl),
        paired_binary_iff (.inr rfl), paired_binary_iff (.inr rfl)]
      tauto
  · obtain ⟨operator, either, rfl⟩ := entered.junction
    obtain ⟨rfl, -⟩ := entered
    change Paired (node (.op operator) _) ↔ Paired (node (.op operator) _)
    rw [paired_junction_iff either, paired_junction_iff either]
    simp only [List.length_append, List.length_cons, List.forall_mem_append, List.forall_mem_cons,
      same]

/-- A literal is a clause, and so is whatever is neither a conjunction nor a disjunction. -/
theorem isClause_of_part {head : Symbol} {negated : Bool} {args : List Expr}
    (part : negated ∨ head ≠ .op .and ∧ head ≠ .op .or) : isClause ⟨head, negated, args⟩ := by
  rw [isClause.eq_3]
  · rintro args ⟨⟩
    simp at part
  · rintro args ⟨⟩
    simp at part

/-- A clause is a conjunctive normal form. -/
theorem isCnf_of_isClause {e : Expr} (clause : e.isClause) : e.isCnf := by
  unfold isClause at clause
  unfold isCnf
  split at clause <;> simp_all

/-- What is in conjunctive normal form and no conjunction is a clause. -/
theorem Paired.isClause {e : Expr} (paired : e.Paired) (cnf : e.isCnf)
    (whole : ∀ a b, e ≠ binary .and a b) : e.isClause := by
  cases paired with
  | junction either left right =>
    obtain rfl | rfl := either
    · exact absurd rfl (whole _ _)
    · exact cnf
  | other part => exact isClause_of_part part

/-- Where conjunctions and disjunctions have two operands each, no rule applies only to conjunctions
of clauses. -/
theorem Paired.isCnf_of_settled {e : Expr} (paired : e.Paired) (settled : Settled Distributes e) :
    e.isCnf := by
  induction paired with
  | junction either pairedLeft pairedRight left right =>
    obtain rfl | rfl := either
    · obtain ⟨settledLeft, settledRight⟩ := settled_binary_and_iff.1 settled
      simp [binary, node, isCnf, isCnfArgs, left settledLeft, right settledRight]
    · obtain ⟨⟨settledLeft, settledRight⟩, wholeLeft, wholeRight⟩ :=
        settled_disjunction_iff.1 settled
      simp [binary, node, isCnf, isClauseArgs, pairedLeft.isClause (left settledLeft) wholeLeft,
        pairedRight.isClause (right settledRight) wholeRight]
  | other part => exact isCnf_of_isClause (isClause_of_part part)

/-- No rule applies to a conjunctive normal form. -/
theorem settled_of_isCnf {e : Expr} (cnf : e.isCnf) : Settled Distributes e := by
  induction e using entered_induction with
  | conjunction args ih =>
    refine settled_conjunction_iff.2 fun arg member => ih arg member ?_
    simp only [node, isCnf, isCnfArgs_eq_all, List.all_eq_true] at cnf
    exact cnf arg member
  | disjunction a b left right =>
    simp only [binary, node, isCnf, isClauseArgs, Bool.and_true, Bool.and_eq_true] at cnf
    refine settled_disjunction_iff.2 ⟨⟨left (isCnf_of_isClause cnf.1),
      right (isCnf_of_isClause cnf.2)⟩, ?_, ?_⟩
    · rintro c d rfl
      cases cnf.1
    · rintro c d rfl
      cases cnf.2
  | other head negated args other => exact settled_of_not_entered other

/-! ### The distributed form -/

/-- The rules bring in no number that differs from itself, and lose none. -/
theorem Distributes.naNFree_iff {e f : Expr} (step : Distributes e f) : e.NaNFree ↔ f.NaNFree := by
  refine Iff.of_eq (Rewrites.congr (fun rule => propext ?_) (fun _ same => propext ?_) step)
  · cases rule with
    | left a b c | right a b c =>
      simp only [NaNFree, binary, node, Everywhere, EverywhereArgs, Symbol.isNaN]
      tauto
  · unfold NaNFree at same ⊢
    rw [everywhere_iff, everywhere_iff]
    simp only [List.forall_mem_append, List.forall_mem_cons, same]

/-- However the rules are applied, they come to an end, and distribution reaches an expression to
which none applies. Of these it is the one to which a pass in order leads, and further passes change
nothing; unless a NaN occurs, that is seen by comparing what they leave with what was there. When
conjunctions and disjunctions have two operands each, it is in conjunctive normal form; what is in
conjunctive normal form stays as it is. Distribution keeps the value of every expression that has
one and gives none to the others. -/
theorem distribute_terminates_in_cnf_and_keeps_values (e : Expr) :
    (Acc (fun f g => Distributes g f) e ∧ ReflTransGen Distributes e e.distribute ∧
      Settled Distributes e.distribute) ∧
    ((distributeOnce e).1 = e.distribute ∧ (distributeOnce e.distribute).1 = e.distribute) ∧
    (e.NaNFree → e.distribute.distribute == e.distribute) ∧
    (e.Paired → e.distribute.isCnf) ∧
    (e.isCnf → e.distribute = e) ∧
    ∀ env value, e.evaluate env = .ok value ↔ e.distribute.evaluate env = .ok value := by
  have run := run_distribute e
  have settled := settled_distribute e
  have stays := distribute_of_settled settled
  refine ⟨⟨acc_distributes e, run, settled⟩,
    ⟨distributeOnce_eq e, (distributeOnce_eq e.distribute).trans stays⟩, fun number => ?_,
    fun paired => ?_, fun cnf => ?_,
    fun env => value?_eq_iff.1 (eq_of_run (fun step => step.value? env) run)⟩
  · rw [stays]
    exact beq_self ((eq_of_run (fun step => propext step.naNFree_iff) run).mp number)
  · have paired : e.distribute.Paired :=
      (eq_of_run (fun step => propext step.paired_iff) run).mp paired
    exact paired.isCnf_of_settled settled
  · exact distribute_of_settled (settled_of_isCnf cnf)

/-- Conjunctions on both sides of a disjunction, one of which has a negated conjunction of three
operands inside. -/
def crossed : Expr :=
  let p := ofVariable ⟨"p", 0, false, false⟩
  let q := ofVariable ⟨"q", 1, false, false⟩
  let r := ofVariable ⟨"r", 2, false, false⟩
  binary .or (binary .and p q) (binary .and r ⟨.op .and, true, [p, q, r]⟩)

/-- The crossed disjunction is no normal form, its distributed form is one, and distributing again
changes nothing. -/
theorem distribute_crossed :
    crossed.NaNFree ∧ crossed.Paired ∧ crossed.isCnf = false ∧ crossed.distribute.isCnf ∧
      (crossed.distribute.distribute == crossed.distribute) ∧
      crossed.distribute.distribute = crossed.distribute := by
  have number : crossed.NaNFree := by
    simp [crossed, NaNFree, binary, node, ofVariable, leaf, Everywhere, EverywhereArgs,
      Symbol.isNaN]
  have paired : crossed.Paired :=
    .junction (.inr rfl) (.junction (.inl rfl) (.other (by simp)) (.other (by simp)))
      (.junction (.inl rfl) (.other (by simp)) (.other (by simp)))
  obtain ⟨-, -, again, cnf, -, -⟩ := distribute_terminates_in_cnf_and_keeps_values crossed
  obtain ⟨-, -, -, -, stays, -⟩ := distribute_terminates_in_cnf_and_keeps_values crossed.distribute
  exact ⟨number, paired, rfl, cnf paired, again number, stays (cnf paired)⟩

end Expr

end Refute
