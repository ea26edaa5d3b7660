import Refute.Proofs.Acyclicity
import Refute.Proofs.MostGeneral

/-!
# Fixed variables in unification

Restricted unification treats the variables of the hypothesis as constants. What it returns is a
substitution that fixes them. It does not find one whenever there is one: the restriction is looked
at when both terms have been unified without it, in one order and in the other, and either order may
bind a variable of the hypothesis to another variable where the opposite binding would do. That is
the only reason to miss a unifier.
-/

namespace Refute

/-- The substitution takes each of the variables to itself. -/
def Substitution.Fixes (θ : Substitution) (hypothesis : List Variable) : Prop :=
  ∀ v ∈ hypothesis, θ v == Expr.ofVariable v

/-- The substitution takes no other variable to one of the variables. -/
def Substitution.KeepsOff (θ : Substitution) (hypothesis : List Variable) : Prop :=
  ∀ w, hypothesis.contains w = false → ∀ v ∈ hypothesis, (θ w == Expr.ofVariable v) = false

/-- Unification in this order binds one of the variables to a variable that is none of them. -/
def Expr.Displaces (hypothesis : List Variable) (left right : Expr) : Prop :=
  ∃ u, left.unify right = .ok u ∧ ∃ v w, ⟨.ofVariable v, .ofVariable w⟩ ∈ u.bindings ∧
    hypothesis.contains v ∧ hypothesis.contains w = false

/-- What coincides with a variable is equal to it. -/
theorem Expr.beq_ofVariable {e : Expr} {v : Variable} (same : e.Coincides (.ofVariable v)) :
    e == .ofVariable v :=
  BEq.symm (same.symm.beq (everywhere_iff.2 ⟨rfl, List.forall_mem_nil _⟩))

namespace Unifier

variable {u : Unifier} {hypothesis : List Variable} {θ : Substitution}

/-! ### Allowed bindings -/

/-- A solved unifier without a forbidden binding fixes the variables of the hypothesis. -/
theorem Solved.fixes_toSubstitution (solved : u.Solved)
    (allowed : ∀ binding ∈ u.bindings, binding.isRestricted hypothesis = false) :
    (u.toSubstitution solved).Fixes hypothesis := by
  intro v fixed
  have alone : (Expr.ofVariable v).FirstOrder :=
    Expr.everywhere_iff.2 ⟨fun _ _ => rfl, List.forall_mem_nil _⟩
  have instances := solved.coincides_toSubstitution alone
  rw [Expr.subst_ofVariable, solved.total.apply_free (lookup?_eq_none_of_allowed allowed fixed)]
    at instances
  exact Expr.beq_ofVariable instances

/-! ### Forbidden bindings -/

/-- A variable is not bound to itself. -/
theorem Solved.beq_eq_false (solved : u.Solved) {v w : Variable}
    (located : u.lookup? (.ofVariable v) = some (.ofVariable w)) : (v == w) = false := by
  have free : u.ArgumentsFree := by
    intro binding member arg inside
    obtain ⟨x, same⟩ := solved.unknown binding member
    rw [same] at inside
    exact absurd inside List.not_mem_nil
  cases same : v == w with
  | false => rfl
  | true =>
    have equal : (Expr.ofVariable v).sameAtom (.ofVariable w) := Expr.sameAtom_iff.2 ⟨same, .nil⟩
    have isBound : (u.lookup? (.ofVariable w)).isSome := by
      rw [← u.lookup?_congr equal, located]
      rfl
    have apart := free.acyclic solved.total _ _ (.single ⟨_, located, .refl _, isBound⟩)
    rw [equal] at apart
    cases apart

/-- Only a variable becomes a variable under a substitution. -/
theorem exists_variable_of_subst {term : Expr} {v : Variable} (firstOrder : term.FirstOrder)
    (positive : term.negated = false) (same : (term.subst θ).AtomCoincides (.ofVariable v)) :
    ∃ w, term = .ofVariable w := by
  obtain ⟨head, negated, args⟩ := term
  cases head with
  | var w =>
    obtain rfl : args = [] := List.length_eq_zero_iff.1 ((Expr.everywhere_iff.1 firstOrder).1 w rfl)
    obtain rfl : negated = false := positive
    exact ⟨w, rfl⟩
  | _ =>
    rw [θ.subst_application rfl] at same
    rcases same.1 with heads | heads <;> cases heads

/-- A binding of a fixed variable displaces it, if a substitution that fixes it solves the
bindings: it is bound to a variable that is not fixed, and that the substitution takes to it. -/
theorem Solved.displaced_of_isRestricted (solved : u.Solved) (solution : u.SolvedBy θ)
    (fixes : θ.Fixes hypothesis) {binding : Binding} (member : binding ∈ u.bindings)
    (firstOrder : binding.replacement.FirstOrder) (forbidden : binding.isRestricted hypothesis) :
    ∃ v w, binding = ⟨.ofVariable v, .ofVariable w⟩ ∧ hypothesis.contains v ∧
      hypothesis.contains w = false ∧ ∃ fixed ∈ hypothesis, θ w == Expr.ofVariable fixed := by
  obtain ⟨unknown, replacement⟩ := binding
  obtain ⟨v, rfl⟩ := solved.unknown _ member
  have held : hypothesis.contains v := forbidden
  obtain ⟨fixed, inside, same⟩ := List.contains_iff_exists_mem_beq.1 held
  -- The replacement becomes the fixed variable, so it is a variable.
  have atFixed : (θ v).Coincides (.ofVariable fixed) := by
    rw [θ.apply_congr same]
    exact Expr.coincides_of_beq (fixes fixed inside)
  have sides : (θ v).AtomCoincides (replacement.subst θ) := by
    have unified := solution _ member
    rwa [Substitution.Unifies, Expr.subst_ofVariable] at unified
  have becomes := sides.symm.trans (Expr.coincides_iff.1 atFixed).2
  obtain ⟨w, rfl⟩ := exists_variable_of_subst firstOrder (solved.positive _ member) becomes
  rw [Expr.subst_ofVariable] at becomes
  have taken := Expr.beq_ofVariable (Expr.coincides_iff.2 ⟨θ.positive _, becomes⟩)
  refine ⟨v, w, rfl, held, ?_, fixed, inside, taken⟩
  -- If it were fixed as well, it would be the bound variable itself.
  cases alsoHeld : hypothesis.contains w with
  | false => rfl
  | true =>
    obtain ⟨other, there, alike⟩ := List.contains_iff_exists_mem_beq.1 alsoHeld
    have kept := fixes other there
    rw [← θ.apply_congr alike] at kept
    have equal := BEq.trans (BEq.symm kept) taken
    have others : other == fixed := (Expr.sameAtom_iff.1 (Expr.beq_iff.1 equal).2).1
    have loop := solved.beq_eq_false (solved.located _ member)
    rw [BEq.trans same (BEq.symm (BEq.trans alike others))] at loop
    cases loop

end Unifier

/-! ### Unification under restrictions -/

namespace Expr

variable {hypothesis : List Variable} {left right : Expr} {u : Unifier}

/-- If a substitution that fixes the variables of the hypothesis unifies the terms, and unification
in this order displaces none of them, its bindings are allowed. -/
theorem exists_unifyChecked_of_fixing
    (plain : ∀ e ∈ [left, right], e.FirstOrder ∧ e.SkolemFree ∧ e.NaNFree) {θ : Substitution}
    (fixes : θ.Fixes hypothesis) (unifies : θ.Unifies left right)
    (kept : ¬ Displaces hypothesis left right) : ∃ u, unifyChecked hypothesis left right = .ok u := by
  obtain ⟨u, unified⟩ := Unifier.exists_unify_of_unifies plain unifies
  obtain ⟨solved, order, solutions⟩ := Unifier.solved_and_solvedBy_iff_of_unify plain unified
  refine ⟨u, unifyChecked_eq_ok_iff.2 ⟨unified, fun binding member => ?_⟩⟩
  cases forbidden : binding.isRestricted hypothesis with
  | false => rfl
  | true =>
    obtain ⟨v, w, rfl, held, free, -⟩ := solved.displaced_of_isRestricted ((solutions θ).2 unifies) fixes
      member (order binding member) forbidden
    exact absurd ⟨u, unified, v, w, member, held, free⟩ kept

/-- Nothing is displaced if the substitution takes no other variable to one of the hypothesis. -/
theorem not_displaces_of_keepsOff
    (plain : ∀ e ∈ [left, right], e.FirstOrder ∧ e.SkolemFree ∧ e.NaNFree) {θ : Substitution}
    (fixes : θ.Fixes hypothesis) (keepsOff : θ.KeepsOff hypothesis)
    (unifies : θ.Unifies left right) : ¬ Displaces hypothesis left right := by
  rintro ⟨u, unified, v, w, member, held, free⟩
  obtain ⟨solved, order, solutions⟩ := Unifier.solved_and_solvedBy_iff_of_unify plain unified
  obtain ⟨_, _, same, -, -, fixed, inside, taken⟩ := solved.displaced_of_isRestricted
    ((solutions θ).2 unifies) fixes member (order _ member) held
  cases same
  rw [keepsOff w free fixed inside] at taken
  cases taken

/-- Restricted unification succeeds if unification in one of the orders does. -/
theorem exists_unifyRestricted_iff : (∃ u, unifyRestricted hypothesis left right = .ok u) ↔
    areFixedVariables left right = false ∧
      ((∃ u, unifyChecked hypothesis left right = .ok u) ∨
        ∃ u, unifyChecked hypothesis right left = .ok u) := by
  unfold unifyRestricted
  cases areFixedVariables left right with
  | true => simp
  | false => cases unifyChecked hypothesis left right <;> simp

/-- The unifier under the restrictions is solved by the substitutions that unify the terms. -/
theorem solved_and_solvedBy_iff_of_unifyRestricted
    (plain : ∀ e ∈ [left, right], e.FirstOrder ∧ e.SkolemFree ∧ e.NaNFree)
    (unified : unifyRestricted hypothesis left right = .ok u) :
    u.Solved ∧ (∀ binding ∈ u.bindings, binding.replacement.FirstOrder) ∧
      ∀ θ : Substitution, u.SolvedBy θ ↔ θ.Unifies left right := by
  obtain ⟨run | run, -⟩ := unify_of_unifyRestricted unified
  · exact Unifier.solved_and_solvedBy_iff_of_unify plain run
  · obtain ⟨solved, order, solutions⟩ := Unifier.solved_and_solvedBy_iff_of_unify
      (fun e member => plain e ((List.Perm.swap left right []).mem_iff.1 member)) run
    exact ⟨solved, order, fun θ => (solutions θ).trans ⟨.symm, .symm⟩⟩

/-- The unifier under the restrictions acts as a substitution that fixes the variables of the
hypothesis and makes the terms equal. -/
theorem exists_fixing_of_unifyRestricted
    (plain : ∀ e ∈ [left, right], e.FirstOrder ∧ e.SkolemFree ∧ e.NaNFree)
    (unified : unifyRestricted hypothesis left right = .ok u) :
    ∃ θ : Substitution, θ.Fixes hypothesis ∧ (left.subst θ).sameAtom (right.subst θ) ∧
      ∀ term : Expr, term.FirstOrder → (term.subst θ).Coincides (u.apply term) := by
  obtain ⟨solved, order, solutions⟩ := solved_and_solvedBy_iff_of_unifyRestricted plain unified
  simp only [List.forall_mem_cons] at plain
  obtain ⟨⟨leftOrder, -, leftNumber⟩, ⟨-, -, rightNumber⟩, -⟩ := plain
  have numbers := everywhere_of_unifyRestricted unified leftNumber rightNumber
  have number : (u.apply left).NaNFree :=
    Unifier.everywhere_apply (fun binding member => (numbers binding member).2) leftNumber
  have unifies := (solutions _).1 (solved.solvedBy_toSubstitution order)
  have atLeft := (coincides_iff.1 (solved.coincides_toSubstitution leftOrder)).2
  have back := atLeft.symm.sameAtom number
  have forth := (atLeft.symm.trans unifies).sameAtom number
  have fixes := solved.fixes_toSubstitution (unify_of_unifyRestricted unified).2
  exact ⟨u.toSubstitution solved, fixes, sameAtom_trans (sameAtom_symm back) forth,
    fun _ => solved.coincides_toSubstitution⟩

/-- If there is a unifier under the restrictions, one of the orders displaces nothing. -/
theorem not_displaces_of_unifyRestricted (unified : unifyRestricted hypothesis left right = .ok u) :
    ¬ (Displaces hypothesis left right ∧ Displaces hypothesis right left) := by
  have none : ∀ {left right : Expr}, left.unify right = .ok u →
      (∀ binding ∈ u.bindings, binding.isRestricted hypothesis = false) →
      ¬ Displaces hypothesis left right := by
    rintro left right run allowed ⟨v, other, x, y, member, held, -⟩
    obtain rfl := Except.ok.inj (run.symm.trans other)
    have forbidden : Binding.isRestricted hypothesis ⟨.ofVariable x, .ofVariable y⟩ = true := held
    rw [allowed _ member] at forbidden
    cases forbidden
  obtain ⟨sides, allowed⟩ := unify_of_unifyRestricted unified
  rintro ⟨first, second⟩
  rcases sides with run | run
  · exact none run allowed first
  · exact none run allowed second

/-- Under the restrictions, terms without Skolem functions and NaN have a unifier exactly if they
are no two fixed variables, some substitution that fixes the variables of the hypothesis makes them
equal apart from their signs, and unification displaces such a variable in one order at most.
Unifiers act as such substitutions. None is missed if the substitution takes no other variable to
one of the hypothesis. -/
theorem unifyRestricted_fixing
    (plain : ∀ e ∈ [left, right], e.FirstOrder ∧ e.SkolemFree ∧ e.NaNFree) :
    ((∃ u, unifyRestricted hypothesis left right = .ok u) ↔
      areFixedVariables left right = false ∧
      (∃ θ : Substitution, θ.Fixes hypothesis ∧ (left.subst θ).sameAtom (right.subst θ)) ∧
      ¬ (Displaces hypothesis left right ∧ Displaces hypothesis right left)) ∧
    (∀ u, unifyRestricted hypothesis left right = .ok u →
      ∃ θ : Substitution, θ.Fixes hypothesis ∧ (left.subst θ).sameAtom (right.subst θ) ∧
        ∀ term : Expr, term.FirstOrder → (term.subst θ).Coincides (u.apply term)) ∧
    (∀ θ : Substitution, θ.Fixes hypothesis → θ.KeepsOff hypothesis →
      (left.subst θ).sameAtom (right.subst θ) → areFixedVariables left right = false →
      ∃ u, unifyRestricted hypothesis left right = .ok u) := by
  refine ⟨⟨?_, ?_⟩, fun u => exists_fixing_of_unifyRestricted plain,
    fun θ fixes keepsOff equal apart => ?_⟩
  · rintro ⟨u, unified⟩
    obtain ⟨θ, fixes, equal, -⟩ := exists_fixing_of_unifyRestricted plain unified
    exact ⟨(exists_unifyRestricted_iff.1 ⟨u, unified⟩).1, ⟨θ, fixes, equal⟩,
      not_displaces_of_unifyRestricted unified⟩
  · rintro ⟨apart, ⟨θ, fixes, equal⟩, once⟩
    refine exists_unifyRestricted_iff.2 ⟨apart, ?_⟩
    have unifies : θ.Unifies left right := atomCoincides_of_sameAtom equal
    by_cases displaced : Displaces hypothesis left right
    · have turned : ∀ e ∈ [right, left], e.FirstOrder ∧ e.SkolemFree ∧ e.NaNFree :=
        fun e member => plain e ((List.Perm.swap left right []).mem_iff.1 member)
      exact .inr (exists_unifyChecked_of_fixing turned fixes unifies.symm
        fun again => once ⟨displaced, again⟩)
    · exact .inl (exists_unifyChecked_of_fixing plain fixes unifies displaced)
  · have unifies : θ.Unifies left right := atomCoincides_of_sameAtom equal
    have kept := not_displaces_of_keepsOff plain fixes keepsOff unifies
    exact exists_unifyRestricted_iff.2
      ⟨apart, .inl (exists_unifyChecked_of_fixing plain fixes unifies kept)⟩

/-- If `h` is a variable of the hypothesis, `P(h, x)` and `P(y, f(h))` are unified in the second
order only, by `h` for `y` and `f(h)` for `x`. The unifier acts as a substitution that fixes `h`,
and the first order alone displaces it. -/
theorem unifyRestricted_fixing_second :
    let h : Variable := ⟨"h", 0, true, false⟩
    let x : Variable := ⟨"x", 1, true, true⟩
    let y : Variable := ⟨"y", 2, true, true⟩
    let left : Expr := .node (.rel ⟨⟨"P", 2, none⟩⟩) [.ofVariable h, .ofVariable x]
    let right : Expr := .node (.rel ⟨⟨"P", 2, none⟩⟩) [.ofVariable y, shifted h]
    let u : Unifier := ⟨[⟨.ofVariable y, .ofVariable h⟩, ⟨.ofVariable x, shifted h⟩]⟩
    (∀ e ∈ [left, right], e.FirstOrder ∧ e.SkolemFree ∧ e.NaNFree) ∧
      unifyRestricted [h] left right = .ok u ∧
      (∃ θ : Substitution, θ.Fixes [h] ∧ (left.subst θ).sameAtom (right.subst θ) ∧
        ∀ term : Expr, term.FirstOrder → (term.subst θ).Coincides (u.apply term)) ∧
      Displaces [h] left right ∧ ¬ Displaces [h] right left := by
  intro h x y left right u
  have plain : ∀ e ∈ [left, right], e.FirstOrder ∧ e.SkolemFree ∧ e.NaNFree := by
    simp [left, right, FirstOrder, SkolemFree, NaNFree, Everywhere, EverywhereArgs, shifted,
      Expr.node, ofVariable, leaf, Symbol.isNaN]
  have unified : unifyRestricted [h] left right = .ok u := rfl
  have displaced : Displaces [h] left right :=
    ⟨⟨[⟨.ofVariable h, .ofVariable y⟩, ⟨.ofVariable x, shifted h⟩]⟩, rfl, h, y, List.mem_cons_self, rfl, rfl⟩
  obtain ⟨decided, acts, -⟩ := @unifyRestricted_fixing [h] left right plain
  exact ⟨plain, unified, acts u unified, displaced, fun again =>
    (decided.1 ⟨u, unified⟩).2.2 ⟨displaced, again⟩⟩

/-- If `h` is a variable of the hypothesis, `h` for `x` and `y` makes `P(h, x)` and `P(y, h)` equal,
but no unifier is found: one order binds `h` to `y`, and the other binds it to `x`. -/
theorem unifyRestricted_misses :
    let h : Variable := ⟨"h", 0, true, false⟩
    let x : Variable := ⟨"x", 1, true, true⟩
    let y : Variable := ⟨"y", 2, true, true⟩
    let left : Expr := .node (.rel ⟨⟨"P", 2, none⟩⟩) [.ofVariable h, .ofVariable x]
    let right : Expr := .node (.rel ⟨⟨"P", 2, none⟩⟩) [.ofVariable y, .ofVariable h]
    (∀ e ∈ [left, right], e.FirstOrder ∧ e.SkolemFree ∧ e.NaNFree ∧ e.isVariable = false) ∧
      (∃ θ : Substitution, θ.Fixes [h] ∧ (left.subst θ).sameAtom (right.subst θ)) ∧
      unifyRestricted [h] left right = .error (.restricted ⟨.ofVariable h, .ofVariable x⟩) := by
  intro h x y left right
  refine ⟨?_, ⟨⟨fun _ => .ofVariable h, fun _ => rfl⟩, ?_, rfl⟩, rfl⟩
  · simp [left, right, FirstOrder, SkolemFree, NaNFree, Everywhere, EverywhereArgs, isVariable,
      Expr.node, ofVariable, leaf, Symbol.isNaN]
  · intro v fixed
    obtain rfl := List.mem_singleton.1 fixed
    rfl

end Expr

end Refute
