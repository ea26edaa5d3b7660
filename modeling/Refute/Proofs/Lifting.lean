import Refute.Proofs.Collection
import Refute.Proofs.Inference
import Refute.Proofs.Restriction

/-!
# Lifting

Each clause holds for all values of its variables, so two clauses may be resolved on literals that
become equal under a substitution for each. Resolution looks for one substitution for both. It finds
a unifier exactly if there are two that agree on the variables which the literals have in common,
and the resolvent then has all resolvents of such instances as instances. Clauses are not given
variables of their own first, and literals that become equal only under substitutions that disagree
are not resolved.
-/

namespace Refute

namespace Substitution

variable {θ ψ : Substitution}

/-! ### Two substitutions -/

/-- What the terms of both lists have in common for variables becomes terms that coincide. -/
def Agree (θ ψ : Substitution) (first second : List Expr) : Prop :=
  ∀ e ∈ first, ∀ f ∈ second, ∀ v, e.vars.contains v → f.vars.contains v → (θ v).Coincides (ψ v)

/-- The first substitution for the variables of the terms, and the second for all others. -/
def joined (θ ψ : Substitution) (terms : List Expr) : Substitution where
  term identity :=
    if ∃ e ∈ terms, ∃ v ∈ e.vars, v.identity = identity then θ.term identity else ψ.term identity
  positive identity := by
    split
    · exact θ.positive identity
    · exact ψ.positive identity

/-- Substitutions that coincide on the variables of a term give instances that coincide. -/
theorem coincides_subst_of_vars {e : Expr}
    (same : ∀ v, e.vars.contains v → (θ v).Coincides (ψ v)) : (e.subst θ).Coincides (e.subst ψ) := by
  have leaves : e.Everywhere fun head _ => ∀ v, head = .var v → (θ v).Coincides (ψ v) :=
    e.contains_collectVariables.imp fun _ _ collected v named => same v (collected v named [])
  clear same
  induction e using Expr.induction with
  | node head negated args ih =>
    obtain ⟨root, inside⟩ := Expr.everywhere_iff.1 leaves
    cases head with
    | var v =>
      rw [subst_variable, subst_variable]
      exact Expr.coincides_iff.2 ⟨rfl, (Expr.coincides_iff.1 (root v rfl)).2⟩
    | _ =>
      rw [subst_application _ rfl, subst_application _ rfl]
      refine Expr.coincides_iff.2 ⟨rfl, .refl _, ?_⟩
      simp only [List.forall₂_map_left_iff, List.forall₂_map_right_iff]
      exact List.forall₂_same.2 fun arg member => ih arg member (inside arg member)

variable {first second : List Expr} {e : Expr}

/-- The joined substitution acts on the terms as the first one. -/
theorem coincides_joined_left (θ ψ : Substitution) (member : e ∈ first) :
    (e.subst (θ.joined ψ first)).Coincides (e.subst θ) := by
  refine coincides_subst_of_vars fun v occurs => ?_
  obtain ⟨w, inside, same⟩ := List.contains_iff_exists_mem_beq.1 occurs
  have named : ∃ e ∈ first, ∃ w ∈ e.vars, w.identity = v.identity :=
    ⟨e, member, w, inside, (Variable.beq_iff.1 same).symm⟩
  simp only [joined, if_pos named]
  exact .refl _

/-- Where the substitutions agree, the joined one acts as the second one. -/
theorem Agree.coincides_joined_right (agree : θ.Agree ψ first second) (member : e ∈ second) :
    (e.subst (θ.joined ψ first)).Coincides (e.subst ψ) := by
  refine coincides_subst_of_vars fun v occurs => ?_
  by_cases named : ∃ e ∈ first, ∃ w ∈ e.vars, w.identity = v.identity
  · obtain ⟨f, there, w, inside, same⟩ := id named
    have shared : f.vars.contains v :=
      List.contains_iff_exists_mem_beq.2 ⟨w, inside, Variable.beq_iff.2 same.symm⟩
    simp only [joined, if_pos named]
    exact agree f there e member v shared occurs
  · simp only [joined, if_neg named]
    exact .refl _

/-- If substitutions that agree make two terms equal, joined they unify them. -/
theorem Agree.unifies_joined (agree : θ.Agree ψ first second) {left right : Expr}
    (inFirst : left ∈ first) (inSecond : right ∈ second)
    (equal : (left.subst θ).sameAtom (right.subst ψ)) : (θ.joined ψ first).Unifies left right := by
  have atLeft := (Expr.coincides_iff.1 (coincides_joined_left θ ψ inFirst)).2
  have atRight := (Expr.coincides_iff.1 (agree.coincides_joined_right inSecond)).2
  exact (atLeft.trans (Expr.atomCoincides_of_sameAtom equal)).trans atRight.symm

end Substitution

/-! ### Without a hypothesis -/

namespace Expr

variable {left right : Expr}

/-- Without variables of a hypothesis no unifier is missed. -/
theorem exists_unifyRestricted_nil
    (plain : ∀ e ∈ [left, right], e.FirstOrder ∧ e.SkolemFree ∧ e.NaNFree)
    (apart : areFixedVariables left right = false) {θ : Substitution} (unifies : θ.Unifies left right) :
    ∃ u, unifyRestricted [] left right = .ok u := by
  refine exists_unifyRestricted_iff.2 ⟨apart, .inl ?_⟩
  refine exists_unifyChecked_of_fixing plain (List.forall_mem_nil _) unifies ?_
  rintro ⟨_, _, _, _, _, held, _⟩
  cases held

end Expr

/-- Without variables of a hypothesis, literals without Skolem functions and NaN resolve exactly if
they have opposite signs, are no two fixed variables, and become equal apart from their signs under
substitutions that agree on their common variables. The resolvent is then among the resolvents of
the clauses; and if such substitutions agree on all common variables of the clauses, the instances
of both clauses are instances of what the unifier makes of them, under one substitution. -/
theorem Clause.resolve_lifts {first second : Clause} {i j : Nat} {left right : Expr}
    (atLeft : first.literals[i]? = some left) (atRight : second.literals[j]? = some right)
    (plain : ∀ e ∈ [left, right], e.FirstOrder ∧ e.SkolemFree ∧ e.NaNFree) :
    ((∃ u, Expr.resolvingUnifier [] left right.negate = .ok u) ↔
      left.negated = !right.negated ∧ Expr.areFixedVariables left right = false ∧
      ∃ θ ψ : Substitution, θ.Agree ψ [left] [right] ∧ (left.subst θ).sameAtom (right.subst ψ)) ∧
    ∀ u, Expr.resolvingUnifier [] left right.negate = .ok u →
      (u.applyToClause (first.without i)).merge (u.applyToClause (second.without j)) ∈
        first.resolve [] second ∧
      ∀ θ ψ : Substitution, θ.Agree ψ first.literals second.literals →
        (left.subst θ).sameAtom (right.subst ψ) →
        ∃ χ : Substitution,
          (∀ literal ∈ first.literals, ((u.apply literal).subst χ).Coincides (literal.subst θ)) ∧
          ∀ literal ∈ second.literals, ((u.apply literal).subst χ).Coincides (literal.subst ψ) := by
  have negated : ∀ e ∈ [left, right.negate], e.FirstOrder ∧ e.SkolemFree ∧ e.NaNFree := by
    simp only [List.forall_mem_cons] at plain ⊢
    obtain ⟨inLeft, ⟨order, skolemFree, number⟩, -⟩ := plain
    exact ⟨inLeft, ⟨(Expr.everywhere_signed _).2 order, (Expr.everywhere_signed _).2 skolemFree,
      (Expr.everywhere_signed _).2 number⟩, List.forall_mem_nil _⟩
  have signless : ∀ {θ : Substitution}, θ.Unifies left right → θ.Unifies left right.negate :=
    fun unifies => ((Substitution.unifies_signed _ _).2 unifies.symm).symm
  refine ⟨⟨?_, ?_⟩, fun u resolved => ⟨?_, fun θ ψ agree equal => ?_⟩⟩
  · rintro ⟨u, resolved⟩
    obtain ⟨signs, unified⟩ := resolvingUnifier_eq_ok_iff.1 resolved
    obtain ⟨θ, -, equal, -⟩ := Expr.exists_fixing_of_unifyRestricted negated unified
    rw [Expr.negate, θ.subst_signed] at equal
    exact ⟨signs, (Expr.exists_unifyRestricted_iff.1 ⟨u, unified⟩).1, θ, θ,
      fun _ _ _ _ v _ _ => .refl (θ v), equal⟩
  · rintro ⟨signs, apart, θ, ψ, agree, equal⟩
    have unifies := agree.unifies_joined List.mem_cons_self List.mem_cons_self equal
    obtain ⟨u, unified⟩ := Expr.exists_unifyRestricted_nil negated apart (signless unifies)
    exact ⟨u, resolvingUnifier_eq_ok_iff.2 ⟨signs, unified⟩⟩
  · exact mem_resolve_iff.2 ⟨i, j, left, right, u, atLeft, atRight, resolved, rfl⟩
  · have unified := (resolvingUnifier_eq_ok_iff.1 resolved).2
    obtain ⟨solved, -, solutions⟩ :=
      Expr.solved_and_solvedBy_iff_of_unifyRestricted negated unified
    have unifies := agree.unifies_joined (List.mem_of_getElem? atLeft) (List.mem_of_getElem? atRight) equal
    have solution := (solutions _).2 (signless unifies)
    have instances : ∀ term : Expr, ((u.apply term).subst (θ.joined ψ first.literals)).Coincides
        (term.subst (θ.joined ψ first.literals)) := fun term =>
      solution.coincides solved.positive (solved.total.hasImage term)
    exact ⟨θ.joined ψ first.literals,
      fun literal member => (instances literal).trans (Substitution.coincides_joined_left θ ψ member),
      fun literal member => (instances literal).trans (agree.coincides_joined_right member)⟩

/-- The clauses `P(x, y) | Q(y)` and `!P(x, f(x))` have `x` in common. Substitutions that leave `x`
alone make the literals equal if the first takes `y` to `f(x)`, whatever the second takes `y` to. So
the clauses resolve, to `Q(f(x))`. -/
theorem Clause.resolve_lifts_common :
    let x : Variable := ⟨"x", 0, true, true⟩
    let y : Variable := ⟨"y", 1, true, true⟩
    let left : Expr := .node (.rel ⟨⟨"P", 2, none⟩⟩) [.ofVariable x, .ofVariable y]
    let right : Expr := ⟨.rel ⟨⟨"P", 2, none⟩⟩, true, [.ofVariable x, .shifted x]⟩
    let first : Clause := ⟨[left, .node (.rel ⟨⟨"Q", 1, none⟩⟩) [.ofVariable y]]⟩
    let second : Clause := ⟨[right]⟩
    let θ : Substitution := ⟨fun identity => if identity.1 = 0 then .ofVariable x else .shifted x,
      fun _ => by split <;> rfl⟩
    let ψ : Substitution := ⟨fun _ => .ofVariable x, fun _ => rfl⟩
    (∀ e ∈ [left, right], e.FirstOrder ∧ e.SkolemFree ∧ e.NaNFree) ∧
      θ.Agree ψ [left] [right] ∧ (left.subst θ).sameAtom (right.subst ψ) ∧
      (∃ u, Expr.resolvingUnifier [] left right.negate = .ok u ∧
        (u.applyToClause (first.without 0)).merge (u.applyToClause (second.without 0)) ∈
          first.resolve [] second) ∧
      first.resolve [] second = [⟨[.node (.rel ⟨⟨"Q", 1, none⟩⟩) [.shifted x]]⟩] := by
  intro x y left right first second θ ψ
  have plain : ∀ e ∈ [left, right], e.FirstOrder ∧ e.SkolemFree ∧ e.NaNFree := by
    simp [left, right, Expr.FirstOrder, Expr.SkolemFree, Expr.NaNFree, Expr.Everywhere,
      Expr.EverywhereArgs, Expr.shifted, Expr.node, Expr.ofVariable, Expr.leaf, Symbol.isNaN]
  have agree : θ.Agree ψ [left] [right] := by
    intro e _ f member v _ occurs
    obtain rfl := List.mem_singleton.1 member
    obtain ⟨w, inside, same⟩ := List.contains_iff_exists_mem_beq.1 occurs
    obtain rfl : w = x := List.mem_singleton.1 inside
    rw [θ.apply_congr same]
    exact .refl _
  have equal : (left.subst θ).sameAtom (right.subst ψ) := rfl
  obtain ⟨decided, found⟩ := @resolve_lifts first second 0 0 left right rfl rfl plain
  obtain ⟨u, resolved⟩ := decided.2 ⟨rfl, rfl, θ, ψ, agree, equal⟩
  exact ⟨plain, agree, equal, ⟨u, resolved, (found u resolved).1⟩, rfl⟩

/-- The clauses `P(x)` and `!P(f(x))` become contradictory under `f(x)` for `x` in the first and `x`
for `x` in the second, but they have no resolvent. -/
theorem Clause.resolve_misses :
    let x : Variable := ⟨"x", 0, true, true⟩
    let left : Expr := .node (.rel ⟨⟨"P", 1, none⟩⟩) [.ofVariable x]
    let right : Expr := ⟨.rel ⟨⟨"P", 1, none⟩⟩, true, [.shifted x]⟩
    (∀ e ∈ [left, right],
      e.FirstOrder ∧ e.SkolemFree ∧ e.NaNFree ∧ e.isVariable = false) ∧
      left.negated = !right.negated ∧
      (∃ θ ψ : Substitution, (left.subst θ).sameAtom (right.subst ψ)) ∧
      Clause.resolve [] ⟨[left]⟩ ⟨[right]⟩ = [] := by
  intro x left right
  refine ⟨?_, rfl, ⟨⟨fun _ => .shifted x, fun _ => rfl⟩, ⟨fun _ => .ofVariable x, fun _ => rfl⟩, rfl⟩, rfl⟩
  simp [left, right, Expr.FirstOrder, Expr.SkolemFree, Expr.NaNFree, Expr.Everywhere,
    Expr.EverywhereArgs, Expr.shifted, Expr.node, Expr.ofVariable, Expr.leaf, Expr.isVariable,
    Symbol.isNaN]

end Refute
