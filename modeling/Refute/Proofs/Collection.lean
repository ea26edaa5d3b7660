import Refute.Inference.Resolution
import Refute.Proofs.Identity
import Refute.Proofs.Loop

/-!
# Collected variables

The variables of an expression are collected without repetition. A variable that occurs is in the
list or is equal to one in it, and nothing else is in it. The variables that become fixed with a
negated hypothesis are those of its clauses that are not universal.
-/

namespace Refute

namespace Expr

/-- A variable is added if none that is equal to it is there. -/
theorem mem_addVariable {v w : Variable} {found : List Variable} :
    v ∈ addVariable found w ↔ v ∈ found ∨ v = w ∧ found.contains w = false := by
  unfold addVariable
  cases known : found.contains w <;> simp

/-- Adding a variable drops none. -/
theorem subset_addVariable (v : Variable) (found : List Variable) :
    found ⊆ addVariable found v :=
  fun _ member => mem_addVariable.2 (.inl member)

/-- After a variable is added, those equal to it count as found. -/
theorem contains_addVariable {v w : Variable} (same : v == w) (found : List Variable) :
    (addVariable found w).contains v := by
  rw [List.contains_iff_exists_mem_beq]
  cases known : found.contains w with
  | false => exact ⟨w, mem_addVariable.2 (.inr ⟨rfl, known⟩), same⟩
  | true =>
    obtain ⟨x, inside, equal⟩ := List.contains_iff_exists_mem_beq.1 known
    exact ⟨x, subset_addVariable w found inside, BEq.trans same equal⟩

/-- Collecting variables drops none that were found before. -/
theorem subset_collectVariables (e : Expr) (found : List Variable) :
    found ⊆ collectVariables found e := by
  induction e using Expr.induction generalizing found with
  | node head negated args ih =>
    have inArgs : ∀ found, found ⊆ collectVariablesArgs found args := by
      intro found
      rw [collectVariablesArgs_eq_foldl]
      exact subset_foldl ih found
    cases head with
    | var v => exact List.Subset.trans (subset_addVariable v found) (inArgs _)
    | _ => exact inArgs found

/-- Every variable of an expression is collected. -/
theorem contains_collectVariables (e : Expr) :
    e.Everywhere fun head _ => ∀ v, head = .var v → ∀ found, (collectVariables found e).contains v := by
  induction e using Expr.induction with
  | node head negated args ih =>
    have inArgs : ∀ v, (∃ arg ∈ args, ∀ found, (collectVariables found arg).contains v) →
        ∀ found, (collectVariablesArgs found args).contains v := by
      rintro v ⟨arg, member, collected⟩ found
      rw [collectVariablesArgs_eq_foldl]
      exact contains_foldl (fun arg _ => subset_collectVariables arg) member collected found
    refine everywhere_iff.2 ⟨?_, fun arg member => (ih arg member).imp ?_⟩
    · rintro v rfl found
      rw [collectVariables, collectVariablesArgs_eq_foldl]
      obtain ⟨w, inside, same⟩ := List.contains_iff_exists_mem_beq.1
        (contains_addVariable (BEq.rfl : v == v) found)
      exact List.contains_iff_exists_mem_beq.2
        ⟨w, subset_foldl (fun arg _ => subset_collectVariables arg) _ inside, same⟩
    · intro inner count collected v same found
      have collects := inArgs v ⟨arg, member, collected v same⟩
      cases head with
      | var w => exact collects _
      | _ => exact collects found

/-- Only variables of the expression are collected. -/
theorem forall_mem_collectVariables {p : Variable → Prop} {e : Expr}
    (leaves : e.Everywhere fun head _ => ∀ v, head = .var v → p v) {found : List Variable}
    (before : ∀ v ∈ found, p v) : ∀ v ∈ collectVariables found e, p v := by
  induction e using Expr.induction generalizing found with
  | node head negated args ih =>
    obtain ⟨root, inside⟩ := everywhere_iff.1 leaves
    have inArgs : ∀ found, (∀ v ∈ found, p v) → ∀ v ∈ collectVariablesArgs found args, p v := by
      intro found before
      rw [collectVariablesArgs_eq_foldl]
      refine List.foldlRecOn (motive := fun found => ∀ v ∈ found, p v) args collectVariables before
        fun found before arg member => ?_
      exact ih arg member (inside arg member) before
    cases head with
    | var w =>
      refine inArgs _ fun v member => ?_
      rcases mem_addVariable.1 member with old | ⟨rfl, -⟩
      · exact before v old
      · exact root v rfl
    | _ => exact inArgs found before

end Expr

/-- The variables of clauses that are not universal become fixed with them. -/
theorem contains_hypothesisVariables {clauses : List Clause} {clause : Clause}
    (member : clause ∈ clauses) {literal : Expr} (inside : literal ∈ clause.literals) {v : Variable}
    (occurs : v ∈ literal.vars) (free : v.universal = false) :
    (hypothesisVariables clauses).contains v := by
  have keeps : ∀ (literal : Expr) (found : List Variable),
      found ⊆ (literal.vars.filter (!·.universal)).foldl Expr.addVariable found :=
    fun literal => subset_foldl fun v _ => Expr.subset_addVariable v
  refine contains_foldl (fun clause _ => subset_foldl fun literal _ => keeps literal) member
    (contains_foldl (fun literal _ => keeps literal) inside ?_) []
  refine contains_foldl (fun v _ => Expr.subset_addVariable v) ?_ (Expr.contains_addVariable BEq.rfl)
  exact List.mem_filter.2 ⟨occurs, by simp [free]⟩

end Refute
