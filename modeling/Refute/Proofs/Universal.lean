import Refute.Proofs.Skolemization

/-!
# Universal quantifiers

A formula whose variables are apart and whose quantifiers are universal is true exactly when it is
true without them for all values of their variables. The quantifiers can be moved in front of the
formula, because a variable of one side of a junction does not occur on the other.
-/

namespace Refute

universe u

namespace Expr

/-- A formula without quantifiers, all of whose atoms have a property. -/
inductive Matrix (p : Expr → Prop) : Expr → Prop
  /-- An atom, perhaps negated. -/
  | literal {e : Expr} (isAtom : e.IsAtom) (holds : p e) : Matrix p e
  /-- A conjunction or disjunction. -/
  | junction {operator : Operator} {a b : Expr} (either : operator = .and ∨ operator = .or)
      (left : Matrix p a) (right : Matrix p b) : Matrix p (binary operator a b)

/-- Atoms that have a property have what follows from it. -/
theorem Matrix.imp {p q : Expr → Prop} {e : Expr} (matrix : Matrix p e) (follows : ∀ e, p e → q e) :
    Matrix q e := by
  induction matrix with
  | literal isAtom holds => exact .literal isAtom (follows _ holds)
  | junction either _ _ left right => exact .junction either left right

/-- An atom has no quantifiers to drop. -/
theorem dropUniversals_atom {e : Expr} (isAtom : e.IsAtom) : dropUniversals e = e := by
  induction e using Expr.induction with
  | node head negated args ih =>
    obtain ⟨takes, atoms⟩ := everywhere_iff.1 isAtom
    have inArgs : dropUniversalsArgs args = args := by
      rw [dropUniversalsArgs_eq_map]
      exact (List.map_congr_left fun arg member => ih arg member (atoms arg member)).trans
        (List.map_id' args)
    cases head with
    | binder b => exact absurd takes id
    | _ => simp [dropUniversals, inArgs]

/-- Quantifiers are dropped in both operands. -/
theorem dropUniversals_binary (operator : Operator) (a b : Expr) :
    dropUniversals (binary operator a b) = binary operator a.dropUniversals b.dropUniversals := by
  simp [binary, node, dropUniversals, dropUniversalsArgs]

/-- A universal formula without its quantifiers is its body without them. -/
theorem dropUniversals_universal (bound : List Variable) (body : Expr) :
    dropUniversals (node (.binder ⟨.universal, bound⟩) [body]) = body.dropUniversals := by
  simp [node, dropUniversals, dropUniversalsArgs, unquantify]

/-- Without its universal quantifiers a formula has no quantifiers; its variables are those in
scope, free ones, and universal ones with numbers of the formula. -/
theorem Apart.matrix {free scope : Set Variable} {low high : Nat} {e : Expr}
    (apart : Apart {.universal} free scope low high e) {p : Symbol → Nat → Prop}
    (holds : e.Everywhere p) :
    e.dropUniversals.Matrix fun atom => atom.Everywhere p ∧
      atom.Over fun v => v ∈ scope ∨ v ∈ free ∨ v.Fresh free low high ∧ v.universal := by
  induction apart with
  | literal isAtom le closed =>
    rw [dropUniversals_atom isAtom]
    exact .literal isAtom ⟨holds,
      closed.imp fun _ _ inside v occurs => (inside v occurs).imp_right .inl⟩
  | junction either leftApart rightApart left right =>
    obtain ⟨-, inside⟩ := everywhere_iff.1 holds
    obtain ⟨first, second⟩ := List.forall_mem_cons.1 inside
    rw [dropUniversals_binary]
    refine .junction either ((left first).imp fun e ⟨here, occurring⟩ => ⟨here, ?_⟩)
      ((right (List.forall_mem_singleton.1 second)).imp fun e ⟨here, occurring⟩ => ⟨here, ?_⟩)
    · exact occurring.imp fun _ _ inside v occurs => (inside v occurs).imp_right fun rest =>
        rest.imp_right fun ⟨fresh, flag⟩ => ⟨fresh.mono le_rfl rightApart.le, flag⟩
    · exact occurring.imp fun _ _ inside v occurs => (inside v occurs).imp_right fun rest =>
        rest.imp_right fun ⟨fresh, flag⟩ => ⟨fresh.mono leftApart.le le_rfl, flag⟩
  | @quantified scope low middle high binder body kind le fresh marked bodyApart inner =>
    obtain ⟨quantifier, bound⟩ := binder
    obtain rfl : quantifier = .universal := kind
    obtain ⟨-, inside⟩ := everywhere_iff.1 holds
    rw [dropUniversals_universal]
    refine (inner (List.forall_mem_singleton.1 inside)).imp fun e ⟨here, occurring⟩ =>
      ⟨here, occurring.imp fun _ _ inside v occurs => ?_⟩
    rcases inside v occurs with (outer | bound) | free | ⟨new, flag⟩
    · exact .inl outer
    · exact .inr (.inr ⟨(fresh v bound).mono le_rfl bodyApart.le, by rw [marked v bound]; rfl⟩)
    · exact .inr (.inl free)
    · exact .inr (.inr ⟨new.mono le le_rfl, flag⟩)

end Expr

namespace Assignment

variable {D : Type u} {β γ δ : Assignment D} {free : Set Variable} {low high early late : Nat}

/-- The second assignment differs from the first one at most where variables are fresh. -/
def Varies (free : Set Variable) (low high : Nat) (β γ : Assignment D) : Prop :=
  ∀ v : Variable, ¬ v.Fresh free low high → γ.get v = β.get v

/-- Assignments that differ in a range differ in a wider one at most. -/
theorem Varies.mono (varies : β.Varies free low high γ) (le : early ≤ low) (le' : high ≤ late) :
    β.Varies free early late γ :=
  fun v old => varies v fun fresh => old (fresh.mono le le')

/-- The values at fresh variables can be taken over from another assignment. -/
theorem exists_varies (β γ : Assignment D) (free : Set Variable) (low high : Nat) :
    ∃ δ, β.Varies free low high δ ∧ ∀ v : Variable, v.Fresh free low high → δ.get v = γ.get v := by
  classical
  -- Whether a variable is fresh depends on its identity only.
  have same : ∀ v : Variable, v.Fresh free low high ↔
      Variable.Fresh free low high ⟨"", v.identity.1, v.identity.2, false⟩ := fun v =>
    ⟨fun fresh => ⟨fresh.low_le, fresh.lt_high, fresh.new⟩,
      fun fresh => ⟨fresh.low_le, fresh.lt_high, fresh.new⟩⟩
  refine ⟨fun identity => if Variable.Fresh free low high ⟨"", identity.1, identity.2, false⟩ then
    γ identity else β identity, fun v old => if_neg ?_, fun v fresh => if_pos ?_⟩
  · exact fun fresh => old ((same v).2 fresh)
  · exact (same v).1 fresh

/-- Part of a variation is a variation that agrees with it on all variables but the fresh ones left
out. -/
theorem Varies.exists_restriction (varies : β.Varies free early late γ) (le : early ≤ low)
    {scope : Set Variable} (below : ∀ v ∈ scope, v.id < early) :
    ∃ δ, β.Varies free low high δ ∧ ∀ v : Variable,
      v ∈ scope ∨ v ∈ free ∨ v.Fresh free low high → δ.get v = γ.get v := by
  obtain ⟨δ, restricted, taken⟩ := exists_varies β γ free low high
  refine ⟨δ, restricted, fun v known => ?_⟩
  rcases or_assoc.2 known with old | fresh
  · rw [varies v (Variable.not_fresh below old), restricted v (Variable.not_fresh ?_ old)]
    exact fun w member => (below w member).trans_le le
  · exact taken v fresh

end Assignment

namespace Structure

variable {D : Type u} (M : Structure D)

/-- A value depends on the variables that occur. -/
theorem value_congr_leaves {σ τ : Variable → D} {e : Expr}
    (assigned : e.Everywhere fun head _ => ∀ v, head = .var v → σ v = τ v) :
    M.value σ e = M.value τ e := by
  have same := value_withSkolems_congr (M := M) (F := M.skolems) (G := M.skolems)
    (assigned.imp fun _ _ _ _ _ => rfl) assigned
  rwa [withSkolems_skolems] at same

/-- The truth of a formula without quantifiers depends on the variables that occur. -/
theorem truth_congr_over {β γ : Assignment D} {e : Expr}
    (matrix : e.Matrix (Expr.Over fun v => β.get v = γ.get v)) :
    M.Truth Variable.identity β e ↔ M.Truth Variable.identity γ e := by
  induction matrix with
  | literal isAtom occurring =>
    rw [truth_atom _ _ isAtom, truth_atom _ _ isAtom]
    exact iff_of_eq (congrArg M.holds (M.value_congr_leaves occurring.literal.leaves))
  | junction either _ _ left right =>
    rcases either with rfl | rfl
    · rw [truth_and, truth_and, left, right]
    · rw [truth_or, truth_or, left, right]

/-- Without its universal quantifiers a formula depends on the variables in scope, the free ones,
and those with its numbers. -/
theorem truth_dropUniversals_congr {free scope : Set Variable} {low high : Nat} {e : Expr}
    (apart : e.Apart {.universal} free scope low high) {β γ : Assignment D}
    (agree : ∀ v : Variable, v ∈ scope ∨ v ∈ free ∨ v.Fresh free low high → β.get v = γ.get v) :
    M.Truth Variable.identity β e.dropUniversals ↔ M.Truth Variable.identity γ e.dropUniversals :=
  M.truth_congr_over ((apart.matrix (Expr.everywhere_of_forall fun _ _ => trivial)).imp
    fun _ ⟨_, occurring⟩ => occurring.imp fun _ _ inside v occurs =>
      agree v ((inside v occurs).imp_right (Or.imp_right And.left)))

/-- A formula with universal quantifiers is true when it is true without them for all values of
their variables. -/
theorem truth_dropUniversals {free scope : Set Variable} {low high : Nat} {e : Expr}
    (apart : e.Apart {.universal} free scope low high) (below : ∀ v ∈ scope, v.id < low)
    (β : Assignment D) :
    M.Truth Variable.identity β e ↔
      ∀ γ, β.Varies free low high γ → M.Truth Variable.identity γ e.dropUniversals := by
  induction apart generalizing β with
  | @literal scope low high e isAtom le closed =>
    rw [Expr.dropUniversals_atom isAtom]
    refine ⟨fun true γ varies => (M.truth_congr_over (.literal isAtom ?_)).2 true,
      fun all => all β fun _ _ => rfl⟩
    exact closed.imp fun _ _ inside v occurs => varies v (Variable.not_fresh below (inside v occurs))
  | @junction scope low middle high operator a b either leftApart rightApart left right =>
    have left := left below
    have right := right fun v member => (below v member).trans_le leftApart.le
    have toLeft : ∀ {γ}, β.Varies free low high γ → M.Truth Variable.identity β a →
        M.Truth Variable.identity γ a.dropUniversals := by
      intro γ varies true
      obtain ⟨δ, restricted, agree⟩ := varies.exists_restriction le_rfl below
      exact (M.truth_dropUniversals_congr leftApart agree).1 ((left β).1 true δ restricted)
    have toRight : ∀ {γ}, β.Varies free low high γ → M.Truth Variable.identity β b →
        M.Truth Variable.identity γ b.dropUniversals := by
      intro γ varies true
      obtain ⟨δ, restricted, agree⟩ := varies.exists_restriction leftApart.le below
      exact (M.truth_dropUniversals_congr rightApart agree).1 ((right β).1 true δ restricted)
    rw [Expr.dropUniversals_binary]
    rcases either with rfl | rfl
    · simp only [truth_and]
      refine ⟨fun true γ varies => ⟨toLeft varies true.1, toRight varies true.2⟩, fun all => ⟨?_, ?_⟩⟩
      · exact (left β).2 fun γ varies => (all γ (varies.mono le_rfl rightApart.le)).1
      · exact (right β).2 fun γ varies => (all γ (varies.mono leftApart.le le_rfl)).2
    · simp only [truth_or]
      refine ⟨fun true γ varies => true.imp (toLeft varies) (toRight varies), fun all => ?_⟩
      -- Values that refute the left side and values that refute the right side can be given at once.
      by_contra neither
      rw [not_or, left β, right β] at neither
      push Not at neither
      obtain ⟨⟨γ, onLeft, notLeft⟩, δ, onRight, notRight⟩ := neither
      obtain ⟨both, varies, taken⟩ := Assignment.exists_varies γ δ free middle high
      have old : ∀ v : Variable, v ∈ scope ∨ v ∈ free → ¬ v.Fresh free middle high := fun v =>
        Variable.not_fresh fun w member => (below w member).trans_le leftApart.le
      have sameLeft : ∀ v : Variable, v ∈ scope ∨ v ∈ free ∨ v.Fresh free low middle →
          both.get v = γ.get v := fun v known => varies v (by
        rcases or_assoc.2 known with known | early
        · exact old v known
        · exact fun late => absurd early.lt_high (not_lt.2 late.low_le))
      have sameRight : ∀ v : Variable, v ∈ scope ∨ v ∈ free ∨ v.Fresh free middle high →
          both.get v = δ.get v := by
        intro v known
        rcases or_assoc.2 known with known | late
        · rw [sameLeft v (or_assoc.1 (.inl known)), onLeft v (Variable.not_fresh below known),
            onRight v (old v known)]
        · exact taken v late
      have wide : β.Varies free low high both := by
        intro v other
        rw [varies v fun late => other (late.mono leftApart.le le_rfl),
          onLeft v fun early => other (early.mono le_rfl rightApart.le)]
      rcases all both wide with true | true
      · exact notLeft ((M.truth_dropUniversals_congr leftApart sameLeft).1 true)
      · exact notRight ((M.truth_dropUniversals_congr rightApart sameRight).1 true)
  | @quantified scope low middle high binder body kind le fresh marked bodyApart inner =>
    obtain ⟨quantifier, bound⟩ := binder
    obtain rfl : quantifier = .universal := kind
    rw [Expr.dropUniversals_universal, truth_universal]
    have belowBody : ∀ v ∈ scope ∪ {v | v ∈ bound}, v.id < middle := by
      rintro v (outer | inside)
      · exact (below v outer).trans_le le
      · exact (fresh v inside).lt_high
    have absent : ∀ v : Variable, ¬ v.Fresh free low middle →
        v.identity ∉ bound.map Variable.identity := by
      intro v other member
      obtain ⟨w, listed, same⟩ := List.mem_map.1 member
      have ids : w.id = v.id := congrArg Prod.fst same
      obtain ⟨low_le, lt_high, new⟩ := fresh w listed
      exact other ⟨ids ▸ low_le, ids ▸ lt_high, same ▸ new⟩
    constructor
    · -- The variables of the quantifier take their values, and inside it those with later numbers.
      intro all γ varies
      let β' : Assignment D := override β (bound.map Variable.identity) γ
      have unchanged : ∀ v : Variable, v ∈ scope ∨ v ∈ free → β'.get v = γ.get v := by
        intro v known
        rw [varies v (Variable.not_fresh below known)]
        exact if_neg (absent v (Variable.not_fresh below known))
      obtain ⟨δ, restricted, taken⟩ := Assignment.exists_varies β' γ free middle high
      refine (M.truth_dropUniversals_congr bodyApart fun v known => ?_).1
        ((inner belowBody β').1 (all γ) δ restricted)
      rcases or_assoc.2 known with known | late
      · rw [restricted v (Variable.not_fresh belowBody known)]
        rcases known with (outer | inside) | isFree
        · exact unchanged v (.inl outer)
        · exact if_pos (List.mem_map_of_mem inside)
        · exact unchanged v (.inr isFree)
      · exact taken v late
    · intro all values
      refine (inner belowBody _).2 fun γ varies => all γ fun v other => ?_
      rw [varies v fun late => other (late.mono le le_rfl)]
      exact if_neg (absent v fun early => other (early.mono le_rfl bodyApart.le))

end Structure

end Refute
