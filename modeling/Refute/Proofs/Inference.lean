import Refute.Inference.Factoring
import Refute.Inference.Resolution
import Refute.Proofs.Unification

/-!
# Inferences

Factoring and resolution lead from clauses that are true to clauses that are true, if the unifiers
are substitutions. `Clause.FactorsTo` and `Clause.ResolvesTo` are the inferences with such unifiers;
between clauses without Skolem functions these are all inferences.
-/

namespace Refute

universe u

namespace Clause

/-- What holds everywhere in a clause and a unifier holds everywhere in the instance. -/
theorem Everywhere.applyToClause {p : Symbol → Nat → Prop} {clause : Clause} {u : Unifier}
    (holds : clause.Everywhere p) (inUnifier : u.Everywhere p) :
    (u.applyToClause clause).Everywhere p := by
  intro image member
  obtain ⟨literal, inside, rfl⟩ := List.mem_map.1 (mem_of_mem_ofList member)
  exact Unifier.everywhere_apply (fun binding bound => (inUnifier binding bound).2)
    (holds literal inside)

/-! ### Pairs that are merged and pairs that are resolved -/

/-- The literal that is found has the sign of the given one and unifies with it. -/
theorem unify_of_mergeWith {hypothesis : List Variable} {first : Expr} {index later : Nat}
    {u : Unifier} {rest : List Expr} (found : mergeWith hypothesis first index rest = some (later, u)) :
    ∃ k second, later = index + k ∧ rest[k]? = some second ∧ first.negated = second.negated ∧
      Expr.unifyRestricted hypothesis first second = .ok u := by
  induction rest generalizing index with
  | nil => simp [mergeWith] at found
  | cons second rest ih =>
    unfold mergeWith at found
    split at found
    · obtain ⟨k, other, rfl, located, unified⟩ := ih found
      exact ⟨k + 1, other, by omega, by simpa using located, unified⟩
    · rename_i signs
      split at found
      · rename_i v unified
        simp only [Option.some.injEq, Prod.mk.injEq] at found
        obtain ⟨rfl, rfl⟩ := found
        exact ⟨0, second, rfl, rfl, by simpa using signs, unified⟩
      · obtain ⟨k, other, rfl, located, unified⟩ := ih found
        exact ⟨k + 1, other, by omega, by simpa using located, unified⟩

/-- The literals of a pair that can be merged have one sign and unify. -/
theorem unify_of_mergeable? {hypothesis : List Variable} {index later : Nat} {u : Unifier}
    {literals : List Expr} (found : mergeable? hypothesis index literals = some (later, u)) :
    ∃ i j first second, i < j ∧ later = index + j ∧ literals[i]? = some first ∧
      literals[j]? = some second ∧ first.negated = second.negated ∧
      Expr.unifyRestricted hypothesis first second = .ok u := by
  induction literals generalizing index with
  | nil => simp [mergeable?] at found
  | cons first rest ih =>
    unfold mergeable? at found
    split at found
    · rename_i merged
      rw [found] at merged
      obtain ⟨k, second, rfl, located, unified⟩ := unify_of_mergeWith merged
      exact ⟨0, k + 1, first, second, by omega, by omega, rfl, by simpa using located, unified⟩
    · obtain ⟨i, j, left, right, less, rfl, atLeft, atRight, unified⟩ := ih found
      exact ⟨i + 1, j + 1, left, right, by omega, by omega, by simpa using atLeft,
        by simpa using atRight, unified⟩

/-- A literal that unifies with a later one of the same sign merges with some. -/
theorem mergeWith_ne_none {hypothesis : List Variable} {earlier later : Expr} {index k : Nat}
    {rest : List Expr} {u : Unifier} (located : rest[k]? = some later)
    (signs : earlier.negated = later.negated)
    (unified : Expr.unifyRestricted hypothesis earlier later = .ok u) :
    mergeWith hypothesis earlier index rest ≠ none := by
  induction rest generalizing index k with
  | nil => simp at located
  | cons next rest ih =>
    unfold mergeWith
    cases k with
    | zero =>
      obtain rfl : next = later := by simpa using located
      simp [signs, unified]
    | succ k =>
      have others := @ih (index + 1) k (by simpa using located)
      split
      · exact others
      · split
        · simp
        · exact others

/-- If nothing can be merged, no two literals of one sign unify. -/
theorem mergeable?_ne_none {hypothesis : List Variable} {earlier later : Expr} {index i j : Nat}
    {literals : List Expr} {u : Unifier} (less : i < j) (atEarlier : literals[i]? = some earlier)
    (atLater : literals[j]? = some later) (signs : earlier.negated = later.negated)
    (unified : Expr.unifyRestricted hypothesis earlier later = .ok u) :
    mergeable? hypothesis index literals ≠ none := by
  induction literals generalizing index i j with
  | nil => simp at atEarlier
  | cons next rest ih =>
    obtain ⟨j, rfl⟩ : ∃ k, j = k + 1 := ⟨j - 1, by omega⟩
    unfold mergeable?
    split
    · simp
    · rename_i none
      cases i with
      | zero =>
        obtain rfl : next = earlier := by simpa using atEarlier
        exact absurd none (mergeWith_ne_none (by simpa using atLater) signs unified)
      | succ i =>
        exact ih (i := i) (j := j) (by omega) (by simpa using atEarlier) (by simpa using atLater)

/-- A resolvent is what remains of both clauses under the unifier of two of their literals. -/
theorem mem_resolve_iff {hypothesis : List Variable} {first second resolvent : Clause} :
    resolvent ∈ first.resolve hypothesis second ↔
      ∃ i j left right u, first.literals[i]? = some left ∧ second.literals[j]? = some right ∧
        Expr.resolvingUnifier hypothesis left right.negate = .ok u ∧
        resolvent =
          (u.applyToClause (first.without i)).merge (u.applyToClause (second.without j)) := by
  simp only [resolve, List.mem_flatMap, List.mem_filterMap, Prod.exists,
    List.mem_zipIdx_iff_getElem?, resolveAt]
  constructor
  · rintro ⟨left, i, atLeft, right, j, atRight, resolved⟩
    split at resolved
    · cases resolved
    · rename_i u unified
      exact ⟨i, j, left, right, u, atLeft, atRight, unified, (Option.some.inj resolved).symm⟩
  · rintro ⟨i, j, left, right, u, atLeft, atRight, unified, rfl⟩
    exact ⟨left, i, atLeft, right, j, atRight, by simp [unified]⟩

/-- Literals resolve if they have opposite signs and unify. -/
theorem resolvingUnifier_eq_ok_iff {hypothesis : List Variable} {left right : Expr} {u : Unifier} :
    Expr.resolvingUnifier hypothesis left right.negate = .ok u ↔
      left.negated = !right.negated ∧ Expr.unifyRestricted hypothesis left right.negate = .ok u := by
  have negation : right.negate.negated = !right.negated := rfl
  rw [Expr.resolvingUnifier, negation]
  cases left.negated <;> cases right.negated <;> simp

/-- Literals resolve if their signs differ and the one unifies with the negation of the other. -/
theorem unify_of_resolvingUnifier {hypothesis : List Variable} {left right : Expr} {u : Unifier}
    (resolved : Expr.resolvingUnifier hypothesis left right.negate = .ok u) :
    left.negated = !right.negated ∧ Expr.unifyRestricted hypothesis left right.negate = .ok u :=
  resolvingUnifier_eq_ok_iff.1 resolved

/-- Literals that stand at the same place are matched when their signs and kinds agree and they
unify. -/
theorem matchLiterals_eq_some_iff {u v : Unifier} {pair : Expr × Expr} :
    matchLiterals u pair = some v ↔ pair.1.negated = pair.2.negated ∧ pair.1.kind = pair.2.kind ∧
      u.unify pair.1 pair.2 = .ok v := by
  unfold matchLiterals
  cases u.unify pair.1 pair.2 <;> simp [Except.toOption, and_assoc]

/-- Clauses match by place when they have as many literals and these are matched by one unifier
without a forbidden binding. -/
theorem matchesByPlace_iff {hypothesis : List Variable} {candidate existing : Clause} :
    candidate.matchesByPlace hypothesis existing ↔
      candidate.literals.length = existing.literals.length ∧
        ∃ u, (candidate.literals.zip existing.literals).foldlM matchLiterals Unifier.empty = some u ∧
          ∀ binding ∈ u.bindings, binding.isRestricted hypothesis = false := by
  unfold matchesByPlace
  cases (candidate.literals.zip existing.literals).foldlM matchLiterals Unifier.empty <;>
    simp [length]

/-- What every merge preserves is preserved by factoring. -/
theorem factor_invariant {hypothesis : List Variable} {P : Clause → Prop} {clause : Clause}
    (merge : ∀ clause later u, P clause → mergeable? hypothesis 0 clause.literals = some (later, u) →
      P (u.applyToClause (clause.without later)))
    (start : P clause) : P (clause.factor hypothesis) := by
  have within : ∀ (merges : Nat) (clause : Clause), P clause →
      P (factorWithin hypothesis merges clause) := by
    intro merges
    induction merges with
    | zero => exact fun _ => id
    | succ merges ih =>
      intro clause holds
      unfold factorWithin factorOnce
      cases found : mergeable? hypothesis 0 clause.literals with
      | none => exact holds
      | some pair => exact ih _ (merge clause pair.1 pair.2 holds found)
  exact within clause.length clause start

/-! ### Inferences by substitution -/

/-- What merging pairs of literals makes of a clause if the unifiers are substitutions. -/
inductive FactorsTo (hypothesis : List Variable) (clause : Clause) : Clause → Prop
  /-- Nothing is merged. -/
  | refl : FactorsTo hypothesis clause clause
  /-- The first pair of what was reached is merged. -/
  | merge {reached : Clause} {later : Nat} {u : Unifier}
      (before : FactorsTo hypothesis clause reached)
      (found : mergeable? hypothesis 0 reached.literals = some (later, u))
      (substitution : u.IsSubstitution) :
      FactorsTo hypothesis clause (u.applyToClause (reached.without later))

/-- What resolving two clauses comes to if the unifier is a substitution. -/
inductive ResolvesTo (hypothesis : List Variable) (first second : Clause) : Clause → Prop
  /-- Two literals are resolved. -/
  | on {i j : Nat} {left right : Expr} {u : Unifier} (atLeft : first.literals[i]? = some left)
      (atRight : second.literals[j]? = some right)
      (resolved : Expr.resolvingUnifier hypothesis left right.negate = .ok u)
      (substitution : u.IsSubstitution) :
      ResolvesTo hypothesis first second
        ((u.applyToClause (first.without i)).merge (u.applyToClause (second.without j)))

/-- Merging a pair keeps what holds everywhere in a clause. -/
theorem Everywhere.mergePair {p : Symbol → Nat → Prop} {hypothesis : List Variable} {clause : Clause}
    {later : Nat} {u : Unifier} (holds : clause.Everywhere p)
    (found : mergeable? hypothesis 0 clause.literals = some (later, u)) :
    (u.applyToClause (clause.without later)).Everywhere p := by
  obtain ⟨i, j, first, second, -, -, atFirst, atSecond, -, unified⟩ := unify_of_mergeable? found
  exact (holds.without later).applyToClause (Expr.everywhere_of_unifyRestricted unified
    (holds first (List.mem_of_getElem? atFirst)) (holds second (List.mem_of_getElem? atSecond)))

/-- Factoring keeps what holds everywhere in a clause. -/
theorem Everywhere.factor {p : Symbol → Nat → Prop} {clause : Clause} (holds : clause.Everywhere p)
    (hypothesis : List Variable) : (clause.factor hypothesis).Everywhere p :=
  factor_invariant (fun _ _ _ => Everywhere.mergePair) holds

/-- Resolution keeps what holds everywhere in two clauses. -/
theorem Everywhere.resolve {p : Symbol → Nat → Prop} {hypothesis : List Variable}
    {first second resolvent : Clause} (inFirst : first.Everywhere p) (inSecond : second.Everywhere p)
    (member : resolvent ∈ first.resolve hypothesis second) : resolvent.Everywhere p := by
  obtain ⟨i, j, left, right, u, atLeft, atRight, resolved, rfl⟩ := mem_resolve_iff.1 member
  have inUnifier := Expr.everywhere_of_unifyRestricted (unify_of_resolvingUnifier resolved).2
    (inFirst left (List.mem_of_getElem? atLeft))
    ((Expr.everywhere_signed _).2 (inSecond right (List.mem_of_getElem? atRight)))
  exact ((inFirst.without i).applyToClause inUnifier).merge
    ((inSecond.without j).applyToClause inUnifier)

/-- No Skolem function occurs in the clause. -/
def SkolemFree (clause : Clause) : Prop := ∀ literal ∈ clause.literals, literal.SkolemFree

/-- Variables stand alone in the clause. -/
def FirstOrder (clause : Clause) : Prop := ∀ literal ∈ clause.literals, literal.FirstOrder

/-- Clauses without Skolem functions are factored by substitution. -/
theorem SkolemFree.factorsTo {clause : Clause} (skolemFree : clause.SkolemFree)
    (firstOrder : clause.FirstOrder) (hypothesis : List Variable) :
    clause.FactorsTo hypothesis (clause.factor hypothesis) := by
  have start : clause.SkolemFree ∧ clause.FirstOrder ∧ clause.FactorsTo hypothesis clause :=
    ⟨skolemFree, firstOrder, .refl⟩
  refine (factor_invariant (P := fun reached =>
    reached.SkolemFree ∧ reached.FirstOrder ∧ clause.FactorsTo hypothesis reached) ?_ start).2.2
  rintro reached later u ⟨free, order, factors⟩ found
  obtain ⟨i, j, first, second, -, -, atFirst, atSecond, -, unified⟩ := unify_of_mergeable? found
  have inFirst := List.mem_of_getElem? atFirst
  have inSecond := List.mem_of_getElem? atSecond
  have binds := Expr.bindsVariables_of_unifyRestricted unified (free first inFirst)
    (free second inSecond)
  have substitution := Expr.isSubstitution_of_unifyRestricted unified (order first inFirst)
    (order second inSecond) binds
  exact ⟨Everywhere.mergePair free found, Everywhere.mergePair order found,
    factors.merge found substitution⟩

/-- Clauses without Skolem functions are resolved by substitution. -/
theorem SkolemFree.resolvesTo {hypothesis : List Variable} {first second resolvent : Clause}
    (inFirst : first.SkolemFree) (inSecond : second.SkolemFree) (firstOrder : first.FirstOrder)
    (secondOrder : second.FirstOrder) (member : resolvent ∈ first.resolve hypothesis second) :
    first.ResolvesTo hypothesis second resolvent := by
  obtain ⟨i, j, left, right, u, atLeft, atRight, resolved, rfl⟩ := mem_resolve_iff.1 member
  have unified := (unify_of_resolvingUnifier resolved).2
  have leftMember := List.mem_of_getElem? atLeft
  have rightMember := List.mem_of_getElem? atRight
  have binds := Expr.bindsVariables_of_unifyRestricted unified (inFirst left leftMember)
    ((Expr.everywhere_signed _).2 (inSecond right rightMember))
  have substitution := Expr.isSubstitution_of_unifyRestricted unified (firstOrder left leftMember)
    ((Expr.everywhere_signed _).2 (secondOrder right rightMember)) binds
  exact .on atLeft atRight resolved substitution

end Clause

namespace Structure

variable {D : Type u} {M : Structure D} {fixed : List Variable} {α : Assignment D}

/-- A true literal of a clause is the one that is taken out, or another one is true. -/
theorem someTrue_without {β : Assignment D} {clause : Clause} (index : Nat)
    (someTrue : M.SomeTrue β.get clause.literals) :
    M.SomeTrue β.get (clause.without index).literals ∨
      ∃ literal, clause.literals[index]? = some literal ∧ M.holds (M.value β.get literal) := by
  obtain ⟨literal, member, holds⟩ := someTrue
  obtain ⟨k, located⟩ := List.mem_iff_getElem?.1 member
  by_cases same : k = index
  · exact .inr ⟨literal, same ▸ located, holds⟩
  · refine .inl ((M.someTrue_ofList β _).2 ⟨literal, ?_, holds⟩)
    exact List.mem_eraseIdx_iff_getElem?.2 ⟨k, same, located⟩

/-- An instance is true when the clause is under an assignment that gives terms the values of their
instances. -/
theorem someTrue_applyToClause {β β' : Assignment D} {clause : Clause} {u : Unifier}
    (firstOrder : ∀ literal ∈ clause.literals, literal.FirstOrder)
    (instances : ∀ term : Expr, term.FirstOrder → M.value β'.get term = M.value β.get (u.apply term))
    (someTrue : M.SomeTrue β'.get clause.literals) :
    M.SomeTrue β.get (u.applyToClause clause).literals := by
  obtain ⟨literal, member, holds⟩ := someTrue
  refine (M.someTrue_ofList β _).2 ⟨u.apply literal, List.mem_map_of_mem member, ?_⟩
  rwa [← instances literal (firstOrder literal member)]

/-- Merging a pair of literals keeps a clause true. -/
theorem Satisfies.merge {clause : Clause} {later : Nat} {u : Unifier}
    (satisfied : M.Satisfies fixed α clause)
    (found : Clause.mergeable? fixed 0 clause.literals = some (later, u))
    (substitution : u.IsSubstitution) :
    M.Satisfies fixed α (u.applyToClause (clause.without later)) := by
  obtain ⟨i, j, first, second, less, rfl, atFirst, atSecond, signs, unified⟩ :=
    Clause.unify_of_mergeable? found
  rw [Nat.zero_add] at *
  have inFirst := satisfied.firstOrder first (List.mem_of_getElem? atFirst)
  have inSecond := satisfied.firstOrder second (List.mem_of_getElem? atSecond)
  have rest : (clause.without j).Everywhere _ := Clause.Everywhere.without satisfied.firstOrder j
  refine ⟨rest.applyToClause (Expr.everywhere_of_unifyRestricted unified inFirst inSecond),
    fun β agrees => ?_⟩
  obtain ⟨β', keeps, atoms, instances⟩ :=
    Expr.exists_instance_of_unifyRestricted unified substitution M β
  have before := satisfied.someTrue β' fun v member => (keeps v member).trans (agrees v member)
  apply someTrue_applyToClause rest instances
  obtain someTrue | ⟨literal, located, holds⟩ := someTrue_without j before
  · exact someTrue
  · -- The literal taken out is true, so the one it is merged with is.
    obtain rfl : second = literal := Option.some.inj (atSecond.symm.trans located)
    rw [← M.value_congr_atom signs atoms] at holds
    refine (M.someTrue_ofList β' _).2 ⟨first, ?_, holds⟩
    exact List.mem_eraseIdx_iff_getElem?.2 ⟨i, by omega, atFirst⟩

/-- Factoring keeps a clause true. -/
theorem Satisfies.factorsTo {clause factored : Clause} (satisfied : M.Satisfies fixed α clause)
    (factors : clause.FactorsTo fixed factored) : M.Satisfies fixed α factored := by
  induction factors with
  | refl => exact satisfied
  | merge _ found substitution ih => exact ih.merge found substitution

/-- A resolvent of true clauses is true. -/
theorem Satisfies.resolvesTo {first second resolvent : Clause}
    (inFirst : M.Satisfies fixed α first) (inSecond : M.Satisfies fixed α second)
    (resolves : first.ResolvesTo fixed second resolvent) : M.Satisfies fixed α resolvent := by
  obtain @⟨i, j, left, right, u, atLeft, atRight, resolved, substitution⟩ := resolves
  obtain ⟨signs, unified⟩ := Clause.unify_of_resolvingUnifier resolved
  have leftOrder := inFirst.firstOrder left (List.mem_of_getElem? atLeft)
  have rightOrder : right.negate.FirstOrder :=
    (Expr.everywhere_signed _).2 (inSecond.firstOrder right (List.mem_of_getElem? atRight))
  have firstRest : (first.without i).Everywhere _ := Clause.Everywhere.without inFirst.firstOrder i
  have secondRest : (second.without j).Everywhere _ := Clause.Everywhere.without inSecond.firstOrder j
  have order := Expr.everywhere_of_unifyRestricted unified leftOrder rightOrder
  refine ⟨(firstRest.applyToClause order).merge (secondRest.applyToClause order),
    fun β agrees => (M.someTrue_merge β _ _).2 ?_⟩
  obtain ⟨β', keeps, atoms, instances⟩ :=
    Expr.exists_instance_of_unifyRestricted unified substitution M β
  have agrees' := fun v member => (keeps v member).trans (agrees v member)
  obtain someTrue | ⟨literal, located, holds⟩ := someTrue_without i (inFirst.someTrue β' agrees')
  · exact .inl (someTrue_applyToClause firstRest instances someTrue)
  obtain someTrue | ⟨other, locatedOther, holdsOther⟩ :=
    someTrue_without j (inSecond.someTrue β' agrees')
  · exact .inr (someTrue_applyToClause secondRest instances someTrue)
  -- The literals resolved upon have opposite signs and the same value without them.
  obtain rfl : left = literal := Option.some.inj (atLeft.symm.trans located)
  obtain rfl : right = other := Option.some.inj (atRight.symm.trans locatedOther)
  have opposite : M.value β'.get left = M.complement (M.value β'.get right) := by
    rw [M.value_eq, atoms, signs]
    change M.signed (!right.negated) (M.atomValue β'.get right) = _
    rw [M.value_eq]
    cases right.negated <;> simp [M.complement_complement]
  rw [opposite, M.holds_complement] at holds
  exact absurd holdsOther holds

end Structure

end Refute
