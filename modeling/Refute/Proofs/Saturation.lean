import Refute.Proofs.Restriction
import Refute.Proofs.Run

/-!
# Saturation

A search ends with saturation when every factored resolvent of two clauses that are held is a
duplicate of a clause that is held.

A clause is a duplicate of another one if they are equal or unify literal by literal. In the second
case they have an instance in common, which is true where the other clause is. The duplicate itself
is true there if the unifier can be undone on it, as it can when it only gives other names to
variables. It need not be true otherwise: `P(x)` is a duplicate of `P(a)`. So saturation does not
mean that the clauses can be true together.
-/

namespace Refute

universe u

/-! ### Truth of instances -/

/-- Wherever the premise is true, the conclusion is true for the same values of the fixed
variables. -/
def Clause.Entails (fixed : List Variable) (premise conclusion : Clause) : Prop :=
  ∀ (D : Type u) (M : Structure D) (α : Assignment D),
    M.Satisfies fixed α premise → M.Satisfies fixed α conclusion

/-- The values of the terms that a substitution gives to variables. -/
def Substitution.assignment {D : Type u} (θ : Substitution) (M : Structure D) (β : Assignment D) :
    Assignment D :=
  fun identity => M.value β.get (θ.term identity)

namespace Structure

variable {D : Type u} (M : Structure D) (β : Assignment D) {θ : Substitution}

/-- Expressions that coincide have the same value. -/
theorem value_coincides {e f : Expr} (same : e.Coincides f) :
    M.value β.get e = M.value β.get f := by
  induction e using Expr.induction generalizing f with
  | node head negated args ih =>
    obtain ⟨signs, heads, arguments⟩ := Expr.coincides_iff.1 same
    have operations : M.headValue β.get head = M.headValue β.get f.head := by
      rcases heads with equal | equal
      · exact M.headValue_congr β equal
      · exact congrArg (M.headValue β.get) equal
    have values : args.map (M.value β.get) = f.args.map (M.value β.get) := by
      rw [← List.forall₂_eq_eq_eq, List.forall₂_map_left_iff, List.forall₂_map_right_iff]
      exact forall₂_imp_of_mem (fun arg member _ => ih arg member) arguments
    refine M.value_congr_atom signs ?_
    rw [atomValue, atomValue, operations, values]

/-- An expression has, for the values of the terms, the value of its instance. -/
theorem value_assignment (e : Expr) :
    M.value (θ.assignment M β).get e = M.value β.get (e.subst θ) :=
  (M.value_subst β.get θ e).symm

/-- A variable that is fixed keeps its value. -/
theorem get_assignment {fixed : List Variable} (fixes : θ.Fixes fixed) {v : Variable}
    (member : v ∈ fixed) : (θ.assignment M β).get v = β.get v :=
  M.value_congr β (fixes v member)

/-- The instances of a true clause are true if the substitution fixes the fixed variables. -/
theorem Satisfies.exists_subst {M : Structure D} {fixed : List Variable} {α β : Assignment D}
    {clause : Clause} (satisfied : M.Satisfies fixed α clause) (fixes : θ.Fixes fixed)
    (agrees : ∀ v ∈ fixed, β.get v = α.get v) :
    ∃ literal ∈ clause.literals, M.holds (M.value β.get (literal.subst θ)) := by
  obtain ⟨literal, member, true⟩ := satisfied.someTrue (θ.assignment M β) fun v member =>
    (M.get_assignment β fixes member).trans (agrees v member)
  exact ⟨literal, member, M.value_assignment β literal ▸ true⟩

end Structure

/-! ### Unification of several pairs of terms -/

/-- Variables stand alone, and there are no Skolem functions. -/
def Symbol.Plain (head : Symbol) (count : Nat) : Prop :=
  (∀ v, head = .var v → count = 0) ∧ ∀ s, head ≠ .skolem s

/-- Variables stand alone in a plain expression. -/
theorem Expr.firstOrder_of_plain {e : Expr} (plain : e.Everywhere Symbol.Plain) : e.FirstOrder :=
  plain.imp fun _ _ root => root.1

namespace Unifier

variable {u v : Unifier} {left right : Expr}

/-- Unification only adds bindings, and what solves them all unifies the terms. -/
theorem unifies_of_run (θ : Substitution) {moves : Nat}
    (unified : unifyWithin moves u left right = .ok v) :
    u.bindings ⊆ v.bindings ∧ (v.SolvedBy θ → θ.Unifies left right) := by
  refine unifyWithin_induction
    (fun u left right v => u.bindings ⊆ v.bindings ∧ (v.SolvedBy θ → θ.Unifies left right))
    (fun u as bs v => u.bindings ⊆ v.bindings ∧
      (v.SolvedBy θ → List.Forall₂ (fun a b => (a.subst θ).Coincides (b.subst θ)) as bs))
    ?agree ?swap ?follow ?bind ?descend ?nil ?cons unified
  case agree => exact fun u left right same => ⟨List.Subset.refl _, fun _ => θ.unifies_of_sameAtom same⟩
  case swap => exact fun u left right v turned => ⟨turned.1, fun all => (turned.2 all).symm⟩
  case follow =>
    rintro u left right bound v located ⟨added, unifies⟩
    have before : v.SolvedBy θ → u.SolvedBy θ := fun all binding member => all binding (added member)
    exact ⟨added, fun all => ((before all).unifies located).trans (unifies all)⟩
  case bind =>
    intro u left right image _ _ _ _
    exact ⟨List.subset_append_left _ _, fun all => (solvedBy_bind.1 all).2⟩
  case descend =>
    rintro u left right v noLeft noRight heads ⟨added, arguments⟩
    refine ⟨added, fun all => ?_⟩
    exact (θ.unifies_applications (Expr.isVariable_of_isUnknown noLeft)
      (Expr.isVariable_of_isUnknown noRight)).2 ⟨.inl heads, arguments all⟩
  case nil => exact fun u => ⟨List.Subset.refl _, fun _ => .nil⟩
  case cons =>
    rintro u a b v as bs w signs ⟨added, first⟩ ⟨more, rest⟩
    refine ⟨List.Subset.trans added more, fun all => .cons ?_ (rest all)⟩
    exact (first fun binding member => all binding (more member)).coincides signs

/-- Unification of plain terms keeps a unifier solved and plain. -/
theorem solved_of_run {moves : Nat} (unified : unifyWithin moves u left right = .ok v)
    (start : u.Solved ∧ u.Everywhere Symbol.Plain) (inLeft : left.Everywhere Symbol.Plain)
    (inRight : right.Everywhere Symbol.Plain) : v.Solved ∧ v.Everywhere Symbol.Plain := by
  refine unifyWithin_invariant (P := fun u => u.Solved ∧ u.Everywhere Symbol.Plain)
    (fun _ holds => holds.2) ?_ unified start inLeft inRight
  rintro u left right image ⟨solved, plain⟩ inLeft inRight isUnknown free found absent
  refine ⟨?_, plain.bind inLeft inRight⟩
  have noSkolem := (Expr.everywhere_iff.1 inLeft).1.2
  exact solved.bind_unknown (Expr.firstOrder_of_plain inLeft)
    (isVariable_of_noSkolem noSkolem isUnknown) free found absent

/-- If plain terms are unified pair by pair, the unifier is solved, and what solves it unifies the
terms of every pair. -/
theorem solved_of_unifyAll {pairs : List (Expr × Expr)}
    (plain : ∀ pair ∈ pairs, pair.1.Everywhere Symbol.Plain ∧ pair.2.Everywhere Symbol.Plain)
    (unified : pairs.foldlM (fun u pair => u.unify pair.1 pair.2) empty = .ok u) :
    (u.Solved ∧ u.Everywhere Symbol.Plain) ∧
      ∀ θ, u.SolvedBy θ → ∀ pair ∈ pairs, θ.Unifies pair.1 pair.2 := by
  have step : ∀ (u : Unifier) (pair : Expr × Expr) (v : Unifier),
      u.Solved ∧ u.Everywhere Symbol.Plain → pair ∈ pairs → u.unify pair.1 pair.2 = .ok v →
      (v.Solved ∧ v.Everywhere Symbol.Plain) ∧ (∀ θ, v.SolvedBy θ → θ.Unifies pair.1 pair.2) ∧
        ∀ other : Expr × Expr, (∀ θ, u.SolvedBy θ → θ.Unifies other.1 other.2) →
          ∀ θ, v.SolvedBy θ → θ.Unifies other.1 other.2 := by
    intro u pair v start member run
    refine ⟨solved_of_run run start (plain pair member).1 (plain pair member).2,
      fun θ => (unifies_of_run θ run).2, fun other before θ all => before θ ?_⟩
    exact fun binding old => all binding ((unifies_of_run θ run).1 old)
  have start : empty.Solved ∧ empty.Everywhere Symbol.Plain :=
    ⟨solved_empty, fun _ member => absurd member List.not_mem_nil⟩
  obtain ⟨holds, each, -⟩ := foldlM_ok step start unified
  exact ⟨holds, fun θ all pair member => each pair member θ all⟩

end Unifier

/-! ### Duplicates -/

namespace Clause

variable {hypothesis : List Variable} {candidate existing : Clause} {u : Unifier}

/-- The unifier that makes two clauses equal literal by literal, if there is one. -/
def matcher? (candidate existing : Clause) : Option Unifier :=
  (candidate.literals.zip existing.literals).foldlM matchLiterals Unifier.empty

/-- Some substitution that fixes the variables of the hypothesis takes the instances of the literals
back to the literals. -/
def Recovers (hypothesis : List Variable) (u : Unifier) (clause : Clause) : Prop :=
  ∃ ρ : Substitution, ρ.Fixes hypothesis ∧
    ∀ literal ∈ clause.literals, ((u.apply literal).subst ρ).Coincides literal

/-- Matching literals unifies them, and their signs agree. -/
theorem unifyAll_of_matchLiterals {pairs : List (Expr × Expr)} {u v : Unifier}
    (matched : pairs.foldlM matchLiterals u = some v) :
    pairs.foldlM (fun u pair => u.unify pair.1 pair.2) u = .ok v ∧
      ∀ pair ∈ pairs, pair.1.negated = pair.2.negated := by
  induction pairs generalizing u with
  | nil => exact ⟨congrArg Except.ok (Option.some.inj matched), List.forall_mem_nil _⟩
  | cons pair pairs ih =>
    rw [List.foldlM_cons] at matched
    obtain ⟨w, first, others⟩ := Option.bind_eq_some_iff.1 matched
    obtain ⟨signs, -, unified⟩ := matchLiterals_eq_some_iff.1 first
    obtain ⟨rest, agree⟩ := ih others
    refine ⟨?_, List.forall_mem_cons.2 ⟨signs, agree⟩⟩
    rw [List.foldlM_cons, bind_eq_ok_iff]
    exact ⟨w, unified, rest⟩

/-- Clauses that match by place have the same instance under the unifier, which is solved. -/
theorem forall₂_of_matcher? (inCandidate : candidate.Everywhere Symbol.Plain)
    (inExisting : existing.Everywhere Symbol.Plain)
    (lengths : candidate.literals.length = existing.literals.length)
    (matched : candidate.matcher? existing = some u) :
    u.Solved ∧ u.Everywhere Symbol.Plain ∧
      List.Forall₂ (fun a b => (u.apply a).Coincides (u.apply b)) candidate.literals
        existing.literals := by
  obtain ⟨unified, signs⟩ := unifyAll_of_matchLiterals matched
  have plain : ∀ pair ∈ candidate.literals.zip existing.literals,
      pair.1.Everywhere Symbol.Plain ∧ pair.2.Everywhere Symbol.Plain := fun pair member =>
    ⟨inCandidate _ (List.of_mem_zip member).1, inExisting _ (List.of_mem_zip member).2⟩
  obtain ⟨⟨solved, inUnifier⟩, unifies⟩ := Unifier.solved_of_unifyAll plain unified
  have solution := solved.solvedBy_toSubstitution fun binding member =>
    Expr.firstOrder_of_plain (inUnifier binding member).2
  refine ⟨solved, inUnifier, List.forall₂_iff_zip.2 ⟨lengths, fun {a b} member => ?_⟩⟩
  have same := (unifies _ solution (a, b) member).coincides (signs (a, b) member)
  have left := solved.coincides_toSubstitution (Expr.firstOrder_of_plain (plain _ member).1)
  have right := solved.coincides_toSubstitution (Expr.firstOrder_of_plain (plain _ member).2)
  exact (left.symm.trans same).trans right

/-- A clause that is equal to a true clause is true. -/
theorem entails_of_beq (firstOrder : candidate.FirstOrder) (equal : candidate == existing) :
    existing.Entails hypothesis candidate := by
  intro D M α satisfied
  refine ⟨firstOrder, fun β agrees => ?_⟩
  obtain ⟨literal, member, true⟩ := satisfied.someTrue β agrees
  have contained := List.all_eq_true.1 (Bool.and_eq_true_iff.1 equal).2 literal member
  obtain ⟨other, inside, same⟩ := List.contains_iff_exists_mem_beq.1 contained
  exact ⟨other, inside, M.value_congr β same ▸ true⟩

/-- Where a clause is true, the instance is true that it has in common with a clause that matches
it by place. -/
theorem entails_applyToClause (solved : u.Solved) (inUnifier : u.Everywhere Symbol.Plain)
    (allowed : ∀ binding ∈ u.bindings, binding.isRestricted hypothesis = false)
    (inCandidate : candidate.Everywhere Symbol.Plain)
    (common : List.Forall₂ (fun a b => (u.apply a).Coincides (u.apply b)) candidate.literals
      existing.literals) :
    existing.Entails hypothesis (u.applyToClause candidate) := by
  intro D M α satisfied
  refine ⟨fun literal member => ?_, fun β agrees => ?_⟩
  · exact Expr.firstOrder_of_plain (inCandidate.applyToClause inUnifier literal member)
  · obtain ⟨other, member, true⟩ :=
      satisfied.exists_subst (solved.fixes_toSubstitution allowed) agrees
    obtain ⟨literal, inside, same⟩ := exists_of_forall₂ common.flip member
    have back := solved.coincides_toSubstitution (satisfied.firstOrder other member)
    refine (M.someTrue_ofList β _).2 ⟨u.apply literal, List.mem_map_of_mem inside, ?_⟩
    rw [M.value_coincides β (Expr.Coincides.trans same back.symm)]
    exact true

/-- A clause is true where its instance is, if it can be recovered from it. -/
theorem entails_of_recovers (firstOrder : candidate.FirstOrder)
    (recovers : candidate.Recovers hypothesis u) :
    (u.applyToClause candidate).Entails hypothesis candidate := by
  intro D M α satisfied
  obtain ⟨ρ, fixes, back⟩ := recovers
  refine ⟨firstOrder, fun β agrees => ?_⟩
  obtain ⟨image, member, true⟩ := satisfied.exists_subst fixes agrees
  obtain ⟨literal, inside, rfl⟩ := List.mem_map.1 (mem_of_mem_ofList member)
  exact ⟨literal, inside, M.value_coincides β (back literal inside) ▸ true⟩

/-- A clause without Skolem functions that is a duplicate of another one is equal to it, and true
where it is; or one unifier that does not touch the hypothesis makes the clauses the same literal by
literal, and where the other clause is true the instance under the unifier is true, and the
duplicate itself if it can be recovered from the instance. -/
theorem entails_of_isDuplicate
    (plain : ∀ clause ∈ [candidate, existing], clause.FirstOrder ∧ clause.SkolemFree)
    (duplicate : candidate.isDuplicate hypothesis existing) :
    candidate == existing ∧ existing.Entails.{u} hypothesis candidate ∨
      ∃ u, candidate.matcher? existing = some u ∧
        (∀ v ∈ hypothesis, u.apply (.ofVariable v) = .ofVariable v) ∧
        List.Forall₂ (fun a b => (u.apply a).Coincides (u.apply b)) candidate.literals
          existing.literals ∧
        existing.Entails.{u} hypothesis (u.applyToClause candidate) ∧
        (candidate.Recovers hypothesis u → existing.Entails.{u} hypothesis candidate) := by
  have inCandidate := plain candidate List.mem_cons_self
  have inExisting := plain existing (List.mem_cons_of_mem _ List.mem_cons_self)
  rcases Bool.or_eq_true_iff.1 duplicate with equal | placed
  · exact .inl ⟨equal, entails_of_beq inCandidate.1 equal⟩
  · obtain ⟨lengths, u, matched, allowed⟩ := matchesByPlace_iff.1 placed
    have first : candidate.Everywhere Symbol.Plain := fun literal member =>
      (inCandidate.1 literal member).and (inCandidate.2 literal member)
    have second : existing.Everywhere Symbol.Plain := fun literal member =>
      (inExisting.1 literal member).and (inExisting.2 literal member)
    obtain ⟨solved, inUnifier, common⟩ := forall₂_of_matcher? first second lengths matched
    have entailed := entails_applyToClause solved inUnifier allowed first common
    refine .inr ⟨u, matched, fun v fixed => ?_, common, entailed, fun recovers D M α satisfied => ?_⟩
    · exact solved.total.apply_free (Unifier.lookup?_eq_none_of_allowed allowed fixed)
    · exact entails_of_recovers inCandidate.1 recovers D M α (entailed D M α satisfied)

/-- The clause `P(y) | Q(y, h)` is a duplicate of `P(x) | Q(x, h)`, where `h` is a variable of the
hypothesis. The unifier takes `y` to `x`, which can be undone, and so the first is true where the
second is. -/
theorem entails_of_isDuplicate_renamed :
    let x : Variable := ⟨"x", 0, true, true⟩
    let y : Variable := ⟨"y", 1, true, true⟩
    let h : Variable := ⟨"h", 2, true, false⟩
    let clause : Variable → Clause := fun v => ⟨[.node (.rel ⟨⟨"P", 1, none⟩⟩) [.ofVariable v],
      .node (.rel ⟨⟨"Q", 2, none⟩⟩) [.ofVariable v, .ofVariable h]]⟩
    (∀ c ∈ [clause y, clause x], c.FirstOrder ∧ c.SkolemFree) ∧
      (clause y).isDuplicate [h] (clause x) ∧ (clause y == clause x) = false ∧
      (clause y).Recovers [h] ⟨[⟨.ofVariable y, .ofVariable x⟩]⟩ ∧
      (clause x).Entails.{0} [h] (clause y) := by
  intro x y h clause
  have plain : ∀ c ∈ [clause y, clause x], c.FirstOrder ∧ c.SkolemFree := by
    simp [clause, FirstOrder, SkolemFree, Expr.FirstOrder, Expr.SkolemFree, Expr.Everywhere,
      Expr.EverywhereArgs, Expr.node, Expr.ofVariable, Expr.leaf]
  have duplicate : (clause y).isDuplicate [h] (clause x) := rfl
  have different : (clause y == clause x) = false := rfl
  have recovers : (clause y).Recovers [h] ⟨[⟨.ofVariable y, .ofVariable x⟩]⟩ := by
    refine ⟨⟨fun identity => if identity.1 = 2 then .ofVariable h else .ofVariable y, ?_⟩, ?_, ?_⟩
    · intro identity
      split <;> rfl
    · exact List.forall_mem_singleton.2 rfl
    · refine List.forall_mem_cons.2 ⟨?_, List.forall_mem_singleton.2 ?_⟩
      all_goals exact Expr.Coincides.refl _
  refine ⟨plain, duplicate, different, recovers, ?_⟩
  rcases entails_of_isDuplicate plain duplicate with ⟨equal, -⟩ | ⟨u, matched, -, -, -, follows⟩
  · rw [different] at equal
    cases equal
  · obtain rfl := Option.some.inj matched
    exact follows recovers

end Clause

/-- Truth values; every operation returns its first argument, and `true` if it has none. -/
def Structure.firstArgument : Structure Bool where
  inhabited := ⟨true⟩
  operation _ arguments := arguments.headD true
  complement := not
  holds value := value = true
  operation_congr _ := rfl
  complement_complement := Bool.not_not
  holds_complement := @Bool.not_iff_not

/-- The clause `P(x)` is a duplicate of `P(a)`, but it does not follow from it. Since duplicates are
dropped, a search ends with saturation on five clauses that cannot all be true: the resolvents `P(x,
b)` and `Q(b, y)` of the first with the second and the fifth count as duplicates of `P(a, b)` and
`Q(b, a)`. -/
theorem Clause.isDuplicate_loses :
    let x : Expr := .ofVariable ⟨"x", 0, true, true⟩
    let y : Expr := .ofVariable ⟨"y", 1, true, true⟩
    let a : Expr := .leaf (.const ⟨"a", .text "a"⟩)
    let b : Expr := .leaf (.const ⟨"b", .text "b"⟩)
    let unit : Expr → Clause := fun e => ⟨[.node (.rel ⟨⟨"P", 1, none⟩⟩) [e]]⟩
    let P : Expr → Expr → Expr := fun e f => .node (.rel ⟨⟨"P", 2, none⟩⟩) [e, f]
    let Q : Expr → Expr → Expr := fun e f => .node (.rel ⟨⟨"Q", 2, none⟩⟩) [e, f]
    let clauses : List Clause :=
      [⟨[P x y, Q x y]⟩, ⟨[(Q x b).negate]⟩, ⟨[P a b]⟩, ⟨[Q b a]⟩, ⟨[(P b y).negate]⟩]
    (∀ c ∈ [unit x, unit a], c.FirstOrder ∧ c.SkolemFree) ∧ (unit x).isDuplicate [] (unit a) ∧
      ¬ (unit a).Entails.{0} [] (unit x) ∧
      ((clauses.foldl Prover.addInput (.new {})).search .never).1.verdict = .saturated ∧
      ∀ (D : Type) (M : Structure D) (α : Assignment D),
        ¬ ∀ clause ∈ clauses, M.Satisfies [] α clause := by
  intro x y a b unit P Q clauses
  have plain : ∀ c ∈ [unit x, unit a], c.FirstOrder ∧ c.SkolemFree := by
    simp [unit, x, a, FirstOrder, SkolemFree, Expr.FirstOrder, Expr.SkolemFree, Expr.Everywhere,
      Expr.EverywhereArgs, Expr.node, Expr.ofVariable, Expr.leaf]
  refine ⟨plain, rfl, fun entails => ?_, by decide +kernel, fun D M α satisfied => ?_⟩
  · have given : Structure.firstArgument.Satisfies [] (fun _ => true) (unit a) :=
      ⟨(plain (unit a) (by simp)).1, fun β _ => ⟨_, List.mem_singleton_self _, rfl⟩⟩
    obtain ⟨literal, member, true⟩ :=
      (entails Bool _ _ given).someTrue (fun _ => false) (List.forall_mem_nil _)
    obtain rfl := List.mem_singleton.1 member
    cases true
  · -- With `b` for both variables the second and the fifth clause refute the first.
    have true : ∀ clause ∈ clauses, M.SomeTrue (fun _ => M.operation b.head []) clause.literals :=
      fun clause member =>
        (satisfied clause member).someTrue (fun _ => M.operation b.head []) (List.forall_mem_nil _)
    simp [clauses, P, Q, x, y, a, b, Structure.SomeTrue, Structure.value, Structure.values,
      Structure.headValue, Expr.node, Expr.ofVariable, Expr.leaf, Expr.negate,
      M.holds_complement] at true
    obtain ⟨either, noQ, -, -, noP⟩ := true
    exact either.elim noP noQ

/-! ### Clauses held by a saturated prover -/

/-- A clause without NaN is a duplicate of itself. -/
theorem Clause.isDuplicate_self {clause : Clause} (hypothesis : List Variable)
    (numbers : ∀ literal ∈ clause.literals, literal.NaNFree) :
    clause.isDuplicate hypothesis clause := by
  have contained : clause.subset clause := List.all_eq_true.2 fun literal member =>
    contains_of_mem member (numbers literal member)
  have equal : clause == clause := Bool.and_eq_true_iff.2 ⟨contained, contained⟩
  exact Bool.or_eq_true_iff.2 (.inl equal)

namespace Prover

variable {p q : Prover}

/-- A clause without NaN that is covered is a duplicate of one that is held. -/
theorem Covers.exists_isDuplicate {clause : Clause} (covered : p.Covers clause)
    (numbers : ∀ literal ∈ clause.literals, literal.NaNFree) :
    ∃ number step, p.derivation.get? number = some step ∧
      clause.isDuplicate p.hypothesis step.clause := by
  obtain ⟨number, step, located, rfl | duplicate⟩ := covered
  · exact ⟨number, step, located, Clause.isDuplicate_self _ numbers⟩
  · exact ⟨number, step, located, duplicate⟩

/-- In a closed pair of clauses without NaN every factored resolvent is a duplicate of a clause that
is held. -/
theorem Closed.exists_isDuplicate {i j : Nat} {first second : Step} (closed : p.Closed i j)
    (atFirst : p.derivation.get? i = some first) (atSecond : p.derivation.get? j = some second)
    (inFirst : ∀ literal ∈ first.clause.literals, literal.NaNFree)
    (inSecond : ∀ literal ∈ second.clause.literals, literal.NaNFree) {resolvent : Clause}
    (member : resolvent ∈ first.clause.resolve p.hypothesis second.clause) :
    ∃ number step, p.derivation.get? number = some step ∧
      (resolvent.factor p.hypothesis).isDuplicate p.hypothesis step.clause := by
  obtain ⟨left, right, atLeft, atRight, each⟩ := closed
  obtain rfl : first = left := Option.some.inj (atFirst.symm.trans atLeft)
  obtain rfl : second = right := Option.some.inj (atSecond.symm.trans atRight)
  have inResolvent : resolvent.Everywhere fun head _ => head.isNaN = false :=
    Clause.Everywhere.resolve inFirst inSecond member
  exact (each resolvent member).2.exists_isDuplicate (inResolvent.factor p.hypothesis)

/-- When a search of clauses without NaN ends with saturation, no clause is empty, and the
resolvents of any two clauses, taken in one of the two orders and factored, are all duplicates of
clauses that are held. -/
theorem closed_of_saturated {interrupt : Interrupt} {outcome : Outcome}
    (numbers : ∀ number step, p.derivation.get? number = some step →
      ∀ literal ∈ step.clause.literals, literal.NaNFree)
    (ended : p.search interrupt = (outcome, q)) (saturated : outcome.verdict = .saturated) :
    (∀ number step, q.derivation.get? number = some step → step.clause.isEmpty = false) ∧
      ∀ i j first second, i ≠ j → q.derivation.get? i = some first →
        q.derivation.get? j = some second →
        ∃ left right, (left = first ∧ right = second ∨ left = second ∧ right = first) ∧
          ∀ resolvent ∈ left.clause.resolve q.hypothesis right.clause,
            ∃ number step, q.derivation.get? number = some step ∧
              (resolvent.factor q.hypothesis).isDuplicate q.hypothesis step.clause := by
  have finished := p.search_finished interrupt
  have verdict : (p.search interrupt).1.verdict = .saturated := by rw [ended, saturated]
  have nonempty := @isEmpty_eq_false_of_saturated p interrupt verdict
  rw [ended] at finished nonempty
  have held : ∀ {number step}, q.derivation.get? number = some step →
      ∀ literal ∈ step.clause.literals, literal.NaNFree :=
    finished.continues.derivation.invariant (Q := fun clause => clause.Everywhere _) numbers
      fun _ _ _ inFirst inSecond member => (inFirst.resolve inSecond member).factor _
  refine ⟨fun number step => nonempty, fun i j first second different atFirst atSecond => ?_⟩
  have insideFirst := Derivation.exists_get?_iff.1 ⟨first, atFirst⟩
  have insideSecond := Derivation.exists_get?_iff.1 ⟨second, atSecond⟩
  -- The clause that was entered first stands on the left.
  rcases Nat.lt_or_gt_of_ne different with less | greater
  · have closed := finished.saturated saturated i j insideFirst.1 less insideSecond.2
    exact ⟨first, second, .inl ⟨rfl, rfl⟩, fun resolvent member =>
      closed.exists_isDuplicate atFirst atSecond (held atFirst) (held atSecond) member⟩
  · have closed := finished.saturated saturated j i insideSecond.1 greater insideFirst.2
    exact ⟨second, first, .inr ⟨rfl, rfl⟩, fun resolvent member =>
      closed.exists_isDuplicate atSecond atFirst (held atSecond) (held atFirst) member⟩

/-- From `!P(x) | Q(x)`, `P($0(y))` and `!Q(z) | R(z)` a search derives `Q($0(y))`, `!P(z) | R(z)`
and `R($0(y))`, the last of them twice, and ends with saturation in the third round. -/
theorem closed_of_saturated_skolem :
    let x : Variable := ⟨"x", 0, true, true⟩
    let y : Variable := ⟨"y", 1, true, true⟩
    let z : Variable := ⟨"z", 2, true, true⟩
    let P : Expr → Expr := fun e => .node (.rel ⟨⟨"P", 1, none⟩⟩) [e]
    let Q : Expr → Expr := fun e => .node (.rel ⟨⟨"Q", 1, none⟩⟩) [e]
    let R : Expr → Expr := fun e => .node (.rel ⟨⟨"R", 1, none⟩⟩) [e]
    let p : Prover := { budget := {}, derivation := ⟨#[
      ⟨1, ⟨[(P (.ofVariable x)).negate, Q (.ofVariable x)]⟩, none⟩, ⟨2, ⟨[P (.skolemOf 0 y)]⟩, none⟩,
      ⟨3, ⟨[(Q (.ofVariable z)).negate, R (.ofVariable z)]⟩, none⟩]⟩ }
    let q := (p.search .never).2
    (p.search .never).1 = ⟨.saturated, 3, 4, 6⟩ ∧
      (∀ number step, p.derivation.get? number = some step →
        ∀ literal ∈ step.clause.literals, literal.NaNFree) ∧
      (∀ number step, q.derivation.get? number = some step → step.clause.isEmpty = false) ∧
      ∀ i j first second, i ≠ j → q.derivation.get? i = some first →
        q.derivation.get? j = some second →
        ∃ left right, (left = first ∧ right = second ∨ left = second ∧ right = first) ∧
          ∀ resolvent ∈ left.clause.resolve q.hypothesis right.clause,
            ∃ number step, q.derivation.get? number = some step ∧
              (resolvent.factor q.hypothesis).isDuplicate q.hypothesis step.clause := by
  intro x y z P Q R p q
  have outcome : (p.search .never).1 = ⟨.saturated, 3, 4, 6⟩ := by decide +kernel
  have numbers : ∀ number step, p.derivation.get? number = some step →
      ∀ literal ∈ step.clause.literals, literal.NaNFree := by
    intro number step located
    have member := Derivation.mem_of_get? located
    simp only [p, List.mem_toArray, List.mem_cons, List.not_mem_nil, or_false] at member
    rcases member with rfl | rfl | rfl
    all_goals simp [P, Q, R, Expr.NaNFree, Expr.Everywhere, Expr.EverywhereArgs, Expr.skolemOf,
      Expr.ofSkolem, Expr.node, Expr.ofVariable, Expr.leaf, Expr.negate, Symbol.isNaN]
  exact ⟨outcome, numbers, closed_of_saturated numbers rfl (congrArg Outcome.verdict outcome)⟩

end Prover

end Refute
