import Refute.Proofs.Run

/-!
# Completeness on ground clauses

Where neither variables nor Skolem functions occur, terms unify when they are equal apart from the
sign, so factoring drops repeated literals and resolution is resolution between propositions. If a
search saturates, a truth assignment for which every input is true is found atom by atom: an atom is
made true unless that falsifies a clause, and then making it false falsifies none, since the
resolvent of the two clauses would have been false before.
-/

namespace Refute

/-! ### Ground clauses that are saturated -/

/-- Truth values for atoms; equal atoms have the same one. -/
structure Valuation where
  /-- The atom is true. -/
  holds : Expr → Prop
  /-- Equal atoms are true together. -/
  congr : ∀ {e f : Expr}, e.sameAtom f → (holds e ↔ holds f)

namespace Valuation

/-- The literal is true. -/
def Satisfies (I : Valuation) (literal : Expr) : Prop :=
  if literal.negated then ¬ I.holds literal.positive else I.holds literal.positive

/-- Equal literals are true together. -/
theorem satisfies_congr (I : Valuation) {e f : Expr} (equal : e == f) :
    I.Satisfies e ↔ I.Satisfies f := by
  obtain ⟨signs, atoms⟩ := Expr.beq_iff.1 equal
  have same : I.holds e.positive ↔ I.holds f.positive := I.congr atoms
  unfold Satisfies
  rw [signs, same]

/-- The valuation that differs at most for one atom. -/
def assign (I : Valuation) (atom : Expr) (value : Prop) : Valuation where
  holds e := if e.sameAtom atom then value else I.holds e
  congr {e f} equal := by
    have tests : e.sameAtom atom = f.sameAtom atom := Bool.eq_iff_iff.2
      ⟨Expr.sameAtom_trans (Expr.sameAtom_symm equal), Expr.sameAtom_trans equal⟩
    rw [tests]
    split
    · exact Iff.rfl
    · exact I.congr equal

/-- A literal of the atom that is assigned has the assigned value or its contrary. -/
theorem satisfies_assign_same (I : Valuation) {atom literal : Expr} (value : Prop)
    (same : literal.sameAtom atom) :
    (I.assign atom value).Satisfies literal ↔ if literal.negated then ¬ value else value := by
  have test : literal.positive.sameAtom atom := same
  simp only [Satisfies, assign, test, if_true]

/-- A literal of another atom keeps its value. -/
theorem satisfies_assign_other (I : Valuation) {atom literal : Expr} (value : Prop)
    (other : literal.sameAtom atom = false) :
    (I.assign atom value).Satisfies literal ↔ I.Satisfies literal := by
  have test : literal.positive.sameAtom atom = false := other
  simp [Satisfies, assign, test]

end Valuation

/-- Every literal has one of the atoms. -/
def Clause.Over (atoms : List Expr) (clause : Clause) : Prop :=
  ∀ literal ∈ clause.literals, ∃ atom ∈ atoms, literal.sameAtom atom

/-- Clauses with literals, none of which is repeated, such that for two of them that clash in a pair
of literals there is one which says no more than the rest of both. -/
structure GroundSaturated (S : Clause → Prop) : Prop where
  /-- No clause is empty. -/
  held : ∀ clause, S clause → clause.isEmpty = false
  /-- Literals are not repeated. -/
  distinct : ∀ clause, S clause → ∀ (i j : Nat) (first second : Expr),
    clause.literals[i]? = some first → clause.literals[j]? = some second → first == second → i = j
  /-- Resolvents are there. -/
  closed : ∀ first second, S first → S second → first ≠ second → ∀ (i j : Nat) (left right : Expr),
    first.literals[i]? = some left → second.literals[j]? = some right →
    left.negated = !right.negated → left.sameAtom right →
    ∃ retained, S retained ∧ ∀ literal ∈ retained.literals,
      ∃ other ∈ first.literals.eraseIdx i ++ second.literals.eraseIdx j, literal == other

namespace GroundSaturated

variable {S : Clause → Prop} {I : Valuation} {atom : Expr} {atoms : List Expr}

/-- A clause that becomes false when a new atom gets a value has one literal with that atom, and the
rest is false already. -/
theorem exists_clash (saturated : GroundSaturated S)
    (good : ∀ clause, S clause → clause.Over atoms → ∃ literal ∈ clause.literals, I.Satisfies literal)
    (fresh : ∀ other ∈ atoms, atom.sameAtom other = false) {clause : Clause} (member : S clause)
    (covered : clause.Over (atom :: atoms)) {value : Prop}
    (falsified : ∀ literal ∈ clause.literals, ¬ (I.assign atom value).Satisfies literal) :
    ∃ i literal, clause.literals[i]? = some literal ∧ literal.sameAtom atom ∧
      (literal.negated ↔ value) ∧ ∀ other ∈ clause.literals.eraseIdx i,
        (∃ a ∈ atoms, other.sameAtom a) ∧ ¬ I.Satisfies other := by
  -- Away from the new atom nothing changes.
  have old : ∀ literal ∈ clause.literals, literal.sameAtom atom = false →
      (∃ a ∈ atoms, literal.sameAtom a) ∧ ¬ I.Satisfies literal := by
    intro literal inside other
    obtain ⟨a, listed, same⟩ := covered literal inside
    have kept := falsified literal inside
    rw [I.satisfies_assign_other value other] at kept
    rcases List.mem_cons.1 listed with rfl | later
    · rw [other] at same
      cases same
    · exact ⟨⟨a, later, same⟩, kept⟩
  have touched : ∃ literal ∈ clause.literals, literal.sameAtom atom := by
    by_contra untouched
    have away : ∀ literal ∈ clause.literals, literal.sameAtom atom = false :=
      fun literal inside => Bool.eq_false_iff.2 fun same => untouched ⟨literal, inside, same⟩
    obtain ⟨literal, inside, holds⟩ :=
      good clause member fun literal inside => (old literal inside (away literal inside)).1
    exact (old literal inside (away literal inside)).2 holds
  obtain ⟨literal, inside, same⟩ := touched
  have sign : ∀ other ∈ clause.literals, other.sameAtom atom → (other.negated ↔ value) := by
    intro other inside same
    have kept := falsified other inside
    rw [I.satisfies_assign_same value same] at kept
    cases negated : other.negated <;> simp_all
  obtain ⟨i, located⟩ := List.mem_iff_getElem?.1 inside
  refine ⟨i, literal, located, same, sign literal inside same, fun other rest => ?_⟩
  obtain ⟨j, differs, atOther⟩ := List.mem_eraseIdx_iff_getElem?.1 rest
  have member' : other ∈ clause.literals := List.mem_of_getElem? atOther
  refine old other member' (Bool.eq_false_iff.2 fun again => differs ?_)
  have signs : other.negated = literal.negated := by
    rw [Bool.eq_iff_iff, sign other member' again, sign literal inside same]
  have equal : other == literal :=
    Expr.beq_iff.2 ⟨signs, Expr.sameAtom_trans again (Expr.sameAtom_symm same)⟩
  exact saturated.distinct clause member j i other literal atOther located equal

/-- Some valuation makes all clauses true whose atoms are listed. -/
theorem exists_valuation (saturated : GroundSaturated S) (atoms : List Expr) :
    ∃ I : Valuation, ∀ clause, S clause → clause.Over atoms →
      ∃ literal ∈ clause.literals, I.Satisfies literal := by
  induction atoms with
  | nil =>
    refine ⟨⟨fun _ => True, fun _ => Iff.rfl⟩, fun clause member covered => ?_⟩
    obtain ⟨literal, inside⟩ := List.isEmpty_eq_false_iff_exists_mem.1 (saturated.held clause member)
    obtain ⟨atom, listed, -⟩ := covered literal inside
    exact absurd listed List.not_mem_nil
  | cons atom atoms ih =>
    obtain ⟨I, good⟩ := ih
    by_cases fresh : ∀ other ∈ atoms, atom.sameAtom other = false
    · -- If neither value will do, two clauses clash, and what is left of them was false before.
      by_contra fails
      have clash : ∀ value : Prop, ∃ clause, S clause ∧ clause.Over (atom :: atoms) ∧
          ∀ literal ∈ clause.literals, ¬ (I.assign atom value).Satisfies literal := by
        intro value
        by_contra none
        refine fails ⟨I.assign atom value, fun clause member covered => ?_⟩
        by_contra falsified
        exact none ⟨clause, member, covered, fun literal inside holds =>
          falsified ⟨literal, inside, holds⟩⟩
      obtain ⟨first, inFirst, overFirst, falseFirst⟩ := clash True
      obtain ⟨second, inSecond, overSecond, falseSecond⟩ := clash False
      obtain ⟨i, left, atLeft, leftAtom, leftSign, restLeft⟩ :=
        saturated.exists_clash good fresh inFirst overFirst falseFirst
      obtain ⟨j, right, atRight, rightAtom, rightSign, restRight⟩ :=
        saturated.exists_clash good fresh inSecond overSecond falseSecond
      have negative : left.negated = true := leftSign.2 trivial
      have positive : right.negated = false := Bool.eq_false_iff.2 rightSign.1
      have different : first ≠ second := by
        rintro rfl
        have holds : (I.assign atom True).Satisfies right := by
          rw [I.satisfies_assign_same True rightAtom, positive]
          trivial
        exact falseFirst right (List.mem_of_getElem? atRight) holds
      obtain ⟨retained, inRetained, bounded⟩ := saturated.closed first second inFirst inSecond different
        i j left right atLeft atRight (by rw [negative, positive]; rfl)
        (Expr.sameAtom_trans leftAtom (Expr.sameAtom_symm rightAtom))
      have rest : ∀ literal ∈ retained.literals,
          (∃ a ∈ atoms, literal.sameAtom a) ∧ ¬ I.Satisfies literal := by
        intro literal inside
        obtain ⟨other, among, equal⟩ := bounded literal inside
        have before : (∃ a ∈ atoms, other.sameAtom a) ∧ ¬ I.Satisfies other :=
          (List.mem_append.1 among).elim (restLeft other) (restRight other)
        obtain ⟨⟨a, listed, same⟩, kept⟩ := before
        exact ⟨⟨a, listed, Expr.sameAtom_trans (Expr.beq_iff.1 equal).2 same⟩,
          fun holds => kept ((I.satisfies_congr equal).1 holds)⟩
      obtain ⟨literal, inside, holds⟩ :=
        good retained inRetained fun literal inside => (rest literal inside).1
      exact (rest literal inside).2 holds
    · simp only [not_forall, Bool.not_eq_false] at fresh
      obtain ⟨twin, listed, same⟩ := fresh
      refine ⟨I, fun clause member covered => good clause member fun literal inside => ?_⟩
      obtain ⟨a, among, equal⟩ := covered literal inside
      rcases List.mem_cons.1 among with rfl | later
      · exact ⟨twin, listed, Expr.sameAtom_trans equal same⟩
      · exact ⟨a, later, equal⟩

end GroundSaturated

/-! ### Inferences between ground clauses -/

namespace Expr

/-- Nothing ground is an unknown of unification. -/
theorem Ground.isUnknown_eq_false {e : Expr} (ground : e.Ground) : e.isUnknown = false := by
  obtain ⟨root, -⟩ := everywhere_iff.1 ground
  unfold isUnknown
  cases head : e.head with
  | var v => exact absurd head (root.1 v)
  | skolem s => exact absurd head (root.2 s)
  | _ => rfl

end Expr

namespace Unifier

/-- A run between terms without unknowns binds nothing and ends with terms that are equal apart from
the sign. -/
theorem eq_empty_of_run {moves : Nat} {u : Unifier} {left right : Expr}
    (run : unifyWithin moves empty left right = .ok u) (inLeft : left.Ground)
    (inRight : right.Ground) : u = empty ∧ left.sameAtom right := by
  have invariant := unifyWithin_induction
    (fun u left right v => u = empty → left.Ground → right.Ground → v = empty ∧ left.sameAtom right)
    (fun u as bs v => u = empty → (∀ a ∈ as, a.Ground) → (∀ b ∈ bs, b.Ground) →
      v = empty ∧ List.Forall₂ (· == ·) as bs)
    ?agree ?swap ?follow ?bind ?descend ?nil ?cons run
  case agree => exact fun u left right same start _ _ => ⟨start, same⟩
  case swap =>
    exact fun u left right v turned start l r =>
      (turned start r l).imp_right Expr.sameAtom_symm
  case follow =>
    rintro u left right bound v located - rfl
    cases located
  case bind =>
    intro u left right image isUnknown _ _ _ _ inLeft _
    rw [inLeft.isUnknown_eq_false] at isUnknown
    cases isUnknown
  case descend =>
    intro u left right v _ _ heads rest start inLeft inRight
    have arguments := rest start (Expr.everywhere_iff.1 inLeft).2 (Expr.everywhere_iff.1 inRight).2
    exact arguments.imp_right fun each => Expr.sameAtom_iff.2 ⟨heads, each⟩
  case nil => exact fun u start _ _ => ⟨start, .nil⟩
  case cons =>
    intro u a b v as bs w signs first rest start inAs inBs
    rw [List.forall_mem_cons] at inAs inBs
    obtain ⟨middle, atoms⟩ := first start inAs.1 inBs.1
    obtain ⟨last, others⟩ := rest middle inAs.2 inBs.2
    exact ⟨last, .cons (Expr.beq_iff.2 ⟨signs, atoms⟩) others⟩
  exact invariant rfl inLeft inRight

/-- Terms that are equal apart from the sign unify without a binding. -/
theorem unify_of_sameAtom {left right : Expr} (u : Unifier) (same : left.sameAtom right) :
    u.unify left right = .ok u := by
  have move : u.move left right = .agree := by
    unfold move
    rw [if_pos same]
  unfold unify moveBound
  rw [unifyWithin, move]

/-- The empty unifier changes no expression. -/
theorem apply_empty (e : Expr) : empty.apply e = e := by
  have total : empty.Total := solved_empty.total
  induction e using Expr.induction with
  | node head negated args ih =>
    rw [total.apply_free rfl]
    have arguments : args.map empty.apply = args := by
      conv_rhs => rw [← List.map_id args]
      exact List.map_congr_left ih
    rw [arguments]

end Unifier

/-- Terms without unknowns unify under the restrictions when they are equal apart from the sign. -/
theorem Expr.unifyRestricted_ground {hypothesis : List Variable} {left right : Expr}
    (inLeft : left.Ground) (inRight : right.Ground) {u : Unifier} :
    unifyRestricted hypothesis left right = .ok u ↔ u = Unifier.empty ∧ left.sameAtom right := by
  constructor
  · intro unified
    obtain ⟨sides | sides, -⟩ := unify_of_unifyRestricted unified
    · obtain ⟨moves, run⟩ := Unifier.exists_run_of_unify sides
      exact Unifier.eq_empty_of_run run inLeft inRight
    · obtain ⟨moves, run⟩ := Unifier.exists_run_of_unify sides
      exact (Unifier.eq_empty_of_run run inRight inLeft).imp_right sameAtom_symm
  · rintro ⟨rfl, same⟩
    have fixed : areFixedVariables left right = false := by
      have root := (everywhere_iff.1 inLeft).1.1
      unfold areFixedVariables
      split
      · rename_i v w head _
        exact absurd head (root v)
      · rfl
    have unified : left.unify right = .ok Unifier.empty := by
      unfold unify
      rw [Unifier.unify_of_sameAtom _ same]
      rfl
    have checked : unifyChecked hypothesis left right = .ok Unifier.empty :=
      unifyChecked_eq_ok_iff.2 ⟨unified, List.forall_mem_nil _⟩
    unfold unifyRestricted
    rw [fixed, checked]
    rfl

namespace Clause

/-- Neither a variable nor a Skolem function occurs in the clause. -/
def Ground (clause : Clause) : Prop := ∀ literal ∈ clause.literals, literal.Ground

variable {hypothesis : List Variable} {first second clause : Clause}

/-- Factoring a ground clause only drops literals. -/
theorem Ground.mem_of_mem_factor (ground : clause.Ground) {literal : Expr}
    (member : literal ∈ (clause.factor hypothesis).literals) : literal ∈ clause.literals := by
  have start : clause.Ground ∧ clause.literals ⊆ clause.literals := ⟨ground, List.Subset.refl _⟩
  refine (factor_invariant
    (P := fun reached => reached.Ground ∧ reached.literals ⊆ clause.literals) ?_ start).2 member
  rintro reached later u ⟨inReached, smaller⟩ found
  refine ⟨Everywhere.mergePair inReached found, fun kept inside => smaller ?_⟩
  obtain ⟨i, j, first, second, -, -, atFirst, atSecond, -, unified⟩ := unify_of_mergeable? found
  obtain ⟨rfl, -⟩ := (Expr.unifyRestricted_ground (inReached first (List.mem_of_getElem? atFirst))
    (inReached second (List.mem_of_getElem? atSecond))).1 unified
  obtain ⟨original, stays, rfl⟩ := List.mem_map.1 (mem_of_mem_ofList inside)
  rw [Unifier.apply_empty]
  exact List.mem_of_mem_eraseIdx (mem_of_mem_ofList stays)

/-- A factored ground clause has no literal twice. -/
theorem Ground.distinct_factor (ground : clause.Ground) {i j : Nat} {left right : Expr}
    (atLeft : (clause.factor hypothesis).literals[i]? = some left)
    (atRight : (clause.factor hypothesis).literals[j]? = some right) (equal : left == right) :
    i = j := by
  have none : mergeable? hypothesis 0 (clause.factor hypothesis).literals = none :=
    Option.map_eq_none_iff.1 (factorOnce_factor hypothesis clause)
  have inFactored : ∀ {k : Nat} {literal : Expr},
      (clause.factor hypothesis).literals[k]? = some literal → literal.Ground :=
    fun located => Everywhere.factor ground hypothesis _ (List.mem_of_getElem? located)
  have apart : ∀ {i j : Nat} {left right : Expr}, i < j →
      (clause.factor hypothesis).literals[i]? = some left →
      (clause.factor hypothesis).literals[j]? = some right → ¬ (left == right) := by
    intro i j left right less atLeft atRight equal
    obtain ⟨signs, atoms⟩ := Expr.beq_iff.1 equal
    have unified : Expr.unifyRestricted hypothesis left right = .ok Unifier.empty :=
      (Expr.unifyRestricted_ground (inFactored atLeft) (inFactored atRight)).2 ⟨rfl, atoms⟩
    exact mergeable?_ne_none less atLeft atRight signs unified none
  rcases Nat.lt_trichotomy i j with less | same | greater
  · exact absurd equal (apart less atLeft atRight)
  · exact same
  · exact absurd (BEq.symm equal) (apart greater atRight atLeft)

/-- Ground clauses that clash in a pair of literals have a resolvent of what is left. -/
theorem Ground.exists_resolvent (inFirst : first.Ground) (inSecond : second.Ground) {i j : Nat}
    {left right : Expr} (atLeft : first.literals[i]? = some left)
    (atRight : second.literals[j]? = some right) (signs : left.negated = !right.negated)
    (atoms : left.sameAtom right) :
    ∃ resolvent ∈ first.resolve hypothesis second, ∀ literal ∈ resolvent.literals,
      literal ∈ first.literals.eraseIdx i ++ second.literals.eraseIdx j := by
  have unified : Expr.resolvingUnifier hypothesis left right.negate = .ok Unifier.empty := by
    have ground : right.negate.Ground :=
      (Expr.everywhere_signed _).2 (inSecond right (List.mem_of_getElem? atRight))
    refine resolvingUnifier_eq_ok_iff.2 ⟨signs, ?_⟩
    exact (Expr.unifyRestricted_ground (inFirst left (List.mem_of_getElem? atLeft)) ground).2
      ⟨rfl, atoms⟩
  refine ⟨_, mem_resolve_iff.2 ⟨i, j, left, right, _, atLeft, atRight, unified, rfl⟩, ?_⟩
  have instances : ∀ {part : Clause} {literal : Expr},
      literal ∈ (Unifier.empty.applyToClause part).literals → literal ∈ part.literals := by
    intro part literal member
    obtain ⟨original, inside, rfl⟩ := List.mem_map.1 (mem_of_mem_ofList member)
    rwa [Unifier.apply_empty]
  intro literal member
  rcases mem_of_mem_foldl_add member with inside | inside
  · exact List.mem_append_left _ (mem_of_mem_ofList (instances inside))
  · exact List.mem_append_right _ (mem_of_mem_ofList (instances inside))

/-- Every literal of a contained clause equals one of the other. -/
theorem exists_beq_of_subset (contained : first.subset second) {literal : Expr}
    (member : literal ∈ first.literals) : ∃ other ∈ second.literals, literal == other :=
  List.contains_iff_exists_mem_beq.1 (List.all_eq_true.1 contained literal member)

/-- Ground literals that are matched place by place are equal. -/
theorem forall₂_of_matchLiterals {as bs : List Expr} {u : Unifier} (lengths : as.length = bs.length)
    (inAs : ∀ a ∈ as, a.Ground) (inBs : ∀ b ∈ bs, b.Ground)
    (run : (as.zip bs).foldlM matchLiterals Unifier.empty = some u) :
    List.Forall₂ (fun a b => b == a) as bs := by
  induction as generalizing bs with
  | nil =>
    obtain rfl := List.length_eq_zero_iff.1 lengths.symm
    exact .nil
  | cons a as ih =>
    cases bs with
    | nil => simp at lengths
    | cons b bs =>
      rw [List.forall_mem_cons] at inAs inBs
      rw [List.zip_cons_cons, List.foldlM_cons] at run
      obtain ⟨v, first, rest⟩ := Option.bind_eq_some_iff.1 run
      obtain ⟨signs, -, unified⟩ := matchLiterals_eq_some_iff.1 first
      obtain ⟨rfl, atoms⟩ := Unifier.eq_empty_of_run unified inAs.1 inBs.1
      refine .cons (BEq.symm (Expr.beq_iff.2 ⟨signs, atoms⟩)) (ih ?_ inAs.2 inBs.2 rest)
      simpa using lengths

/-- A ground clause has every literal of a ground clause that it is a duplicate of. -/
theorem Ground.exists_beq_of_isDuplicate (inFirst : first.Ground) (inSecond : second.Ground)
    (duplicate : first.isDuplicate hypothesis second) {literal : Expr}
    (member : literal ∈ second.literals) : ∃ other ∈ first.literals, literal == other := by
  rcases Bool.or_eq_true_iff.1 duplicate with equal | placed
  · exact exists_beq_of_subset (Bool.and_eq_true_iff.1 equal).2 member
  · obtain ⟨lengths, u, run, -⟩ := matchesByPlace_iff.1 placed
    have each := forall₂_of_matchLiterals lengths inFirst inSecond run
    exact exists_of_forall₂ each.flip member

end Clause

/-! ### Provers for ground clauses -/

namespace Prover

/-- A clause that a prover makes of ground clauses without NaN: a factored one. -/
def IsGroundFactor (clause : Clause) : Prop :=
  ∃ (original : Clause) (fixed : List Variable), original.Ground ∧
    (∀ literal ∈ original.literals, literal.NaNFree) ∧ clause = original.factor fixed

/-- A factored ground clause is ground, and no NaN occurs in it. -/
theorem IsGroundFactor.ground {clause : Clause} (factor : IsGroundFactor clause) :
    clause.Ground ∧ ∀ literal ∈ clause.literals, literal.NaNFree := by
  obtain ⟨original, fixed, ground, number, rfl⟩ := factor
  exact ⟨Clause.Everywhere.factor ground fixed, Clause.Everywhere.factor number fixed⟩

/-- A factored resolvent of ground clauses is a factored ground clause. -/
theorem IsGroundFactor.resolve {fixed : List Variable} {first second resolvent : Clause}
    (inFirst : IsGroundFactor first) (inSecond : IsGroundFactor second)
    (member : resolvent ∈ first.resolve fixed second) :
    IsGroundFactor (resolvent.factor fixed) := by
  obtain ⟨firstGround, firstNumber⟩ := inFirst.ground
  obtain ⟨secondGround, secondNumber⟩ := inSecond.ground
  exact ⟨resolvent, fixed, Clause.Everywhere.resolve firstGround secondGround member,
    Clause.Everywhere.resolve firstNumber secondNumber member, rfl⟩

/-- The clauses of a prover. -/
def clauseSet (p : Prover) : Clause → Prop :=
  fun clause => ∃ number step, p.derivation.get? number = some step ∧ step.clause = clause

/-- After saturation a clause is held that says no more than what is left of two clauses that clash.
-/
theorem exists_retained_of_saturated {p : Prover} {interrupt : Interrupt}
    (ground : ∀ clause, (p.search interrupt).2.clauseSet clause → IsGroundFactor clause)
    (verdict : (p.search interrupt).1.verdict = .saturated) {m n : Nat} (less : m < n)
    {first second : Step} (atFirst : (p.search interrupt).2.derivation.get? m = some first)
    (atSecond : (p.search interrupt).2.derivation.get? n = some second) {i j : Nat}
    {left right : Expr} (atLeft : first.clause.literals[i]? = some left)
    (atRight : second.clause.literals[j]? = some right) (signs : left.negated = !right.negated)
    (atoms : left.sameAtom right) :
    ∃ retained, (p.search interrupt).2.clauseSet retained ∧ ∀ literal ∈ retained.literals,
      ∃ other ∈ first.clause.literals.eraseIdx i ++ second.clause.literals.eraseIdx j,
        literal == other := by
  have inFirst := (ground _ ⟨m, first, atFirst, rfl⟩)
  have inSecond := (ground _ ⟨n, second, atSecond, rfl⟩)
  have inside := Derivation.exists_get?_iff.1 ⟨first, atFirst⟩
  have below := Derivation.exists_get?_iff.1 ⟨second, atSecond⟩
  obtain ⟨first', second', atFirst', atSecond', closed⟩ :=
    (p.search_finished interrupt).saturated verdict m n inside.1 less below.2
  obtain rfl : first = first' := Option.some.inj (atFirst.symm.trans atFirst')
  obtain rfl : second = second' := Option.some.inj (atSecond.symm.trans atSecond')
  obtain ⟨resolvent, member, rest⟩ :=
    inFirst.ground.1.exists_resolvent inSecond.ground.1 atLeft atRight signs atoms
  have factored : IsGroundFactor (resolvent.factor _) := inFirst.resolve inSecond member
  have inResolvent : resolvent.Ground :=
    Clause.Everywhere.resolve inFirst.ground.1 inSecond.ground.1 member
  obtain ⟨-, number, step, located, covers⟩ := closed resolvent member
  refine ⟨step.clause, ⟨number, step, located, rfl⟩, fun literal kept => ?_⟩
  rcases covers with same | duplicate
  · rw [same] at kept
    have among := inResolvent.mem_of_mem_factor kept
    exact ⟨literal, rest literal among, Expr.beq_self (factored.ground.2 literal kept)⟩
  · obtain ⟨other, inFactor, equal⟩ := factored.ground.1.exists_beq_of_isDuplicate
      (ground _ ⟨number, step, located, rfl⟩).ground.1 duplicate kept
    exact ⟨other, rest other (inResolvent.mem_of_mem_factor inFactor), equal⟩

/-- The clauses of a saturated prover for ground clauses are saturated. -/
theorem groundSaturated_of_saturated {p : Prover} {interrupt : Interrupt}
    (ground : ∀ clause, (p.search interrupt).2.clauseSet clause → IsGroundFactor clause)
    (verdict : (p.search interrupt).1.verdict = .saturated) :
    GroundSaturated (p.search interrupt).2.clauseSet where
  held := by
    rintro _ ⟨number, step, located, rfl⟩
    exact isEmpty_eq_false_of_saturated verdict located
  distinct := by
    intro clause member i j left right atLeft atRight equal
    obtain ⟨original, fixed, inOriginal, -, rfl⟩ := ground clause member
    exact inOriginal.distinct_factor atLeft atRight equal
  closed := by
    rintro _ _ ⟨m, first, atFirst, rfl⟩ ⟨n, second, atSecond, rfl⟩ different i j left right atLeft
      atRight signs atoms
    rcases Nat.lt_trichotomy m n with less | rfl | greater
    · exact exists_retained_of_saturated ground verdict less atFirst atSecond atLeft atRight signs
        atoms
    · obtain rfl := Option.some.inj (atFirst.symm.trans atSecond)
      exact absurd rfl different
    · -- The pair was resolved in the other order.
      have turned : right.negated = !left.negated := by rw [signs, Bool.not_not]
      obtain ⟨retained, member, rest⟩ := exists_retained_of_saturated ground verdict greater atSecond
        atFirst atRight atLeft turned (Expr.sameAtom_symm atoms)
      refine ⟨retained, member, fun literal kept => ?_⟩
      obtain ⟨other, among, equal⟩ := rest literal kept
      exact ⟨other, List.mem_append.2 (List.mem_append.1 among).symm, equal⟩

/-- All atoms of a saturated prover together have truth values for which its clauses are true. -/
theorem exists_valuation_of_clauseSet {p : Prover} {interrupt : Interrupt}
    (ground : ∀ clause, (p.search interrupt).2.clauseSet clause → IsGroundFactor clause)
    (verdict : (p.search interrupt).1.verdict = .saturated) :
    ∃ I : Valuation, ∀ number step, (p.search interrupt).2.derivation.get? number = some step →
      ∃ literal ∈ step.clause.literals, I.Satisfies literal := by
  let atoms := (p.search interrupt).2.derivation.steps.toList.flatMap fun step => step.clause.literals
  obtain ⟨I, good⟩ := (groundSaturated_of_saturated ground verdict).exists_valuation atoms
  refine ⟨I, fun number step located => good step.clause ⟨number, step, located, rfl⟩ ?_⟩
  intro literal inside
  have listed : step ∈ (p.search interrupt).2.derivation.steps.toList := by
    cases number with
    | zero => cases located
    | succ index => exact Array.mem_toList_iff.2 (Array.mem_of_getElem? located)
  -- Only here a NaN would do harm: an atom with one is not equal to itself.
  have number := (ground _ ⟨number, step, located, rfl⟩).ground.2 literal inside
  have same : literal.sameAtom literal := (Expr.beq_iff.1 (Expr.beq_self number)).2
  exact ⟨literal, List.mem_flatMap.2 ⟨step, listed, inside⟩, same⟩

/-- If a search saturates from ground clauses without NaN, whatever the prover was asked before,
some truth values of the atoms make every clause true that was entered. -/
theorem exists_valuation_of_saturated (budget : Budget) (commands : List Command)
    (interrupt : Interrupt)
    (ground : ∀ command ∈ commands, ∀ clause ∈ command.clauses, ∀ literal ∈ clause.literals,
      literal.Ground ∧ literal.NaNFree)
    (verdict : (((new budget).run commands).search interrupt).1.verdict = .saturated) :
    ∃ I : Valuation, ∀ command ∈ commands, ∀ clause ∈ command.clauses,
      ∃ literal ∈ clause.literals, I.Satisfies literal := by
  have continues := (((new budget).run commands).search_finished interrupt).continues
  have entered : ∀ command ∈ commands, ∀ clause ∈ command.clauses, ∀ fixed,
      IsGroundFactor (clause.factor fixed) := fun command listed clause member fixed =>
    ⟨clause, fixed, fun literal inside => (ground command listed clause member literal inside).1,
      fun literal inside => (ground command listed clause member literal inside).2, rfl⟩
  have start : ∀ number step, (new budget).derivation.get? number = some step →
      IsGroundFactor step.clause := by
    intro number step located
    rw [get?_new] at located
    cases located
  have factors : ∀ clause, (((new budget).run commands).search interrupt).2.clauseSet clause →
      IsGroundFactor clause := by
    rintro _ ⟨number, step, located, rfl⟩
    refine continues.derivation.invariant (fun number step => ?_) ?_ located
    · exact run_invariant start entered fun _ _ _ _ => IsGroundFactor.resolve
    · exact fun _ _ _ => IsGroundFactor.resolve
  obtain ⟨I, good⟩ := exists_valuation_of_clauseSet factors verdict
  refine ⟨I, fun command listed clause member => ?_⟩
  obtain ⟨fixed, input⟩ := mem_inputs (p := new budget) listed member
  obtain ⟨number, step, located, same⟩ := holds_of_mem_inputs input
  obtain ⟨literal, inside, holds⟩ := good number step (continues.derivation.get? located)
  have inClause : clause.Ground := fun literal inside =>
    (ground command listed clause member literal inside).1
  rcases same with same | equal
  · exact ⟨literal, inClause.mem_of_mem_factor (same ▸ inside), holds⟩
  · obtain ⟨other, among, equal⟩ :=
      Clause.exists_beq_of_subset (Bool.and_eq_true_iff.1 equal).1 inside
    exact ⟨other, inClause.mem_of_mem_factor among, (I.satisfies_congr equal).1 holds⟩

/-- `P OR Q` and `NOT P OR Q` are known, and `P` is denied. -/
def consistentCommands : List Command :=
  let p : Expr := .leaf (.rel ⟨⟨"P", 0, none⟩⟩)
  let q : Expr := .leaf (.rel ⟨⟨"Q", 0, none⟩⟩)
  [.knowledge ⟨[⟨[p, q]⟩, ⟨[p.negate, q]⟩]⟩, .negatedHypothesis ⟨[⟨[p.negate]⟩]⟩]

/-- The search from three consistent clauses saturates, and some valuation makes all of them
true. -/
theorem exists_valuation_consistentCommands :
    (∀ command ∈ consistentCommands, ∀ clause ∈ command.clauses, ∀ literal ∈ clause.literals,
      literal.Ground ∧ literal.NaNFree) ∧
    (((new {}).run consistentCommands).search Interrupt.never).1.verdict = .saturated ∧
    ∃ I : Valuation, ∀ command ∈ consistentCommands, ∀ clause ∈ command.clauses,
      ∃ literal ∈ clause.literals, I.Satisfies literal := by
  have ground : ∀ command ∈ consistentCommands, ∀ clause ∈ command.clauses,
      ∀ literal ∈ clause.literals, literal.Ground ∧ literal.NaNFree := by
    simp [consistentCommands, Command.clauses, Expr.Ground, Expr.NaNFree, Expr.Everywhere,
      Expr.EverywhereArgs, Expr.negate, Expr.leaf, Symbol.isNaN]
  have verdict : (((new {}).run consistentCommands).search Interrupt.never).1.verdict = .saturated := by
    decide +kernel
  exact ⟨ground, verdict, exists_valuation_of_saturated {} _ _ ground verdict⟩

end Prover

end Refute
