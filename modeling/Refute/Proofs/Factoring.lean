import Refute.Proofs.Inference
import Refute.Proofs.Restriction
import Refute.Proofs.Stability

/-!
# Factoring

A factored clause is an instance of the whole clause. A merge drops the later literal of a pair and
applies the unifier to the others, but nothing is lost: under the unifier the dropped literal is
equal to the earlier one of the pair. When no pair is left to merge, factoring again changes
nothing.

A unifier that binds Skolem terms may lead back to where it started, and a term has no instance
then. `Clause.Followable` says that this does not happen to the literals that are kept. It follows
that it happens to no term: a unifier that can be followed from one of the terms that it unifies can
be followed from all terms.
-/

namespace Refute

/-! ### Unifiers that can be followed -/

namespace Unifier

variable {u v w : Unifier}

/-- Following the bindings from the term ends. -/
def EndsFrom (u : Unifier) (term : Expr) : Prop := ∃ image, u.HasImage term image

/-- Following the bindings ends from the replacements of another unifier. -/
def Settles (w u : Unifier) : Prop := ∀ binding ∈ u.bindings, w.EndsFrom binding.replacement

/-- Where following bindings ends from a term it ends from its negation. -/
theorem EndsFrom.of_sameAtom {e f : Expr} (ends : u.EndsFrom e) (same : e.sameAtom f) :
    u.EndsFrom f := by
  obtain ⟨image, steps, found⟩ := ends
  obtain ⟨other, reached, -⟩ := applyWithin_congr same found
  exact ⟨other, steps, reached⟩

/-- From a bound term bindings are followed to their end if they are from its replacement. -/
theorem endsFrom_bound {term replacement : Expr} (located : u.lookup? term = some replacement) :
    u.EndsFrom term ↔ u.EndsFrom replacement := by
  constructor
  · rintro ⟨image, found⟩
    obtain ⟨inner, there, -⟩ := found.exists_of_bound located
    exact ⟨inner, there⟩
  · rintro ⟨image, found⟩
    exact ⟨_, .bound located found⟩

/-- From a term that is not bound bindings are followed to their end if they are from its
arguments. -/
theorem endsFrom_free {term : Expr} (located : u.lookup? term = none) :
    u.EndsFrom term ↔ ∀ arg ∈ term.args, u.EndsFrom arg := by
  constructor
  · rintro ⟨image, steps, found⟩ arg member
    obtain ⟨rest, -, each⟩ := exists_image_of_mem found located
    obtain ⟨inner, there⟩ := each arg member
    exact ⟨inner, rest, there⟩
  · intro each
    obtain ⟨images, found⟩ := exists_images each
    exact ⟨_, .free located found⟩

/-- With the bindings of a successful run, and possibly more, following them ends from both terms or
from neither. If it ends from the terms and from what was bound before, it ends from everything that
is bound after the run. -/
theorem endsFrom_of_run {moves : Nat} {left right : Expr}
    (unified : unifyWithin moves u left right = .ok v) (regular : u.Regular)
    (inLeft : left.NaNFree) (inRight : right.NaNFree) :
    v.Regular ∧ u.bindings <+: v.bindings ∧ ∀ w : Unifier, v.bindings <+: w.bindings → w.Regular →
      (w.EndsFrom left ↔ w.EndsFrom right) ∧ (w.EndsFrom left → w.Settles u → w.Settles v) := by
  refine unifyWithin_induction
    (fun u left right v => u.Regular → left.NaNFree → right.NaNFree →
      v.Regular ∧ u.bindings <+: v.bindings ∧ ∀ w : Unifier, v.bindings <+: w.bindings → w.Regular →
        (w.EndsFrom left ↔ w.EndsFrom right) ∧ (w.EndsFrom left → w.Settles u → w.Settles v))
    (fun u as bs v => u.Regular → (∀ a ∈ as, a.NaNFree) → (∀ b ∈ bs, b.NaNFree) →
      v.Regular ∧ u.bindings <+: v.bindings ∧ ∀ w : Unifier, v.bindings <+: w.bindings → w.Regular →
        ((∀ a ∈ as, w.EndsFrom a) ↔ ∀ b ∈ bs, w.EndsFrom b) ∧
          ((∀ a ∈ as, w.EndsFrom a) → w.Settles u → w.Settles v))
    ?agree ?swap ?follow ?bind ?descend ?nil ?cons unified regular inLeft inRight
  case agree =>
    intro u left right same regular _ _
    refine ⟨regular, List.prefix_refl _, fun w _ _ => ⟨⟨fun ends => ends.of_sameAtom same,
      fun ends => ends.of_sameAtom (Expr.sameAtom_symm same)⟩, fun _ => id⟩⟩
  case swap =>
    intro u left right v turned regular inLeft inRight
    obtain ⟨result, longer, each⟩ := turned regular inRight inLeft
    refine ⟨result, longer, fun w more regular => ?_⟩
    obtain ⟨alike, settles⟩ := each w more regular
    exact ⟨alike.symm, fun ends => settles (alike.2 ends)⟩
  case follow =>
    intro u left right bound v located rest regular _ inRight
    obtain ⟨binding, member, -, rfl⟩ := exists_of_lookup? located
    obtain ⟨result, longer, each⟩ := rest regular (regular.number binding member).2 inRight
    refine ⟨result, longer, fun w more regular => ?_⟩
    have same := endsFrom_bound (lookup?_mono (longer.trans more) located)
    obtain ⟨alike, settles⟩ := each w more regular
    exact ⟨same.trans alike, fun ends => settles (same.1 ends)⟩
  case bind =>
    intro u left right image isUnknown free _ _ regular inLeft inRight
    refine ⟨regular.bind isUnknown inLeft inRight, List.prefix_append _ _, fun w more _ => ?_⟩
    have located : (u.bind left right).lookup? left = some right.positive := by
      rw [lookup?_bind, free, if_pos (Expr.beq_iff.1 (Expr.beq_self inLeft)).2]
      rfl
    have same := endsFrom_bound (lookup?_mono more located)
    have itself : right.sameAtom right := (Expr.beq_iff.1 (Expr.beq_self inRight)).2
    refine ⟨same.trans ⟨fun ends => ends.of_sameAtom itself, fun ends => ends.of_sameAtom itself⟩, ?_⟩
    intro ends before binding member
    rcases List.mem_append.1 member with old | added
    · exact before binding old
    · obtain rfl := List.mem_singleton.1 added
      exact same.1 ends
  case descend =>
    intro u left right v noLeft noRight _ rest regular inLeft inRight
    obtain ⟨result, longer, each⟩ :=
      rest regular (Expr.everywhere_iff.1 inLeft).2 (Expr.everywhere_iff.1 inRight).2
    refine ⟨result, longer, fun w more regular => ?_⟩
    obtain ⟨alike, settles⟩ := each w more regular
    rw [endsFrom_free (regular.lookup?_eq_none noLeft), endsFrom_free (regular.lookup?_eq_none noRight)]
    exact ⟨alike, settles⟩
  case nil =>
    intro u regular _ _
    exact ⟨regular, List.prefix_refl _, fun _ _ _ => ⟨Iff.rfl, fun _ => id⟩⟩
  case cons =>
    intro u a b v as bs last _ first rest regular inAs inBs
    rw [List.forall_mem_cons] at inAs inBs
    obtain ⟨middle, longer, here⟩ := first regular inAs.1 inBs.1
    obtain ⟨result, longest, there⟩ := rest middle inAs.2 inBs.2
    refine ⟨result, longer.trans longest, fun w more regular => ?_⟩
    obtain ⟨alike, settles⟩ := here w (longest.trans more) regular
    obtain ⟨others, settlesRest⟩ := there w more regular
    simp only [List.forall_mem_cons]
    exact ⟨and_congr alike others, fun ends before => settlesRest ends.2 (settles ends.1 before)⟩

/-- A unifier that can be followed from one of the terms that it unifies can be followed from all
terms. -/
theorem total_of_endsFrom {left right : Expr} (unified : left.unify right = .ok u)
    (inLeft : left.NaNFree) (inRight : right.NaNFree) (ends : u.EndsFrom left ∨ u.EndsFrom right) :
    u.Total := by
  obtain ⟨moves, run⟩ := exists_run_of_unify unified
  obtain ⟨regular, -, each⟩ := endsFrom_of_run run regular_empty inLeft inRight
  obtain ⟨alike, settles⟩ := each u (List.prefix_refl _) regular
  exact total_of_replacements (settles (ends.elim id alike.2) fun _ member =>
    absurd member List.not_mem_nil)

/-- Terms of one sign have equal instances if the instances coincide apart from the sign. -/
theorem Regular.beq_apply (regular : u.Regular) (total : u.Total) {e f : Expr} (number : e.NaNFree)
    (signs : e.negated = f.negated) (atoms : (u.apply e).AtomCoincides (u.apply f)) :
    u.apply e == u.apply f := by
  have inInstance : (u.apply e).NaNFree :=
    everywhere_apply (fun binding member => (regular.number binding member).2) number
  refine Expr.beq_iff.2 ⟨?_, atoms.sameAtom inInstance⟩
  rw [(total.hasImage e).negated_eq regular.positive, (total.hasImage f).negated_eq regular.positive,
    signs]

/-- Equal terms have equal instances. -/
theorem Regular.beq_apply_of_beq (regular : u.Regular) (total : u.Total) {e f : Expr} (same : e == f)
    (number : f.NaNFree) : u.apply e == u.apply f := by
  obtain ⟨signs, atoms⟩ := Expr.beq_iff.1 (BEq.symm same)
  exact BEq.symm (regular.beq_apply total number signs (total.atomCoincides_apply atoms))

/-- A unifier under the restrictions that can be followed from the first of two terms with one sign
can be followed from all terms, and makes the two equal. -/
theorem beq_apply_of_unifyRestricted {hypothesis : List Variable} {left right : Expr}
    (unified : Expr.unifyRestricted hypothesis left right = .ok u) (inLeft : left.NaNFree)
    (inRight : right.NaNFree) (signs : left.negated = right.negated) (ends : u.EndsFrom left) :
    u.Regular ∧ u.Total ∧ u.apply left == u.apply right := by
  have sides := (Expr.unify_of_unifyRestricted unified).1
  have total : u.Total := sides.elim (total_of_endsFrom · inLeft inRight (.inl ends))
    (total_of_endsFrom · inRight inLeft (.inr ends))
  obtain ⟨regular, equal⟩ : u.Regular ∧ u.Equalizes left right := by
    rcases sides with forth | back
    · obtain ⟨moves, run⟩ := exists_run_of_unify forth
      obtain ⟨regular, -, equal⟩ := equalizes_of_run run regular_empty inLeft inRight
      exact ⟨regular, equal⟩
    · obtain ⟨moves, run⟩ := exists_run_of_unify back
      obtain ⟨regular, -, equal⟩ := equalizes_of_run run regular_empty inRight inLeft
      exact ⟨regular, equal.symm⟩
  have atoms := equal u (List.prefix_refl _) regular total
  exact ⟨regular, total, regular.beq_apply total inLeft signs atoms⟩

/-- A unifier passes the check when none of its bindings is forbidden. -/
theorem check_eq_ok_iff {hypothesis : List Variable} : u.check hypothesis = .ok () ↔
    ∀ binding ∈ u.bindings, binding.isRestricted hypothesis = false := by
  unfold check
  cases found : u.bindings.find? (Binding.isRestricted hypothesis) with
  | none => simpa using found
  | some binding =>
    refine ⟨nofun, fun allowed => ?_⟩
    have forbidden := List.find?_some found
    rw [allowed binding (List.mem_of_find?_eq_some found)] at forbidden
    cases forbidden

/-- The instance of a term under one unifier after the other. -/
def applyAll (unifiers : List Unifier) (term : Expr) : Expr :=
  unifiers.foldl (fun term u => u.apply term) term

end Unifier

/-! ### Merging -/

/-- Two variables of which neither is universal may be named in either order. -/
theorem Expr.areFixedVariables_comm (left right : Expr) :
    areFixedVariables left right = areFixedVariables right left := by
  unfold areFixedVariables
  split
  · rename_i v w first second
    simp only [first, second, bne, BEq.comm (a := v)]
    ac_rfl
  · rename_i other
    split
    · rename_i v w first second
      exact absurd second (fun same => other w v same first)
    · rfl

namespace Clause

variable {hypothesis : List Variable} {clause result : Clause} {unifiers : List Unifier}

/-- Merging first pairs, each under the next unifier, leads from one clause to another. -/
inductive MergesTo (hypothesis : List Variable) : Clause → List Unifier → Clause → Prop
  /-- Nothing is merged. -/
  | refl (clause : Clause) : MergesTo hypothesis clause [] clause
  /-- The first pair is merged, and then others are. -/
  | merge {clause result : Clause} {later : Nat} {u : Unifier} {unifiers : List Unifier}
      (found : mergeable? hypothesis 0 clause.literals = some (later, u))
      (rest : MergesTo hypothesis (u.applyToClause (clause.without later)) unifiers result) :
      MergesTo hypothesis clause (u :: unifiers) result

/-- Whenever a pair is merged, following the unifier ends from the literals that are kept. -/
def Followable (hypothesis : List Variable) (clause : Clause) : Prop :=
  ∀ unifiers reached later u, MergesTo hypothesis clause unifiers reached →
    mergeable? hypothesis 0 reached.literals = some (later, u) →
    ∀ literal ∈ (reached.without later).literals, u.EndsFrom literal

/-- A clause in which no pair can be merged uses no unifier. -/
theorem followable_of_mergeable? (settled : mergeable? hypothesis 0 clause.literals = none) :
    clause.Followable hypothesis := by
  intro unifiers reached later u merged found
  cases merged with
  | refl =>
    rw [settled] at found
    cases found
  | merge first rest =>
    rw [settled] at first
    cases first

/-- The unifiers can be followed if the first can be followed, and those that come after it. -/
theorem Followable.merge {later : Nat} {u : Unifier}
    (found : mergeable? hypothesis 0 clause.literals = some (later, u))
    (ends : ∀ literal ∈ (clause.without later).literals, u.EndsFrom literal)
    (next : (u.applyToClause (clause.without later)).Followable hypothesis) :
    clause.Followable hypothesis := by
  intro unifiers reached other v merged again
  cases merged with
  | refl =>
    obtain ⟨rfl, rfl⟩ := Prod.mk.inj (Option.some.inj (found.symm.trans again))
    exact ends
  | merge first rest =>
    obtain ⟨rfl, rfl⟩ := Prod.mk.inj (Option.some.inj (found.symm.trans first))
    exact next _ reached other v rest again

/-- Factoring merges pairs. -/
theorem exists_mergesTo_factor (hypothesis : List Variable) (clause : Clause) :
    ∃ unifiers, MergesTo hypothesis clause unifiers (clause.factor hypothesis) := by
  have within : ∀ (merges : Nat) (clause : Clause),
      ∃ unifiers, MergesTo hypothesis clause unifiers (factorWithin hypothesis merges clause) := by
    intro merges
    induction merges with
    | zero => exact fun clause => ⟨[], .refl clause⟩
    | succ merges ih =>
      intro clause
      unfold factorWithin factorOnce
      cases found : mergeable? hypothesis 0 clause.literals with
      | none => exact ⟨[], .refl clause⟩
      | some pair =>
        obtain ⟨unifiers, rest⟩ := ih (pair.2.applyToClause (clause.without pair.1))
        exact ⟨pair.2 :: unifiers, .merge found rest⟩
  exact within clause.length clause

/-- Every merge drops a literal. -/
theorem MergesTo.length_add_le (merged : MergesTo hypothesis clause unifiers result) :
    unifiers.length + result.length ≤ clause.length := by
  induction merged with
  | refl clause => simp
  | @merge clause _ later u _ found rest ih =>
    have once : clause.factorOnce hypothesis = some (u.applyToClause (clause.without later)) := by
      rw [factorOnce, found]
      rfl
    have shorter := length_factorOnce_lt once
    simp only [List.length_cons]
    omega

/-- The unifiers of merges have no forbidden binding. -/
theorem MergesTo.check (merged : MergesTo hypothesis clause unifiers result) :
    ∀ u ∈ unifiers, u.check hypothesis = .ok () := by
  induction merged with
  | refl clause => exact List.forall_mem_nil _
  | merge found rest ih =>
    obtain ⟨i, j, first, second, -, -, -, -, -, unified⟩ := unify_of_mergeable? found
    have allowed := (Expr.unify_of_unifyRestricted unified).2
    exact List.forall_mem_cons.2 ⟨Unifier.check_eq_ok_iff.2 allowed, ih⟩

/-- Merging invents no literal: what is left are instances of literals. -/
theorem MergesTo.exists_eq_applyAll (merged : MergesTo hypothesis clause unifiers result)
    {literal : Expr} (member : literal ∈ result.literals) :
    ∃ original ∈ clause.literals, literal = Unifier.applyAll unifiers original := by
  induction merged with
  | refl clause => exact ⟨literal, member, rfl⟩
  | merge found rest ih =>
    obtain ⟨image, inside, rfl⟩ := ih member
    obtain ⟨original, kept, rfl⟩ := List.mem_map.1 (mem_of_mem_ofList inside)
    exact ⟨original, List.mem_of_mem_eraseIdx (mem_of_mem_ofList kept), rfl⟩

/-- The instance of a clause contains the instances of what the clause contains. -/
theorem contains_applyToClause {u : Unifier} (regular : u.Regular) (total : u.Total)
    (numbers : ∀ literal ∈ clause.literals, literal.NaNFree) {term : Expr}
    (held : clause.contains term) : (u.applyToClause clause).contains (u.apply term) := by
  obtain ⟨literal, member, same⟩ := List.contains_iff_exists_mem_beq.1 held
  have equal := regular.beq_apply_of_beq total same (numbers literal member)
  exact contains_ofList.2 (List.contains_iff_exists_mem_beq.2
    ⟨u.apply literal, List.mem_map_of_mem member, equal⟩)

/-- Under its unifier a merge loses no literal, not even the one that is dropped. -/
theorem contains_mergePair {later : Nat} {u : Unifier}
    (numbers : ∀ literal ∈ clause.literals, literal.NaNFree)
    (found : mergeable? hypothesis 0 clause.literals = some (later, u))
    (ends : ∀ literal ∈ (clause.without later).literals, u.EndsFrom literal) {term : Expr}
    (held : clause.contains term) :
    (u.applyToClause (clause.without later)).contains (u.apply term) := by
  obtain ⟨i, j, first, second, less, rfl, atFirst, atSecond, signs, unified⟩ :=
    unify_of_mergeable? found
  rw [Nat.zero_add] at ends ⊢
  have kept : ∀ {k : Nat} {literal : Expr}, k ≠ j → clause.literals[k]? = some literal →
      (clause.without j).contains literal := fun other located =>
    contains_ofList.2 (contains_of_mem (List.mem_eraseIdx_iff_getElem?.2 ⟨_, other, located⟩)
      (numbers _ (List.mem_of_getElem? located)))
  have inFirst := numbers first (List.mem_of_getElem? atFirst)
  have inSecond := numbers second (List.mem_of_getElem? atSecond)
  -- The earlier literal of the pair is kept, so the unifier can be followed from it.
  have keptFirst := kept (Nat.ne_of_lt less) atFirst
  have endsFirst : u.EndsFrom first := by
    obtain ⟨literal, member, same⟩ := List.contains_iff_exists_mem_beq.1 keptFirst
    exact (ends literal member).of_sameAtom (Expr.sameAtom_symm (Expr.beq_iff.1 same).2)
  obtain ⟨regular, total, equal⟩ :=
    Unifier.beq_apply_of_unifyRestricted unified inFirst inSecond signs endsFirst
  have instances : ∀ {e : Expr}, (clause.without j).contains e →
      (u.applyToClause (clause.without j)).contains (u.apply e) :=
    contains_applyToClause regular total (Everywhere.without numbers j)
  obtain ⟨literal, member, same⟩ := List.contains_iff_exists_mem_beq.1 held
  obtain ⟨k, located⟩ := List.mem_iff_getElem?.1 member
  by_cases dropped : k = j
  · obtain rfl : second = literal := Option.some.inj (atSecond.symm.trans (dropped ▸ located))
    have merged : u.apply term == u.apply first :=
      BEq.trans (regular.beq_apply_of_beq total same inSecond) (BEq.symm equal)
    exact contains_of_beq merged (instances keptFirst)
  · exact instances (contains_of_beq same (kept dropped located))

/-- Merging loses no literal if the unifiers can be followed. -/
theorem MergesTo.contains_applyAll (merged : MergesTo hypothesis clause unifiers result)
    (numbers : ∀ literal ∈ clause.literals, literal.NaNFree)
    (followable : clause.Followable hypothesis) {term : Expr} (held : clause.contains term) :
    result.contains (Unifier.applyAll unifiers term) := by
  induction merged generalizing term with
  | refl clause => exact held
  | merge found rest ih =>
    have next := contains_mergePair numbers found (followable _ _ _ _ (.refl _) found) held
    refine ih (Everywhere.mergePair numbers found) ?_ next
    exact fun unifiers reached later u more => followable _ reached later u (.merge found more)

/-- In a clause in which no pair can be merged, no two literals of one sign unify. -/
theorem unifyRestricted_ne_ok (settled : clause.factorOnce hypothesis = none) {i j : Nat}
    {left right : Expr} (different : i ≠ j) (atLeft : clause.literals[i]? = some left)
    (atRight : clause.literals[j]? = some right) (signs : left.negated = right.negated)
    (u : Unifier) : Expr.unifyRestricted hypothesis left right ≠ .ok u := by
  intro unified
  have none : mergeable? hypothesis 0 clause.literals = none := Option.map_eq_none_iff.1 settled
  rcases Nat.lt_or_gt_of_ne different with less | greater
  · exact mergeable?_ne_none less atLeft atRight signs unified none
  · -- Restricted unification tries both orders, so it succeeds for the turned pair as well.
    obtain ⟨apart, sides⟩ := Expr.exists_unifyRestricted_iff.1 ⟨u, unified⟩
    rw [Expr.areFixedVariables_comm] at apart
    obtain ⟨v, turned⟩ := Expr.exists_unifyRestricted_iff.2 ⟨apart, sides.symm⟩
    exact mergeable?_ne_none greater atRight atLeft signs.symm turned none

/-- A clause in which no pair can be merged is factored already. -/
theorem factor_eq_self (settled : clause.factorOnce hypothesis = none) :
    clause.factor hypothesis = clause := by
  unfold factor
  cases clause.length with
  | zero => rfl
  | succ merges => rw [factorWithin, settled]

/-- Factoring a clause without NaN comes to finitely many merges under allowed unifiers. What is
left are instances of literals of the clause under all of them, and, if the unifiers can be
followed, the instances of all its literals. No two literals of one sign that are left unify, and
factoring again changes nothing. -/
theorem factor_instances (numbers : ∀ literal ∈ clause.literals, literal.NaNFree) :
    ∃ unifiers : List Unifier, unifiers.length + (clause.factor hypothesis).length ≤ clause.length ∧
      MergesTo hypothesis clause unifiers (clause.factor hypothesis) ∧
      (∀ u ∈ unifiers, u.check hypothesis = .ok ()) ∧
      (∀ literal ∈ (clause.factor hypothesis).literals,
        ∃ original ∈ clause.literals, literal = Unifier.applyAll unifiers original) ∧
      (clause.Followable hypothesis → ∀ original ∈ clause.literals,
        (clause.factor hypothesis).contains (Unifier.applyAll unifiers original)) ∧
      (∀ (i j : Nat) (left right : Expr), i ≠ j →
        (clause.factor hypothesis).literals[i]? = some left →
        (clause.factor hypothesis).literals[j]? = some right → left.negated = right.negated →
        ∀ u, Expr.unifyRestricted hypothesis left right ≠ .ok u) ∧
      (clause.factor hypothesis).factor hypothesis = clause.factor hypothesis := by
  obtain ⟨unifiers, merged⟩ := exists_mergesTo_factor hypothesis clause
  have settled := factorOnce_factor hypothesis clause
  refine ⟨unifiers, merged.length_add_le, merged, merged.check,
    fun literal => merged.exists_eq_applyAll, fun followable original member => ?_,
    fun i j left right => unifyRestricted_ne_ok settled, factor_eq_self settled⟩
  exact merged.contains_applyAll numbers followable (contains_of_mem member (numbers original member))

/-- In `R(x, $0(x)) | R(z, $1(z)) | !Q($1(z)) | !Q(y)` the first two literals are merged with `z`
for `x` and `$1(z)` for `$0(x)`, and then the last two with `$1(z)` for `y`. The unifiers can be
followed, and `R(z, $1(z)) | !Q($1(z))`, which is left, contains the instances of all four
literals. -/
theorem factor_instances_skolem :
    let x : Variable := ⟨"x", 0, true, true⟩
    let z : Variable := ⟨"z", 1, true, true⟩
    let y : Variable := ⟨"y", 2, true, true⟩
    let R : Expr → Expr → Expr := fun e f => .node (.rel ⟨⟨"R", 2, none⟩⟩) [e, f]
    let Q : Expr → Expr := fun e => ⟨.rel ⟨⟨"Q", 1, none⟩⟩, true, [e]⟩
    let clause : Clause := ⟨[R (.ofVariable x) (.skolemOf 0 x), R (.ofVariable z) (.skolemOf 1 z),
      Q (.skolemOf 1 z), Q (.ofVariable y)]⟩
    (∀ literal ∈ clause.literals, literal.NaNFree) ∧ clause.Followable [] ∧
      clause.factor [] = ⟨[R (.ofVariable z) (.skolemOf 1 z), Q (.skolemOf 1 z)]⟩ ∧
      ∃ unifiers : List Unifier, MergesTo [] clause unifiers (clause.factor []) ∧
        (∀ u ∈ unifiers, u.check [] = .ok ()) ∧
        ∀ original ∈ clause.literals,
          (clause.factor []).contains (Unifier.applyAll unifiers original) := by
  intro x z y R Q clause
  have numbers : ∀ literal ∈ clause.literals, literal.NaNFree := by
    simp [clause, R, Q, Expr.NaNFree, Expr.Everywhere, Expr.EverywhereArgs, Expr.skolemOf,
      Expr.ofSkolem, Expr.node, Expr.ofVariable, Expr.leaf, Symbol.isNaN]
  let u : Unifier := ⟨[⟨.ofVariable x, .ofVariable z⟩, ⟨.skolemOf 0 x, .skolemOf 1 z⟩]⟩
  let v : Unifier := ⟨[⟨.ofVariable y, .skolemOf 1 z⟩]⟩
  let middle : Clause := ⟨[R (.ofVariable z) (.skolemOf 1 z), Q (.skolemOf 1 z), Q (.ofVariable y)]⟩
  let result : Clause := ⟨[R (.ofVariable z) (.skolemOf 1 z), Q (.skolemOf 1 z)]⟩
  have first : mergeable? [] 0 clause.literals = some (1, u) := rfl
  have once : u.applyToClause (clause.without 1) = middle := rfl
  have second : mergeable? [] 0 middle.literals = some (2, v) := rfl
  have twice : v.applyToClause (middle.without 2) = result := rfl
  have last : mergeable? [] 0 result.literals = none := rfl
  have factored : clause.factor [] = result := by
    change factorWithin [] 4 clause = result
    simp [factorWithin, factorOnce, first, once, second, twice, last]
  have ends : u.Total ∧ v.Total := by
    refine ⟨Unifier.total_of_replacements (List.forall_mem_cons.2 ⟨?_, List.forall_mem_singleton.2 ?_⟩),
      Unifier.total_of_replacements (List.forall_mem_singleton.2 ?_)⟩
    all_goals exact ⟨_, Unifier.image?_eq_some_iff.1 rfl⟩
  have followable : clause.Followable [] :=
    .merge first (fun literal _ => ends.1 literal) (once ▸ .merge second (fun literal _ => ends.2 literal)
      (twice ▸ followable_of_mergeable? last))
  obtain ⟨unifiers, -, merged, checked, -, instances, -⟩ := @factor_instances [] clause numbers
  exact ⟨numbers, followable, factored, unifiers, merged, checked, instances followable⟩

end Clause

end Refute
