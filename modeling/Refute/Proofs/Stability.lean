import Refute.Proofs.Acyclicity
import Refute.Proofs.Loop

/-!
# Stability of unification

A unifier that binds Skolem terms is not a substitution, and applying it after another binding is
not a matter of applying it to the earlier instances: a Skolem term is looked up with its arguments
as they stand. Equalities last all the same. Whatever unification has made equal is equal, apart
from the sign, under every unifier that has further bindings, as long as they can be followed: what
is found bound stays bound to the same term, and what is no unknown is never bound.
-/

namespace Refute

/-- Terms that are equal apart from the sign are both unknown or both known. -/
theorem Expr.isUnknown_congr {e f : Expr} (same : e.sameAtom f) : e.isUnknown = f.isUnknown := by
  obtain ⟨head, _, _⟩ := e
  obtain ⟨other, _, _⟩ := f
  have heads : head == other := (sameAtom_iff.1 same).1
  cases Symbol.beq_iff_alike.1 heads <;> rfl

namespace Unifier

variable {u v w : Unifier}

/-! ### Bindings made by unification -/

/-- Unknowns are bound, to terms without a sign, and there is no NaN. -/
structure Regular (u : Unifier) : Prop where
  /-- Only unknowns are bound. -/
  unknown : ∀ binding ∈ u.bindings, binding.unknown.isUnknown
  /-- The replacements have no sign. -/
  positive : ∀ binding ∈ u.bindings, binding.replacement.negated = false
  /-- There is no NaN. -/
  number : u.Everywhere fun head _ => head.isNaN = false

/-- The empty unifier is regular. -/
theorem regular_empty : empty.Regular where
  unknown _ member := absurd member List.not_mem_nil
  positive _ member := absurd member List.not_mem_nil
  number _ member := absurd member List.not_mem_nil

/-- Binding an unknown to a term without NaN keeps bindings regular. -/
theorem Regular.bind (regular : u.Regular) {unknown term : Expr} (isUnknown : unknown.isUnknown)
    (inUnknown : unknown.NaNFree) (inTerm : term.NaNFree) : (u.bind unknown term).Regular where
  unknown binding member := by
    rcases List.mem_append.1 member with old | added
    · exact regular.unknown binding old
    · obtain rfl := List.mem_singleton.1 added
      exact isUnknown
  positive binding member := by
    rcases List.mem_append.1 member with old | added
    · exact regular.positive binding old
    · obtain rfl := List.mem_singleton.1 added
      rfl
  number := regular.number.bind inUnknown inTerm

/-- A term that is no unknown is not bound. -/
theorem Regular.lookup?_eq_none (regular : u.Regular) {term : Expr} (known : term.isUnknown = false) :
    u.lookup? term = none := by
  cases located : u.lookup? term with
  | none => rfl
  | some replacement =>
    obtain ⟨binding, member, matched, -⟩ := exists_of_lookup? located
    have isUnknown := regular.unknown binding member
    rw [Expr.isUnknown_congr matched, known] at isUnknown
    cases isUnknown

/-! ### Equalities that last -/

/-- Terms that are equal apart from the sign have instances that coincide apart from the sign. -/
theorem Total.atomCoincides_apply (total : u.Total) {e f : Expr} (same : e.sameAtom f) :
    (u.apply e).AtomCoincides (u.apply f) := by
  obtain ⟨steps, found⟩ := total.hasImage e
  obtain ⟨other, reached, coincides, -⟩ := applyWithin_congr same found
  rwa [(total.hasImage f).unique ⟨steps, reached⟩]

/-- Under every unifier that has further bindings and can be followed, the instances of the terms
coincide apart from their signs. -/
def Equalizes (u : Unifier) (left right : Expr) : Prop :=
  ∀ w : Unifier, u.bindings <+: w.bindings → w.Regular → w.Total →
    (w.apply left).AtomCoincides (w.apply right)

/-- Terms that are made equal stay so under further bindings. -/
theorem Equalizes.mono {left right : Expr} (equal : u.Equalizes left right)
    (longer : u.bindings <+: v.bindings) : v.Equalizes left right :=
  fun w more => equal w (longer.trans more)

/-- Terms are made equal in either order. -/
theorem Equalizes.symm {left right : Expr} (equal : u.Equalizes left right) :
    u.Equalizes right left :=
  fun w more regular total => (equal w more regular total).symm

/-- A bound term is equal to what its replacement is equal to. -/
theorem Equalizes.of_bound {left right bound : Expr} (located : u.lookup? left = some bound)
    (equal : u.Equalizes bound right) : u.Equalizes left right := by
  intro w more regular total
  have instances := equal w more regular total
  rw [total.apply_bound (lookup?_mono more located)]
  exact instances

/-- Terms with the same symbol are equal if their arguments are. -/
theorem equalizes_of_args {left right : Expr} (noLeft : left.isUnknown = false)
    (noRight : right.isUnknown = false) (heads : left.head == right.head)
    (arguments : List.Forall₂ (fun a b => a.negated = b.negated ∧ u.Equalizes a b) left.args right.args) :
    u.Equalizes left right := by
  intro w more regular total
  rw [total.apply_free (regular.lookup?_eq_none noLeft),
    total.apply_free (regular.lookup?_eq_none noRight)]
  refine ⟨.inl heads, ?_⟩
  rw [List.forall₂_map_left_iff, List.forall₂_map_right_iff]
  refine arguments.imp fun a b equal => Expr.coincides_iff.2 ⟨?_, equal.2 w more regular total⟩
  rw [(total.hasImage a).negated_eq regular.positive, (total.hasImage b).negated_eq regular.positive,
    equal.1]

/-- A successful run keeps all bindings and makes the terms equal for good. -/
theorem equalizes_of_run {moves : Nat} {left right : Expr}
    (unified : unifyWithin moves u left right = .ok v) (regular : u.Regular)
    (inLeft : left.NaNFree) (inRight : right.NaNFree) :
    v.Regular ∧ u.bindings <+: v.bindings ∧ v.Equalizes left right := by
  refine unifyWithin_induction
    (fun u left right v => u.Regular → left.NaNFree → right.NaNFree →
      v.Regular ∧ u.bindings <+: v.bindings ∧ v.Equalizes left right)
    (fun u as bs v => u.Regular → (∀ a ∈ as, a.NaNFree) → (∀ b ∈ bs, b.NaNFree) →
      v.Regular ∧ u.bindings <+: v.bindings ∧
        List.Forall₂ (fun a b => a.negated = b.negated ∧ v.Equalizes a b) as bs)
    ?agree ?swap ?follow ?bind ?descend ?nil ?cons unified regular inLeft inRight
  case agree =>
    intro u left right same regular _ _
    exact ⟨regular, List.prefix_refl _, fun w _ _ total => total.atomCoincides_apply same⟩
  case swap =>
    intro u left right v turned regular inLeft inRight
    obtain ⟨result, longer, equal⟩ := turned regular inRight inLeft
    exact ⟨result, longer, equal.symm⟩
  case follow =>
    intro u left right bound v located rest regular _ inRight
    obtain ⟨binding, member, -, rfl⟩ := exists_of_lookup? located
    obtain ⟨result, longer, equal⟩ := rest regular (regular.number binding member).2 inRight
    exact ⟨result, longer, equal.of_bound (lookup?_mono longer located)⟩
  case bind =>
    intro u left right image isUnknown free _ _ regular inLeft inRight
    refine ⟨regular.bind isUnknown inLeft inRight, List.prefix_append _ _, ?_⟩
    have located : (u.bind left right).lookup? left = some right.positive := by
      rw [lookup?_bind, free, if_pos (Expr.beq_iff.1 (Expr.beq_self inLeft)).2]
      rfl
    refine .of_bound located fun w _ _ total => total.atomCoincides_apply ?_
    exact (Expr.beq_iff.1 (Expr.beq_self inRight)).2
  case descend =>
    intro u left right v noLeft noRight heads rest regular inLeft inRight
    obtain ⟨result, longer, arguments⟩ :=
      rest regular (Expr.everywhere_iff.1 inLeft).2 (Expr.everywhere_iff.1 inRight).2
    exact ⟨result, longer, equalizes_of_args noLeft noRight heads arguments⟩
  case nil => exact fun u regular _ _ => ⟨regular, List.prefix_refl _, .nil⟩
  case cons =>
    intro u a b v as bs w signs first rest regular inAs inBs
    rw [List.forall_mem_cons] at inAs inBs
    obtain ⟨middle, longer, equal⟩ := first regular inAs.1 inBs.1
    obtain ⟨result, longest, equals⟩ := rest middle inAs.2 inBs.2
    -- What the first arguments are made equal by speaks of all later bindings, so it lasts.
    exact ⟨result, longer.trans longest, .cons ⟨signs, equal.mono longest⟩ equals⟩

end Unifier

/-- If terms without NaN are unified pair by pair, one unifier taking up all bindings, no
replacement has a sign. If the bindings can be followed in the end, as they can if no bound term
leads back to itself (`Acyclic.total`), the instances of both terms of every pair are equal apart
from their signs, whenever the pair was unified. -/
theorem Unifier.sameAtom_apply_of_unifyAll {pairs : List (Expr × Expr)} {u : Unifier}
    (numbers : ∀ pair ∈ pairs, pair.1.NaNFree ∧ pair.2.NaNFree)
    (unified : pairs.foldlM (fun u pair => u.unify pair.1 pair.2) Unifier.empty = .ok u) :
    (u.Total → ∀ pair ∈ pairs, (u.apply pair.1).sameAtom (u.apply pair.2)) ∧
      ∀ binding ∈ u.bindings, binding.replacement.negated = false := by
  have step : ∀ (u : Unifier) (pair : Expr × Expr) (v : Unifier), u.Regular → pair ∈ pairs →
      u.unify pair.1 pair.2 = .ok v → v.Regular ∧ v.Equalizes pair.1 pair.2 ∧
        ∀ other : Expr × Expr, u.Equalizes other.1 other.2 → v.Equalizes other.1 other.2 := by
    intro u pair v regular member unified
    obtain ⟨inLeft, inRight⟩ := numbers pair member
    obtain ⟨result, longer, equal⟩ := equalizes_of_run unified regular inLeft inRight
    exact ⟨result, equal, fun other before => before.mono longer⟩
  obtain ⟨regular, equal, -⟩ := foldlM_ok step regular_empty unified
  refine ⟨fun total pair member => ?_, regular.positive⟩
  have coincides := equal pair member u (List.prefix_refl _) regular total
  exact coincides.sameAtom
    (everywhere_apply (fun binding bound => (regular.number binding bound).2) (numbers pair member).1)

/-- The Skolem term `$0(x)` is bound to `$1(x)` and `x` to `a`, and then `P($0(x))` is unified with
`P(z)`. Both terms of each pair still have the same instance, although `x` is bound by now: it is
`$1` of `a` for the first pair, `a` for the second and `P` of the first for the third. -/
theorem Unifier.sameAtom_apply_of_unifyAll_skolems :
    let x : Variable := ⟨"x", 0, true, true⟩
    let z : Variable := ⟨"z", 1, true, true⟩
    let a : Expr := .leaf (.const ⟨"a", .text "a"⟩)
    let holds : Expr → Expr := fun e => .node (.rel ⟨⟨"P", 1, none⟩⟩) [e]
    let made : Expr := .node (.skolem ⟨1, [x]⟩) [a]
    let pairs := [(Expr.skolemOf 0 x, Expr.skolemOf 1 x), (.ofVariable x, a),
      (holds (.skolemOf 0 x), holds (.ofVariable z))]
    let u : Unifier := ⟨[⟨.skolemOf 0 x, .skolemOf 1 x⟩, ⟨.ofVariable x, a⟩,
      ⟨.ofVariable z, .skolemOf 1 x⟩]⟩
    (∀ pair ∈ pairs, pair.1.NaNFree ∧ pair.2.NaNFree) ∧
      pairs.foldlM (fun u pair => u.unify pair.1 pair.2) Unifier.empty = .ok u ∧ u.Total ∧
      pairs.map (fun pair => (u.apply pair.1, u.apply pair.2)) =
        [(made, made), (a, a), (holds made, holds made)] ∧
      (∀ pair ∈ pairs, (u.apply pair.1).sameAtom (u.apply pair.2)) := by
  intro x z a holds made pairs u
  have numbers : ∀ pair ∈ pairs, pair.1.NaNFree ∧ pair.2.NaNFree := by
    simp [pairs, holds, a, Expr.NaNFree, Expr.Everywhere, Expr.EverywhereArgs, Expr.skolemOf,
      Expr.ofSkolem, Expr.node, Expr.ofVariable, Expr.leaf, Symbol.isNaN, Value.isNaN]
  have unified : pairs.foldlM (fun u pair => u.unify pair.1 pair.2) Unifier.empty = .ok u := rfl
  have total : u.Total := by
    refine total_of_replacements fun binding member => ?_
    simp only [u, List.mem_cons, List.not_mem_nil, or_false] at member
    rcases member with rfl | rfl | rfl
    all_goals exact ⟨_, image?_eq_some_iff.1 rfl⟩
  exact ⟨numbers, unified, total, rfl, (sameAtom_apply_of_unifyAll numbers unified).1 total⟩

end Refute
