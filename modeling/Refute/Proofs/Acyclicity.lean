import Mathlib.Data.Finset.Card
import Mathlib.Data.Fintype.Basic
import Mathlib.Logic.Relation
import Refute.Proofs.Substitution

/-!
# Circles of bindings

A bound term leads to the bound terms that stand in its replacement. Bindings are acyclic if no
bound term leads back to itself, and following acyclic bindings from a term always ends.

The occurs check looks for an unknown, as it stands, in the instance of its replacement. A variable
is its own instance until it is bound, and so is a Skolem term while nothing in its arguments is
bound; if that stays so, the bindings are acyclic. A Skolem term with a bound argument has another
instance, for which the check does not look: `P(x, s(x))` and `P(a, f(s(x)))` are unified by binding
`s(x)` to `f(s(x))`. Where that instance does not stand in the instance of the replacement either,
following the bindings ends.
-/

namespace Refute

namespace Unifier

variable {u : Unifier}

/-! ### Ways through bindings -/

/-- A bound term leads to the bound terms in its replacement. -/
def Leads (u : Unifier) (bound next : Expr) : Prop :=
  ∃ replacement, u.lookup? bound = some replacement ∧ next.PartOf replacement ∧
    (u.lookup? next).isSome

/-- No bound term leads back to itself. -/
def Acyclic (u : Unifier) : Prop :=
  ∀ bound next, Relation.TransGen u.Leads bound next → bound.sameAtom next = false

open Classical in
/-- The places of the bindings that are met on the ways from a bound term. -/
noncomputable def ahead (u : Unifier) (bound : Expr) : Finset (Fin u.bindings.length) :=
  Finset.univ.filter fun place => ∃ next, Relation.TransGen u.Leads bound next ∧
    (u.bindings.get place).unknown.sameAtom next

/-- If bindings are acyclic, less lies ahead of the terms that a bound term leads to. -/
theorem Acyclic.ahead_ssubset (acyclic : u.Acyclic) {bound next : Expr}
    (leads : u.Leads bound next) : u.ahead next ⊂ u.ahead bound := by
  obtain ⟨-, -, -, isBound⟩ := id leads
  obtain ⟨_, located⟩ := Option.isSome_iff_exists.1 isBound
  obtain ⟨binding, member, matched, -⟩ := exists_of_lookup? located
  obtain ⟨place, rfl⟩ := List.get_of_mem member
  refine (Finset.ssubset_iff_of_subset fun other => ?_).2 ⟨place, ?_, ?_⟩
  · simp only [ahead, Finset.mem_filter, Finset.mem_univ, true_and]
    rintro ⟨last, path, same⟩
    exact ⟨last, .head leads path, same⟩
  · simp only [ahead, Finset.mem_filter, Finset.mem_univ, true_and]
    exact ⟨next, .single leads, matched⟩
  · simp only [ahead, Finset.mem_filter, Finset.mem_univ, true_and]
    rintro ⟨last, path, same⟩
    have back := Expr.sameAtom_trans (Expr.sameAtom_symm matched) same
    rw [acyclic next last path] at back
    cases back

/-- A term has an image if every bound term in it has one. -/
theorem exists_image_of_parts {term : Expr}
    (each : ∀ part : Expr, part.PartOf term → (u.lookup? part).isSome →
      ∃ image, u.HasImage part image) : ∃ image, u.HasImage term image := by
  induction term using Expr.induction with
  | node head negated args ih =>
    cases located : u.lookup? ⟨head, negated, args⟩ with
    | some replacement => exact each _ (.refl _) (by rw [located]; rfl)
    | none =>
      obtain ⟨images, found⟩ := exists_images fun arg member =>
        ih arg member fun part within => each part (.inside member within)
      exact ⟨_, .free located found⟩

/-- Following acyclic bindings from a term always ends. -/
theorem Acyclic.total (acyclic : u.Acyclic) : u.Total := by
  have images : ∀ bound, (u.lookup? bound).isSome → ∃ image, u.HasImage bound image := by
    intro bound isBound
    -- What lies ahead shrinks with every binding that is followed.
    induction reached : u.ahead bound using Finset.strongInduction generalizing bound with
    | H reached ih =>
      obtain ⟨replacement, located⟩ := Option.isSome_iff_exists.1 isBound
      obtain ⟨image, found⟩ := exists_image_of_parts fun part within isPart =>
        ih _ (by
          rw [← reached]
          exact acyclic.ahead_ssubset ⟨replacement, located, within, isPart⟩) part isPart rfl
      exact ⟨_, .bound located found⟩
  exact fun term => exists_image_of_parts fun part _ => images part

/-! ### Arguments of bound terms -/

/-- Nothing in the arguments of a bound term is bound. -/
def ArgumentsFree (u : Unifier) : Prop :=
  ∀ binding ∈ u.bindings, ∀ arg ∈ binding.unknown.args, ∀ part : Expr, part.PartOf arg →
    u.lookup? part = none

/-- What is found bound has nothing bound in its arguments. -/
theorem ArgumentsFree.lookup?_eq_none (free : u.ArgumentsFree) {bound replacement arg part : Expr}
    (located : u.lookup? bound = some replacement) (member : arg ∈ bound.args)
    (within : part.PartOf arg) : u.lookup? part = none := by
  obtain ⟨binding, inside, matched, -⟩ := exists_of_lookup? located
  obtain ⟨other, there, equal⟩ := Expr.exists_arg_beq (Expr.sameAtom_symm matched) member
  obtain ⟨counterpart, inner, equal⟩ := within.exists_beq equal
  rw [u.lookup?_congr (Expr.beq_iff.1 equal).2]
  exact free binding inside other there counterpart inner

/-- The bound terms in a term are on the way to its image. -/
theorem ArgumentsFree.exists_image_of_part (free : u.ArgumentsFree) {steps : Nat}
    {term image part : Expr} (found : u.applyWithin steps term = some image)
    (within : part.PartOf term) (isBound : (u.lookup? part).isSome) :
    ∃ inner, u.applyWithin steps part = some inner := by
  induction within generalizing steps image with
  | refl => exact ⟨image, found⟩
  | @inside arg whole member within ih =>
    cases located : u.lookup? whole with
    | some replacement =>
      rw [free.lookup?_eq_none located member within] at isBound
      cases isBound
    | none =>
      obtain ⟨rest, rfl, each⟩ := exists_image_of_mem found located
      obtain ⟨_, reached⟩ := each arg member
      obtain ⟨inner, there⟩ := ih reached
      exact ⟨inner, applyWithin_mono (Nat.le_succ rest) there⟩

/-- The terms that a bound term leads to need fewer steps. -/
theorem ArgumentsFree.exists_image_of_transGen (free : u.ArgumentsFree) {steps : Nat}
    {bound next image : Expr} (path : Relation.TransGen u.Leads bound next)
    (found : u.applyWithin steps bound = some image) :
    ∃ fewer < steps, ∃ inner, u.applyWithin fewer next = some inner := by
  have step : ∀ {steps : Nat} {bound next image : Expr}, u.Leads bound next →
      u.applyWithin steps bound = some image →
      ∃ fewer < steps, ∃ inner, u.applyWithin fewer next = some inner := by
    rintro steps bound next image ⟨replacement, located, within, isBound⟩ found
    obtain ⟨rest, _, rfl, reached⟩ := exists_image_of_lookup? found located
    exact ⟨rest, Nat.lt_succ_self rest, free.exists_image_of_part reached within isBound⟩
  induction path with
  | single leads => exact step leads found
  | tail _ leads ih =>
    obtain ⟨fewer, less, _, reached⟩ := ih
    obtain ⟨fewest, least, there⟩ := step leads reached
    exact ⟨fewest, least.trans less, there⟩

/-- If following bindings always ends and nothing in the arguments of bound terms is bound, the
bindings are acyclic. -/
theorem ArgumentsFree.acyclic (free : u.ArgumentsFree) (total : u.Total) : u.Acyclic := by
  intro bound next path
  obtain ⟨image, steps, found⟩ := total bound
  induction steps using Nat.strong_induction_on generalizing image with
  | _ steps ih =>
    cases same : bound.sameAtom next with
    | false => rfl
    | true =>
      obtain ⟨fewer, less, _, reached⟩ := free.exists_image_of_transGen path found
      obtain ⟨again, back, -⟩ := applyWithin_congr (Expr.sameAtom_symm same) reached
      exact same.symm.trans (ih fewer less again back)

/-! ### The occurs check -/

/-- What a Skolem term was bound to avoids it in the instance that the bindings before give. -/
def SkolemsAvoided (u : Unifier) : Prop :=
  ∀ before binding after, u.bindings = before ++ binding :: after →
    binding.unknown.isVariable = false →
    Avoids ⟨before⟩ binding.unknown (apply ⟨before⟩ binding.replacement)

/-- A term that is not bound was not bound before the last binding. -/
theorem lookup?_eq_none_of_bind {unknown term other : Expr}
    (free : (u.bind unknown term).lookup? other = none) : u.lookup? other = none := by
  rw [lookup?_bind, Option.or_eq_none_iff] at free
  exact free.1

/-- Arguments that are free of bound terms were so before the last binding. -/
theorem ArgumentsFree.of_bind {unknown term : Expr} (free : (u.bind unknown term).ArgumentsFree) :
    u.ArgumentsFree :=
  fun binding member arg inside part within => lookup?_eq_none_of_bind
    (free binding (List.mem_append_left _ member) arg inside part within)

/-- Skolem terms that are avoided were so before the last binding. -/
theorem SkolemsAvoided.of_bind {unknown term : Expr} (avoided : (u.bind unknown term).SkolemsAvoided) :
    u.SkolemsAvoided := by
  intro before binding after split
  refine avoided before binding (after ++ [⟨unknown.positive, term.positive⟩]) ?_
  rw [Unifier.bind, split, List.append_assoc, List.cons_append]

/-- What the last Skolem term was bound to avoids it. -/
theorem SkolemsAvoided.avoids {unknown term image : Expr}
    (avoided : (u.bind unknown term).SkolemsAvoided) (skolem : unknown.isVariable = false)
    (total : u.Total) (found : u.HasImage term image) : u.Avoids unknown image := by
  obtain ⟨sign, signed⟩ := found.signed false
  have last : u.Avoids unknown.positive (u.apply term.positive) :=
    avoided u.bindings ⟨unknown.positive, term.positive⟩ [] rfl skolem
  rw [(total.hasImage term.positive).unique signed] at last
  intro other met same free reached within
  exact last other met same free reached ((Expr.includes_signed sign).2 within)

/-- Following the bindings that unify two terms always ends if nothing in the arguments of bound
terms is bound, or if the occurs check would have held for the instances of Skolem terms too. -/
theorem total_of_unify {left right : Expr} (unified : left.unify right = .ok u)
    (inLeft : left.FirstOrder) (inRight : right.FirstOrder)
    (apart : u.ArgumentsFree ∨ u.SkolemsAvoided) : u.Total := by
  obtain ⟨moves, run⟩ := exists_run_of_unify unified
  have invariant := unifyWithin_invariant
    (P := fun u => u.Everywhere (fun head count => ∀ v, head = .var v → count = 0) ∧
      (u.ArgumentsFree ∨ u.SkolemsAvoided → u.Total))
    (fun u holds => holds.1) ?bind run ⟨?start, fun _ => solved_empty.total⟩ inLeft inRight
  case start => exact fun _ member => absurd member List.not_mem_nil
  case bind =>
    rintro u left right image ⟨firstOrder, total⟩ inLeft inRight - - found absent
    refine ⟨firstOrder.bind inLeft inRight, fun apart => ?_⟩
    have before : u.Total := total (apart.imp ArgumentsFree.of_bind SkolemsAvoided.of_bind)
    refine before.bind found ?_
    by_cases named : left.isVariable
    · obtain ⟨v, same⟩ := eq_ofVariable inLeft named
      have alone : left.args = [] := congrArg Expr.args same
      refine avoids_of_args_free ?_ absent
      rw [alone]
      exact List.forall_mem_nil _
    · rcases apart with free | avoided
      · refine avoids_of_args_free (fun arg member part within => ?_) absent
        exact lookup?_eq_none_of_bind (free ⟨left.positive, right.positive⟩
          (List.mem_append_right _ List.mem_cons_self) arg member part within)
      · exact avoided.avoids (Bool.not_eq_true _ ▸ named) before found
  exact invariant.2 apart

end Unifier

/-- When two terms in which variables stand alone are unified and nothing in the arguments of a
bound term is bound, no bound term leads back to itself. Every term has an instance if no bound term
leads back to itself, and also if what each Skolem term was bound to avoids its instance. -/
theorem Expr.acyclic_of_unify {left right : Expr} {u : Unifier}
    (alone : ∀ e ∈ [left, right], e.FirstOrder) (unified : left.unify right = .ok u) :
    (u.ArgumentsFree → u.Acyclic) ∧
    (u.Acyclic ∨ u.SkolemsAvoided → ∀ term, u.image? term = some (u.apply term)) := by
  simp only [List.forall_mem_cons] at alone
  obtain ⟨inLeft, inRight, -⟩ := alone
  refine ⟨fun free => ?_, fun apart term => Unifier.image?_eq_some_iff.2 ?_⟩
  · exact free.acyclic (Unifier.total_of_unify unified inLeft inRight (.inl free))
  · rcases apart with acyclic | avoided
    · exact acyclic.total.hasImage term
    · exact (Unifier.total_of_unify unified inLeft inRight (.inr avoided)).hasImage term

/-- The Skolem term `$n(v)`. -/
def Expr.skolemOf (n : Nat) (v : Variable) : Expr := .ofSkolem ⟨n, [v]⟩

/-- The literals `P($0(x), y)` and `P($1(x), f($0(x)))` are unified by `$1(x)` for `$0(x)` and by
`f($0(x))` for `y`. Nothing in the arguments of the Skolem term is bound, so no bound term leads
back to itself, and the instance of `y` is found. -/
theorem Expr.acyclic_of_unify_skolems :
    let x : Variable := ⟨"x", 0, true, true⟩
    let y : Variable := ⟨"y", 1, true, true⟩
    let left : Expr := .node (.rel ⟨⟨"P", 2, none⟩⟩) [skolemOf 0 x, .ofVariable y]
    let right : Expr := .node (.rel ⟨⟨"P", 2, none⟩⟩)
      [skolemOf 1 x, .node (.fn ⟨"f", 1, none⟩) [skolemOf 0 x]]
    let u : Unifier := ⟨[⟨skolemOf 0 x, skolemOf 1 x⟩,
      ⟨.ofVariable y, .node (.fn ⟨"f", 1, none⟩) [skolemOf 0 x]⟩]⟩
    (∀ e ∈ [left, right], e.FirstOrder) ∧ left.unify right = .ok u ∧ u.ArgumentsFree ∧ u.Acyclic ∧
      u.image? (.ofVariable y) = some (.node (.fn ⟨"f", 1, none⟩) [skolemOf 1 x]) := by
  intro x y left right u
  have alone : ∀ e ∈ [left, right], e.FirstOrder := by
    simp [left, right, FirstOrder, Everywhere, EverywhereArgs, skolemOf, ofSkolem, Expr.node, ofVariable,
      leaf]
  have unified : left.unify right = .ok u := rfl
  have free : u.ArgumentsFree := by
    intro binding member arg inside part within
    simp only [u, List.mem_cons, List.not_mem_nil, or_false] at member
    rcases member with rfl | rfl
    · obtain rfl := List.mem_singleton.1 inside
      cases within with
      | refl => rfl
      | inside deeper _ => exact absurd deeper List.not_mem_nil
    · exact absurd inside List.not_mem_nil
  obtain ⟨acyclic, ends⟩ := acyclic_of_unify alone unified
  refine ⟨alone, unified, free, acyclic free, ?_⟩
  rw [ends (.inl (acyclic free))]
  rfl

/-- The literals `P(x, $0(x))` and `P(a, f($0(x)))` are unified by `a` for `x` and `f($0(x))` for
`$0(x)`, which leads back to itself and has no instance. -/
theorem Expr.not_acyclic_of_unify :
    let x : Variable := ⟨"x", 0, true, true⟩
    let a : Expr := .leaf (.const ⟨"a", .text "a"⟩)
    let successor : Expr := .node (.fn ⟨"f", 1, none⟩) [skolemOf 0 x]
    let left : Expr := .node (.rel ⟨⟨"P", 2, none⟩⟩) [.ofVariable x, skolemOf 0 x]
    let right : Expr := .node (.rel ⟨⟨"P", 2, none⟩⟩) [a, successor]
    let u : Unifier := ⟨[⟨.ofVariable x, a⟩, ⟨skolemOf 0 x, successor⟩]⟩
    (∀ e ∈ [left, right], e.FirstOrder) ∧ left.unify right = .ok u ∧ ¬ u.Acyclic ∧
      u.image? (skolemOf 0 x) = none := by
  intro x a successor left right u
  have alone : ∀ e ∈ [left, right], e.FirstOrder := by
    simp [left, right, successor, a, FirstOrder, Everywhere, EverywhereArgs, skolemOf, ofSkolem, Expr.node,
      ofVariable, leaf]
  refine ⟨alone, rfl, fun acyclic => ?_, rfl⟩
  have leads : u.Leads (skolemOf 0 x) (skolemOf 0 x) :=
    ⟨successor, rfl, .inside List.mem_cons_self (.refl _), rfl⟩
  have apart := acyclic _ _ (.single leads)
  cases apart

end Refute
