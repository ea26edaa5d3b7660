import Refute.Proofs.Unification

/-!
# Substitutions

Equality of expressions is not reflexive, because a NaN differs from itself. Expressions coincide if
they are equal once a NaN counts as equal to itself; where there is no NaN, they coincide exactly
when they are equal.

A substitution gives a term without a sign to every variable, the same to equal variables. It solves
a unifier if it makes both sides of every binding coincide apart from the sign. A substitution that
solves a unifier does not tell a term from its image.
-/

namespace Refute

/-! ### Expressions that coincide -/

/-- What follows from a relation at the members of a list follows at all places. -/
theorem forall₂_imp_of_mem {α β : Type} {R S : α → β → Prop} {as : List α} {bs : List β}
    (follows : ∀ a ∈ as, ∀ b, R a b → S a b) (related : List.Forall₂ R as bs) :
    List.Forall₂ S as bs := by
  induction related with
  | nil => exact .nil
  | cons first _ rest =>
    rw [List.forall_mem_cons] at follows
    exact .cons (follows.1 _ first) (rest follows.2)

/-- The symbols are equal, or they are the same NaN. -/
def Symbol.Coincides (f g : Symbol) : Prop := f == g ∨ f = g

namespace Symbol

variable {f g h : Symbol}

/-- Every symbol coincides with itself, a NaN too. -/
theorem Coincides.refl (f : Symbol) : f.Coincides f := .inr rfl

/-- Symbols coincide both ways. -/
theorem Coincides.symm (same : f.Coincides g) : g.Coincides f :=
  same.imp BEq.symm Eq.symm

/-- Symbols that coincide with one coincide. -/
theorem Coincides.trans (first : f.Coincides g) (second : g.Coincides h) : f.Coincides h := by
  rcases first with first | rfl
  · rcases second with second | rfl
    · exact .inl (BEq.trans first second)
    · exact .inl first
  · exact second

/-- Symbols that coincide are equal unless they are NaNs. -/
theorem Coincides.beq (same : f.Coincides g) (number : f.isNaN = false) : f == g := by
  rcases same with same | rfl
  · exact same
  · exact beq_self number

end Symbol

namespace Expr

mutual

/-- Equality of symbols, signs and arguments in which a NaN counts as equal to itself. -/
def Coincides : Expr → Expr → Prop
  | ⟨f, n, as⟩, ⟨g, m, bs⟩ => f.Coincides g ∧ n = m ∧ CoincideArgs as bs

/-- The arguments coincide one by one. -/
def CoincideArgs : List Expr → List Expr → Prop
  | [], [] => True
  | a :: as, b :: bs => Coincides a b ∧ CoincideArgs as bs
  | _, _ => False

end

/-- The expressions coincide apart from the outermost sign. -/
def AtomCoincides (e f : Expr) : Prop :=
  e.head.Coincides f.head ∧ List.Forall₂ Coincides e.args f.args

variable {e f g : Expr}

/-- Argument lists coincide if their members do, place by place. -/
theorem coincideArgs_iff {as bs : List Expr} :
    CoincideArgs as bs ↔ List.Forall₂ Coincides as bs := by
  induction as generalizing bs with
  | nil => cases bs <;> simp [CoincideArgs]
  | cons a as ih => cases bs <;> simp [CoincideArgs, ih]

/-- Expressions coincide when their signs are equal and they coincide apart from the sign. -/
theorem coincides_iff : e.Coincides f ↔ e.negated = f.negated ∧ e.AtomCoincides f := by
  obtain ⟨head, negated, args⟩ := e
  obtain ⟨other, sign, arguments⟩ := f
  simp only [Coincides, AtomCoincides, coincideArgs_iff]
  exact and_left_comm

/-- Two relations between lists join if they join at the members. -/
private theorem forall₂_trans {α : Type} {R : α → α → Prop} {as bs cs : List α}
    (join : ∀ a ∈ as, ∀ b c, R a b → R b c → R a c) (first : List.Forall₂ R as bs)
    (second : List.Forall₂ R bs cs) : List.Forall₂ R as cs := by
  induction first generalizing cs with
  | nil => exact second
  | cons here _ rest =>
    rw [List.forall_mem_cons] at join
    obtain _ | ⟨there, others⟩ := second
    exact .cons (join.1 _ _ here there) (rest join.2 others)

/-- Every expression coincides with itself, also where a NaN occurs in it. -/
theorem Coincides.refl (e : Expr) : e.Coincides e := by
  induction e using Expr.induction with
  | node head negated args ih =>
    exact coincides_iff.2 ⟨rfl, .refl head, List.forall₂_same.2 ih⟩

/-- Expressions coincide both ways. -/
theorem Coincides.symm (same : e.Coincides f) : f.Coincides e := by
  induction e using Expr.induction generalizing f with
  | node head negated args ih =>
    obtain ⟨signs, heads, arguments⟩ := coincides_iff.1 same
    have turned := forall₂_imp_of_mem (S := flip Coincides) (fun arg member _ => ih arg member)
      arguments
    exact coincides_iff.2 ⟨signs.symm, heads.symm, turned.flip⟩

/-- Expressions that coincide with one coincide. -/
theorem Coincides.trans (first : e.Coincides f) (second : f.Coincides g) : e.Coincides g := by
  induction e using Expr.induction generalizing f g with
  | node head negated args ih =>
    obtain ⟨signs, heads, arguments⟩ := coincides_iff.1 first
    obtain ⟨signs', heads', arguments'⟩ := coincides_iff.1 second
    exact coincides_iff.2 ⟨signs.trans signs', heads.trans heads',
      forall₂_trans (fun arg member _ _ => ih arg member) arguments arguments'⟩

/-- Every atom coincides with itself. -/
theorem AtomCoincides.refl (e : Expr) : e.AtomCoincides e := (coincides_iff.1 (.refl e)).2

/-- Atoms coincide both ways. -/
theorem AtomCoincides.symm (same : e.AtomCoincides f) : f.AtomCoincides e :=
  ⟨same.1.symm, List.Forall₂.flip (same.2.imp fun _ _ => Coincides.symm)⟩

/-- Atoms that coincide with one coincide. -/
theorem AtomCoincides.trans (first : e.AtomCoincides f) (second : f.AtomCoincides g) :
    e.AtomCoincides g :=
  ⟨first.1.trans second.1, forall₂_trans (fun _ _ _ _ => Coincides.trans) first.2 second.2⟩

/-- Equal expressions coincide. -/
theorem coincides_of_beq (same : e == f) : e.Coincides f := by
  induction e using Expr.induction generalizing f with
  | node head negated args ih =>
    obtain ⟨signs, heads, arguments⟩ := beq_iff.1 same |>.imp_right sameAtom_iff.1
    exact coincides_iff.2 ⟨signs, .inl heads,
      forall₂_imp_of_mem (fun arg member _ => ih arg member) arguments⟩

/-- Literals with the same atom coincide apart from the sign. -/
theorem atomCoincides_of_sameAtom (same : e.sameAtom f) : e.AtomCoincides f := by
  obtain ⟨heads, arguments⟩ := sameAtom_iff.1 same
  exact ⟨.inl heads, arguments.imp fun _ _ => coincides_of_beq⟩

/-- Expressions that coincide are equal if the first has no NaN. -/
theorem Coincides.beq (same : e.Coincides f) (number : e.NaNFree) : e == f := by
  induction e using Expr.induction generalizing f with
  | node head negated args ih =>
    obtain ⟨signs, heads, arguments⟩ := coincides_iff.1 same
    obtain ⟨root, inside⟩ := everywhere_iff.1 number
    refine beq_iff.2 ⟨signs, sameAtom_iff.2 ⟨heads.beq root, ?_⟩⟩
    exact forall₂_imp_of_mem (fun arg member _ same => ih arg member same (inside arg member)) arguments

/-- Where no NaN occurs, literals that coincide apart from the sign have the same atom. -/
theorem AtomCoincides.sameAtom (same : e.AtomCoincides f) (number : e.NaNFree) : e.sameAtom f := by
  have signed : e.positive.Coincides f.positive := coincides_iff.2 ⟨rfl, same⟩
  exact (beq_iff.1 (signed.beq ((everywhere_signed _).2 number))).2

/-- Expressions that coincide have the same size. -/
theorem Coincides.size_eq (same : e.Coincides f) : e.size = f.size := by
  induction e using Expr.induction generalizing f with
  | node head negated args ih =>
    obtain ⟨-, -, arguments⟩ := coincides_iff.1 same
    obtain ⟨other, sign, bs⟩ := f
    dsimp only at arguments
    have sizes : args.map size = bs.map size := by
      rw [← List.forall₂_eq_eq_eq, List.forall₂_map_left_iff, List.forall₂_map_right_iff]
      exact forall₂_imp_of_mem (fun arg member _ => ih arg member) arguments
    simp only [size, sizeArgs_eq_sum, sizes]

/-- Expressions that coincide apart from the sign have the same size. -/
theorem AtomCoincides.size_eq (same : e.AtomCoincides f) : e.size = f.size := by
  have signed : e.positive.Coincides f.positive := coincides_iff.2 ⟨rfl, same⟩
  obtain ⟨_, _, _⟩ := e
  obtain ⟨_, _, _⟩ := f
  exact signed.size_eq

end Expr

/-! ### Terms for variables -/

/-- A term without a sign for every variable. -/
structure Substitution where
  /-- The term for the variables of an identity. -/
  term : Nat × Bool → Expr
  /-- No term has a sign. -/
  positive : ∀ identity, (term identity).negated = false

/-- A substitution takes a variable to the term for its identity. -/
instance : CoeFun Substitution fun _ => Variable → Expr := ⟨fun θ v => θ.term v.identity⟩

namespace Substitution

variable (θ : Substitution) {e f : Expr}

/-- Equal variables get the same term. -/
theorem apply_congr {v w : Variable} (same : v == w) : θ v = θ w :=
  congrArg θ.term (Variable.beq_iff.1 same)

/-- The instance of an expression that no variable heads has its symbol and its sign. -/
theorem subst_application (other : e.isVariable = false) :
    e.subst θ = ⟨e.head, e.negated, e.args.map (Expr.subst θ)⟩ := by
  obtain ⟨head, negated, args⟩ := e
  cases head with
  | var v => cases other
  | _ => rw [Expr.subst, Expr.substArgs_eq_map]; all_goals exact fun v same => by cases same

/-- The instance of a variable is the term for it, with the sign of the variable. -/
theorem subst_variable (v : Variable) (negated : Bool) (args : List Expr) :
    Expr.subst θ ⟨.var v, negated, args⟩ = { θ v with negated } := by
  rw [Expr.subst, θ.positive]
  simp

/-- Instances keep the sign. -/
theorem negated_subst (e : Expr) : (e.subst θ).negated = e.negated := by
  obtain ⟨head, negated, args⟩ := e
  cases head with
  | var v => rw [subst_variable]
  | _ => rw [Expr.subst]; all_goals exact fun v same => by cases same

/-- The instance of an expression under another sign is its instance under that sign. -/
theorem subst_signed (e : Expr) (negated : Bool) :
    Expr.subst θ { e with negated } = { e.subst θ with negated } := by
  obtain ⟨head, sign, args⟩ := e
  cases head with
  | var v => rw [subst_variable, subst_variable]
  | _ => rw [Expr.subst, Expr.subst]; all_goals exact fun v same => by cases same

/-- Expressions that coincide have instances that coincide. -/
theorem coincides_subst (same : e.Coincides f) : (e.subst θ).Coincides (f.subst θ) := by
  induction e using Expr.induction generalizing f with
  | node head negated args ih =>
    obtain ⟨signs, heads, arguments⟩ := Expr.coincides_iff.1 same
    obtain ⟨other, sign, arguments'⟩ := f
    obtain rfl : negated = sign := signs
    dsimp only at heads arguments
    by_cases named : ∃ v, head = .var v
    · obtain ⟨v, rfl⟩ := named
      obtain ⟨w, rfl, equal⟩ : ∃ w, other = .var w ∧ θ v = θ w := by
        rcases heads with heads | rfl
        · cases Symbol.beq_iff_alike.1 heads with
          | var equal => exact ⟨_, rfl, θ.apply_congr equal⟩
        · exact ⟨v, rfl, rfl⟩
      rw [subst_variable, subst_variable, equal]
      exact .refl _
    · have left : Expr.isVariable ⟨head, negated, args⟩ = false := by
        cases head with
        | var v => exact absurd ⟨v, rfl⟩ named
        | _ => rfl
      have right : Expr.isVariable ⟨other, negated, arguments'⟩ = false := by
        rcases heads with heads | rfl
        · cases Symbol.beq_iff_alike.1 heads with
          | var => exact absurd ⟨_, rfl⟩ named
          | _ => rfl
        · exact left
      rw [θ.subst_application left, θ.subst_application right]
      refine Expr.coincides_iff.2 ⟨rfl, heads, ?_⟩
      rw [List.forall₂_map_left_iff, List.forall₂_map_right_iff]
      exact forall₂_imp_of_mem (fun arg member _ => ih arg member) arguments

/-- Instances of expressions that coincide apart from the sign do so too. -/
theorem atomCoincides_subst (same : e.AtomCoincides f) : (e.subst θ).AtomCoincides (f.subst θ) := by
  have signed : e.positive.Coincides f.positive := Expr.coincides_iff.2 ⟨rfl, same⟩
  have instances := θ.coincides_subst signed
  rw [Expr.positive, Expr.positive, θ.subst_signed, θ.subst_signed] at instances
  exact (Expr.coincides_iff.1 instances).2

/-- The substitution makes two terms coincide apart from their signs. -/
def Unifies (left right : Expr) : Prop := (left.subst θ).AtomCoincides (right.subst θ)

/-- A substitution unifies two terms in either order. -/
theorem Unifies.symm {θ : Substitution} {left right : Expr} (unifies : θ.Unifies left right) :
    θ.Unifies right left :=
  Expr.AtomCoincides.symm unifies

/-- A substitution that unifies two terms with a third one unifies them. -/
theorem Unifies.trans {θ : Substitution} {left middle right : Expr}
    (first : θ.Unifies left middle) (second : θ.Unifies middle right) : θ.Unifies left right :=
  Expr.AtomCoincides.trans first second

/-- Terms that are equal apart from the sign are unified by every substitution. -/
theorem unifies_of_sameAtom (same : e.sameAtom f) : θ.Unifies e f :=
  θ.atomCoincides_subst (Expr.atomCoincides_of_sameAtom same)

/-- Terms with the same sign that are unified have instances that coincide. -/
theorem Unifies.coincides {θ : Substitution} {left right : Expr} (unifies : θ.Unifies left right)
    (signs : left.negated = right.negated) : (left.subst θ).Coincides (right.subst θ) := by
  refine Expr.coincides_iff.2 ⟨?_, unifies⟩
  rw [θ.negated_subst, θ.negated_subst, signs]

/-- The sign of a term does not matter for what unifies it. -/
theorem unifies_signed {left right : Expr} (negated : Bool) :
    θ.Unifies { left with negated } right ↔ θ.Unifies left right := by
  rw [Unifies, θ.subst_signed]
  rfl

/-- Terms that no variable heads are unified when their symbols and the instances of their arguments
coincide. -/
theorem unifies_applications {left right : Expr} (noLeft : left.isVariable = false)
    (noRight : right.isVariable = false) :
    θ.Unifies left right ↔ left.head.Coincides right.head ∧
      List.Forall₂ (fun a b => (a.subst θ).Coincides (b.subst θ)) left.args right.args := by
  rw [Unifies, θ.subst_application noLeft, θ.subst_application noRight]
  simp only [Expr.AtomCoincides, List.forall₂_map_left_iff, List.forall₂_map_right_iff]

/-- The instance of a variable is no larger than that of a term in which it occurs, and smaller if
it occurs inside. -/
theorem size_subst_le {unknown term : Expr} (firstOrder : term.FirstOrder)
    (occurs : unknown.atomOccursIn term) :
    (unknown.subst θ).size ≤ (term.subst θ).size ∧
      (unknown.sameAtom term = false → (unknown.subst θ).size < (term.subst θ).size) := by
  induction term using Expr.induction with
  | node head negated args ih =>
    obtain ⟨root, inside⟩ := Expr.everywhere_iff.1 firstOrder
    simp only [Expr.atomOccursIn, Expr.atomOccursInArgs_eq_any, Bool.or_eq_true,
      List.any_eq_true] at occurs
    rcases occurs with same | ⟨arg, member, within⟩
    · have equal := (θ.unifies_of_sameAtom same).size_eq
      refine ⟨equal.ge, fun different => ?_⟩
      rw [Expr.sameAtom_symm same] at different
      cases different
    · have other : Expr.isVariable ⟨head, negated, args⟩ = false := by
        cases head with
        | var v =>
          have empty : args = [] := List.length_eq_zero_iff.1 (root v rfl)
          rw [empty] at member
          exact absurd member List.not_mem_nil
        | _ => rfl
      have smaller := (ih arg member (inside arg member) within).1
      have part : (arg.subst θ).size ≤ ((args.map (Expr.subst θ)).map Expr.size).sum :=
        List.single_le_sum (by simp) _ (List.mem_map_of_mem (List.mem_map_of_mem member))
      have whole : (Expr.subst θ ⟨head, negated, args⟩).size =
          ((args.map (Expr.subst θ)).map Expr.size).sum + 1 := by
        rw [θ.subst_application other, Expr.size, Expr.sizeArgs_eq_sum]
      omega

end Substitution

/-! ### Solutions of unifiers -/

namespace Unifier

/-- The substitution unifies both sides of every binding. -/
def SolvedBy (u : Unifier) (θ : Substitution) : Prop :=
  ∀ binding ∈ u.bindings, θ.Unifies binding.unknown binding.replacement

variable {u : Unifier} {θ : Substitution}

/-- A new binding is solved with those before it when its sides are unified. -/
theorem solvedBy_bind {unknown term : Expr} :
    (u.bind unknown term).SolvedBy θ ↔ u.SolvedBy θ ∧ θ.Unifies unknown term := by
  have added : θ.Unifies unknown.positive term.positive ↔ θ.Unifies unknown term := by
    rw [Expr.positive, Expr.positive, θ.unifies_signed]
    exact ⟨fun h => ((θ.unifies_signed false).1 h.symm).symm,
      fun h => ((θ.unifies_signed false).2 h.symm).symm⟩
  simp only [SolvedBy, bind, List.forall_mem_append, List.forall_mem_singleton, added]

/-- A solution unifies a bound term with its replacement. -/
theorem SolvedBy.unifies (solution : u.SolvedBy θ) {term replacement : Expr}
    (located : u.lookup? term = some replacement) : θ.Unifies term replacement := by
  obtain ⟨binding, member, matched, rfl⟩ := exists_of_lookup? located
  exact (θ.unifies_of_sameAtom matched).symm.trans (solution binding member)

/-- Images keep the sign if no replacement has one. -/
theorem HasImage.negated_eq (positive : ∀ binding ∈ u.bindings, binding.replacement.negated = false)
    {term image : Expr} (h : u.HasImage term image) : image.negated = term.negated := by
  induction h using HasImage.induction with
  | bound term replacement found located _ ih =>
    obtain ⟨binding, member, -, rfl⟩ := exists_of_lookup? located
    dsimp only
    rw [ih, positive binding member, Bool.false_bne]
  | free term args _ _ _ => rfl

/-- Terms that are equal apart from the sign have, within the same number of steps, images that
coincide apart from the sign. -/
theorem applyWithin_congr {steps : Nat} {e f image : Expr} (same : e.sameAtom f)
    (found : u.applyWithin steps e = some image) :
    ∃ other, u.applyWithin steps f = some other ∧ image.AtomCoincides other ∧
      (e.negated = f.negated → image.negated = other.negated) := by
  induction steps generalizing e f image with
  | zero => cases found
  | succ steps ih =>
    obtain ⟨replacement, inner, located, within, rfl⟩ | ⟨located, args, within, rfl⟩ :=
      applyWithin_succ_iff.1 found
    · refine ⟨_, applyWithin_succ_iff.2 (.inl ⟨replacement, inner,
        (u.lookup?_congr same).symm.trans located, within, rfl⟩), .refl inner, fun signs => ?_⟩
      rw [signs]
    · obtain ⟨heads, arguments⟩ := Expr.sameAtom_iff.1 same
      obtain ⟨others, there, coincide⟩ : ∃ others,
          List.Forall₂ (fun arg found => u.applyWithin steps arg = some found) f.args others ∧
            List.Forall₂ Expr.Coincides args others := by
        clear found
        generalize e.args = as at arguments within
        generalize f.args = bs at arguments
        induction arguments generalizing args with
        | nil =>
          cases within
          exact ⟨[], .nil, .nil⟩
        | cons equal _ rest =>
          obtain _ | ⟨first, within⟩ := within
          obtain ⟨signs, atoms⟩ := Expr.beq_iff.1 equal
          obtain ⟨other, reached, coincides, sign⟩ := ih atoms first
          obtain ⟨others, there, coincide⟩ := rest _ within
          exact ⟨other :: others, .cons reached there,
            .cons (Expr.coincides_iff.2 ⟨sign signs, coincides⟩) coincide⟩
      exact ⟨{ f with args := others }, applyWithin_succ_iff.2
        (.inr ⟨(u.lookup?_congr same).symm.trans located, others, there, rfl⟩),
        ⟨.inl heads, coincide⟩, id⟩

/-- A solution does not tell a term from its image. -/
theorem SolvedBy.coincides (solution : u.SolvedBy θ)
    (positive : ∀ binding ∈ u.bindings, binding.replacement.negated = false)
    {term image : Expr} (h : u.HasImage term image) :
    (image.subst θ).Coincides (term.subst θ) := by
  induction h using HasImage.induction with
  | bound term replacement found located image ih =>
    have unified : θ.Unifies { found with negated := found.negated != term.negated } term := by
      have atoms : θ.Unifies { found with negated := found.negated != term.negated } replacement :=
        (θ.unifies_signed _).2 (Expr.coincides_iff.1 ih).2
      exact atoms.trans (solution.unifies located).symm
    exact unified.coincides (HasImage.negated_eq positive (.bound located image))
  | free term args located images ih =>
    by_cases named : term.isVariable
    · obtain ⟨head, negated, arguments⟩ := term
      cases head with
      | var v =>
        rw [θ.subst_variable, θ.subst_variable]
        exact .refl _
      | _ => cases named
    · have other : term.isVariable = false := Bool.not_eq_true _ ▸ named
      have root : Expr.isVariable { term with args } = false := other
      have unified : θ.Unifies { term with args } term := by
        refine (θ.unifies_applications root other).2 ⟨.refl _, ?_⟩
        exact List.Forall₂.flip (ih.imp fun _ _ each => each.2)
      exact unified.coincides rfl

/-- An image is its own image. -/
theorem Solved.hasImage_self (solved : u.Solved) {term image : Expr} (h : u.HasImage term image) :
    u.HasImage image image := by
  induction h using HasImage.induction with
  | bound term replacement found located _ ih =>
    obtain ⟨sign, signed⟩ := ih.signed (found.negated != term.negated)
    have same : sign = (found.negated != term.negated) :=
      HasImage.negated_eq solved.positive signed
    exact same ▸ signed
  | free term args located images ih =>
    refine .free ?_ (List.forall₂_same.2 fun image member => ?_)
    · by_cases empty : args = []
      · have none : term.args = [] := List.forall₂_nil_right_iff.1 (empty ▸ images)
        rw [← located, empty, ← none]
        rfl
      · -- Only variables that stand alone are bound.
        cases found : u.lookup? { term with args } with
        | none => rfl
        | some replacement =>
          obtain ⟨binding, member, matched, -⟩ := exists_of_lookup? found
          obtain ⟨v, same⟩ := solved.unknown binding member
          rw [same] at matched
          exact absurd (List.forall₂_nil_left_iff.1 (Expr.sameAtom_iff.1 matched).2) empty
    · obtain ⟨i, hi, rfl⟩ := List.mem_iff_getElem.1 member
      exact ((List.forall₂_iff_get.1 ih).2 i (images.length_eq ▸ hi) hi).2

/-- Applying a solved unifier a second time changes nothing. -/
theorem Solved.apply_apply (solved : u.Solved) (term : Expr) :
    u.apply (u.apply term) = u.apply term :=
  (solved.total.hasImage _).unique (solved.hasImage_self (solved.total.hasImage term))

/-- The substitution of their images for all variables. -/
def toSubstitution (u : Unifier) (solved : u.Solved) : Substitution where
  term identity := u.apply (.ofVariable ⟨"", identity.1, identity.2, false⟩)
  positive _ := HasImage.negated_eq solved.positive (solved.total.hasImage _)

end Unifier

end Refute
