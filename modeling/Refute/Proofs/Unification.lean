import Refute.Inference.Restriction
import Refute.Proofs.Image
import Refute.Proofs.Structure

/-!
# Unification

What unification establishes, in every structure: where both sides of the bindings it made have the
same value, the two terms have it too. That alone does not justify an inference. It takes an
assignment under which the bindings hold and every term has the value of its instance under a given
one. There is such an assignment if the unifier is a substitution: its bindings can be followed from
every term, and lead to the instance of the term under terms for its variables. A unifier that binds
no Skolem term is a substitution. One that binds a Skolem term need not be, since it may replace it
by a term that has another value.
-/

namespace Refute

universe u

/-! ### Substitutions -/

mutual

/-- The instance of a term under terms for its variables. -/
def Expr.subst (σ : Variable → Expr) : Expr → Expr
  | ⟨.var v, negated, _⟩ => { σ v with negated := (σ v).negated != negated }
  | ⟨head, negated, args⟩ => ⟨head, negated, Expr.substArgs σ args⟩

/-- The instances of arguments. -/
def Expr.substArgs (σ : Variable → Expr) : List Expr → List Expr
  | [] => []
  | a :: as => Expr.subst σ a :: Expr.substArgs σ as

end

/-- Terms are put in each argument. -/
theorem Expr.substArgs_eq_map (σ : Variable → Expr) (args : List Expr) :
    substArgs σ args = args.map (subst σ) := by
  induction args with
  | nil => rfl
  | cons a as ih => simp [substArgs, ih]

/-- A sign that is not turned around stays. -/
theorem Expr.flip_false (e : Expr) : { e with negated := e.negated != false } = e := by
  cases e
  simp

/-- The instance of a variable is its term. -/
theorem Expr.subst_ofVariable (σ : Variable → Expr) (v : Variable) : (ofVariable v).subst σ = σ v := by
  rw [ofVariable, leaf, subst, flip_false]

/-- The instance of a term has the value of the term where variables have the values of what
replaces them. -/
theorem Structure.value_subst {D : Type u} (M : Structure D) (τ : Variable → D) (σ : Variable → Expr)
    (e : Expr) : M.value τ (e.subst σ) = M.value (fun v => M.value τ (σ v)) e := by
  induction e using Expr.induction with
  | node head negated args ih =>
    have arguments : (Expr.substArgs σ args).map (M.value τ) =
        args.map (M.value fun v => M.value τ (σ v)) := by
      rw [Expr.substArgs_eq_map, List.map_map]
      exact List.map_congr_left ih
    cases head with
    | var v =>
      rw [Expr.subst, M.value_flip, M.value_eq _ ⟨.var v, negated, args⟩]
      rfl
    | _ =>
      refine M.value_congr_atom rfl ?_
      simp only [Structure.atomValue, Expr.subst, arguments]
      rfl

namespace Unifier

/-! ### The runs of unification -/

/-- Terms that are left alone are equal apart from the sign. -/
theorem sameAtom_of_move {u : Unifier} {left right : Expr} (chosen : u.move left right = .agree) :
    left.sameAtom right := by
  unfold move moveUnknown at chosen
  grind

/-- The unknown is replaced by what it is bound to, or the other term is. -/
private theorem follow_of_moveUnknown {u : Unifier} {unknown term first second : Expr}
    (chosen : u.moveUnknown unknown term = .follow first second) :
    u.lookup? unknown = some first ∧ second = term ∨
      first = unknown ∧ u.lookup? term = some second := by
  unfold moveUnknown at chosen
  grind

/-- One of the terms is replaced by what it is bound to. -/
theorem follow_of_move {u : Unifier} {left right first second : Expr}
    (chosen : u.move left right = .follow first second) :
    ∃ old kept bound, u.lookup? old = some bound ∧
      (left = old ∧ right = kept ∨ left = kept ∧ right = old) ∧
      (first = bound ∧ second = kept ∨ first = kept ∧ second = bound) := by
  have sides : u.moveUnknown left right = .follow first second ∨
      u.moveUnknown right left = .follow first second := by
    unfold move at chosen
    grind
  obtain chosen | chosen := sides
  · obtain ⟨located, rfl⟩ | ⟨rfl, located⟩ := follow_of_moveUnknown chosen
    · exact ⟨left, _, _, located, .inl ⟨rfl, rfl⟩, .inl ⟨rfl, rfl⟩⟩
    · exact ⟨right, _, _, located, .inr ⟨rfl, rfl⟩, .inr ⟨rfl, rfl⟩⟩
  · obtain ⟨located, rfl⟩ | ⟨rfl, located⟩ := follow_of_moveUnknown chosen
    · exact ⟨right, _, _, located, .inr ⟨rfl, rfl⟩, .inl ⟨rfl, rfl⟩⟩
    · exact ⟨left, _, _, located, .inl ⟨rfl, rfl⟩, .inr ⟨rfl, rfl⟩⟩

/-- One of the terms is an unknown without a binding. -/
theorem bind_of_move {u : Unifier} {left right unknown term : Expr}
    (chosen : u.move left right = .bind unknown term) :
    unknown.isUnknown ∧ u.lookup? unknown = none ∧
      (left = unknown ∧ right = term ∨ left = term ∧ right = unknown) := by
  have unknowns : right.isVariable → right.isUnknown := by
    unfold Expr.isVariable Expr.isUnknown
    cases right.head <;> simp
  have sides : left.isUnknown ∧ u.moveUnknown left right = .bind unknown term ∨
      right.isUnknown ∧ u.moveUnknown right left = .bind unknown term := by
    unfold move at chosen
    grind
  have free : ∀ {first second}, u.moveUnknown first second = .bind unknown term →
      u.lookup? first = none ∧ first = unknown ∧ second = term := by
    unfold moveUnknown
    grind
  obtain ⟨isUnknown, chosen⟩ | ⟨isUnknown, chosen⟩ := sides
  · obtain ⟨located, rfl, rfl⟩ := free chosen
    exact ⟨isUnknown, located, .inl ⟨rfl, rfl⟩⟩
  · obtain ⟨located, rfl, rfl⟩ := free chosen
    exact ⟨isUnknown, located, .inr ⟨rfl, rfl⟩⟩

/-- Terms whose arguments remain have the same symbol and as many arguments. -/
theorem descend_of_move {u : Unifier} {left right : Expr} (chosen : u.move left right = .descend) :
    left.head == right.head ∧ left.args.length = right.args.length := by
  unfold move moveUnknown at chosen
  grind [bne]

/-- Terms that clash, or are compared argument by argument, are no unknowns. -/
theorem isUnknown_eq_false_of_move {u : Unifier} {left right : Expr}
    (stays : u.move left right = .descend ∨ ∃ cause, u.move left right = .clash cause) :
    left.isUnknown = false ∧ right.isUnknown = false := by
  have moves : ∀ unknown term, u.moveUnknown unknown term ≠ .descend ∧
      ∀ cause, u.moveUnknown unknown term ≠ .clash cause := by
    intro unknown term
    unfold moveUnknown
    grind
  unfold move at stays
  grind

/-- What passes from the parts of a successful unification to the whole holds of all of them. Since
it may be turned around, the unknown is always the left term. -/
theorem unifyWithin_induction (motive : Unifier → Expr → Expr → Unifier → Prop)
    (argsMotive : Unifier → List Expr → List Expr → Unifier → Prop)
    (agree : ∀ u left right, left.sameAtom right → motive u left right u)
    (swap : ∀ u left right v, motive u right left v → motive u left right v)
    (follow : ∀ u left right bound v, u.lookup? left = some bound → motive u bound right v →
      motive u left right v)
    (bind : ∀ u left right image, left.isUnknown → u.lookup? left = none →
      u.HasImage right image → left.atomOccursIn image = false →
      motive u left right (u.bind left right))
    (descend : ∀ u left right v, left.isUnknown = false → right.isUnknown = false →
      left.head == right.head → argsMotive u left.args right.args v → motive u left right v)
    (nil : ∀ u, argsMotive u [] [] u)
    (cons : ∀ u a b v as bs w, a.negated = b.negated → motive u a b v → argsMotive v as bs w →
      argsMotive u (a :: as) (b :: bs) w)
    {moves : Nat} {u v : Unifier} {left right : Expr}
    (unified : unifyWithin moves u left right = .ok v) : motive u left right v := by
  induction moves generalizing u v left right with
  | zero => simp [unifyWithin] at unified
  | succ moves ih =>
    rw [unifyWithin] at unified
    cases chosen : u.move left right with
    | agree =>
      simp only [chosen, Except.ok.injEq] at unified
      exact unified ▸ agree u left right (sameAtom_of_move chosen)
    | follow first second =>
      simp only [chosen] at unified
      have rest := ih unified
      obtain ⟨old, kept, bound, located, ⟨rfl, rfl⟩ | ⟨rfl, rfl⟩, ⟨rfl, rfl⟩ | ⟨rfl, rfl⟩⟩ :=
        follow_of_move chosen
      · exact follow _ _ _ _ _ located rest
      · exact follow _ _ _ _ _ located (swap _ _ _ _ rest)
      · exact swap _ _ _ _ (follow _ _ _ _ _ located rest)
      · exact swap _ _ _ _ (follow _ _ _ _ _ located (swap _ _ _ _ rest))
    | bind unknown term =>
      obtain ⟨isUnknown, located, sides⟩ := bind_of_move chosen
      simp only [chosen, bindUnknown] at unified
      split at unified
      · cases unified
      rename_i image found
      split at unified
      · cases unified
      rename_i absent
      have bound := bind u unknown term image isUnknown located (image?_eq_some_iff.1 found)
        (Bool.not_eq_true _ ▸ absent)
      rw [Except.ok.inj unified] at bound
      obtain ⟨rfl, rfl⟩ | ⟨rfl, rfl⟩ := sides
      · exact bound
      · exact swap _ _ _ _ bound
    | clash cause => simp [chosen] at unified
    | descend =>
      obtain ⟨noLeft, noRight⟩ := isUnknown_eq_false_of_move (.inl chosen)
      obtain ⟨heads, lengths⟩ := descend_of_move chosen
      simp only [chosen] at unified
      refine descend u left right v noLeft noRight heads ?_
      generalize left.args = as at lengths unified ⊢
      generalize right.args = bs at lengths unified ⊢
      clear chosen
      induction as generalizing bs u with
      | nil =>
        obtain rfl := List.length_eq_zero_iff.1 lengths.symm
        obtain rfl := Except.ok.inj unified
        exact nil u
      | cons a as rest =>
        cases bs with
        | nil => simp at lengths
        | cons b bs =>
          rw [List.zip_cons_cons, List.foldlM_cons] at unified
          dsimp only at unified
          split at unified
          · cases unified
          · rename_i signs
            cases first : unifyWithin moves u a b with
            | error failure => simp [first, Bind.bind, Except.bind] at unified
            | ok w =>
              simp only [first, Bind.bind, Except.bind] at unified
              exact cons u a b w as bs v (by simpa using signs) (ih first)
                (rest bs (by simpa using lengths) unified)

/-! ### What unification establishes -/

section Meaning

variable {D : Type u}

/-- Both sides of every binding have the same value. -/
def Satisfied (u : Unifier) (M : Structure D) (σ : Variable → D) : Prop :=
  ∀ binding ∈ u.bindings, M.atomValue σ binding.unknown = M.atomValue σ binding.replacement

/-- Unification only adds bindings, and under all of them the terms have the same value. -/
private theorem bindings_and_atomValue_of_unify (M : Structure D) (β : Assignment D) {moves : Nat}
    {u v : Unifier} {left right : Expr} (unified : unifyWithin moves u left right = .ok v) :
    u.bindings ⊆ v.bindings ∧
      (v.Satisfied M β.get → M.atomValue β.get left = M.atomValue β.get right) := by
  refine unifyWithin_induction
    (fun u left right v => u.bindings ⊆ v.bindings ∧
      (v.Satisfied M β.get → M.atomValue β.get left = M.atomValue β.get right))
    (fun u as bs v => u.bindings ⊆ v.bindings ∧
      (v.Satisfied M β.get → as.map (M.value β.get) = bs.map (M.value β.get)))
    ?agree ?swap ?follow ?bind ?descend ?nil ?cons unified
  case agree => exact fun u left right same => ⟨List.Subset.refl _, fun _ => M.atomValue_congr β same⟩
  case swap => exact fun u left right v turned => ⟨turned.1, fun all => (turned.2 all).symm⟩
  case follow =>
    rintro u left right bound v located ⟨added, same⟩
    obtain ⟨binding, member, matched, rfl⟩ := exists_of_lookup? located
    refine ⟨added, fun all => ?_⟩
    rw [← M.atomValue_congr β matched, all binding (added member), same all]
  case bind =>
    intro u left right image _ _ _ _
    refine ⟨List.subset_append_left _ _, fun all => ?_⟩
    exact all ⟨left.positive, right.positive⟩ (List.mem_append_right _ List.mem_cons_self)
  case descend =>
    rintro u left right v - - heads ⟨added, same⟩
    refine ⟨added, fun all => ?_⟩
    simp only [Structure.atomValue, M.headValue_congr β heads, same all]
  case nil => exact fun u => ⟨List.Subset.refl _, fun _ => rfl⟩
  case cons =>
    rintro u a b v as bs w signs ⟨added, first⟩ ⟨more, rest⟩
    refine ⟨List.Subset.trans added more, fun all => ?_⟩
    have atoms := first fun binding member => all binding (more member)
    rw [List.map_cons, List.map_cons, M.value_congr_atom signs atoms, rest all]

/-- A unifier of two terms comes from a run that starts without bindings. -/
theorem exists_run_of_unify {left right : Expr} {u : Unifier} (unified : left.unify right = .ok u) :
    ∃ moves, unifyWithin moves empty left right = .ok u := by
  unfold Expr.unify unify at unified
  cases run : unifyWithin (empty.moveBound left right) empty left right with
  | error failure => simp [run, Except.mapError] at unified
  | ok v =>
    rw [run] at unified
    exact ⟨_, Except.ok.inj unified ▸ run⟩

/-- Where the bindings of the unifier of two terms hold, the terms have the same value apart from
their signs. -/
theorem atomValue_eq_of_unify {M : Structure D} {β : Assignment D} {left right : Expr} {u : Unifier}
    (unified : left.unify right = .ok u) (satisfied : u.Satisfied M β.get) :
    M.atomValue β.get left = M.atomValue β.get right := by
  obtain ⟨moves, run⟩ := exists_run_of_unify unified
  exact (bindings_and_atomValue_of_unify M β run).2 satisfied

end Meaning

/-! ### Unifiers that are substitutions -/

/-- A property of symbols with their numbers of arguments, everywhere in all bindings. -/
def Everywhere (p : Symbol → Nat → Prop) (u : Unifier) : Prop :=
  ∀ binding ∈ u.bindings, binding.unknown.Everywhere p ∧ binding.replacement.Everywhere p

/-- What binding an unknown preserves is preserved by unification. -/
theorem unifyWithin_invariant {p : Symbol → Nat → Prop} {P : Unifier → Prop}
    (inside : ∀ u, P u → u.Everywhere p)
    (bind : ∀ u left right image, P u → left.Everywhere p → right.Everywhere p → left.isUnknown →
      u.lookup? left = none → u.HasImage right image → left.atomOccursIn image = false →
      P (u.bind left right))
    {moves : Nat} {u v : Unifier} {left right : Expr}
    (unified : unifyWithin moves u left right = .ok v) (start : P u) (inLeft : left.Everywhere p)
    (inRight : right.Everywhere p) : P v := by
  refine unifyWithin_induction
    (fun u left right v => P u → left.Everywhere p → right.Everywhere p → P v)
    (fun u as bs v => P u → (∀ a ∈ as, a.Everywhere p) → (∀ b ∈ bs, b.Everywhere p) → P v)
    ?agree ?swap ?follow ?bind ?descend ?nil ?cons unified start inLeft inRight
  case agree => exact fun u left right _ holds _ _ => holds
  case swap => exact fun u left right v turned holds l r => turned holds r l
  case follow =>
    intro u left right bound v located rest holds _ inRight
    obtain ⟨binding, member, -, rfl⟩ := exists_of_lookup? located
    exact rest holds (inside u holds binding member).2 inRight
  case bind =>
    exact fun u left right image isUnknown free found absent holds l r =>
      bind u left right image holds l r isUnknown free found absent
  case descend =>
    exact fun u left right v _ _ _ rest holds l r =>
      rest holds (Expr.everywhere_iff.1 l).2 (Expr.everywhere_iff.1 r).2
  case nil => exact fun u holds _ _ => holds
  case cons =>
    intro u a b v as bs w _ first rest holds inAs inBs
    rw [List.forall_mem_cons] at inAs inBs
    exact rest (first holds inAs.1 inBs.1) inAs.2 inBs.2

/-- What holds everywhere in the terms and bindings holds in the bindings that are added. -/
theorem Everywhere.bind {p : Symbol → Nat → Prop} {u : Unifier} {unknown term : Expr}
    (holds : u.Everywhere p) (inUnknown : unknown.Everywhere p) (inTerm : term.Everywhere p) :
    (u.bind unknown term).Everywhere p := by
  intro binding member
  rcases List.mem_append.1 member with old | added
  · exact holds binding old
  · obtain rfl := List.mem_singleton.1 added
    exact ⟨(Expr.everywhere_signed _).2 inUnknown, (Expr.everywhere_signed _).2 inTerm⟩

/-- Only variables are bound, no Skolem terms. -/
def BindsVariables (u : Unifier) : Prop := ∀ binding ∈ u.bindings, binding.unknown.isVariable

/-- What holds everywhere in the terms holds everywhere in their unifier. -/
theorem everywhere_of_unify {p : Symbol → Nat → Prop} {left right : Expr} {u : Unifier}
    (unified : left.unify right = .ok u) (inLeft : left.Everywhere p)
    (inRight : right.Everywhere p) : u.Everywhere p := by
  obtain ⟨moves, run⟩ := exists_run_of_unify unified
  refine unifyWithin_invariant (fun _ => id) ?_ run (fun _ member => absurd member List.not_mem_nil)
    inLeft inRight
  exact fun u left right _ holds l r _ _ _ _ => holds.bind l r

/-- An unknown that no Skolem function heads is a variable. -/
theorem isVariable_of_noSkolem {e : Expr} (root : ∀ s, e.head ≠ .skolem s) (isUnknown : e.isUnknown) :
    e.isVariable := by
  obtain ⟨head, negated, args⟩ := e
  cases head with
  | var v => rfl
  | skolem s => exact absurd rfl (root s)
  | _ => cases isUnknown

/-- The unifier of terms without Skolem functions binds variables only. -/
theorem bindsVariables_of_unify {left right : Expr} {u : Unifier}
    (unified : left.unify right = .ok u) (inLeft : left.SkolemFree) (inRight : right.SkolemFree) :
    u.BindsVariables := by
  obtain ⟨moves, run⟩ := exists_run_of_unify unified
  refine (unifyWithin_invariant (p := fun head _ => ∀ s, head ≠ .skolem s)
    (P := fun u => u.Everywhere (fun head _ => ∀ s, head ≠ .skolem s) ∧ u.BindsVariables)
    (fun _ holds => holds.1) ?_ run ?_ inLeft inRight).2
  · rintro u left right - ⟨skolemFree, binds⟩ inLeft inRight isUnknown - - -
    refine ⟨skolemFree.bind inLeft inRight, fun binding member => ?_⟩
    rcases List.mem_append.1 member with old | added
    · exact binds binding old
    · obtain rfl := List.mem_singleton.1 added
      exact isVariable_of_noSkolem (Expr.everywhere_iff.1 inLeft).1 isUnknown
  · exact ⟨fun _ member => absurd member List.not_mem_nil,
      fun _ member => absurd member List.not_mem_nil⟩

/-- Variables that stand alone are bound, each once and to a term without a sign, and every term has
an image. -/
structure Solved (u : Unifier) : Prop where
  /-- The unknowns are variables. -/
  unknown : ∀ binding ∈ u.bindings, ∃ v, binding.unknown = Expr.ofVariable v
  /-- A variable is bound once. -/
  located : ∀ binding ∈ u.bindings, u.lookup? binding.unknown = some binding.replacement
  /-- The replacements have no sign. -/
  positive : ∀ binding ∈ u.bindings, binding.replacement.negated = false
  /-- Following the bindings always ends. -/
  total : u.Total

/-- The unifier that binds nothing is solved. -/
theorem solved_empty : empty.Solved where
  unknown _ member := absurd member List.not_mem_nil
  located _ member := absurd member List.not_mem_nil
  positive _ member := absurd member List.not_mem_nil
  total := total_of_replacements fun _ member => absurd member List.not_mem_nil

/-- A solved unifier stays solved when a variable is bound that is not bound yet and does not occur
in what it is bound to. -/
theorem Solved.bind {u : Unifier} (solved : u.Solved) {v : Variable} {term image : Expr}
    (free : u.lookup? (Expr.ofVariable v) = none) (found : u.HasImage term image)
    (absent : (Expr.ofVariable v).atomOccursIn image = false) :
    (u.bind (Expr.ofVariable v) term).Solved where
  unknown binding member := by
    rcases List.mem_append.1 member with old | added
    · exact solved.unknown binding old
    · exact ⟨v, congrArg Binding.unknown (List.mem_singleton.1 added)⟩
  located binding member := by
    rw [lookup?_bind]
    rcases List.mem_append.1 member with old | added
    · rw [solved.located binding old, Option.some_or]
    · obtain rfl := List.mem_singleton.1 added
      have same : (Expr.ofVariable v).sameAtom (Expr.ofVariable v) :=
        Expr.sameAtom_iff.2 ⟨(BEq.rfl : v == v), .nil⟩
      change (u.lookup? (Expr.ofVariable v)).or
        (if (Expr.ofVariable v).sameAtom (Expr.ofVariable v) then _ else _) = _
      rw [free, if_pos same]
      rfl
  positive binding member := by
    rcases List.mem_append.1 member with old | added
    · exact solved.positive binding old
    · obtain rfl := List.mem_singleton.1 added
      rfl
  total := solved.total.bind found (avoids_of_args_free (List.forall_mem_nil _) absent)

/-- An unknown that stands alone is the variable it is headed by. -/
theorem eq_ofVariable {e : Expr} (firstOrder : e.FirstOrder) (isVariable : e.isVariable) :
    ∃ v, e.positive = Expr.ofVariable v := by
  obtain ⟨head, negated, args⟩ := e
  cases head with
  | var v =>
    have count := (Expr.everywhere_iff.1 firstOrder).1 v rfl
    obtain rfl : args = [] := List.length_eq_zero_iff.1 count
    exact ⟨v, rfl⟩
  | _ => cases isVariable

/-- The sign of what is sought does not matter for where it occurs apart from the sign. -/
theorem atomOccursIn_positive (sought term : Expr) :
    sought.positive.atomOccursIn term = sought.atomOccursIn term := by
  induction term using Expr.induction with
  | node head negated args ih =>
    have inside : args.any sought.positive.atomOccursIn = args.any sought.atomOccursIn := by
      apply Bool.eq_iff_iff.2
      simp only [List.any_eq_true]
      exact exists_congr fun arg => and_congr_right fun member => by rw [ih arg member]
    simp only [Expr.atomOccursIn, Expr.atomOccursInArgs_eq_any, inside]
    rfl

/-- A solved unifier stays solved when a variable that stands alone is bound, whatever its sign. -/
theorem Solved.bind_unknown {u : Unifier} (solved : u.Solved) {unknown term image : Expr}
    (firstOrder : unknown.FirstOrder) (isVariable : unknown.isVariable)
    (free : u.lookup? unknown = none) (found : u.HasImage term image)
    (absent : unknown.atomOccursIn image = false) : (u.bind unknown term).Solved := by
  obtain ⟨v, same⟩ := eq_ofVariable firstOrder isVariable
  have located : u.lookup? (Expr.ofVariable v) = none := same ▸ free
  have outside : (Expr.ofVariable v).atomOccursIn image = false := by
    rw [← same, atomOccursIn_positive, absent]
  have bound : u.bind unknown term = u.bind (Expr.ofVariable v) term := by
    rw [← same]
    rfl
  exact bound ▸ solved.bind located found outside

/-- The unifier of terms in which variables stand alone is solved if it binds no Skolem term. -/
theorem solved_of_unify {left right : Expr} {u : Unifier} (unified : left.unify right = .ok u)
    (inLeft : left.FirstOrder) (inRight : right.FirstOrder) (binds : u.BindsVariables) :
    u.Solved ∧ ∀ binding ∈ u.bindings, binding.replacement.FirstOrder := by
  obtain ⟨moves, run⟩ := exists_run_of_unify unified
  -- Skolem terms may be bound on the way, so the unifiers before the last one are solved on condition.
  have invariant := unifyWithin_invariant
    (P := fun u => u.Everywhere (fun head count => ∀ v, head = .var v → count = 0) ∧
      (u.BindsVariables → u.Solved))
    (fun u holds => holds.1) ?bind run ⟨?start, fun _ => solved_empty⟩ inLeft inRight
  case start => exact fun _ member => absurd member List.not_mem_nil
  case bind =>
    rintro u left right image ⟨firstOrder, solved⟩ inLeft inRight - free found absent
    refine ⟨firstOrder.bind inLeft inRight, fun binds => ?_⟩
    have isVariable : left.isVariable :=
      binds ⟨left.positive, right.positive⟩ (List.mem_append_right _ List.mem_cons_self)
    have before : u.BindsVariables := fun binding member =>
      binds binding (List.mem_append_left _ member)
    exact (solved before).bind_unknown inLeft isVariable free found absent
  exact ⟨invariant.2 binds, fun binding member => (invariant.1 binding member).2⟩

/-- Bindings are made between terms without their signs. -/
theorem positive_of_unify {left right : Expr} {u : Unifier} (unified : left.unify right = .ok u) :
    ∀ binding ∈ u.bindings,
      binding.unknown.negated = false ∧ binding.replacement.negated = false := by
  obtain ⟨moves, run⟩ := exists_run_of_unify unified
  refine unifyWithin_invariant (p := fun _ _ => True) (P := fun u => ∀ binding ∈ u.bindings,
    binding.unknown.negated = false ∧ binding.replacement.negated = false) ?_ ?_ run
    (fun _ member => absurd member List.not_mem_nil) ?_ ?_
  · exact fun u _ binding _ => ⟨Expr.everywhere_of_forall fun _ _ => trivial,
      Expr.everywhere_of_forall fun _ _ => trivial⟩
  · intro u left right image before _ _ _ _ _ _ binding member
    rcases List.mem_append.1 member with old | added
    · exact before binding old
    · obtain rfl := List.mem_singleton.1 added
      exact ⟨rfl, rfl⟩
  · exact Expr.everywhere_of_forall fun _ _ => trivial
  · exact Expr.everywhere_of_forall fun _ _ => trivial

/-- The unifier acts on terms as a substitution that makes the sides of its bindings equal. -/
structure ActsAs (u : Unifier) (σ : Variable → Expr) : Prop where
  /-- Following the bindings from a term ends with its instance. -/
  image : ∀ term : Expr, term.FirstOrder → u.image? term = some (term.subst σ)
  /-- Both sides of a binding have the same instance. -/
  solves : ∀ binding ∈ u.bindings, binding.unknown.subst σ = binding.replacement.subst σ

/-- The unifier acts as a substitution. A Skolem term that it binds is then bound to a term that its
variables make equal to it anyway. -/
def IsSubstitution (u : Unifier) : Prop := ∃ σ, u.ActsAs σ

/-- A term that is not headed by a variable is not bound. -/
theorem Solved.lookup?_eq_none {u : Unifier} (solved : u.Solved) {term : Expr}
    (other : term.isVariable = false) : u.lookup? term = none := by
  cases located : u.lookup? term with
  | none => rfl
  | some replacement =>
    obtain ⟨binding, member, matched, -⟩ := exists_of_lookup? located
    obtain ⟨v, same⟩ := solved.unknown binding member
    rw [same] at matched
    have heads : Symbol.var v == term.head := (Expr.sameAtom_iff.1 matched).1
    obtain ⟨head, negated, args⟩ := term
    cases head with
    | var w => cases other
    | _ => cases heads

/-- The instance of a variable under a sign is its instance with the sign turned around. -/
theorem Total.apply_variable {u : Unifier} (total : u.Total) (v : Variable) (negated : Bool) :
    u.apply ⟨.var v, negated, []⟩ =
      (⟨.var v, negated, []⟩ : Expr).subst fun v => u.apply (.ofVariable v) := by
  cases located : u.lookup? (Expr.ofVariable v) with
  | some replacement =>
    have again : u.lookup? ⟨.var v, negated, []⟩ = some replacement := located
    rw [total.apply_bound again, Expr.subst, total.apply_bound located]
    simp [Expr.ofVariable, Expr.leaf]
  | none =>
    have again : u.lookup? ⟨.var v, negated, []⟩ = none := located
    rw [total.apply_free again, Expr.subst, total.apply_free located]
    simp [Expr.ofVariable, Expr.leaf]

/-- A solved unifier acts as the substitution that takes variables to their instances. -/
theorem Solved.actsAs {u : Unifier} (solved : u.Solved)
    (firstOrder : ∀ binding ∈ u.bindings, binding.replacement.FirstOrder) :
    u.ActsAs fun v => u.apply (.ofVariable v) := by
  have instances : ∀ term : Expr, term.FirstOrder →
      u.apply term = term.subst fun v => u.apply (.ofVariable v) := by
    intro term firstOrder
    induction term using Expr.induction with
    | node head negated args ih =>
      obtain ⟨root, inside⟩ := Expr.everywhere_iff.1 firstOrder
      have arguments : args.map u.apply = Expr.substArgs (fun v => u.apply (.ofVariable v)) args := by
        rw [Expr.substArgs_eq_map]
        exact List.map_congr_left fun arg member => ih arg member (inside arg member)
      cases head with
      | var v =>
        obtain rfl : args = [] := List.length_eq_zero_iff.1 (root v rfl)
        exact solved.total.apply_variable v negated
      | _ =>
        rw [solved.total.apply_free (solved.lookup?_eq_none rfl), Expr.subst, arguments]
        all_goals nofun
  refine ⟨fun term firstOrder => ?_, fun binding member => ?_⟩
  · rw [← instances term firstOrder]
    exact image?_eq_some_iff.2 (solved.total.hasImage term)
  · obtain ⟨v, same⟩ := solved.unknown binding member
    have located := solved.located binding member
    rw [same] at located ⊢
    rw [Expr.subst_ofVariable, solved.total.apply_bound located,
      ← instances _ (firstOrder binding member)]
    exact Expr.flip_false _

section Instances

variable {D : Type u} {u : Unifier} {σ : Variable → Expr}

/-- A unifier that acts as a substitution takes a variable to its term. -/
theorem ActsAs.hasImage_variable (acts : u.ActsAs σ) (v : Variable) :
    u.HasImage (.ofVariable v) (σ v) := by
  have alone : (Expr.ofVariable v).FirstOrder := Expr.everywhere_iff.2 ⟨fun _ _ => rfl, nofun⟩
  have found := acts.image _ alone
  rw [Expr.subst_ofVariable] at found
  exact image?_eq_some_iff.1 found

/-- What replaces equal variables has the same value. -/
theorem ActsAs.value_congr (acts : u.ActsAs σ) (M : Structure D) (β : Assignment D)
    {v w : Variable} (same : v == w) : M.value β.get (σ v) = M.value β.get (σ w) := by
  have atoms : (Expr.ofVariable v).sameAtom (.ofVariable w) := Expr.sameAtom_iff.2 ⟨same, .nil⟩
  have lookups := u.lookup?_congr atoms
  have first := acts.hasImage_variable v
  have second := acts.hasImage_variable w
  cases located : u.lookup? (Expr.ofVariable v) with
  | some replacement =>
    obtain ⟨found, image, bound⟩ := first.exists_of_bound located
    rw [bound, second.unique (.bound (lookups.symm.trans located) image)]
    rfl
  | none =>
    rw [first.unique (.free located .nil), second.unique (.free (lookups.symm.trans located) .nil)]
    exact M.value_congr β (Expr.beq_iff.2 ⟨rfl, atoms⟩)

/-- Under a unifier that acts as a substitution, some assignment makes the bindings hold, gives
every term the value of its instance under a given assignment, and leaves variables alone that are
not bound. -/
theorem ActsAs.exists_assignment (acts : u.ActsAs σ)
    (positive : ∀ binding ∈ u.bindings,
      binding.unknown.negated = false ∧ binding.replacement.negated = false)
    (M : Structure D) (β : Assignment D) :
    ∃ β' : Assignment D, (∀ v, u.lookup? (.ofVariable v) = none → β'.get v = β.get v) ∧
      u.Satisfied M β'.get ∧
      ∀ term : Expr, term.FirstOrder → M.value β'.get term = M.value β.get (u.apply term) := by
  let β' : Assignment D := fun (id, system) => M.value β.get (σ ⟨"", id, system, false⟩)
  have assigned : β'.get = fun v => M.value β.get (σ v) :=
    funext fun v => acts.value_congr M β (Variable.beq_iff.2 rfl)
  refine ⟨β', fun v free => ?_, fun binding member => ?_, fun term firstOrder => ?_⟩
  · calc β'.get v = M.value β.get (σ v) := congrFun assigned v
      _ = M.value β.get (.ofVariable v) := by
        rw [(acts.hasImage_variable v).unique (.free free .nil)]
        rfl
      _ = β.get v := rfl
  · obtain ⟨left, right⟩ := positive binding member
    have same : M.value β'.get binding.unknown = M.value β'.get binding.replacement := by
      rw [assigned, ← M.value_subst, ← M.value_subst, acts.solves binding member]
    rwa [M.value_eq, M.value_eq, left, right] at same
  · rw [assigned, ← M.value_subst, apply, acts.image term firstOrder]
    rfl

end Instances

end Unifier

/-! ### Restricted unification -/

/-- A unifier without a forbidden binding does not bind the variables of the hypothesis. -/
theorem Unifier.lookup?_eq_none_of_allowed {hypothesis : List Variable} {u : Unifier}
    (allowed : ∀ binding ∈ u.bindings, binding.isRestricted hypothesis = false) {v : Variable}
    (fixed : v ∈ hypothesis) : u.lookup? (.ofVariable v) = none := by
  cases located : u.lookup? (.ofVariable v) with
  | none => rfl
  | some replacement =>
    obtain ⟨binding, member, matched, -⟩ := exists_of_lookup? located
    have free := allowed binding member
    have heads : binding.unknown.head == Symbol.var v := (Expr.sameAtom_iff.1 matched).1
    unfold Binding.isRestricted at free
    cases unknown : binding.unknown.head with
    | var w =>
      rw [unknown] at heads
      have held : hypothesis.contains w := List.contains_iff_exists_mem_beq.2 ⟨v, fixed, heads⟩
      simp [unknown, held] at free
    | _ =>
      rw [unknown] at heads
      cases heads

namespace Expr

/-- A checked unifier is the unifier of the terms and has no forbidden binding. -/
theorem unifyChecked_eq_ok_iff {hypothesis : List Variable} {left right : Expr} {u : Unifier} :
    unifyChecked hypothesis left right = .ok u ↔
      left.unify right = .ok u ∧ ∀ binding ∈ u.bindings, binding.isRestricted hypothesis = false := by
  unfold unifyChecked Unifier.check
  cases left.unify right with
  | error cause => simp [Bind.bind, Except.bind]
  | ok v =>
    simp only [Bind.bind, Except.bind, Except.ok.injEq]
    cases forbidden : v.bindings.find? (Binding.isRestricted hypothesis) with
    | some binding =>
      refine ⟨nofun, ?_⟩
      rintro ⟨rfl, allowed⟩
      have refused := List.find?_some forbidden
      rw [allowed binding (List.mem_of_find?_eq_some forbidden)] at refused
      cases refused
    | none =>
      refine ⟨fun same => ?_, fun checked => congrArg Except.ok checked.1⟩
      obtain rfl := Except.ok.inj same
      exact ⟨rfl, fun binding member => by simpa using List.find?_eq_none.1 forbidden binding member⟩

/-- A unifier under the restrictions is the unifier of the terms, in one order or the other, and has
no forbidden binding. -/
theorem unify_of_unifyRestricted {hypothesis : List Variable} {left right : Expr} {u : Unifier}
    (unified : unifyRestricted hypothesis left right = .ok u) :
    (left.unify right = .ok u ∨ right.unify left = .ok u) ∧
      ∀ binding ∈ u.bindings, binding.isRestricted hypothesis = false := by
  unfold unifyRestricted at unified
  split at unified
  · cases unified
  · split at unified
    · rename_i v first
      obtain rfl := Except.ok.inj unified
      exact (unifyChecked_eq_ok_iff.1 first).imp_left .inl
    · exact (unifyChecked_eq_ok_iff.1 unified).imp_left .inr

/-- Under a unifier that is a substitution, and binds no variable of the hypothesis, some assignment
gives the two terms the same value and every term that of its instance under a given assignment. -/
theorem exists_instance_of_unifyRestricted {D : Type u} {hypothesis : List Variable}
    {left right : Expr} {u : Unifier} (unified : unifyRestricted hypothesis left right = .ok u)
    (substitution : u.IsSubstitution) (M : Structure D) (β : Assignment D) :
    ∃ β' : Assignment D, (∀ v ∈ hypothesis, β'.get v = β.get v) ∧
      M.atomValue β'.get left = M.atomValue β'.get right ∧
      ∀ term : Expr, term.FirstOrder → M.value β'.get term = M.value β.get (u.apply term) := by
  obtain ⟨sides, allowed⟩ := unify_of_unifyRestricted unified
  obtain ⟨σ, acts⟩ := substitution
  obtain ⟨β', keeps, satisfied, instances⟩ := acts.exists_assignment
    (sides.elim Unifier.positive_of_unify Unifier.positive_of_unify) M β
  refine ⟨β', fun v fixed => keeps v (Unifier.lookup?_eq_none_of_allowed allowed fixed), ?_, instances⟩
  exact sides.elim (Unifier.atomValue_eq_of_unify · satisfied)
      fun other => (Unifier.atomValue_eq_of_unify other satisfied).symm

/-- What holds everywhere in the terms holds everywhere in the unifier. -/
theorem everywhere_of_unifyRestricted {p : Symbol → Nat → Prop} {hypothesis : List Variable}
    {left right : Expr} {u : Unifier} (unified : unifyRestricted hypothesis left right = .ok u)
    (inLeft : left.Everywhere p) (inRight : right.Everywhere p) : u.Everywhere p :=
  (unify_of_unifyRestricted unified).1.elim (Unifier.everywhere_of_unify · inLeft inRight)
    (Unifier.everywhere_of_unify · inRight inLeft)

/-- A unifier that binds no Skolem term is a substitution. -/
theorem isSubstitution_of_unifyRestricted {hypothesis : List Variable} {left right : Expr}
    {u : Unifier} (unified : unifyRestricted hypothesis left right = .ok u)
    (inLeft : left.FirstOrder) (inRight : right.FirstOrder) (binds : u.BindsVariables) :
    u.IsSubstitution := by
  obtain ⟨solved, firstOrder⟩ := (unify_of_unifyRestricted unified).1.elim
    (Unifier.solved_of_unify · inLeft inRight binds) (Unifier.solved_of_unify · inRight inLeft binds)
  exact ⟨_, solved.actsAs firstOrder⟩

/-- Without Skolem terms only variables are bound. -/
theorem bindsVariables_of_unifyRestricted {hypothesis : List Variable} {left right : Expr}
    {u : Unifier} (unified : unifyRestricted hypothesis left right = .ok u)
    (inLeft : left.SkolemFree) (inRight : right.SkolemFree) : u.BindsVariables :=
  (unify_of_unifyRestricted unified).1.elim (Unifier.bindsVariables_of_unify · inLeft inRight)
    (Unifier.bindsVariables_of_unify · inRight inLeft)

end Expr

end Refute
