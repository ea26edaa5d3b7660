import Refute.Normal.Skolem
import Refute.Proofs.Renaming

/-!
# Skolem functions

A formula whose variables are apart is true exactly when its Skolem form is true for some operations
of the Skolem functions. In one direction the operations witness the existential quantifiers; in the
other they choose, for all values of the universal variables around a quantifier, values that make
its body true. A choice is made once for a range of numbers and leaves all other Skolem functions as
they are, so the choices of several statements can be made one after the other.
-/

namespace Refute

universe u

/-! ### Structures with other Skolem functions -/

namespace Structure

variable {D : Type u} (M : Structure D)

/-- The structure in which Skolem functions have operations by their numbers. -/
def withSkolems (F : Nat → List D → D) : Structure D where
  inhabited := M.inhabited
  operation
    | .skolem s => F s.id
    | head => M.operation head
  complement := M.complement
  holds := M.holds
  operation_congr := by
    intro f g same
    cases f with
    | skolem s =>
      cases g with
      | skolem t => exact congrArg F (Skolem.beq_iff.1 same)
      | _ => cases same
    | _ =>
      cases g with
      | skolem t => cases same
      | _ => exact M.operation_congr same
  complement_complement := M.complement_complement
  holds_complement := M.holds_complement

/-- The operations of Skolem functions by their numbers. -/
def skolems (number : Nat) : List D → D := M.operation (.skolem ⟨number, []⟩)

/-- A structure with its own operations for Skolem functions is the structure. -/
@[simp] theorem withSkolems_skolems : M.withSkolems M.skolems = M := by
  have same : (M.withSkolems M.skolems).operation = M.operation := by
    funext head
    cases head with
    | skolem s => exact M.operation_congr (Skolem.beq_iff.2 rfl : (⟨s.id, []⟩ : Skolem) == s)
    | _ => rfl
  cases M
  simp only [withSkolems] at same ⊢
  congr

variable {M} {F G : Nat → List D → D}

/-- A value depends on the variables and Skolem functions that occur. -/
theorem value_withSkolems_congr {σ τ : Variable → D} {e : Expr}
    (skolems : e.Everywhere fun head _ => ∀ s, head = .skolem s → F s.id = G s.id)
    (assigned : e.Everywhere fun head _ => ∀ v, head = .var v → σ v = τ v) :
    (M.withSkolems F).value σ e = (M.withSkolems G).value τ e := by
  induction e using Expr.induction with
  | node head negated args ih =>
    obtain ⟨root, inside⟩ := Expr.everywhere_iff.1 skolems
    obtain ⟨atRoot, atInside⟩ := Expr.everywhere_iff.1 assigned
    have arguments : args.map ((M.withSkolems F).value σ) = args.map ((M.withSkolems G).value τ) :=
      List.map_congr_left fun arg member => ih arg member (inside arg member) (atInside arg member)
    rw [value_eq, value_eq]
    refine congrArg (M.signed negated) ?_
    simp only [atomValue, arguments]
    cases head with
    | var v => exact atRoot v rfl
    | skolem s => exact congrFun (root s rfl) _
    | _ => rfl

/-- Truth depends on the Skolem functions that occur. -/
theorem truth_withSkolems_congr {K : Type} [DecidableEq K] (key : Variable → K) {e : Expr}
    (normal : e.Normal) (skolems : e.Everywhere fun head _ => ∀ s, head = .skolem s → F s.id = G s.id)
    (env : K → D) : (M.withSkolems F).Truth key env e ↔ (M.withSkolems G).Truth key env e := by
  induction normal generalizing env with
  | @literal e isAtom =>
    have inLiteral : e.literal.Everywhere fun head _ => ∀ s, head = .skolem s → F s.id = G s.id :=
      Expr.everywhere_literal (fun _ _ => nofun) (fun _ _ same => ⟨same, fun _ _ => nofun⟩) skolems
    rw [truth_atom _ _ isAtom, truth_atom _ _ isAtom,
      value_withSkolems_congr inLiteral (inLiteral.imp fun _ _ _ _ _ => rfl)]
    rfl
  | @junction operator a b either _ _ left right =>
    obtain ⟨-, inside⟩ := Expr.everywhere_iff.1 skolems
    obtain ⟨first, second⟩ := List.forall_mem_cons.1 inside
    have left := left first env
    have right := right (List.forall_mem_singleton.1 second) env
    rcases either with rfl | rfl
    · rw [truth_and, truth_and, left, right]
    · rw [truth_or, truth_or, left, right]
  | @quantified binder body _ inner =>
    obtain ⟨-, inside⟩ := Expr.everywhere_iff.1 skolems
    have inner := inner (List.forall_mem_singleton.1 inside)
    obtain ⟨quantifier, bound⟩ := binder
    cases quantifier with
    | universal => simp only [truth_universal, inner]
    | existential => simp only [truth_existential, inner]

end Structure

/-! ### Skolem forms -/

namespace Skolem

variable {universals : List Variable} {replacements : List (Variable × Skolem)} {next : Nat}

/-- What takes the place of a variable. -/
def replacement (replacements : List (Variable × Skolem)) (v : Variable) : Symbol :=
  match replacements.find? (·.1 == v) with
  | some entry => .skolem entry.2
  | none => .var v

/-- A variable is replaced by the Skolem function found for it, or it stays. -/
theorem replacement_cases (replacements : List (Variable × Skolem)) (v : Variable) :
    (∃ entry ∈ replacements, replacements.find? (·.1 == v) = some entry ∧
      replacement replacements v = .skolem entry.2) ∨
    (∀ entry ∈ replacements, ¬ entry.1 == v) ∧ replacements.find? (·.1 == v) = none ∧
      replacement replacements v = .var v := by
  unfold replacement
  cases found : replacements.find? (·.1 == v) with
  | some entry => exact .inl ⟨entry, List.mem_of_find?_eq_some found, rfl, rfl⟩
  | none => exact .inr ⟨List.find?_eq_none.1 found, rfl, rfl⟩

/-- A replacement was there before, or it is one for a variable of the quantifier, under the
universal variables around and with a number of its own. -/
theorem mem_introduce {bound : List Variable} {entry : Variable × Skolem}
    (member : entry ∈ introduce universals next replacements bound) :
    entry ∈ replacements ∨
      entry.1 ∈ bound ∧ entry.2.arguments = universals ∧ entry.2.id < next + bound.length := by
  induction bound generalizing next replacements with
  | nil => exact .inl member
  | cons v rest ih =>
    rcases ih member with old | ⟨listed, made, number⟩
    · rcases List.mem_cons.1 old with rfl | older
      · exact .inr ⟨List.mem_cons_self, rfl, by simp⟩
      · exact .inl older
    · refine .inr ⟨List.mem_cons_of_mem v listed, made, ?_⟩
      simp only [List.length_cons]
      omega

/-- Replacements that were there before stay. -/
theorem subset_introduce (universals : List Variable) (next : Nat)
    (replacements : List (Variable × Skolem)) (bound : List Variable) :
    replacements ⊆ introduce universals next replacements bound := by
  induction bound generalizing next replacements with
  | nil => exact List.Subset.refl _
  | cons v rest ih => exact List.Subset.trans (List.subset_cons_self _ _) (ih _ _)

/-- Every variable of the quantifier gets a Skolem function. -/
theorem exists_mem_introduce {bound : List Variable} {v : Variable} (member : v ∈ bound) :
    ∃ s, (v, s) ∈ introduce universals next replacements bound := by
  induction bound generalizing next replacements with
  | nil => cases member
  | cons w rest ih =>
    rcases List.mem_cons.1 member with rfl | later
    · exact ⟨_, subset_introduce _ _ _ rest List.mem_cons_self⟩
    · exact ih later

/-- A search among the replacements finds one of the new ones, or none of them fits and it finds
what it would have found before. -/
theorem find?_introduce (universals : List Variable) (test : Variable → Bool)
    (bound : List Variable) (next : Nat)
    (replacements : List (Variable × Skolem)) :
    (∃ (i : Nat) (v : Variable), bound[i]? = some v ∧ test v ∧
      (introduce universals next replacements bound).find? (test ·.1) =
        some (v, ⟨next + i, universals⟩)) ∨
    (∀ v ∈ bound, test v = false) ∧
      (introduce universals next replacements bound).find? (test ·.1) =
        replacements.find? (test ·.1) := by
  induction bound generalizing next replacements with
  | nil => exact .inr ⟨nofun, rfl⟩
  | cons v rest ih =>
    obtain ⟨i, w, located, fits, found⟩ | ⟨others, found⟩ :=
      ih (next + 1) ((v, ⟨next, universals⟩) :: replacements)
    · refine .inl ⟨i + 1, w, located, fits, ?_⟩
      rw [introduce, found, Nat.add_right_comm, Nat.add_assoc]
    · rw [introduce, found, List.find?_cons]
      cases fits : test v with
      | true => exact .inl ⟨0, v, rfl, fits, rfl⟩
      | false => exact .inr ⟨List.forall_mem_cons.2 ⟨fits, others⟩, rfl⟩

/-- What a formula may stand under: the variables in scope are universal or have been replaced,
Skolem functions are made under universal variables, and all numbers are below the next ones. -/
structure Stands (scope : Set Variable) (low : Nat) (universals : List Variable)
    (replacements : List (Variable × Skolem)) (next : Nat) : Prop where
  /-- A variable in scope is universal or has been replaced. -/
  covered : ∀ v ∈ scope, v ∈ universals ∨ ∃ entry ∈ replacements, entry.1 == v
  /-- Universal variables have been numbered before. -/
  universals_lt : ∀ v ∈ universals, v.id < low
  /-- Replaced variables have been numbered before. -/
  replaced_lt : ∀ entry ∈ replacements, entry.1.id < low
  /-- Skolem functions are made under universal variables. -/
  arguments : ∀ entry ∈ replacements, ∀ v ∈ entry.2.arguments, v ∈ universals
  /-- Skolem functions have been numbered before. -/
  numbers : ∀ entry ∈ replacements, entry.2.id < next

variable {scope : Set Variable} {low middle later : Nat} {bound : List Variable}

/-- What a formula may stand under it may also stand under with larger numbers. -/
theorem Stands.mono (stands : Stands scope low universals replacements next) (le : low ≤ middle)
    (more : next ≤ later) : Stands scope middle universals replacements later where
  covered := stands.covered
  universals_lt v member := (stands.universals_lt v member).trans_le le
  replaced_lt entry member := (stands.replaced_lt entry member).trans_le le
  arguments := stands.arguments
  numbers entry member := (stands.numbers entry member).trans_le more

/-- The body of a universal quantifier stands under its variables too. -/
theorem Stands.universal (stands : Stands scope low universals replacements next)
    (le : low ≤ middle) (below : ∀ v ∈ bound, v.id < middle) :
    Stands (scope ∪ {v | v ∈ bound}) middle (universals ++ bound) replacements next where
  covered v member := by
    rcases member with outer | inner
    · exact (stands.covered v outer).imp_left (List.mem_append_left bound)
    · exact .inl (List.mem_append_right universals inner)
  universals_lt v member := by
    rcases List.mem_append.1 member with outer | inner
    · exact (stands.universals_lt v outer).trans_le le
    · exact below v inner
  replaced_lt entry member := (stands.replaced_lt entry member).trans_le le
  arguments entry member v listed :=
    List.mem_append_left bound (stands.arguments entry member v listed)
  numbers := stands.numbers

/-- The body of an existential quantifier stands under the Skolem functions of its variables. -/
theorem Stands.existential (stands : Stands scope low universals replacements next)
    (le : low ≤ middle) (below : ∀ v ∈ bound, v.id < middle) :
    Stands (scope ∪ {v | v ∈ bound}) middle universals
      (introduce universals next replacements bound) (next + bound.length) where
  covered v member := by
    rcases member with outer | inner
    · exact (stands.covered v outer).imp_right fun ⟨entry, listed, same⟩ =>
        ⟨entry, subset_introduce _ _ _ _ listed, same⟩
    · obtain ⟨s, listed⟩ := exists_mem_introduce (v := v) inner
      exact .inr ⟨_, listed, Variable.beq_iff.2 rfl⟩
  universals_lt v member := (stands.universals_lt v member).trans_le le
  replaced_lt entry member := by
    rcases mem_introduce member with old | ⟨listed, -, -⟩
    · exact (stands.replaced_lt entry old).trans_le le
    · exact below entry.1 listed
  arguments entry member v listed := by
    rcases mem_introduce member with old | ⟨-, made, -⟩
    · exact stands.arguments entry old v listed
    · exact made ▸ listed
  numbers entry member := by
    rcases mem_introduce member with old | ⟨-, -, number⟩
    · exact Nat.lt_add_right _ (stands.numbers entry old)
    · exact number

end Skolem

namespace Expr

variable {universals : List Variable} {replacements : List (Variable × Skolem)} {next : Nat}

/-- An atom stays one when its variables are replaced by Skolem functions. -/
theorem IsAtom.replace {e : Expr} (isAtom : e.IsAtom) (replacements : List (Variable × Skolem)) :
    (e.mapLeaves (Skolem.replacement replacements)).IsAtom := by
  refine everywhere_mapLeaves isAtom (isAtom.imp fun _ _ takes _ => takes)
    (isAtom.imp fun _ _ _ v _ => ?_)
  obtain ⟨entry, -, -, same⟩ | ⟨-, -, same⟩ := Skolem.replacement_cases replacements v <;>
    rw [same] <;> rfl

/-- In an atom every variable is replaced, and no number is used. -/
theorem skolemizeWith_atom {e : Expr} (isAtom : e.IsAtom) :
    skolemizeWith universals replacements next e =
      (e.mapLeaves (Skolem.replacement replacements), next) := by
  induction e using Expr.induction with
  | node head negated args ih =>
    obtain ⟨takes, atoms⟩ := everywhere_iff.1 isAtom
    have inArgs : skolemizeArgs universals replacements next args =
        (mapLeavesArgs (Skolem.replacement replacements) args, next) := by
      clear takes isAtom
      induction args with
      | nil => rfl
      | cons a as ihArgs =>
        rw [List.forall_mem_cons] at atoms
        simp [skolemizeArgs, mapLeavesArgs, ih a List.mem_cons_self atoms.1,
          ihArgs (fun arg member => ih arg (List.mem_cons_of_mem a member)) atoms.2]
    cases head with
    | var v =>
      obtain rfl : args = [] := List.length_eq_zero_iff.1 takes
      simp only [skolemizeWith, mapLeaves, Skolem.replacement]
      cases replacements.find? (·.1 == v) <;> rfl
    | binder b => exact absurd takes id
    | _ => simp [skolemizeWith, mapLeaves, inArgs]

/-- The operands of a binary operation are skolemized from left to right. -/
theorem skolemizeWith_binary (operator : Operator) (a b : Expr) :
    skolemizeWith universals replacements next (binary operator a b) =
      (binary operator (skolemizeWith universals replacements next a).1
        (skolemizeWith universals replacements
          (skolemizeWith universals replacements next a).2 b).1,
        (skolemizeWith universals replacements
          (skolemizeWith universals replacements next a).2 b).2) := by
  simp [binary, node, skolemizeWith, skolemizeArgs]

/-- A universal quantifier stays, and its variables are around the Skolem functions of its body. -/
theorem skolemizeWith_universal (bound : List Variable) (body : Expr) :
    skolemizeWith universals replacements next (node (.binder ⟨.universal, bound⟩) [body]) =
      (node (.binder ⟨.universal, bound⟩)
        [(skolemizeWith (universals ++ bound) replacements next body).1],
        (skolemizeWith (universals ++ bound) replacements next body).2) := by
  simp [node, skolemizeWith, skolemizeArgs]

/-- An existential quantifier goes, and Skolem functions take the place of its variables in the
body. -/
theorem skolemizeWith_existential (bound : List Variable) (body : Expr) :
    skolemizeWith universals replacements next (node (.binder ⟨.existential, bound⟩) [body]) =
      skolemizeWith universals (Skolem.introduce universals next replacements bound)
        (next + bound.length) body := by
  simp [node, skolemizeWith, skolemizeArgs, unquantify]

/-- Skolem functions take the place of existential quantifiers; what is left is apart, its variables
are universal or free, and its Skolem functions have been numbered. -/
theorem Apart.skolemizeWith {free scope : Set Variable} {low high : Nat} {e : Expr}
    (apart : Apart Set.univ free scope low high e) (skolemFree : e.SkolemFree)
    (stands : Skolem.Stands scope low universals replacements next) :
    Apart {.universal} free {v | v ∈ universals} low high
        (skolemizeWith universals replacements next e).1 ∧
      next ≤ (skolemizeWith universals replacements next e).2 ∧
      (skolemizeWith universals replacements next e).1.Everywhere fun head _ =>
        ∀ s, head = .skolem s → s.id < (skolemizeWith universals replacements next e).2 := by
  induction apart generalizing universals replacements next with
  | @literal scope low high e isAtom le closed =>
    rw [skolemizeWith_atom isAtom]
    refine ⟨.literal (isAtom.replace replacements) le ?_, le_rfl, ?_⟩
    · refine everywhere_mapLeaves isAtom (skolemFree.imp fun head _ plain other v occurs => ?_)
        (closed.imp fun _ _ inside v occurs w mentioned => ?_)
      · rw [Symbol.mentions_eq_nil other plain] at occurs
        cases occurs
      · obtain ⟨entry, listed, -, same⟩ | ⟨missed, -, same⟩ := Skolem.replacement_cases replacements v
        · rw [same] at mentioned
          exact .inl (stands.arguments entry listed w mentioned)
        · rw [same] at mentioned
          obtain rfl := List.mem_singleton.1 mentioned
          refine (inside w occurs).imp_left fun inScope => ?_
          rcases stands.covered w inScope with universal | ⟨entry, listed, equal⟩
          · exact universal
          · exact absurd equal (missed entry listed)
    · refine everywhere_mapLeaves isAtom (skolemFree.imp fun head _ plain _ s same =>
        absurd same (plain s)) (closed.imp fun _ _ _ v _ s replaced => ?_)
      obtain ⟨entry, listed, -, same⟩ | ⟨-, -, same⟩ := Skolem.replacement_cases replacements v
      · rw [same] at replaced
        obtain rfl := Symbol.skolem.inj replaced
        exact stands.numbers entry listed
      · rw [same] at replaced
        cases replaced
  | @junction scope low middle high operator a b either leftApart rightApart left right =>
    obtain ⟨-, inside⟩ := everywhere_iff.1 skolemFree
    obtain ⟨first, second⟩ := List.forall_mem_cons.1 inside
    rw [skolemizeWith_binary]
    obtain ⟨apartLeft, more, numbered⟩ := left first stands
    obtain ⟨apartRight, evenMore, numberedRight⟩ :=
      right (List.forall_mem_singleton.1 second) (stands.mono leftApart.le more)
    refine ⟨.junction either apartLeft apartRight, more.trans evenMore, ?_⟩
    refine everywhere_iff.2
      ⟨nofun, List.forall_mem_cons.2 ⟨?_, List.forall_mem_singleton.2 numberedRight⟩⟩
    exact numbered.imp fun _ _ below s same => (below s same).trans_le evenMore
  | @quantified scope low middle high binder body kind le fresh marked _ inner =>
    obtain ⟨quantifier, bound⟩ := binder
    obtain ⟨-, inside⟩ := everywhere_iff.1 skolemFree
    have below : ∀ v ∈ bound, v.id < middle := fun v member => (fresh v member).lt_high
    cases quantifier with
    | universal =>
      rw [skolemizeWith_universal]
      obtain ⟨apart, more, numbered⟩ :=
        inner (List.forall_mem_singleton.1 inside) (stands.universal le below)
      refine ⟨.quantified rfl le fresh marked ?_, more,
        everywhere_iff.2 ⟨nofun, List.forall_mem_singleton.2 numbered⟩⟩
      convert apart using 1
      ext v
      simp
    | existential =>
      rw [skolemizeWith_existential]
      obtain ⟨apart, more, numbered⟩ :=
        inner (List.forall_mem_singleton.1 inside) (stands.existential le below)
      exact ⟨apart.mono le, (Nat.le_add_right next bound.length).trans more, numbered⟩

end Expr

/-! ### Truth of Skolem forms -/

/-- Where a quantifier can be witnessed, a choice by the values of the universal variables around it
witnesses it. -/
theorem Assignment.exists_choice {D : Type u} (universals : List Variable) (α : Assignment D)
    (p : Assignment D → Assignment D → Prop) :
    ∃ choice : List D → Assignment D, ∀ β : Assignment D,
      (∀ identity ∉ universals.map Variable.identity, β identity = α identity) →
      (∃ values, p β values) → p β (choice (universals.map β.get)) := by
  have chosen : ∀ arguments : List D, ∃ values : Assignment D, ∀ β : Assignment D,
      (∀ identity ∉ universals.map Variable.identity, β identity = α identity) →
      universals.map β.get = arguments → (∃ values, p β values) → p β values := by
    intro arguments
    by_cases witnessed : ∃ β : Assignment D,
      (∀ identity ∉ universals.map Variable.identity, β identity = α identity) ∧
      universals.map β.get = arguments ∧ ∃ values, p β values
    · obtain ⟨β, outside, inside, values, holds⟩ := witnessed
      refine ⟨values, fun γ outside' inside' _ => ?_⟩
      -- The values of the universal variables determine the assignment.
      have same : γ = β := by
        funext identity
        by_cases member : identity ∈ universals.map Variable.identity
        · obtain ⟨v, listed, rfl⟩ := List.mem_map.1 member
          exact List.map_inj_left.1 (inside'.trans inside.symm) v listed
        · rw [outside identity member, outside' identity member]
      exact same ▸ holds
    · exact ⟨α, fun β outside inside exists' => absurd ⟨β, outside, inside, exists'⟩ witnessed⟩
  choose choice holds using chosen
  exact ⟨choice, fun β outside exists' => holds _ β outside rfl exists'⟩

namespace Structure

variable {D : Type u} (M : Structure D)
variable {universals : List Variable} {replacements : List (Variable × Skolem)} {next : Nat}

/-- The values of variables when those that have been replaced have the values of their Skolem
functions. -/
def through (replacements : List (Variable × Skolem)) (β : Assignment D) : Assignment D :=
  fun identity =>
    match replacements.find? (·.1.identity == identity) with
    | some entry => M.operation (.skolem entry.2) (entry.2.arguments.map β.get)
    | none => β identity

/-- A variable that has been replaced has the value of its Skolem function, any other its own. -/
theorem get_through (β : Assignment D) (v : Variable) :
    (M.through replacements β).get v =
      match replacements.find? (·.1 == v) with
      | some entry => M.operation (.skolem entry.2) (entry.2.arguments.map β.get)
      | none => β.get v := rfl

/-- Without replacements all variables have their own values. -/
@[simp] theorem through_nil (β : Assignment D) : M.through [] β = β := rfl

/-- An atom has the same truth before and after its variables are replaced. -/
theorem truth_skolemizeWith_atom {e : Expr} (isAtom : e.IsAtom) (skolemFree : e.SkolemFree)
    (β : Assignment D) :
    M.Truth Variable.identity β (e.skolemizeWith universals replacements next).1 ↔
      M.Truth Variable.identity (M.through replacements β) e := by
  rw [Expr.skolemizeWith_atom isAtom, truth_atom _ _ (isAtom.replace replacements),
    truth_atom _ _ isAtom]
  rw [M.value_mapLeaves isAtom skolemFree (isAtom.imp fun _ _ _ v _ => ?_)]
  change _ = (M.through replacements β).get v
  rw [get_through]
  obtain ⟨entry, -, found, same⟩ | ⟨-, found, same⟩ := Skolem.replacement_cases replacements v
  · rw [found, same]
    exact M.value_literal_skolem _ entry.2
  · rw [found, same]
    exact M.value_literal_var _ v

/-- New values of variables that are new do not change what the replaced ones stand for. -/
theorem through_override {scope : Set Variable} {low middle : Nat} {free : Set Variable}
    (stands : Skolem.Stands scope low universals replacements next) {bound : List Variable}
    (fresh : ∀ v ∈ bound, v.Fresh free low middle) (β values : Assignment D) :
    M.through replacements (override β (bound.map Variable.identity) values) =
      override (M.through replacements β) (bound.map Variable.identity) values := by
  have old : ∀ v : Variable, v.id < low → v.identity ∉ bound.map Variable.identity := by
    intro v below member
    obtain ⟨w, listed, same⟩ := List.mem_map.1 member
    have ids : w.id = v.id := congrArg Prod.fst same
    have := (fresh w listed).low_le
    omega
  funext identity
  cases found : replacements.find? (·.1.identity == identity) with
  | some entry =>
    have listed := List.mem_of_find?_eq_some found
    have named := List.find?_some found
    obtain rfl : entry.1.identity = identity := eq_of_beq named
    simp only [through, override, found, if_neg (old entry.1 (stands.replaced_lt entry listed))]
    refine congrArg _ (List.map_congr_left fun v argument => ?_)
    exact if_neg (old v (stands.universals_lt v (stands.arguments entry listed v argument)))
  | none => simp only [through, override, found]

/-- When new replacements are made, the variables that they replace have the values of their Skolem
functions, and all others keep what they stood for. -/
theorem through_introduce (β : Assignment D) (bound : List Variable) :
    M.through (Skolem.introduce universals next replacements bound) β =
      override (M.through replacements β) (bound.map Variable.identity)
        (M.through (Skolem.introduce universals next replacements bound) β) := by
  funext identity
  unfold override
  split
  · rfl
  · rename_i other
    unfold through
    obtain ⟨i, v, located, same, -⟩ | ⟨-, found⟩ := Skolem.find?_introduce universals
      (·.identity == identity) bound next replacements
    · exact absurd (List.mem_map.2 ⟨v, List.mem_of_getElem? located, eq_of_beq same⟩) other
    · rw [found]

/-- The operations of Skolem functions witness the existential quantifiers. -/
theorem truth_of_truth_skolemizeWith {free scope : Set Variable} {low high : Nat} {e : Expr}
    (apart : e.Apart Set.univ free scope low high) (skolemFree : e.SkolemFree)
    (stands : Skolem.Stands scope low universals replacements next) (β : Assignment D)
    (true : M.Truth Variable.identity β (e.skolemizeWith universals replacements next).1) :
    M.Truth Variable.identity (M.through replacements β) e := by
  induction apart generalizing universals replacements next β with
  | literal isAtom => exact (M.truth_skolemizeWith_atom isAtom skolemFree β).1 true
  | @junction scope low middle high operator a b either leftApart rightApart left right =>
    obtain ⟨-, inside⟩ := Expr.everywhere_iff.1 skolemFree
    obtain ⟨first, second⟩ := List.forall_mem_cons.1 inside
    have second := List.forall_mem_singleton.1 second
    have later := stands.mono leftApart.le (leftApart.skolemizeWith first stands).2.1
    rw [Expr.skolemizeWith_binary] at true
    rcases either with rfl | rfl
    · rw [truth_and] at true ⊢
      exact ⟨left first stands β true.1, right second later β true.2⟩
    · rw [truth_or] at true ⊢
      exact true.imp (left first stands β) (right second later β)
  | @quantified scope low middle high binder body kind le fresh marked _ inner =>
    obtain ⟨quantifier, bound⟩ := binder
    obtain ⟨-, inside⟩ := Expr.everywhere_iff.1 skolemFree
    have within := List.forall_mem_singleton.1 inside
    have below : ∀ v ∈ bound, v.id < middle := fun v member => (fresh v member).lt_high
    cases quantifier with
    | universal =>
      rw [Expr.skolemizeWith_universal, truth_universal] at true
      rw [truth_universal]
      intro values
      rw [← M.through_override stands fresh]
      exact inner within (stands.universal le below) _ (true values)
    | existential =>
      rw [Expr.skolemizeWith_existential] at true
      rw [truth_existential]
      refine ⟨M.through (Skolem.introduce universals next replacements bound) β, ?_⟩
      rw [← M.through_introduce]
      exact inner within (stands.existential le below) β true

variable {M} {F G : Nat → List D → D}

/-- Replaced variables depend on the Skolem functions that replace them. -/
theorem through_withSkolems_congr (same : ∀ entry ∈ replacements, F entry.2.id = G entry.2.id)
    (β : Assignment D) :
    (M.withSkolems F).through replacements β = (M.withSkolems G).through replacements β := by
  funext identity
  unfold through
  cases found : replacements.find? (·.1.identity == identity) with
  | some entry => exact congrFun (same entry (List.mem_of_find?_eq_some found)) _
  | none => rfl

/-- The truth of a formula without Skolem functions does not depend on them. -/
theorem truth_withSkolems_iff {K : Type} [DecidableEq K] (key : Variable → K) {e : Expr}
    (normal : e.Normal) (skolemFree : e.SkolemFree) (F G : Nat → List D → D) (env : K → D) :
    (M.withSkolems F).Truth key env e ↔ (M.withSkolems G).Truth key env e :=
  truth_withSkolems_congr key normal (skolemFree.imp fun _ _ plain s same => absurd same (plain s)) env

/-- Operations for the Skolem functions of one quantifier, which choose the values of its variables.
-/
def choosing (F : Nat → List D → D) (next : Nat) (bound : List Variable)
    (choice : List D → Assignment D) (number : Nat) (arguments : List D) : D :=
  match bound[number - next]? with
  | some v => if next ≤ number then (choice arguments).get v else F number arguments
  | none => F number arguments

/-- Choosing for a quantifier leaves the Skolem functions with smaller numbers. -/
theorem choosing_of_lt {bound : List Variable} {choice : List D → Assignment D} {number : Nat}
    (less : number < next) : choosing F next bound choice number = F number := by
  funext arguments
  unfold choosing
  split
  · exact if_neg (by omega)
  · rfl

/-- Choosing for a quantifier leaves the Skolem functions with larger numbers. -/
theorem choosing_of_le {bound : List Variable} {choice : List D → Assignment D} {number : Nat}
    (le : next + bound.length ≤ number) : choosing F next bound choice number = F number := by
  funext arguments
  have outside : bound[number - next]? = none := List.getElem?_eq_none (by omega)
  simp [choosing, outside]

/-- The variables of a quantifier are replaced by the values chosen for them. -/
theorem through_choosing (below : ∀ entry ∈ replacements, entry.2.id < next) (bound : List Variable)
    (choice : List D → Assignment D) (β : Assignment D) :
    (M.withSkolems (choosing F next bound choice)).through
        (Skolem.introduce universals next replacements bound) β =
      override ((M.withSkolems F).through replacements β) (bound.map Variable.identity)
        (choice (universals.map β.get)) := by
  have old : (M.withSkolems (choosing F next bound choice)).through replacements β =
      (M.withSkolems F).through replacements β :=
    through_withSkolems_congr (fun entry member => choosing_of_lt (below entry member)) β
  rw [through_introduce, old]
  funext identity
  unfold override
  split
  · rename_i member
    obtain ⟨v, listed, rfl⟩ := List.mem_map.1 member
    unfold through
    obtain ⟨i, w, located, same, found⟩ | ⟨none, -⟩ := Skolem.find?_introduce universals
      (·.identity == v.identity) bound next replacements
    · rw [found]
      have named : w.identity = v.identity := eq_of_beq same
      simp [withSkolems, choosing, located, Assignment.get, named]
    · have missed := none v listed
      simp at missed
  · rfl

/-- If a formula is true, the Skolem functions that come into it can be given operations under which
its Skolem form is true. The operations do not depend on the values of the universal variables, and
no other Skolem function needs to be changed. -/
theorem exists_truth_skolemizeWith {free scope : Set Variable} {low high : Nat} {e : Expr}
    (apart : e.Apart Set.univ free scope low high) (skolemFree : e.SkolemFree)
    (stands : Skolem.Stands scope low universals replacements next) (F : Nat → List D → D)
    (α : Assignment D) :
    ∃ G : Nat → List D → D,
      (∀ number, number < next ∨ (e.skolemizeWith universals replacements next).2 ≤ number →
        G number = F number) ∧
      ∀ β : Assignment D,
        (∀ identity ∉ universals.map Variable.identity, β identity = α identity) →
        (M.withSkolems F).Truth Variable.identity ((M.withSkolems F).through replacements β) e →
        (M.withSkolems G).Truth Variable.identity β
          (e.skolemizeWith universals replacements next).1 := by
  induction apart generalizing universals replacements next F with
  | literal isAtom =>
    exact ⟨F, fun _ _ => rfl, fun β _ true =>
      ((M.withSkolems F).truth_skolemizeWith_atom isAtom skolemFree β).2 true⟩
  | @junction scope low middle high operator a b either leftApart rightApart left right =>
    obtain ⟨-, inside⟩ := Expr.everywhere_iff.1 skolemFree
    obtain ⟨first, second⟩ := List.forall_mem_cons.1 inside
    have second := List.forall_mem_singleton.1 second
    obtain ⟨apartLeft, more, numbered⟩ := leftApart.skolemizeWith first stands
    have later := stands.mono leftApart.le more
    have evenMore := (rightApart.skolemizeWith second later).2.1
    -- The functions of the left side are chosen first, those of the right side after them.
    obtain ⟨G, same, onLeft⟩ := left first stands F
    obtain ⟨H, same', onRight⟩ := right second later G
    rw [Expr.skolemizeWith_binary]
    refine ⟨H, fun number outside => ?_, fun β agrees true => ?_⟩
    · rw [same' number (by omega), same number (by omega)]
    · have onLeft' : _ → (M.withSkolems H).Truth Variable.identity β _ := fun true =>
        (truth_withSkolems_congr _ apartLeft.normal (numbered.imp fun _ _ below s named =>
          (same' s.id (.inl (below s named))).symm) β).1 (onLeft β agrees true)
      have onRight' : (M.withSkolems F).Truth Variable.identity
          ((M.withSkolems F).through replacements β) b → _ := fun true => onRight β agrees (by
        rw [through_withSkolems_congr (fun entry member => same _ (.inl (stands.numbers entry member)))]
        exact (truth_withSkolems_iff _ rightApart.normal second F G _).1 true)
      rcases either with rfl | rfl
      · rw [truth_and] at true ⊢
        exact ⟨onLeft' true.1, onRight' true.2⟩
      · rw [truth_or] at true ⊢
        exact true.imp onLeft' onRight'
  | @quantified scope low middle high binder body kind le fresh marked bodyApart inner =>
    obtain ⟨quantifier, bound⟩ := binder
    obtain ⟨-, inside⟩ := Expr.everywhere_iff.1 skolemFree
    have within := List.forall_mem_singleton.1 inside
    have below : ∀ v ∈ bound, v.id < middle := fun v member => (fresh v member).lt_high
    cases quantifier with
    | universal =>
      rw [Expr.skolemizeWith_universal]
      obtain ⟨G, same, onBody⟩ := inner within (stands.universal le below) F
      refine ⟨G, same, fun β agrees true => ?_⟩
      rw [truth_universal] at true ⊢
      intro values
      refine onBody _ (fun identity outside => ?_) ?_
      · rw [List.map_append, List.mem_append, not_or] at outside
        rw [override, if_neg outside.2]
        exact agrees identity outside.1
      · rw [(M.withSkolems F).through_override stands fresh]
        exact true values
    | existential =>
      rw [Expr.skolemizeWith_existential]
      obtain ⟨choice, chosen⟩ := Assignment.exists_choice universals α fun β values =>
        (M.withSkolems F).Truth Variable.identity (override ((M.withSkolems F).through replacements β)
          (bound.map Variable.identity) values) body
      have standsInside := stands.existential le below
      have more := (bodyApart.skolemizeWith within standsInside).2.1
      obtain ⟨G, same, onBody⟩ := inner within standsInside (choosing F next bound choice)
      refine ⟨G, fun number outside => ?_, fun β agrees true => onBody β agrees ?_⟩
      · rcases outside with less | after
        · rw [same number (.inl (Nat.lt_add_right _ less)), choosing_of_lt less]
        · rw [same number (.inr after), choosing_of_le (more.trans after)]
      · rw [truth_existential] at true
        rw [through_choosing stands.numbers]
        exact (truth_withSkolems_iff _ bodyApart.normal within F _ _).1 (chosen β agrees true)

end Structure

end Refute
