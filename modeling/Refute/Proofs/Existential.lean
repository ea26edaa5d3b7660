import Refute.Proofs.Shape

/-!
# Existential variables

The Skolem function of an existential variable is made of two things that can be read off the
formula whose variables are apart: its number is the place of the variable among all existential
variables, counted from the next number on, and its arguments are the variables of the universal
quantifiers around the quantifier, outer ones first. `Expr.existentials` lists both, and
`Skolem.assign` makes Skolem functions of the list.

Because no two variables of quantifiers are the same, one replacement of variables by Skolem
functions serves the whole formula: the normal form is the formula without its quantifiers, each
existential variable replaced by its Skolem function wherever it occurs, with disjunctions
distributed over conjunctions.
-/

namespace Refute

/-! ### Quantified variables -/

namespace Expr

mutual

/-- The variables of all quantifiers, outer before inner and left before right. -/
def boundVariables : Expr → List Variable
  | ⟨.binder b, _, args⟩ => b.bound ++ boundVariablesArgs args
  | ⟨_, _, args⟩ => boundVariablesArgs args

/-- The variables of all quantifiers of several operands. -/
def boundVariablesArgs : List Expr → List Variable
  | [] => []
  | a :: as => boundVariables a ++ boundVariablesArgs as

end

mutual

/-- The existential variables, outer before inner and left before right, each with the variables of
the universal quantifiers around its own, outer ones first. -/
def existentials (universals : List Variable) : Expr → List (Variable × List Variable)
  | ⟨.binder ⟨.existential, bound⟩, _, args⟩ =>
    bound.map (·, universals) ++ existentialsArgs universals args
  | ⟨.binder ⟨.universal, bound⟩, _, args⟩ => existentialsArgs (universals ++ bound) args
  | ⟨_, _, args⟩ => existentialsArgs universals args

/-- The existential variables of several operands. -/
def existentialsArgs (universals : List Variable) : List Expr → List (Variable × List Variable)
  | [] => []
  | a :: as => existentials universals a ++ existentialsArgs universals as

end

mutual

/-- The formula without its quantifiers. -/
def unquantified : Expr → Expr
  | ⟨.binder b, negated, args⟩ => unquantify (.binder b) negated (unquantifiedArgs args)
  | ⟨head, negated, args⟩ => ⟨head, negated, unquantifiedArgs args⟩

/-- Operands without their quantifiers. -/
def unquantifiedArgs : List Expr → List Expr
  | [] => []
  | a :: as => unquantified a :: unquantifiedArgs as

end

variable {e : Expr}

/-- An atom has no quantifiers. -/
theorem IsAtom.quantifierFree (isAtom : e.IsAtom) :
    e.boundVariables = [] ∧ (∀ universals, e.existentials universals = []) ∧ e.unquantified = e := by
  induction e using Expr.induction with
  | node head negated args ih =>
    obtain ⟨takes, atoms⟩ := everywhere_iff.1 isAtom
    have inArgs : boundVariablesArgs args = [] ∧ (∀ universals, existentialsArgs universals args = []) ∧
        unquantifiedArgs args = args := by
      clear takes isAtom
      induction args with
      | nil => exact ⟨rfl, fun _ => rfl, rfl⟩
      | cons a as ihArgs =>
        rw [List.forall_mem_cons] at atoms
        obtain ⟨bound, found, same⟩ := ih a List.mem_cons_self atoms.1
        obtain ⟨boundToo, foundToo, sameToo⟩ :=
          ihArgs (fun arg member => ih arg (List.mem_cons_of_mem a member)) atoms.2
        refine ⟨?_, fun universals => ?_, ?_⟩
        · rw [boundVariablesArgs, bound, boundToo, List.append_nil]
        · rw [existentialsArgs, found, foundToo, List.append_nil]
        · rw [unquantifiedArgs, same, sameToo]
    cases head with
    | binder b => exact absurd takes id
    | _ => simp [boundVariables, existentials, unquantified, inArgs]

/-- The quantified variables of the left operand come before those of the right one. -/
@[simp] theorem boundVariables_binary (operator : Operator) (a b : Expr) :
    (binary operator a b).boundVariables = a.boundVariables ++ b.boundVariables := by
  simp [binary, node, boundVariables, boundVariablesArgs]

/-- The variables of a quantifier come before those of its body. -/
@[simp] theorem boundVariables_quantified (binder : Binder) (body : Expr) :
    (node (.binder binder) [body]).boundVariables = binder.bound ++ body.boundVariables := by
  simp [node, boundVariables, boundVariablesArgs]

/-- The existential variables of the left operand come before those of the right one. -/
@[simp] theorem existentials_binary (universals : List Variable) (operator : Operator) (a b : Expr) :
    (binary operator a b).existentials universals =
      a.existentials universals ++ b.existentials universals := by
  simp [binary, node, existentials, existentialsArgs]

/-- The variables of a universal quantifier are around all existential variables of its body. -/
@[simp] theorem existentials_universal (universals bound : List Variable) (body : Expr) :
    (node (.binder ⟨.universal, bound⟩) [body]).existentials universals =
      body.existentials (universals ++ bound) := by
  simp [node, existentials, existentialsArgs]

/-- The variables of an existential quantifier are under the universal quantifiers around it. -/
@[simp] theorem existentials_existential (universals bound : List Variable) (body : Expr) :
    (node (.binder ⟨.existential, bound⟩) [body]).existentials universals =
      bound.map (·, universals) ++ body.existentials universals := by
  simp [node, existentials, existentialsArgs]

/-- The variables of an existential quantifier come before the existential variables of its body. -/
@[simp] theorem map_fst_existentials_existential (universals bound : List Variable) (body : Expr) :
    ((node (.binder ⟨.existential, bound⟩) [body]).existentials universals).map Prod.fst =
      bound ++ (body.existentials universals).map Prod.fst := by
  simp [Function.comp_def]

/-- Quantifiers are taken away in both operands. -/
theorem unquantified_binary (operator : Operator) (a b : Expr) :
    (binary operator a b).unquantified = binary operator a.unquantified b.unquantified := by
  simp [binary, node, unquantified, unquantifiedArgs]

/-- Without its quantifier a formula is its body without quantifiers. -/
theorem unquantified_quantified (binder : Binder) (body : Expr) :
    (node (.binder binder) [body]).unquantified = body.unquantified := by
  simp [node, unquantified, unquantifiedArgs, unquantify]

/-- Variables are replaced in both operands. -/
theorem mapLeaves_binary (f : Variable → Symbol) (operator : Operator) (a b : Expr) :
    (binary operator a b).mapLeaves f = binary operator (a.mapLeaves f) (b.mapLeaves f) := by
  simp [binary, node, mapLeaves, mapLeavesArgs]

/-- What becomes of an atom depends on what becomes of its variables. -/
theorem mapLeaves_congr {f g : Variable → Symbol} (same : e.Over fun v => f v = g v) :
    e.mapLeaves f = e.mapLeaves g := by
  induction e using Expr.induction with
  | node head negated args ih =>
    obtain ⟨root, inside⟩ := everywhere_iff.1 same
    have arguments : mapLeavesArgs f args = mapLeavesArgs g args := by
      rw [mapLeavesArgs_eq_map, mapLeavesArgs_eq_map]
      exact List.map_congr_left fun arg member => ih arg member (inside arg member)
    cases head with
    | var v => rw [mapLeaves, mapLeaves, root v (List.mem_singleton_self v)]
    | _ => simp only [mapLeaves, arguments]

/-! ### Variables that are apart -/

variable {kinds : Set Quantifier} {free scope : Set Variable} {low high : Nat}
variable {universals : List Variable}

/-- The existential variables are among the variables of quantifiers, in the same order. -/
theorem Normal.existentials_sublist (normal : e.Normal) (universals : List Variable) :
    ((e.existentials universals).map Prod.fst).Sublist e.boundVariables := by
  induction normal generalizing universals with
  | literal isAtom =>
    rw [isAtom.quantifierFree.2.1]
    exact List.nil_sublist _
  | junction _ _ _ left right => simpa using (left universals).append (right universals)
  | @quantified binder body _ inner =>
    obtain ⟨quantifier, bound⟩ := binder
    cases quantifier with
    | universal => simpa using (inner _).trans (List.sublist_append_right bound _)
    | existential =>
      rw [map_fst_existentials_existential, boundVariables_quantified]
      exact (List.Sublist.refl bound).append (inner universals)

/-- The variables of all quantifiers have numbers of the range and are none of the free
variables. -/
theorem Apart.fresh_of_mem (apart : Apart kinds free scope low high e) {v : Variable}
    (member : v ∈ e.boundVariables) : v.Fresh free low high := by
  induction apart with
  | literal isAtom =>
    rw [isAtom.quantifierFree.1] at member
    cases member
  | junction _ leftApart rightApart left right =>
    rw [boundVariables_binary, List.mem_append] at member
    rcases member with inLeft | inRight
    · exact (left inLeft).mono le_rfl rightApart.le
    · exact (right inRight).mono leftApart.le le_rfl
  | quantified _ le fresh _ bodyApart inner =>
    rw [boundVariables_quantified, List.mem_append] at member
    rcases member with own | inBody
    · exact (fresh v own).mono le_rfl bodyApart.le
    · exact (inner inBody).mono le le_rfl

/-- The variables of quantifiers that are not marked universal are the existential ones. -/
theorem Apart.mem_existentials_iff (apart : Apart kinds free scope low high e)
    (universals : List Variable) {v : Variable} :
    v ∈ (e.existentials universals).map Prod.fst ↔ v ∈ e.boundVariables ∧ v.universal = false := by
  induction apart generalizing universals with
  | literal isAtom =>
    obtain ⟨bound, found, -⟩ := isAtom.quantifierFree
    simp [bound, found]
  | junction _ _ _ left right =>
    rw [existentials_binary, List.map_append, List.mem_append, left, right, boundVariables_binary,
      List.mem_append, or_and_right]
  | @quantified scope low middle high binder body _ _ _ marked _ inner =>
    obtain ⟨quantifier, bound⟩ := binder
    rw [boundVariables_quantified, List.mem_append, or_and_right]
    cases quantifier with
    | universal =>
      have flagged : ¬ (v ∈ bound ∧ v.universal = false) := by
        rintro ⟨own, unmarked⟩
        rw [marked v own] at unmarked
        cases unmarked
      rw [existentials_universal, inner]
      exact (or_iff_right flagged).symm
    | existential =>
      rw [map_fst_existentials_existential, List.mem_append, inner]
      exact or_congr_left (iff_self_and.2 fun own => marked v own)

/-- The variables around an existential quantifier are universal ones. -/
theorem Apart.universal_of_mem_existentials (apart : Apart kinds free scope low high e)
    {entry : Variable × List Variable} (listed : entry ∈ e.existentials universals) {v : Variable}
    (around : v ∈ entry.2) : v ∈ universals ∨ v ∈ e.boundVariables ∧ v.universal := by
  induction apart generalizing universals with
  | literal isAtom =>
    rw [isAtom.quantifierFree.2.1] at listed
    cases listed
  | junction _ _ _ left right =>
    rw [existentials_binary, List.mem_append] at listed
    rw [boundVariables_binary, List.mem_append, or_and_right]
    rcases listed with inLeft | inRight
    · exact (left inLeft).imp_right .inl
    · exact (right inRight).imp_right .inr
  | @quantified scope low middle high binder body _ _ _ marked _ inner =>
    obtain ⟨quantifier, bound⟩ := binder
    rw [boundVariables_quantified, List.mem_append, or_and_right]
    cases quantifier with
    | universal =>
      rw [existentials_universal] at listed
      rcases inner listed with outside | inBody
      · rcases List.mem_append.1 outside with outer | own
        · exact .inl outer
        · exact .inr (.inl ⟨own, marked v own⟩)
      · exact .inr (.inr inBody)
    | existential =>
      rw [existentials_existential, List.mem_append] at listed
      rcases listed with own | inBody
      · obtain ⟨w, -, rfl⟩ := List.mem_map.1 own
        exact .inl around
      · exact (inner inBody).imp_right .inr

end Expr

/-- The variables have growing numbers, from the first bound to below the second. -/
structure Variable.Ascending (low high : Nat) (vs : List Variable) : Prop where
  /-- Later variables have larger numbers. -/
  ordered : vs.Pairwise fun v w => v.id < w.id
  /-- All numbers lie between the bounds. -/
  range : ∀ v ∈ vs, low ≤ v.id ∧ v.id < high

/-- The empty list of variables ascends. -/
theorem Variable.ascending_nil (low high : Nat) : Ascending low high [] :=
  ⟨.nil, List.forall_mem_nil _⟩

/-- Variables ascend if those before a number do and those from it on. -/
theorem Variable.Ascending.append {low middle high : Nat} {vs ws : List Variable}
    (first : Ascending low middle vs) (second : Ascending middle high ws) (early : low ≤ middle)
    (late : middle ≤ high) : Ascending low high (vs ++ ws) where
  ordered := by
    refine List.pairwise_append.2 ⟨first.ordered, second.ordered, fun v before w after => ?_⟩
    have := first.range v before
    have := second.range w after
    omega
  range := by
    refine List.forall_mem_append.2 ⟨fun v before => ?_, fun w after => ?_⟩
    · have := first.range v before
      omega
    · have := second.range w after
      omega

/-- The numbers given to the variables of a quantifier ascend from the start. -/
theorem Renaming.ascending_number (universal : Bool) (start : Nat) (bound : List Variable) :
    Variable.Ascending start (start + bound.length) (number universal start bound) := by
  refine ⟨?_, fun v member => (mem_number member).2.2⟩
  induction bound generalizing start with
  | nil => exact .nil
  | cons v rest ih =>
    refine List.pairwise_cons.2 ⟨fun w later => ?_, ih (start + 1)⟩
    exact (mem_number later).2.2.1

namespace Expr

variable {e : Expr}

/-- Renaming numbers the variables of quantifiers in the order in which they are met. -/
theorem Normal.boundVariables_rename (normal : e.Normal) (scope : List (String × Variable))
    (state : Renaming) :
    Variable.Ascending state.next (rename scope state e).2.next
        (rename scope state e).1.boundVariables ∧
      ∀ v ∈ (rename scope state e).1.boundVariables, v.system := by
  induction normal generalizing scope state with
  | literal isAtom =>
    rw [(isAtom.rename scope state).quantifierFree.1]
    exact ⟨Variable.ascending_nil _ _, List.forall_mem_nil _⟩
  | @junction operator a b _ _ _ left right =>
    obtain ⟨ascendingLeft, systemLeft⟩ := left scope state
    obtain ⟨ascendingRight, systemRight⟩ := right scope (rename scope state a).2
    have early := (grows_rename scope state a).le
    have late := (grows_rename scope (rename scope state a).2 b).le
    rw [rename_binary]
    dsimp only
    rw [boundVariables_binary]
    exact ⟨ascendingLeft.append ascendingRight early late,
      List.forall_mem_append.2 ⟨systemLeft, systemRight⟩⟩
  | @quantified binder body _ inner =>
    obtain ⟨quantifier, bound⟩ := binder
    rw [rename_quantified]
    dsimp only
    rw [boundVariables_quantified]
    have late := (grows_rename (Renaming.extend scope
      (Renaming.number (quantifier == .universal) state.next bound))
      { state with next := state.next + bound.length } body).le
    obtain ⟨ascending, system⟩ := inner (Renaming.extend scope
      (Renaming.number (quantifier == .universal) state.next bound))
      { state with next := state.next + bound.length }
    refine ⟨(Renaming.ascending_number _ _ _).append ascending (Nat.le_add_right _ _) late,
      List.forall_mem_append.2 ⟨fun v own => ?_, system⟩⟩
    exact (Renaming.mem_number own).1

end Expr

/-- Variables with growing numbers are told apart by them. -/
theorem Variable.place_eq_of_id_eq {vs : List Variable}
    (ordered : vs.Pairwise fun v w => v.id < w.id) {i j : Nat} {v w : Variable}
    (atFirst : vs[i]? = some v) (atSecond : vs[j]? = some w) (same : v.id = w.id) : i = j := by
  obtain ⟨inFirst, rfl⟩ := List.getElem?_eq_some_iff.1 atFirst
  obtain ⟨inSecond, rfl⟩ := List.getElem?_eq_some_iff.1 atSecond
  have less := List.pairwise_iff_getElem.1 ordered
  rcases Nat.lt_trichotomy i j with before | rfl | after
  · exact absurd same (less i j inFirst inSecond before).ne
  · rfl
  · exact absurd same (less j i inSecond inFirst after).ne'

/-- Among variables in the order of their numbers no two have the same one. -/
theorem Variable.eq_of_id_eq {vs : List Variable} (ordered : vs.Pairwise fun v w => v.id < w.id)
    {v w : Variable} (first : v ∈ vs) (second : w ∈ vs) (same : v.id = w.id) : v = w := by
  obtain ⟨i, atFirst⟩ := List.mem_iff_getElem?.1 first
  obtain ⟨j, atSecond⟩ := List.mem_iff_getElem?.1 second
  obtain rfl := place_eq_of_id_eq ordered atFirst atSecond same
  exact Option.some.inj (atFirst.symm.trans atSecond)

/-! ### Skolem functions by place -/

namespace Skolem

/-- A variable of the quantifier is replaced by the Skolem function of its place, any other one as
before. -/
theorem replacement_introduce (universals : List Variable) (next : Nat)
    (replacements : List (Variable × Skolem)) (bound : List Variable) (v : Variable) :
    (∃ place w, bound[place]? = some w ∧ w == v ∧
      replacement (introduce universals next replacements bound) v =
        .skolem ⟨next + place, universals⟩) ∨
    (∀ w ∈ bound, (w == v) = false) ∧
      replacement (introduce universals next replacements bound) v = replacement replacements v := by
  unfold replacement
  obtain ⟨place, w, located, alike, searched⟩ | ⟨others, searched⟩ :=
    find?_introduce universals (· == v) bound next replacements
  · exact .inl ⟨place, w, located, alike, by rw [searched]⟩
  · exact .inr ⟨others, by rw [searched]⟩

/-- Skolem functions with consecutive numbers for existential variables. -/
def assign (next : Nat) (found : List (Variable × List Variable)) : List (Variable × Skolem) :=
  (found.zipIdx next).map fun entry => (entry.1.1, ⟨entry.2, entry.1.2⟩)

variable {next : Nat} {found : List (Variable × List Variable)} {v : Variable}

/-- The Skolem function of an existential variable is numbered by the place of the variable. -/
theorem mem_assign_iff {s : Skolem} :
    (v, s) ∈ assign next found ↔
      ∃ place, found[place]? = some (v, s.arguments) ∧ s.id = next + place := by
  obtain ⟨number, arguments⟩ := s
  unfold assign
  rw [List.mem_map]
  constructor
  · rintro ⟨⟨⟨w, around⟩, index⟩, listed, same⟩
    obtain ⟨le, located⟩ := List.mk_mem_zipIdx_iff_le_and_getElem?_sub.1 listed
    obtain ⟨rfl, made⟩ := Prod.mk.inj same
    obtain ⟨rfl, rfl⟩ := Skolem.mk.inj made
    exact ⟨index - next, located, (Nat.add_sub_cancel' le).symm⟩
  · rintro ⟨place, located, rfl⟩
    refine ⟨((v, arguments), next + place), ?_, rfl⟩
    refine List.mk_mem_zipIdx_iff_le_and_getElem?_sub.2 ⟨Nat.le_add_right _ _, ?_⟩
    rwa [Nat.add_sub_cancel_left]

/-- A variable that is not listed stays. -/
theorem replacement_assign_of_forall_ne (other : ∀ entry ∈ found, entry.1.id ≠ v.id) :
    replacement (assign next found) v = .var v := by
  obtain ⟨⟨w, s⟩, listed, searched, -⟩ | ⟨-, -, stays⟩ := replacement_cases (assign next found) v
  · obtain ⟨place, located, -⟩ := mem_assign_iff.1 listed
    have found := List.find?_some searched
    have alike : w.identity = v.identity := Variable.beq_iff.1 found
    exact absurd (congrArg Prod.fst alike) (other _ (List.mem_of_getElem? located))
  · exact stays

/-- A listed variable is replaced by the Skolem function of its place. -/
theorem replacement_assign (ordered : (found.map Prod.fst).Pairwise fun v w => v.id < w.id)
    {place : Nat} {around : List Variable} (located : found[place]? = some (v, around)) :
    replacement (assign next found) v = .skolem ⟨next + place, around⟩ := by
  obtain ⟨⟨w, s⟩, listed, searched, made⟩ | ⟨missed, -, -⟩ := replacement_cases (assign next found) v
  · obtain ⟨other, atOther, number⟩ := mem_assign_iff.1 listed
    have matched := List.find?_some searched
    have alike : w.identity = v.identity := Variable.beq_iff.1 matched
    obtain rfl : other = place := Variable.place_eq_of_id_eq ordered
      (by rw [List.getElem?_map, atOther]; rfl) (by rw [List.getElem?_map, located]; rfl)
      (congrArg Prod.fst alike)
    rw [atOther] at located
    obtain ⟨-, rfl⟩ := Prod.mk.inj (Option.some.inj located)
    rw [made, ← number]
  · refine absurd (Variable.beq_iff.2 rfl) (missed (v, ⟨next + place, around⟩) ?_)
    exact mem_assign_iff.2 ⟨place, located, rfl⟩

end Skolem

/-! ### One replacement for the whole formula -/

namespace Expr

variable {e : Expr} {free scope : Set Variable} {low high : Nat}

/-- If symbols agree with the replacements made so far on the variables that may occur, and give the
existential variables of the formula the Skolem functions of their places and its universal ones
themselves, then they can be put in for all variables at once. -/
theorem Apart.dropUniversals_skolemizeWith {f : Variable → Symbol}
    (apart : Apart Set.univ free scope low high e) (universals : List Variable)
    (replacements : List (Variable × Skolem)) (next : Nat)
    (ordered : e.boundVariables.Pairwise fun v w => v.id < w.id)
    (below : ∀ v ∈ scope, v.id < low) (replaced : ∀ entry ∈ replacements, entry.1.id < low)
    (known : ∀ v, v ∈ scope ∨ v ∈ free → Skolem.replacement replacements v = f v)
    (placed : ∀ place v around, (e.existentials universals)[place]? = some (v, around) →
      f v = .skolem ⟨next + place, around⟩)
    (kept : ∀ v ∈ e.boundVariables, v.universal → f v = .var v) :
    (e.skolemizeWith universals replacements next).1.dropUniversals = e.unquantified.mapLeaves f ∧
      (e.skolemizeWith universals replacements next).2 =
        next + (e.existentials universals).length := by
  induction apart generalizing universals replacements next with
  | @literal scope low high e isAtom le closed =>
    obtain ⟨-, found, same⟩ := isAtom.quantifierFree
    rw [skolemizeWith_atom isAtom, found, same]
    refine ⟨?_, rfl⟩
    rw [dropUniversals_atom (isAtom.replace replacements)]
    exact mapLeaves_congr (closed.imp fun _ _ inside v occurs => known v (inside v occurs))
  | @junction scope low middle high operator a b either leftApart rightApart left right =>
    rw [boundVariables_binary] at ordered kept
    rw [existentials_binary] at placed
    obtain ⟨orderedLeft, orderedRight, -⟩ := List.pairwise_append.1 ordered
    obtain ⟨sameLeft, nextLeft⟩ := left universals replacements next orderedLeft below replaced known
      (fun place v around located => placed place v around (by
        obtain ⟨inside, -⟩ := List.getElem?_eq_some_iff.1 located
        rwa [List.getElem?_append_left inside]))
      (fun v inLeft => kept v (List.mem_append_left _ inLeft))
    obtain ⟨sameRight, nextRight⟩ := right universals replacements
      (next + (a.existentials universals).length) orderedRight
      (fun v inScope => (below v inScope).trans_le leftApart.le)
      (fun entry listed => (replaced entry listed).trans_le leftApart.le) known
      (fun place v around located => by
        rw [Nat.add_assoc]
        refine placed _ v around ?_
        rwa [List.getElem?_append_right (Nat.le_add_right _ _), Nat.add_sub_cancel_left])
      (fun v inRight => kept v (List.mem_append_right _ inRight))
    rw [skolemizeWith_binary, nextLeft, dropUniversals_binary, sameLeft, sameRight, nextRight,
      unquantified_binary, mapLeaves_binary, existentials_binary, List.length_append, Nat.add_assoc]
    exact ⟨rfl, rfl⟩
  | @quantified scope low middle high binder body kind le fresh marked bodyApart inner =>
    obtain ⟨quantifier, bound⟩ := binder
    rw [boundVariables_quantified] at ordered kept
    obtain ⟨orderedOwn, orderedBody, -⟩ := List.pairwise_append.1 ordered
    have belowBody : ∀ v ∈ scope ∪ {v | v ∈ bound}, v.id < middle := by
      rintro v (outer | own)
      · exact (below v outer).trans_le le
      · exact (fresh v own).lt_high
    have keptBody : ∀ v ∈ body.boundVariables, v.universal → f v = .var v :=
      fun v inBody => kept v (List.mem_append_right _ inBody)
    rw [unquantified_quantified]
    cases quantifier with
    | universal =>
      rw [existentials_universal] at placed ⊢
      rw [skolemizeWith_universal, dropUniversals_universal]
      refine inner _ _ _ orderedBody belowBody
        (fun entry listed => (replaced entry listed).trans_le le) ?_ placed keptBody
      rintro v ((outer | own) | isFree)
      · exact known v (.inl outer)
      · -- A variable of the quantifier is newer than everything replaced so far.
        rw [kept v (List.mem_append_left _ own) (marked v own)]
        obtain ⟨entry, listed, searched, -⟩ | ⟨-, -, stays⟩ :=
          Skolem.replacement_cases replacements v
        · have matched := List.find?_some searched
          have ids : entry.1.id = v.id := congrArg Prod.fst (Variable.beq_iff.1 matched)
          have := replaced entry listed
          have := (fresh v own).low_le
          omega
        · exact stays
      · exact known v (.inr isFree)
    | existential =>
      rw [existentials_existential] at placed ⊢
      rw [skolemizeWith_existential, List.length_append, List.length_map, ← Nat.add_assoc]
      refine inner _ _ _ orderedBody belowBody ?_ ?_ ?_ keptBody
      · intro entry listed
        rcases Skolem.mem_introduce listed with old | ⟨own, -, -⟩
        · exact (replaced entry old).trans_le le
        · exact (fresh entry.1 own).lt_high
      · intro v occurs
        obtain ⟨place, w, located, alike, made⟩ | ⟨others, made⟩ :=
          Skolem.replacement_introduce universals next replacements bound v
        · have ids : w.id = v.id := congrArg Prod.fst (Variable.beq_iff.1 alike)
          have own : w ∈ bound := List.mem_of_getElem? located
          obtain rfl : w = v := by
            rcases occurs with (outer | ownToo) | isFree
            · have := below v outer
              have := (fresh w own).low_le
              omega
            · exact Variable.eq_of_id_eq orderedOwn own ownToo ids
            · exact absurd (Variable.beq_iff.1 alike).symm ((fresh w own).new v isFree)
          obtain ⟨inside, -⟩ := List.getElem?_eq_some_iff.1 located
          rw [made, placed place w universals]
          rw [List.getElem?_append_left (by simpa using inside), List.getElem?_map, located]
          rfl
        · have outside : v ∈ scope ∨ v ∈ free := by
            rcases occurs with (outer | own) | isFree
            · exact .inl outer
            · have other := others v own
              rw [Variable.beq_iff.2 rfl] at other
              cases other
            · exact .inr isFree
          rw [made, known v outside]
      · intro place v around located
        rw [Nat.add_assoc]
        refine placed _ v around ?_
        rw [List.getElem?_append_right (by simp), List.length_map, Nat.add_sub_cancel_left]
        exact located

/-! ### Normal forms -/

/-- The Skolem functions of the existential variables of a formula. -/
def skolemTable (session : Session) (e : Expr) : List (Variable × Skolem) :=
  Skolem.assign session.nextSkolem ((e.apartForm session).1.existentials [])

/-- All quantifiers of a formula that is renamed apart bind variables of the system, with numbers
that ascend from the next one. -/
theorem boundVariables_apartForm (formula : e.Formula) (session : Session) :
    Variable.Ascending session.nextSystem (e.apartForm session).2.next
        (e.apartForm session).1.boundVariables ∧
      ∀ v ∈ (e.apartForm session).1.boundVariables, v.system :=
  (formula.normal false).boundVariables_rename [] { next := session.nextSystem }

/-- An existential variable is replaced by its Skolem function, and every other variable stays. -/
theorem replacement_skolemTable (formula : e.Formula) (skolemFree : e.SkolemFree) (session : Session)
    (v : Variable) :
    (∀ place around, ((e.apartForm session).1.existentials [])[place]? = some (v, around) →
      Skolem.replacement (e.skolemTable session) v = .skolem ⟨session.nextSkolem + place, around⟩) ∧
    (v ∈ e.freeSet session ∨ v ∈ (e.apartForm session).1.boundVariables ∧ v.universal →
      Skolem.replacement (e.skolemTable session) v = .var v) := by
  have apart := apart_apartForm formula skolemFree session
  obtain ⟨ascending, systems⟩ := boundVariables_apartForm formula session
  have ordered := ascending.ordered
  have sublist := apart.normal.existentials_sublist []
  refine ⟨fun place around => Skolem.replacement_assign (ordered.sublist sublist), fun stays => ?_⟩
  refine Skolem.replacement_assign_of_forall_ne fun entry listed ids => ?_
  obtain ⟨bound, unmarked⟩ :=
    (apart.mem_existentials_iff []).1 (List.mem_map_of_mem (f := Prod.fst) listed)
  rcases stays with isFree | ⟨boundToo, marked⟩
  · -- A free variable is none of the quantified ones, and both are system variables.
    obtain ⟨named, member, rfl⟩ := List.mem_map.1 isFree
    have system : named.2.system = true := by
      rw [(lawful_apartForm session e).named named member]
      rfl
    refine (apart.fresh_of_mem bound).new _ isFree (Prod.ext ids.symm ?_)
    change named.2.system = entry.1.system
    rw [system, systems entry.1 bound]
  · rw [Variable.eq_of_id_eq ordered bound boundToo ids, marked] at unmarked
    cases unmarked

/-- The normal form is the formula without its quantifiers, with Skolem functions for the
existential variables and disjunctions distributed; it takes as many numbers as there are such
variables. -/
theorem toCnf_eq_distribute (formula : e.Formula) (skolemFree : e.SkolemFree) (session : Session) :
    (e.toCnf session).1 = ((e.apartForm session).1.unquantified.mapLeaves
      (Skolem.replacement (e.skolemTable session))).distribute ∧
    (e.toCnf session).2.nextSkolem =
      session.nextSkolem + ((e.apartForm session).1.existentials []).length := by
  have replaced := replacement_skolemTable formula skolemFree session
  have same := (apart_apartForm formula skolemFree session).dropUniversals_skolemizeWith
    (f := Skolem.replacement (e.skolemTable session)) [] [] session.nextSkolem
    (boundVariables_apartForm formula session).1.ordered nofun nofun ?known
    (fun place v around => (replaced v).1 place around)
    (fun v bound marked => (replaced v).2 (.inr ⟨bound, marked⟩))
  case known =>
    rintro v (none | isFree)
    · exact absurd none (Set.notMem_empty v)
    · exact ((replaced v).2 (.inl isFree)).symm
  rw [toCnf_eq]
  exact ⟨congrArg distribute same.1, same.2⟩

end Expr

end Refute
