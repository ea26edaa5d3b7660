import Mathlib.Data.List.Pairwise
import Mathlib.Data.Set.Insert
import Refute.Normal.Renaming
import Refute.Proofs.Formula

/-!
# Renaming apart

Renaming keeps the truth of a formula: what was true of the values of names is true of the values of
the variables that stand for them. It leaves a formula that is `Apart`: the variables of every
quantifier have numbers of their own, in the order in which the quantifiers are met, and every
occurrence of a variable belongs to a quantifier around it or is one of the free variables.
-/

namespace Refute

universe u

/-! ### Variables handed out -/

namespace Renaming

variable {scope : List (String × Variable)} {state next last : Renaming}

/-- The variable that a name stands for in a scope. -/
def lookup? (scope free : List (String × Variable)) (name : String) : Option Variable :=
  match scope.find? (·.1 == name) with
  | some entry => some entry.2
  | none => (free.find? (·.1 == name)).map (·.2)

/-- Free variables carry their names, are not universal, and have numbers in the order in which they
were handed out, all below the next one. -/
structure Lawful (state : Renaming) : Prop where
  /-- A free variable carries the name it stands for. -/
  named : ∀ entry ∈ state.free, entry.2 = renamed entry.1 entry.2.id false
  /-- The next number is new. -/
  below : ∀ entry ∈ state.free, entry.2.id < state.next
  /-- Later variables have larger numbers. -/
  ordered : state.free.Pairwise fun late early => early.2.id < late.2.id

/-- What was handed out before stays, and what comes later has later numbers. -/
structure Grows (state next : Renaming) : Prop where
  /-- Numbers are not handed out again. -/
  le : state.next ≤ next.next
  /-- Names keep their variables. -/
  kept : ∀ name entry, state.free.find? (·.1 == name) = some entry →
    next.free.find? (·.1 == name) = some entry
  /-- Free variables stay. -/
  subset : state.free ⊆ next.free
  /-- Free variables are old, or they have new numbers. -/
  new : ∀ entry ∈ next.free, entry ∈ state.free ∨ state.next ≤ entry.2.id

/-- A state keeps what it has handed out. -/
theorem Grows.refl (state : Renaming) : state.Grows state :=
  ⟨le_rfl, fun _ _ => id, List.Subset.refl _, fun _ => .inl⟩

/-- What is kept from one state to the next and from there on is kept over both. -/
theorem Grows.trans (first : state.Grows next) (second : next.Grows last) : state.Grows last where
  le := first.le.trans second.le
  kept name entry found := second.kept name entry (first.kept name entry found)
  subset := List.Subset.trans first.subset second.subset
  new entry member := by
    rcases second.new entry member with old | late
    · exact first.new entry old
    · exact .inr (first.le.trans late)

/-- A name keeps the variable it stands for. -/
theorem Grows.lookup? (grows : state.Grows next) {name : String} {v : Variable}
    (found : lookup? scope state.free name = some v) :
    Renaming.lookup? scope next.free name = some v := by
  unfold Renaming.lookup? at found ⊢
  cases inScope : scope.find? (·.1 == name) with
  | some entry => simpa [inScope] using found
  | none =>
    simp only [inScope] at found ⊢
    obtain ⟨entry, known, rfl⟩ := Option.map_eq_some_iff.1 found
    exact Option.map_eq_some_iff.2 ⟨entry, grows.kept name entry known, rfl⟩

/-- A name stands for a variable of the scope or for a free one. -/
theorem mem_of_lookup? {free : List (String × Variable)} {name : String} {v : Variable}
    (found : lookup? scope free name = some v) :
    v ∈ scope.map (·.2) ∨ v ∈ free.map (·.2) := by
  unfold lookup? at found
  split at found
  · rename_i entry located
    exact .inl (List.mem_map.2 ⟨entry, List.mem_of_find?_eq_some located, Option.some.inj found⟩)
  · obtain ⟨entry, located, same⟩ := Option.map_eq_some_iff.1 found
    exact .inr (List.mem_map.2 ⟨entry, List.mem_of_find?_eq_some located, same⟩)

/-- An occurrence gets the variable that its name stands for from then on. -/
theorem lookup?_resolve (scope : List (String × Variable)) (state : Renaming) (name : String) :
    lookup? scope (resolve scope state name).2.free name = some (resolve scope state name).1 := by
  unfold resolve lookup?
  cases inScope : scope.find? (·.1 == name) with
  | some entry => rfl
  | none =>
    cases known : state.free.find? (·.1 == name) with
    | some entry => simp [known]
    | none => simp

/-- Resolving a name takes nothing back. -/
theorem grows_resolve (scope : List (String × Variable)) (state : Renaming) (name : String) :
    state.Grows (resolve scope state name).2 := by
  unfold resolve
  split
  · exact .refl state
  · exact .refl state
  · rename_i unknown
    refine ⟨Nat.le_succ _, fun other entry found => ?_, List.subset_cons_self _ _,
      fun entry member => ?_⟩
    · rw [List.find?_cons]
      split
      · -- The name is new, so no other entry can have been found under it.
        rename_i same
        obtain rfl : name = other := eq_of_beq same
        rw [found] at unknown
        cases unknown
      · exact found
    · rcases List.mem_cons.1 member with rfl | old
      · exact .inr le_rfl
      · exact .inl old

/-- Resolving a name hands out a lawful free variable if any. -/
theorem Lawful.resolve (lawful : state.Lawful) (scope : List (String × Variable)) (name : String) :
    (resolve scope state name).2.Lawful := by
  unfold Renaming.resolve
  split
  · exact lawful
  · exact lawful
  · refine ⟨List.forall_mem_cons.2 ⟨rfl, lawful.named⟩,
      List.forall_mem_cons.2 ⟨Nat.lt_succ_self _, fun entry member => ?_⟩,
      List.pairwise_cons.2 ⟨lawful.below, lawful.ordered⟩⟩
    exact Nat.lt_succ_of_lt (lawful.below entry member)

/-- Passing over numbers takes nothing back. -/
theorem grows_skip (state : Renaming) (count : Nat) :
    state.Grows { state with next := state.next + count } :=
  ⟨Nat.le_add_right _ _, fun _ _ => id, List.Subset.refl _, fun _ => .inl⟩

/-- Passing over numbers keeps the free variables lawful. -/
theorem Lawful.skip (lawful : state.Lawful) (count : Nat) :
    Lawful { state with next := state.next + count } :=
  ⟨lawful.named, fun entry member => Nat.lt_add_right count (lawful.below entry member),
    lawful.ordered⟩

/-- No variable is handed out twice. -/
theorem Lawful.eq_of_id_eq (lawful : state.Lawful) {first second : String × Variable}
    (inFirst : first ∈ state.free) (inSecond : second ∈ state.free)
    (same : first.2.id = second.2.id) : first = second := by
  by_contra different
  have symmetric : Std.Symm fun a b : String × Variable => a.2.id ≠ b.2.id := ⟨fun _ _ => Ne.symm⟩
  have distinct : state.free.Pairwise fun a b => a.2.id ≠ b.2.id :=
    lawful.ordered.imp fun less => less.ne'
  exact distinct.forall inFirst inSecond different same

/-! ### Numbered variables -/

/-- The variables of a quantifier get numbers from the start on, one for each. -/
theorem mem_number {universal : Bool} {start : Nat} {bound : List Variable} {v : Variable}
    (member : v ∈ number universal start bound) :
    v.system = true ∧ v.universal = universal ∧ start ≤ v.id ∧ v.id < start + bound.length := by
  induction bound generalizing start with
  | nil => cases member
  | cons w rest ih =>
    rcases List.mem_cons.1 member with rfl | later
    · simp [renamed]
    · obtain ⟨system, flag, low, high⟩ := ih later
      refine ⟨system, flag, by omega, ?_⟩
      simp only [List.length_cons]
      omega

/-- Numbered variables keep their names. -/
theorem map_name_number (universal : Bool) (start : Nat) (bound : List Variable) :
    (number universal start bound).map Variable.name = bound.map Variable.name := by
  induction bound generalizing start with
  | nil => rfl
  | cons v rest ih => simp [number, renamed, ih]

/-- No two variables of a quantifier get the same number. -/
theorem eq_of_mem_number {universal : Bool} {start : Nat} {bound : List Variable} {v w : Variable}
    (first : v ∈ number universal start bound) (second : w ∈ number universal start bound)
    (same : v.identity = w.identity) : v = w := by
  induction bound generalizing start with
  | nil => cases first
  | cons u rest ih =>
    have ids : v.id = w.id := congrArg Prod.fst same
    rcases List.mem_cons.1 first with rfl | inFirst <;>
      rcases List.mem_cons.1 second with rfl | inSecond
    · rfl
    · have := (mem_number inSecond).2.2.1
      simp only [renamed] at ids
      omega
    · have := (mem_number inFirst).2.2.1
      simp only [renamed] at ids
      omega
    · exact ih inFirst inSecond

/-- A free variable is handed out before a quantifier or after it, so it is none of its variables.
-/
theorem identity_ne_of_mem_number (lawful : state.Lawful) {universal : Bool} {bound : List Variable}
    (grows : Grows { state with next := state.next + bound.length } next) {entry : String × Variable}
    (listed : entry ∈ next.free) {v : Variable} (member : v ∈ number universal state.next bound) :
    entry.2.identity ≠ v.identity := by
  intro same
  have ids : entry.2.id = v.id := congrArg Prod.fst same
  obtain ⟨-, -, low, high⟩ := mem_number member
  rcases grows.new entry listed with old | new
  · have := lawful.below entry old
    omega
  · simp only at new
    omega

/-- The last variable with a name comes first in a scope. -/
theorem extend_eq (scope : List (String × Variable)) (bound : List Variable) :
    extend scope bound = (bound.map fun v => (v.name, v)).reverse ++ scope := by
  unfold extend
  induction bound generalizing scope with
  | nil => rfl
  | cons v rest ih => simp [ih]

/-- A name that is not found among the variables of a quantifier is none of their names. -/
theorem notMem_of_find?_eq_none {bound : List Variable} {name : String}
    (missed : (bound.map fun v => (v.name, v)).reverse.find? (·.1 == name) = none) :
    name ∉ bound.map Variable.name := by
  intro member
  obtain ⟨w, inside, rfl⟩ := List.mem_map.1 member
  have different := List.find?_eq_none.1 missed (w.name, w)
    (List.mem_reverse.2 (List.mem_map_of_mem inside))
  simp at different

/-- A name stands for a variable of the innermost quantifier, or for what it stood for outside. -/
theorem lookup?_extend {bound : List Variable} {free : List (String × Variable)} {name : String}
    {v : Variable} (found : lookup? (extend scope bound) free name = some v) :
    v ∈ bound ∧ v.name = name ∨
      name ∉ bound.map Variable.name ∧ lookup? scope free name = some v := by
  unfold lookup? at found ⊢
  rw [extend_eq, List.find?_append] at found
  cases inner : (bound.map fun v => (v.name, v)).reverse.find? (·.1 == name) with
  | some entry =>
    rw [inner] at found
    obtain rfl := Option.some.inj found
    obtain ⟨w, member, rfl⟩ := List.mem_map.1 (List.mem_reverse.1 (List.mem_of_find?_eq_some inner))
    have named := List.find?_some inner
    exact .inl ⟨member, eq_of_beq named⟩
  | none =>
    rw [inner] at found
    exact .inr ⟨notMem_of_find?_eq_none inner, found⟩

end Renaming

/-! ### Renamed expressions -/

namespace Expr

variable {scope : List (String × Variable)} {state : Renaming}

/-- What one renaming does to the state, arguments do one after the other. -/
theorem renameArgs_induction {P : Renaming → Renaming → Prop} (refl : ∀ state, P state state)
    (trans : ∀ {first second third}, P first second → P second third → P first third)
    (scope : List (String × Variable)) {args : List Expr}
    (each : ∀ arg ∈ args, ∀ state, P state (rename scope state arg).2) (state : Renaming) :
    P state (renameArgs scope state args).2 := by
  induction args generalizing state with
  | nil => exact refl state
  | cons a as ih =>
    rw [List.forall_mem_cons] at each
    exact trans (each.1 state) (ih each.2 _)

/-- What holds of the steps that hand out variables, and of what follows two such steps, holds of
the states before and after renaming. -/
theorem rename_induction {P : Renaming → Renaming → Prop} (refl : ∀ state, P state state)
    (trans : ∀ {first second third}, P first second → P second third → P first third)
    (resolve : ∀ scope state name, P state (Renaming.resolve scope state name).2)
    (skip : ∀ state count, P state { state with next := state.next + count })
    (scope : List (String × Variable)) (state : Renaming) (e : Expr) :
    P state (rename scope state e).2 := by
  induction e using Expr.induction generalizing scope state with
  | node head negated args ih =>
    have inArgs := fun scope =>
      renameArgs_induction refl trans scope fun arg member => ih arg member scope
    cases head with
    | var v => simpa [rename] using resolve scope state v.name
    | binder b => simpa [rename] using trans (skip state b.bound.length) (inArgs _ _)
    | _ => simpa [rename] using inArgs scope state

/-- Renaming takes back nothing that was handed out. -/
theorem grows_rename (scope : List (String × Variable)) (state : Renaming) (e : Expr) :
    state.Grows (rename scope state e).2 :=
  rename_induction .refl .trans Renaming.grows_resolve Renaming.grows_skip scope state e

/-- Renaming arguments takes back nothing that was handed out. -/
theorem grows_renameArgs (scope : List (String × Variable)) (state : Renaming) (args : List Expr) :
    state.Grows (renameArgs scope state args).2 :=
  renameArgs_induction .refl .trans scope (fun arg _ state => grows_rename scope state arg) state

/-- Renaming keeps the free variables lawful. -/
theorem lawful_rename (scope : List (String × Variable)) (e : Expr) (lawful : state.Lawful) :
    (rename scope state e).2.Lawful :=
  rename_induction (P := fun before after => before.Lawful → after.Lawful) (fun _ => id)
    (fun first second => second ∘ first) (fun scope _ name lawful => lawful.resolve scope name)
    (fun _ count lawful => lawful.skip count) scope state e lawful

/-- A free variable is old, or it was handed out for a name that is free in the expression and that
nothing in scope binds. -/
theorem mem_free_rename {entry : String × Variable} (scope : List (String × Variable))
    (state : Renaming) {e : Expr} (listed : entry ∈ (rename scope state e).2.free) :
    entry ∈ state.free ∨ entry.1 ∈ e.freeNames ∧ scope.find? (·.1 == entry.1) = none := by
  induction e using Expr.induction generalizing scope state with
  | node head negated args ih =>
    have inArgs : ∀ scope state, entry ∈ (renameArgs scope state args).2.free →
        entry ∈ state.free ∨
          entry.1 ∈ freeNamesArgs args ∧ scope.find? (·.1 == entry.1) = none := by
      clear listed
      induction args with
      | nil => exact fun _ _ => .inl
      | cons a as ihArgs =>
        intro scope state listed
        rw [freeNamesArgs, List.mem_append]
        rcases ihArgs (fun arg member => ih arg (List.mem_cons_of_mem a member)) scope _ listed
          with before | ⟨free, outside⟩
        · exact (ih a List.mem_cons_self scope state before).imp_right (.imp_left .inl)
        · exact .inr ⟨.inr free, outside⟩
    cases head with
    | binder b =>
      rcases inArgs _ _ listed with old | ⟨free, outside⟩
      · exact .inl old
      · rw [Renaming.extend_eq, List.find?_append, Option.or_eq_none_iff] at outside
        have unbound := Renaming.notMem_of_find?_eq_none outside.1
        rw [Renaming.map_name_number] at unbound
        exact .inr ⟨List.mem_filter.2 ⟨free, decide_eq_true unbound⟩, outside.2⟩
    | var v =>
      change entry ∈ (Renaming.resolve scope state v.name).2.free at listed
      unfold Renaming.resolve at listed
      split at listed
      · exact .inl listed
      · exact .inl listed
      · rename_i outside _
        rcases List.mem_cons.1 listed with rfl | old
        · exact .inr ⟨List.mem_cons_self, outside⟩
        · exact .inl old
    | _ => exact (inArgs scope state listed).imp_right (.imp_left (List.mem_append_right _))

/-- An atom is renamed by giving every name the variable that it stands for in the end. -/
theorem rename_atom {e : Expr} (isAtom : e.IsAtom) (skolemFree : e.SkolemFree)
    (scope : List (String × Variable)) (state : Renaming) {f : String → Variable}
    (agrees : ∀ name v, Renaming.lookup? scope (rename scope state e).2.free name = some v →
      f name = v) :
    (rename scope state e).1 = e.mapLeaves (fun v => .var (f v.name)) ∧
      e.Over fun v =>
        Renaming.lookup? scope (rename scope state e).2.free v.name = some (f v.name) := by
  induction e using Expr.induction generalizing state with
  | node head negated args ih =>
    obtain ⟨takes, atoms⟩ := everywhere_iff.1 isAtom
    obtain ⟨plain, plainInside⟩ := everywhere_iff.1 skolemFree
    have inArgs : ∀ state, (∀ name v,
        Renaming.lookup? scope (renameArgs scope state args).2.free name = some v → f name = v) →
        (renameArgs scope state args).1 = mapLeavesArgs (fun v => .var (f v.name)) args ∧
          ∀ arg ∈ args, arg.Over fun v =>
            Renaming.lookup? scope (renameArgs scope state args).2.free v.name =
              some (f v.name) := by
      clear takes isAtom agrees skolemFree plain
      induction args with
      | nil => exact fun _ _ => ⟨rfl, List.forall_mem_nil _⟩
      | cons a as ihArgs =>
        intro state agrees
        rw [List.forall_mem_cons] at atoms plainInside
        -- What a name stands for after the first argument it stands for in the end.
        have grows := grows_renameArgs scope (rename scope state a).2 as
        obtain ⟨first, occurring⟩ := ih a List.mem_cons_self atoms.1 plainInside.1 state
          fun name v found => agrees name v (grows.lookup? found)
        obtain ⟨others, overOthers⟩ := ihArgs (fun arg member =>
          ih arg (List.mem_cons_of_mem a member)) atoms.2 plainInside.2 (rename scope state a).2 agrees
        refine ⟨congrArg₂ List.cons first others, List.forall_mem_cons.2 ⟨?_, overOthers⟩⟩
        exact occurring.imp fun head count known v same => grows.lookup? (known v same)
    cases head with
    | var v =>
      obtain rfl : args = [] := List.length_eq_zero_iff.1 takes
      have found := Renaming.lookup?_resolve scope state v.name
      have same : f v.name = (Renaming.resolve scope state v.name).1 := agrees v.name _ found
      refine ⟨by simp [rename, mapLeaves, same], everywhere_iff.2 ⟨?_, List.forall_mem_nil _⟩⟩
      intro w occurs
      obtain rfl := List.mem_singleton.1 occurs
      exact same ▸ found
    | binder b => exact absurd takes id
    | skolem s => exact absurd rfl (plain s)
    | _ =>
      simp only [rename, mapLeaves] at agrees ⊢
      obtain ⟨same, occurring⟩ := inArgs state agrees
      exact ⟨by rw [same], everywhere_iff.2 ⟨List.forall_mem_nil _, occurring⟩⟩

/-! ### Formulas whose variables are apart -/

end Expr

/-- The number of the variable lies in a range, and it is none of the free variables. -/
structure Variable.Fresh (free : Set Variable) (low high : Nat) (v : Variable) : Prop where
  /-- The number is not below the range. -/
  low_le : low ≤ v.id
  /-- The number is not above the range. -/
  lt_high : v.id < high
  /-- No free variable is this one. -/
  new : ∀ w ∈ free, w.identity ≠ v.identity

/-- A variable that is fresh in a range is fresh in a wider one. -/
theorem Variable.Fresh.mono {free : Set Variable} {low high early late : Nat} {v : Variable}
    (fresh : v.Fresh free low high) (le : early ≤ low) (le' : high ≤ late) :
    v.Fresh free early late :=
  ⟨le.trans fresh.low_le, fresh.lt_high.trans_le le', fresh.new⟩

/-- Variables in scope and free variables are not fresh. -/
theorem Variable.not_fresh {free scope : Set Variable} {low high : Nat}
    (below : ∀ v ∈ scope, v.id < low) {v : Variable} (known : v ∈ scope ∨ v ∈ free) :
    ¬ v.Fresh free low high := by
  intro fresh
  rcases known with inScope | isFree
  · exact absurd fresh.low_le (not_le.2 (below v inScope))
  · exact fresh.new v isFree rfl

namespace Expr

/-- A normal formula in which every quantifier is of a permitted kind and has variables with numbers
of its own, and every other variable is free. The numbers lie in a range and grow from outer to
inner and from left to right. -/
inductive Apart (kinds : Set Quantifier) (free : Set Variable) :
    Set Variable → Nat → Nat → Expr → Prop
  /-- The variables of a literal belong to quantifiers around it or are free. -/
  | literal {scope : Set Variable} {low high : Nat} {e : Expr} (isAtom : e.IsAtom)
      (le : low ≤ high) (closed : e.Over fun v => v ∈ scope ∨ v ∈ free) :
      Apart kinds free scope low high e
  /-- The two sides of a junction share no numbers. -/
  | junction {scope : Set Variable} {low middle high : Nat} {operator : Operator} {a b : Expr}
      (either : operator = .and ∨ operator = .or) (left : Apart kinds free scope low middle a)
      (right : Apart kinds free scope middle high b) :
      Apart kinds free scope low high (binary operator a b)
  /-- A quantifier brings variables into scope and marks those that are universal. -/
  | quantified {scope : Set Variable} {low middle high : Nat} {binder : Binder} {body : Expr}
      (kind : binder.quantifier ∈ kinds) (le : low ≤ middle)
      (fresh : ∀ v ∈ binder.bound, v.Fresh free low middle)
      (marked : ∀ v ∈ binder.bound, v.universal = (binder.quantifier == .universal))
      (inner : Apart kinds free (scope ∪ {v | v ∈ binder.bound}) middle high body) :
      Apart kinds free scope low high (node (.binder binder) [body])

/-- The range of the numbers of a formula ends no earlier than it begins. -/
theorem Apart.le {kinds : Set Quantifier} {free scope : Set Variable} {low high : Nat} {e : Expr}
    (apart : Apart kinds free scope low high e) : low ≤ high := by
  induction apart with
  | literal _ le => exact le
  | junction _ _ _ left right => exact left.trans right
  | quantified _ le _ _ _ inner => exact le.trans inner

/-- Formulas whose variables are apart are normal. -/
theorem Apart.normal {kinds : Set Quantifier} {free scope : Set Variable} {low high : Nat} {e : Expr}
    (apart : Apart kinds free scope low high e) : e.Normal := by
  induction apart with
  | literal isAtom => exact .literal isAtom
  | junction either _ _ left right => exact .junction either left right
  | quantified _ _ _ _ _ inner => exact .quantified inner

/-- The range of numbers may begin earlier. -/
theorem Apart.mono {kinds : Set Quantifier} {free scope : Set Variable} {low early high : Nat}
    {e : Expr} (apart : Apart kinds free scope low high e) (le : early ≤ low) :
    Apart kinds free scope early high e := by
  induction apart with
  | literal isAtom ordered closed => exact .literal isAtom (le.trans ordered) closed
  | junction either _ right left _ => exact .junction either (left le) right
  | quantified kind ordered fresh marked inner _ =>
    exact .quantified kind (le.trans ordered) (fun v member => (fresh v member).mono le le_rfl) marked
      inner

/-- The operands of a binary operation are renamed from left to right. -/
theorem rename_binary (operator : Operator) (a b : Expr) :
    rename scope state (binary operator a b) =
      (binary operator (rename scope state a).1 (rename scope (rename scope state a).2 b).1,
        (rename scope (rename scope state a).2 b).2) := by
  simp [binary, node, rename, renameArgs]

/-- The variables of a quantifier are numbered before its body is renamed. -/
theorem rename_quantified (quantifier : Quantifier) (bound : List Variable) (body : Expr) :
    rename scope state (node (.binder ⟨quantifier, bound⟩) [body]) =
      let renamed := Renaming.number (quantifier == .universal) state.next bound
      let inner := rename (Renaming.extend scope renamed)
        { state with next := state.next + bound.length } body
      (node (.binder ⟨quantifier, renamed⟩) [inner.1], inner.2) := by
  simp [node, rename, renameArgs]

/-- A renamed atom is an atom whose variables are in scope or free. -/
theorem over_rename_atom {e : Expr} (isAtom : e.IsAtom) (skolemFree : e.SkolemFree)
    (scope : List (String × Variable)) (state : Renaming) :
    (rename scope state e).1.IsAtom ∧ (rename scope state e).1.SkolemFree ∧
      (rename scope state e).1.Over fun v =>
        v ∈ scope.map (·.2) ∨ v ∈ (rename scope state e).2.free.map (·.2) := by
  obtain ⟨same, occurring⟩ := rename_atom isAtom skolemFree scope state
    (f := fun name => (Renaming.lookup? scope (rename scope state e).2.free name).getD
      (Renaming.renamed name 0 false)) (by intro name v found; rw [found]; rfl)
  rw [same]
  refine ⟨?_, ?_, ?_⟩
  · exact everywhere_mapLeaves isAtom (isAtom.imp fun _ _ takes _ => takes)
      (occurring.imp fun _ _ _ _ _ => rfl)
  · exact everywhere_mapLeaves isAtom (skolemFree.imp fun _ _ plain _ => plain)
      (occurring.imp fun _ _ _ _ _ => nofun)
  · refine everywhere_mapLeaves isAtom (skolemFree.imp fun head _ plain other v occurs => ?_)
      (occurring.imp fun _ _ found v occurs w named => ?_)
    · rw [Symbol.mentions_eq_nil other plain] at occurs
      cases occurs
    · rw [List.mem_singleton.1 named]
      exact Renaming.mem_of_lookup? (found v occurs)

/-- Renaming brings in no Skolem functions. -/
theorem SkolemFree.rename {e : Expr} (skolemFree : e.SkolemFree) (normal : e.Normal)
    (scope : List (String × Variable)) (state : Renaming) :
    (rename scope state e).1.SkolemFree := by
  induction normal generalizing scope state with
  | literal isAtom => exact (over_rename_atom isAtom skolemFree scope state).2.1
  | junction either _ _ left right =>
    obtain ⟨-, inside⟩ := everywhere_iff.1 skolemFree
    obtain ⟨first, second⟩ := List.forall_mem_cons.1 inside
    rw [rename_binary]
    exact everywhere_iff.2 ⟨nofun, List.forall_mem_cons.2 ⟨left first _ _,
      List.forall_mem_singleton.2 (right (List.forall_mem_singleton.1 second) _ _)⟩⟩
  | @quantified binder body _ inner =>
    obtain ⟨-, inside⟩ := everywhere_iff.1 skolemFree
    obtain ⟨quantifier, bound⟩ := binder
    rw [rename_quantified]
    exact everywhere_iff.2 ⟨nofun, List.forall_mem_singleton.2
      (inner (List.forall_mem_singleton.1 inside) _ _)⟩

/-- Renaming leaves a formula whose variables are apart. The free variables may be more than those
handed out so far, if later ones have later numbers. -/
theorem apart_rename {e : Expr} (normal : e.Normal) (skolemFree : e.SkolemFree)
    (scope : List (String × Variable)) (lawful : state.Lawful) {free : Set Variable}
    (known : ∀ entry ∈ (rename scope state e).2.free, entry.2 ∈ free)
    (later : ∀ v ∈ free, v ∈ (rename scope state e).2.free.map (·.2) ∨
      (rename scope state e).2.next ≤ v.id) :
    Apart Set.univ free {v | v ∈ scope.map (·.2)} state.next (rename scope state e).2.next
      (rename scope state e).1 := by
  induction normal generalizing scope state with
  | @literal e isAtom =>
    obtain ⟨atom, -, occurring⟩ := over_rename_atom isAtom skolemFree scope state
    refine .literal atom (grows_rename scope state e).le (occurring.imp fun _ _ closed v occurs => ?_)
    rcases closed v occurs with inScope | inFree
    · exact .inl inScope
    · obtain ⟨entry, member, rfl⟩ := List.mem_map.1 inFree
      exact .inr (known entry member)
  | @junction operator a b either _ _ left right =>
    obtain ⟨-, inside⟩ := everywhere_iff.1 skolemFree
    rw [rename_binary] at known later ⊢
    have grows := grows_rename scope (rename scope state a).2 b
    refine .junction either (left (inside a (by simp [binary, node])) scope lawful ?_ ?_)
      (right (inside b (by simp [binary, node])) scope (lawful_rename scope a lawful) known later)
    · exact fun entry member => known entry (grows.subset member)
    · -- What the right side hands out comes later than everything on the left.
      intro v member
      rcases later v member with handed | after
      · obtain ⟨entry, listed, rfl⟩ := List.mem_map.1 handed
        exact (grows.new entry listed).imp_left List.mem_map_of_mem
      · exact .inr (grows.le.trans after)
  | @quantified binder body _ inner =>
    obtain ⟨quantifier, bound⟩ := binder
    obtain ⟨-, inside⟩ := everywhere_iff.1 skolemFree
    rw [rename_quantified] at known later ⊢
    dsimp only at known later ⊢
    have grows := grows_rename (Renaming.extend scope
      (Renaming.number (quantifier == .universal) state.next bound))
      { state with next := state.next + bound.length } body
    have apart := inner (inside body (by simp [node])) _ (lawful.skip bound.length) known later
    refine .quantified trivial (Nat.le_add_right state.next bound.length) (fun v member => ?_)
      (fun v member => (Renaming.mem_number member).2.1) ?_
    · obtain ⟨-, -, low, high⟩ := Renaming.mem_number member
      refine ⟨low, high, fun w free same => ?_⟩
      rcases later w free with handed | after
      · obtain ⟨entry, listed, rfl⟩ := List.mem_map.1 handed
        exact Renaming.identity_ne_of_mem_number lawful grows listed member same
      · have ids : w.id = v.id := congrArg Prod.fst same
        have := grows.le
        simp only at this
        omega
    · convert apart using 1
      ext v
      simp [Renaming.extend_eq, or_comm]

end Expr

/-! ### Truth -/

namespace Renaming

variable {D : Type u} {scope free : List (String × Variable)} {env : String → D} {β : Assignment D}
variable {bound : List Variable}

/-- Names have the values of the variables that they stand for. -/
def Agrees (scope free : List (String × Variable)) (env : String → D) (β : Assignment D) : Prop :=
  ∀ name v, lookup? scope free name = some v → env name = β.get v

/-- Names and variables agree inside a quantifier if they agree on the values it gives. -/
theorem Agrees.extend (agrees : Agrees scope free env β)
    (apart : ∀ name v, lookup? scope free name = some v → ∀ w ∈ bound, w.identity ≠ v.identity)
    {names : String → D} {values : Nat × Bool → D}
    (same : ∀ v ∈ bound, lookup? (extend scope bound) free v.name = some v →
      names v.name = values v.identity) :
    Agrees (Renaming.extend scope bound) free (override env (bound.map Variable.name) names)
      (override β (bound.map Variable.identity) values) := by
  intro name v found
  rcases lookup?_extend found with ⟨member, rfl⟩ | ⟨other, outside⟩
  · have named : v.name ∈ bound.map Variable.name := List.mem_map_of_mem member
    have identified : v.identity ∈ bound.map Variable.identity := List.mem_map_of_mem member
    simp only [override, Assignment.get, if_pos named, if_pos identified]
    exact same v member found
  · have absent : v.identity ∉ bound.map Variable.identity := by
      intro present
      obtain ⟨w, member, equal⟩ := List.mem_map.1 present
      exact apart name v outside w member equal
    simp only [override, Assignment.get, if_neg other, if_neg absent]
    exact agrees name v outside

/-- Whatever values a quantifier gives to names, it can give to variables. -/
theorem Agrees.exists_values (agrees : Agrees scope free env β)
    (apart : ∀ name v, lookup? scope free name = some v → ∀ w ∈ bound, w.identity ≠ v.identity)
    (distinct : ∀ v ∈ bound, ∀ w ∈ bound, v.identity = w.identity → v = w) (names : String → D) :
    ∃ values, Agrees (Renaming.extend scope bound) free
      (override env (bound.map Variable.name) names)
      (override β (bound.map Variable.identity) values) := by
  refine ⟨fun identity => match bound.find? (·.identity == identity) with
    | some v => names v.name
    | none => β identity, agrees.extend apart fun v member _ => ?_⟩
  cases located : bound.find? (·.identity == v.identity) with
  | some w =>
    have same := List.find?_some located
    obtain rfl := distinct w (List.mem_of_find?_eq_some located) v member (eq_of_beq same)
    rfl
  | none =>
    have missed := List.find?_eq_none.1 located v member
    simp at missed

/-- Whatever values a quantifier gives to variables, it can give to names. -/
theorem Agrees.exists_names (agrees : Agrees scope free env β)
    (apart : ∀ name v, lookup? scope free name = some v → ∀ w ∈ bound, w.identity ≠ v.identity)
    (values : Nat × Bool → D) :
    ∃ names, Agrees (Renaming.extend scope bound) free
      (override env (bound.map Variable.name) names)
      (override β (bound.map Variable.identity) values) :=
  ⟨fun name => match lookup? (Renaming.extend scope bound) free name with
    | some v => values v.identity
    | none => env name, agrees.extend apart fun v _ found => by simp only [found]⟩

end Renaming

namespace Structure

variable {D : Type u} (M : Structure D)

open Renaming in
/-- Renaming keeps the truth of a formula. -/
theorem truth_rename {e : Expr} (normal : e.Normal) (skolemFree : e.SkolemFree)
    (scope : List (String × Variable)) {state : Renaming} (lawful : state.Lawful)
    (inScope : ∀ entry ∈ scope, entry.2.id < state.next) {env : String → D} {β : Assignment D}
    (agrees : Agrees scope (e.rename scope state).2.free env β) :
    M.Truth Variable.name env e ↔ M.Truth Variable.identity β (e.rename scope state).1 := by
  induction normal generalizing scope state env β with
  | @literal e isAtom =>
    obtain ⟨same, occurring⟩ := Expr.rename_atom isAtom skolemFree scope state
      (f := fun name => (lookup? scope (e.rename scope state).2.free name).getD
        (renamed name 0 false)) (by intro name v found; rw [found]; rfl)
    obtain ⟨atom, -, -⟩ := Expr.over_rename_atom isAtom skolemFree scope state
    rw [M.truth_atom _ isAtom, M.truth_atom _ atom, same]
    rw [M.value_mapLeaves isAtom skolemFree (occurring.imp fun _ _ found v occurs => ?_)]
    exact (agrees v.name _ (found v occurs)).symm
  | @junction operator a b either _ _ left right =>
    obtain ⟨-, inside⟩ := Expr.everywhere_iff.1 skolemFree
    rw [Expr.rename_binary] at agrees ⊢
    have grows := Expr.grows_rename scope (a.rename scope state).2 b
    have first := left (inside a (by simp [Expr.binary, Expr.node])) scope lawful inScope
      fun name v found => agrees name v (grows.lookup? found)
    have second := right (inside b (by simp [Expr.binary, Expr.node])) scope
      (Expr.lawful_rename scope a lawful)
      (fun entry member => (inScope entry member).trans_le (Expr.grows_rename scope state a).le)
      agrees
    rcases either with rfl | rfl
    · rw [truth_and, truth_and, first, second]
    · rw [truth_or, truth_or, first, second]
  | @quantified binder body _ inner =>
    obtain ⟨quantifier, bound⟩ := binder
    obtain ⟨-, inside⟩ := Expr.everywhere_iff.1 skolemFree
    rw [Expr.rename_quantified] at agrees ⊢
    dsimp only at agrees ⊢
    set bound' := number (quantifier == .universal) state.next bound with numbered
    have names : bound.map Variable.name = bound'.map Variable.name := (map_name_number ..).symm
    have grows := Expr.grows_rename (extend scope bound')
      { state with next := state.next + bound.length } body
    set renamed' := body.rename (extend scope bound') { state with next := state.next + bound.length }
    -- No name around the quantifier stands for one of its variables.
    have apart : ∀ name v, lookup? scope renamed'.2.free name = some v →
        ∀ w ∈ bound', w.identity ≠ v.identity := by
      intro name v found w member same
      rcases mem_of_lookup? found with outer | handed
      · obtain ⟨entry, listed, rfl⟩ := List.mem_map.1 outer
        have ids : w.id = entry.2.id := congrArg Prod.fst same
        have := inScope entry listed
        have := (mem_number member).2.2.1
        omega
      · obtain ⟨entry, listed, rfl⟩ := List.mem_map.1 handed
        exact identity_ne_of_mem_number lawful grows listed member same.symm
    have below : ∀ entry ∈ extend scope bound', entry.2.id < state.next + bound.length := by
      intro entry member
      rw [extend_eq, List.mem_append, List.mem_reverse, List.mem_map] at member
      rcases member with ⟨v, listed, rfl⟩ | outer
      · exact (mem_number listed).2.2.2
      · exact Nat.lt_add_right _ (inScope entry outer)
    have body' : ∀ {env : String → D} {β : Assignment D},
        Agrees (extend scope bound') renamed'.2.free env β →
        (M.Truth Variable.name env body ↔ M.Truth Variable.identity β renamed'.1) :=
      inner (inside body (by simp [Expr.node])) _ (lawful.skip bound.length) below
    have toNames := agrees.exists_names apart
    have toValues := agrees.exists_values apart fun v first w second same =>
      eq_of_mem_number first second same
    cases quantifier with
    | universal =>
      rw [truth_universal, truth_universal, names]
      constructor
      · intro all values
        obtain ⟨given, agree⟩ := toNames values
        exact (body' agree).1 (all given)
      · intro all given
        obtain ⟨values, agree⟩ := toValues given
        exact (body' agree).2 (all values)
    | existential =>
      rw [truth_existential, truth_existential, names]
      constructor
      · rintro ⟨given, true⟩
        obtain ⟨values, agree⟩ := toValues given
        exact ⟨values, (body' agree).1 true⟩
      · rintro ⟨values, true⟩
        obtain ⟨given, agree⟩ := toNames values
        exact ⟨given, (body' agree).2 true⟩

end Structure

end Refute
