import Refute.Normal.Negation
import Refute.Proofs.Structure

/-!
# Formulas

An atom is a symbol other than a connective or quantifier, applied to as many atoms as it takes; a
formula is made of atoms by connectives of two operands and quantifiers of one body, each of which
may be negated. In a formula two sides may be said to differ, and a Skolem function stands alone;
the literals of clauses say so with a negated equation, and apply a Skolem function to the variables
it was made under. `Expr.literal` turns an atom of the one kind into one of the other.

`Structure.Truth` reads formulas by a key of variables: an occurrence of a variable has the value
that the innermost quantifier around it gives to its key. Statements are read by name, and formulas
whose variables have been renamed apart by identity.

Negation normal form keeps the truth of a formula and leaves conjunctions, disjunctions, quantifiers
and literals.
-/

namespace Refute

universe u

/-! ### Atoms and formulas -/

/-- The symbol may head an atom with this many arguments. -/
def Symbol.Takes : Symbol → Nat → Prop
  | .var _, count => count = 0
  | .const _, count => count = 0
  | .skolem _, count => count = 0
  | .fn f, count => count = f.arity
  | .rel r, count => count = r.arity
  | .op .equals, count => count = 2
  | .op .notEquals, count => count = 2
  | _, _ => False

/-- The variables that a symbol brings into a formula: a variable itself, or those that a Skolem
function was made under. -/
def Symbol.mentions : Symbol → List Variable
  | .var v => [v]
  | .skolem s => s.arguments
  | _ => []

/-- Only variables and Skolem functions bring in variables. -/
theorem Symbol.mentions_eq_nil {head : Symbol} (notVariable : ∀ v, head ≠ .var v)
    (notSkolem : ∀ s, head ≠ .skolem s) : head.mentions = [] := by
  cases head with
  | var v => exact absurd rfl (notVariable v)
  | skolem s => exact absurd rfl (notSkolem s)
  | _ => rfl

namespace Expr

/-- All variables that occur have a property. -/
def Over (p : Variable → Prop) (e : Expr) : Prop :=
  e.Everywhere fun head _ => ∀ v ∈ head.mentions, p v

/-- What all variables that occur have, those at the leaves have. -/
theorem Over.leaves {p : Variable → Prop} {e : Expr} (occurring : e.Over p) :
    e.Everywhere fun head _ => ∀ v, head = .var v → p v :=
  occurring.imp fun _ _ known v same => known v (same ▸ List.mem_singleton_self v)

/-- Neither connectives nor quantifiers occur, and every symbol has the arguments it takes. -/
def IsAtom (e : Expr) : Prop := e.Everywhere Symbol.Takes

/-- What statements are read as. -/
inductive Formula : Expr → Prop
  /-- An atom, perhaps negated. -/
  | atom {e : Expr} (isAtom : e.IsAtom) : Formula e
  /-- Two formulas joined by a connective. -/
  | connective {operator : Operator} {negated : Bool} {a b : Expr} (joins : operator.isConnective)
      (left : Formula a) (right : Formula b) : Formula ⟨.op operator, negated, [a, b]⟩
  /-- A formula under a quantifier. -/
  | quantified {binder : Binder} {negated : Bool} {body : Expr} (inner : Formula body) :
      Formula ⟨.binder binder, negated, [body]⟩

/-- What negation normal form leaves of formulas. -/
inductive Normal : Expr → Prop
  /-- A literal. -/
  | literal {e : Expr} (isAtom : e.IsAtom) : Normal e
  /-- A conjunction or disjunction. -/
  | junction {operator : Operator} {a b : Expr} (either : operator = .and ∨ operator = .or)
      (left : Normal a) (right : Normal b) : Normal (binary operator a b)
  /-- A formula under a quantifier. -/
  | quantified {binder : Binder} {body : Expr} (inner : Normal body) :
      Normal (node (.binder binder) [body])

mutual

/-- The literal of a clause that an atom stands for. -/
def literal : Expr → Expr
  | ⟨.op .notEquals, negated, args⟩ => ⟨.op .equals, !negated, literals args⟩
  | ⟨.skolem s, negated, _⟩ => ⟨.skolem s, negated, s.arguments.map ofVariable⟩
  | ⟨head, negated, args⟩ => ⟨head, negated, literals args⟩

/-- The arguments of a literal. -/
def literals : List Expr → List Expr
  | [] => []
  | a :: as => literal a :: literals as

end

mutual

/-- The names that no quantifier around them binds. -/
def freeNames : Expr → List String
  | ⟨.binder b, _, args⟩ =>
    (freeNamesArgs args).filter fun name => name ∉ b.bound.map Variable.name
  | ⟨head, _, args⟩ => head.mentions.map Variable.name ++ freeNamesArgs args

/-- The names that are free in one of several operands. -/
def freeNamesArgs : List Expr → List String
  | [] => []
  | a :: as => freeNames a ++ freeNamesArgs as

end

/-- A name is free in operands exactly if it is free in one of them. -/
theorem mem_freeNamesArgs_iff {name : String} {args : List Expr} :
    name ∈ freeNamesArgs args ↔ ∃ arg ∈ args, name ∈ freeNames arg := by
  induction args with
  | nil => simp [freeNamesArgs]
  | cons a as ih => simp [freeNamesArgs, ih]

/-- The arguments of a literal are turned into literals one by one. -/
theorem literals_eq_map (args : List Expr) : literals args = args.map literal := by
  induction args with
  | nil => rfl
  | cons a as ih => simp [literals, ih]

mutual

/-- Replaces every variable by a symbol. -/
def mapLeaves (f : Variable → Symbol) : Expr → Expr
  | ⟨.var v, negated, args⟩ => ⟨f v, negated, args⟩
  | ⟨head, negated, args⟩ => ⟨head, negated, mapLeavesArgs f args⟩

/-- Replaces every variable in a list of arguments. -/
def mapLeavesArgs (f : Variable → Symbol) : List Expr → List Expr
  | [] => []
  | a :: as => mapLeaves f a :: mapLeavesArgs f as

end

/-- Variables are replaced in each argument. -/
theorem mapLeavesArgs_eq_map (f : Variable → Symbol) (args : List Expr) :
    mapLeavesArgs f args = args.map (mapLeaves f) := by
  induction args with
  | nil => rfl
  | cons a as ih => simp [mapLeavesArgs, ih]

/-- What holds of the symbols that stay and of those that take the place of variables holds
everywhere. -/
theorem everywhere_mapLeaves {p : Symbol → Nat → Prop} {f : Variable → Symbol} {e : Expr}
    (isAtom : e.IsAtom)
    (stay : e.Everywhere fun head count => (∀ v, head ≠ .var v) → p head count)
    (leaves : e.Over fun v => p (f v) 0) : (e.mapLeaves f).Everywhere p := by
  induction e using Expr.induction with
  | node head negated args ih =>
    obtain ⟨takes, atoms⟩ := everywhere_iff.1 isAtom
    obtain ⟨root, inside⟩ := everywhere_iff.1 stay
    obtain ⟨atRoot, atInside⟩ := everywhere_iff.1 leaves
    have arguments : ∀ arg ∈ mapLeavesArgs f args, arg.Everywhere p := by
      rw [mapLeavesArgs_eq_map]
      intro arg member
      obtain ⟨original, listed, rfl⟩ := List.mem_map.1 member
      exact ih original listed (atoms original listed) (inside original listed)
        (atInside original listed)
    have same : (mapLeavesArgs f args).length = args.length := by simp [mapLeavesArgs_eq_map]
    cases head with
    | var v =>
      obtain rfl : args = [] := List.length_eq_zero_iff.1 takes
      exact everywhere_iff.2 ⟨atRoot v (List.mem_singleton_self v), nofun⟩
    | _ => exact everywhere_iff.2 ⟨same ▸ root nofun, arguments⟩

/-- What holds of all symbols of an atom, whichever the comparison and however Skolem functions are
applied, holds of those of its literal. -/
theorem everywhere_literal {p : Symbol → Nat → Prop} {e : Expr}
    (sides : ∀ count, p (.op .notEquals) count → p (.op .equals) count)
    (skolems : ∀ s count, p (.skolem s) count →
      p (.skolem s) s.arguments.length ∧ ∀ v ∈ s.arguments, p (.var v) 0)
    (holds : e.Everywhere p) : e.literal.Everywhere p := by
  induction e using Expr.induction with
  | node head negated args ih =>
    obtain ⟨root, inside⟩ := everywhere_iff.1 holds
    have arguments : ∀ arg ∈ literals args, arg.Everywhere p := by
      rw [literals_eq_map]
      intro arg member
      obtain ⟨original, listed, rfl⟩ := List.mem_map.1 member
      exact ih original listed (inside original listed)
    have same : (literals args).length = args.length := by simp [literals_eq_map]
    cases head with
    | op operator =>
      cases operator with
      | notEquals => exact everywhere_iff.2 ⟨same ▸ sides _ root, arguments⟩
      | _ => exact everywhere_iff.2 ⟨same ▸ root, arguments⟩
    | skolem s =>
      obtain ⟨applied, bare⟩ := skolems s _ root
      refine everywhere_iff.2 ⟨by simpa [literal] using applied, fun arg member => ?_⟩
      obtain ⟨v, listed, rfl⟩ := List.mem_map.1 member
      exact everywhere_iff.2 ⟨bare v listed, nofun⟩
    | _ => exact everywhere_iff.2 ⟨same ▸ root, arguments⟩

/-- A literal of a clause has no other variables than the atom it stands for. -/
theorem Over.literal {p : Variable → Prop} {e : Expr} (occurring : e.Over p) : e.literal.Over p :=
  everywhere_literal (fun _ _ => nofun) (fun _ _ listed => ⟨listed, fun v member w same => by
    rw [List.mem_singleton.1 same]; exact listed v member⟩) occurring

/-- A negated atom stands for the negated literal. -/
theorem literal_flip (e : Expr) (flip : Bool) :
    literal { e with negated := e.negated != flip } =
      { e.literal with negated := e.literal.negated != flip } := by
  obtain ⟨head, negated, args⟩ := e
  cases head with
  | op operator => cases operator <;> cases negated <;> cases flip <;> simp [literal]
  | _ => simp [literal]

end Expr

/-! ### Truth -/

/-- The proposition or, under negation, its contrary. -/
def Signed (negated : Bool) (p : Prop) : Prop := if negated then ¬ p else p

/-- Without negation a proposition stays what it is. -/
@[simp] theorem signed_false_iff (p : Prop) : Signed false p ↔ p := Iff.rfl

/-- Under negation a proposition is its contrary. -/
@[simp] theorem signed_true_iff (p : Prop) : Signed true p ↔ ¬ p := Iff.rfl

/-- Two negations cancel. -/
theorem signed_signed_iff (n m : Bool) (p : Prop) : Signed n (Signed m p) ↔ Signed (m != n) p := by
  cases n <;> cases m <;> simp

/-- The environment in which some keys have new values. -/
def override {K : Type} [DecidableEq K] {D : Type u} (env : K → D) (keys : List K) (values : K → D) :
    K → D :=
  fun key => if key ∈ keys then values key else env key

namespace Structure

variable {K : Type} [DecidableEq K] {D : Type u} (M : Structure D) (key : Variable → K)

/-- The formula is true when the keys of variables have values. -/
def Truth (env : K → D) : Expr → Prop
  | ⟨.op .and, negated, [a, b]⟩ => Signed negated (Truth env a ∧ Truth env b)
  | ⟨.op .or, negated, [a, b]⟩ => Signed negated (Truth env a ∨ Truth env b)
  | ⟨.op .implication, negated, [a, b]⟩ => Signed negated (Truth env a → Truth env b)
  | ⟨.op .biconditional, negated, [a, b]⟩ => Signed negated (Truth env a ↔ Truth env b)
  | ⟨.binder ⟨.universal, bound⟩, negated, [body]⟩ =>
    Signed negated (∀ values, Truth (override env (bound.map key) values) body)
  | ⟨.binder ⟨.existential, bound⟩, negated, [body]⟩ =>
    Signed negated (∃ values, Truth (override env (bound.map key) values) body)
  | e => M.holds (M.value (fun v => env (key v)) e.literal)

/-- A conjunction is true if both operands are. -/
@[simp] theorem truth_and (env : K → D) (a b : Expr) :
    M.Truth key env (.binary .and a b) ↔ M.Truth key env a ∧ M.Truth key env b := by
  simp [Expr.binary, Expr.node, Truth]

/-- A disjunction is true if one of its operands is. -/
@[simp] theorem truth_or (env : K → D) (a b : Expr) :
    M.Truth key env (.binary .or a b) ↔ M.Truth key env a ∨ M.Truth key env b := by
  simp [Expr.binary, Expr.node, Truth]

/-- A universal formula is true if its body is for all values. -/
@[simp] theorem truth_universal (env : K → D) (bound : List Variable) (body : Expr) :
    M.Truth key env (.node (.binder ⟨.universal, bound⟩) [body]) ↔
      ∀ values, M.Truth key (override env (bound.map key) values) body := by
  simp [Expr.node, Truth]

/-- An existential formula is true if its body is for some values. -/
@[simp] theorem truth_existential (env : K → D) (bound : List Variable) (body : Expr) :
    M.Truth key env (.node (.binder ⟨.existential, bound⟩) [body]) ↔
      ∃ values, M.Truth key (override env (bound.map key) values) body := by
  simp [Expr.node, Truth]

/-- An atom is true when the value of its literal is. -/
theorem truth_atom {env : K → D} {e : Expr} (isAtom : e.IsAtom) :
    M.Truth key env e ↔ M.holds (M.value (fun v => env (key v)) e.literal) := by
  obtain ⟨root, -⟩ := Expr.everywhere_iff.1 isAtom
  obtain ⟨head, negated, args⟩ := e
  cases head with
  | op operator => cases operator <;> first | exact absurd root id | (unfold Truth; rfl)
  | binder b => exact absurd root id
  | _ => unfold Truth; rfl

/-- A variable has its own value as a literal. -/
theorem value_literal_var (σ : Variable → D) (v : Variable) :
    M.value σ (Expr.leaf (.var v)).literal = σ v := by
  simp [Expr.leaf, Expr.literal, value_eq, atomValue, headValue]

/-- A Skolem function that stands alone has the value of its application to the variables it was
made under. -/
theorem value_literal_skolem (σ : Variable → D) (s : Skolem) :
    M.value σ (Expr.leaf (.skolem s)).literal = M.operation (.skolem s) (s.arguments.map σ) := by
  simp [Expr.leaf, Expr.literal, Expr.ofVariable, value_eq, atomValue, headValue, Function.comp_def]

/-- Replacing variables by symbols gives an atom the value it has when the variables have the values
of the symbols. -/
theorem value_mapLeaves {σ τ : Variable → D} {f : Variable → Symbol} {e : Expr} (isAtom : e.IsAtom)
    (skolemFree : e.SkolemFree)
    (leaves : e.Over fun v => M.value σ (Expr.leaf (f v)).literal = τ v) :
    M.value σ (e.mapLeaves f).literal = M.value τ e.literal := by
  induction e using Expr.induction with
  | node head negated args ih =>
    obtain ⟨takes, atoms⟩ := Expr.everywhere_iff.1 isAtom
    obtain ⟨plain, plainInside⟩ := Expr.everywhere_iff.1 skolemFree
    obtain ⟨root, inside⟩ := Expr.everywhere_iff.1 leaves
    have arguments : (Expr.literals (Expr.mapLeavesArgs f args)).map (M.value σ) =
        (Expr.literals args).map (M.value τ) := by
      rw [Expr.literals_eq_map, Expr.literals_eq_map, Expr.mapLeavesArgs_eq_map, List.map_map,
        List.map_map, List.map_map]
      exact List.map_congr_left fun arg member =>
        ih arg member (atoms arg member) (plainInside arg member) (inside arg member)
    cases head with
    | var v =>
      obtain rfl : args = [] := List.length_eq_zero_iff.1 takes
      have replaced : Expr.mapLeaves f ⟨.var v, negated, []⟩ =
          { Expr.leaf (f v) with negated := (Expr.leaf (f v)).negated != negated } := by
        simp [Expr.mapLeaves, Expr.leaf]
      rw [replaced, Expr.literal_flip, M.value_flip, root v (List.mem_singleton_self v)]
      simp [Expr.literal, value_eq, atomValue, headValue]
    | skolem s => exact absurd rfl (plain s)
    | op operator =>
      cases operator <;>
        simp [Expr.mapLeaves, Expr.literal, value_eq, atomValue, headValue, arguments]
    | _ => simp [Expr.mapLeaves, Expr.literal, value_eq, atomValue, headValue, arguments]

end Structure

/-! ### Negation normal form -/

namespace Expr

/-- The negation normal form of an atom has the sign turned around if `flip` is set, and `!=`
becomes a negated `==`. -/
theorem nnf_atom_cases {e : Expr} (isAtom : e.IsAtom) (flip : Bool) :
    (∃ negated args, e = ⟨.op .notEquals, negated, args⟩ ∧
        nnf flip e = ⟨.op .equals, !(negated != flip), args⟩) ∨
      nnf flip e = { e with negated := e.negated != flip } := by
  obtain ⟨root, -⟩ := everywhere_iff.1 isAtom
  obtain ⟨head, negated, args⟩ := e
  cases head with
  | op operator =>
    cases operator with
    | equals => exact .inr (by unfold nnf; rfl)
    | notEquals => exact .inl ⟨negated, args, rfl, by unfold nnf; rfl⟩
    | _ => exact absurd root id
  | binder b => exact absurd root id
  | _ => exact .inr (by unfold nnf; rfl)

/-- The negation normal form of an atom is an atom. -/
theorem IsAtom.nnf {e : Expr} (isAtom : e.IsAtom) (flip : Bool) : (e.nnf flip).IsAtom := by
  obtain ⟨negated, args, rfl, same⟩ | same := nnf_atom_cases isAtom flip
  · rw [same]
    exact everywhere_iff.2 (everywhere_iff.1 isAtom)
  · rw [same]
    exact (everywhere_signed _).2 isAtom

/-- The negation normal form of an atom stands for the same literal, up to `flip`. -/
theorem IsAtom.literal_nnf {e : Expr} (isAtom : e.IsAtom) (flip : Bool) :
    (e.nnf flip).literal = { e.literal with negated := e.literal.negated != flip } := by
  obtain ⟨negated, args, rfl, same⟩ | same := nnf_atom_cases isAtom flip
  · rw [same]
    cases negated <;> cases flip <;> simp [literal]
  · rw [same, literal_flip]

/-- What relates an atom to its negation normal form, and passes to conjunctions and disjunctions of
normal forms of operands and to quantified normal forms, relates every formula to its negation
normal form. -/
theorem Formula.nnf_induction {Q : Expr → Expr → Prop}
    (atom : ∀ {e} flip, e.IsAtom → Q e (nnf flip e))
    (operand : ∀ {operator negated args part result}, part ∈ args → Q part result →
      Q ⟨.op operator, negated, args⟩ result)
    (junction : ∀ {e operator a b}, operator = .and ∨ operator = .or → Q e a → Q e b →
      Q e (binary operator a b))
    (quantified : ∀ {binder : Binder} {negated body result} quantifier, Q body result →
      Q ⟨.binder binder, negated, [body]⟩ (node (.binder { binder with quantifier }) [result]))
    {e : Expr} (formula : e.Formula) (flip : Bool) : Q e (nnf flip e) := by
  have junctions : ∀ {operator dual : Operator} {negated : Bool} {e a b : Expr},
      operator = .and ∧ dual = .or ∨ operator = .or ∧ dual = .and → Q e a → Q e b →
      Q e (Expr.junction operator dual negated [a, b]) := by
    rintro operator dual negated e a b kinds left right
    refine junction ?_ left right
    cases negated <;> rcases kinds with ⟨rfl, rfl⟩ | ⟨rfl, rfl⟩ <;> simp
  induction formula generalizing flip with
  | atom isAtom => exact atom flip isAtom
  | @connective operator negated a b joins _ _ left right =>
    have inLeft : ∀ flip, Q ⟨.op operator, negated, [a, b]⟩ (nnf flip a) :=
      fun flip => operand List.mem_cons_self (left flip)
    have inRight : ∀ flip, Q ⟨.op operator, negated, [a, b]⟩ (nnf flip b) :=
      fun flip => operand (List.mem_cons_of_mem a List.mem_cons_self) (right flip)
    cases operator with
    | and => exact junctions (.inl ⟨rfl, rfl⟩) (inLeft _) (inRight _)
    | or => exact junctions (.inr ⟨rfl, rfl⟩) (inLeft _) (inRight _)
    | implication => exact junctions (.inr ⟨rfl, rfl⟩) (inLeft _) (inRight _)
    | biconditional =>
      exact junctions (.inl ⟨rfl, rfl⟩) (junctions (.inr ⟨rfl, rfl⟩) (inLeft _) (inRight _))
        (junctions (.inr ⟨rfl, rfl⟩) (inRight _) (inLeft _))
    | _ => cases joins
  | quantified _ inner => exact quantified _ (inner _)

/-- Negation normal form leaves literals, conjunctions, disjunctions and quantifiers. -/
theorem Formula.normal {e : Expr} (formula : e.Formula) (flip : Bool) : (nnf flip e).Normal :=
  formula.nnf_induction (Q := fun _ result => result.Normal)
    (fun flip isAtom => .literal (isAtom.nnf flip)) (fun _ => id) .junction
    (fun _ => .quantified) flip

/-- Negation normal form brings in no Skolem functions. -/
theorem SkolemFree.nnf {e : Expr} (skolemFree : e.SkolemFree) (formula : e.Formula) (flip : Bool) :
    (nnf flip e).SkolemFree := by
  refine formula.nnf_induction (Q := fun e result => e.SkolemFree → result.SkolemFree)
    ?atom ?operand ?junction ?quantified flip skolemFree
  case atom =>
    intro e flip isAtom skolemFree
    obtain ⟨negated, args, rfl, same⟩ | same := nnf_atom_cases isAtom flip
    · rw [same]
      exact everywhere_iff.2 ⟨nofun, (everywhere_iff.1 skolemFree).2⟩
    · rw [same]
      exact (everywhere_signed _).2 skolemFree
  case operand =>
    intro operator negated args part result member passes skolemFree
    exact passes ((everywhere_iff.1 skolemFree).2 part member)
  case junction =>
    intro e operator a b _ left right skolemFree
    exact everywhere_iff.2 ⟨nofun, List.forall_mem_cons.2
      ⟨left skolemFree, List.forall_mem_singleton.2 (right skolemFree)⟩⟩
  case quantified =>
    intro binder negated body result quantifier passes skolemFree
    exact everywhere_iff.2 ⟨nofun, List.forall_mem_singleton.2
      (passes ((everywhere_iff.1 skolemFree).2 body List.mem_cons_self))⟩

/-- Negation normal form brings in no free names. -/
theorem Formula.freeNames_nnf_subset {e : Expr} (formula : e.Formula) (flip : Bool) :
    (nnf flip e).freeNames ⊆ e.freeNames := by
  refine formula.nnf_induction (Q := fun e result => result.freeNames ⊆ e.freeNames)
    ?atom ?operand ?junction ?quantified flip
  case atom =>
    intro e flip isAtom
    obtain ⟨negated, args, rfl, same⟩ | same := nnf_atom_cases isAtom flip
    · rw [same]
      exact List.Subset.refl _
    · rw [same]
      cases e with
      | mk head negated args => cases head <;> exact List.Subset.refl _
  case operand =>
    intro operator negated args part result member passes name free
    exact mem_freeNamesArgs_iff.2 ⟨part, member, passes free⟩
  case junction =>
    intro e operator a b _ left right name free
    obtain ⟨part, member, inside⟩ := mem_freeNamesArgs_iff.1 free
    rcases List.mem_cons.1 member with rfl | member
    · exact left inside
    · obtain rfl := List.mem_singleton.1 member
      exact right inside
  case quantified =>
    intro binder negated body result quantifier passes name free
    obtain ⟨inside, unbound⟩ := List.mem_filter.1 free
    obtain ⟨part, member, here⟩ := mem_freeNamesArgs_iff.1 inside
    obtain rfl := List.mem_singleton.1 member
    exact List.mem_filter.2
      ⟨mem_freeNamesArgs_iff.2 ⟨body, List.mem_cons_self, passes here⟩, unbound⟩

end Expr

namespace Structure

variable {K : Type} [DecidableEq K] {D : Type u} (M : Structure D) (key : Variable → K)

/-- Under negation a junction is the dual one of negated operands. -/
theorem truth_junction_and (env : K → D) (negated : Bool) (a b : Expr) :
    M.Truth key env (Expr.junction .and .or negated [a, b]) ↔
      if negated then M.Truth key env a ∨ M.Truth key env b
      else M.Truth key env a ∧ M.Truth key env b := by
  cases negated with
  | false => exact M.truth_and key env a b
  | true => exact M.truth_or key env a b

/-- A negated disjunction is true like the conjunction it is turned into. -/
theorem truth_junction_or (env : K → D) (negated : Bool) (a b : Expr) :
    M.Truth key env (Expr.junction .or .and negated [a, b]) ↔
      if negated then M.Truth key env a ∧ M.Truth key env b
      else M.Truth key env a ∨ M.Truth key env b := by
  cases negated with
  | false => exact M.truth_or key env a b
  | true => exact M.truth_and key env a b

/-- The negation normal form of a formula is true when the formula is, that of its negation when the
formula is not. -/
theorem truth_nnf {e : Expr} (formula : e.Formula) (flip : Bool) (env : K → D) :
    M.Truth key env (Expr.nnf flip e) ↔ Signed flip (M.Truth key env e) := by
  induction formula generalizing flip env with
  | @atom e isAtom =>
    rw [M.truth_atom key isAtom, M.truth_atom key (isAtom.nnf flip), isAtom.literal_nnf,
      M.value_flip, M.holds_signed]
    rfl
  | @connective operator negated a b joins _ _ left right =>
    cases operator with
    | and =>
      change M.Truth key env (Expr.junction .and .or (negated != flip)
        [Expr.nnf (negated != flip) a, Expr.nnf (negated != flip) b]) ↔
        Signed flip (Signed negated (M.Truth key env a ∧ M.Truth key env b))
      rw [signed_signed_iff, M.truth_junction_and, left, right]
      cases negated != flip <;> simp [imp_iff_not_or]
    | or =>
      change M.Truth key env (Expr.junction .or .and (negated != flip)
        [Expr.nnf (negated != flip) a, Expr.nnf (negated != flip) b]) ↔
        Signed flip (Signed negated (M.Truth key env a ∨ M.Truth key env b))
      rw [signed_signed_iff, M.truth_junction_or, left, right]
      cases negated != flip <;> simp
    | implication =>
      change M.Truth key env (Expr.junction .or .and (negated != flip)
        [Expr.nnf (!(negated != flip)) a, Expr.nnf (negated != flip) b]) ↔
        Signed flip (Signed negated (M.Truth key env a → M.Truth key env b))
      rw [signed_signed_iff, M.truth_junction_or, left, right]
      cases negated != flip <;> simp [imp_iff_not_or]
    | biconditional =>
      change M.Truth key env (Expr.junction .and .or (negated != flip)
        [Expr.junction .or .and (negated != flip)
            [Expr.nnf (!(negated != flip)) a, Expr.nnf (negated != flip) b],
          Expr.junction .or .and (negated != flip)
            [Expr.nnf (!(negated != flip)) b, Expr.nnf (negated != flip) a]]) ↔
        Signed flip (Signed negated (M.Truth key env a ↔ M.Truth key env b))
      rw [signed_signed_iff, M.truth_junction_and, M.truth_junction_or, M.truth_junction_or, left,
        left, right, right]
      cases negated != flip <;> simp <;> grind
    | _ => cases joins
  | @quantified binder negated body _ inner =>
    obtain ⟨quantifier, bound⟩ := binder
    have outer : Expr.nnf flip ⟨.binder ⟨quantifier, bound⟩, negated, [body]⟩ =
        Expr.node (.binder ⟨if negated != flip then quantifier.dual else quantifier, bound⟩)
          [Expr.nnf (negated != flip) body] := rfl
    rw [outer]
    cases quantifier with
    | universal =>
      change _ ↔ Signed flip (Signed negated
        (∀ values, M.Truth key (override env (bound.map key) values) body))
      rw [signed_signed_iff]
      cases negated != flip <;> simp [Quantifier.dual, inner]
    | existential =>
      change _ ↔ Signed flip (Signed negated
        (∃ values, M.Truth key (override env (bound.map key) values) body))
      rw [signed_signed_iff]
      cases negated != flip <;> simp [Quantifier.dual, inner]

/-- The negation of a formula is true when the formula is not. -/
theorem truth_negate {e : Expr} (formula : e.Formula) (env : K → D) :
    M.Truth key env e.negate ↔ ¬ M.Truth key env e := by
  have flipped : ∀ (negated : Bool) (q : Prop), Signed (!negated) q ↔ ¬ Signed negated q := by
    intro negated q
    cases negated <;> simp
  cases formula with
  | atom isAtom =>
    have negated : e.negate = { e with negated := e.negated != true } := by simp [Expr.negate]
    rw [negated, M.truth_atom key isAtom, M.truth_atom key ((Expr.everywhere_signed _).2 isAtom),
      Expr.literal_flip, M.value_flip, M.holds_signed]
    rfl
  | @connective operator negated a b joins _ _ =>
    cases operator with
    | and => simpa [Expr.negate, Truth] using flipped negated _
    | or => simpa [Expr.negate, Truth] using flipped negated _
    | implication => simpa [Expr.negate, Truth] using flipped negated _
    | biconditional => simpa [Expr.negate, Truth] using flipped negated _
    | _ => cases joins
  | @quantified binder negated body _ =>
    obtain ⟨quantifier, bound⟩ := binder
    cases quantifier with
    | universal => simpa [Expr.negate, Truth] using flipped negated _
    | existential => simpa [Expr.negate, Truth] using flipped negated _

end Structure

end Refute
