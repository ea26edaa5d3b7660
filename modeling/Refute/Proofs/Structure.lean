import Refute.Proofs.Identity

/-!
# Structures

A structure gives expressions a meaning. Its domain is not empty, every symbol has an operation on
it, a negated expression has the complement of the value it has without the negation, and some
values are true, of a value and its complement always one. Individuals and propositions are not
separated, so formulas, literals and terms all have values in the domain.

`Structure.value` reads an expression of a clause: a variable has the value that is assigned to it,
and everything else the value of its operation. Equal expressions have equal values. A structure
`Satisfies` a clause when for all values of the variables that are not fixed one of its literals is
true; an applied variable has no meaning, so no clause with one is satisfied.
-/

namespace Refute

universe u

/-- A domain with operations for the symbols, complements and true values. -/
structure Structure (D : Type u) where
  /-- There are individuals. -/
  inhabited : Nonempty D
  /-- What a symbol makes of the values of its arguments. -/
  operation : Symbol → List D → D
  /-- What negation makes of a value. -/
  complement : D → D
  /-- The value is true. -/
  holds : D → Prop
  /-- Equal symbols have the same operation. -/
  operation_congr : ∀ {f g : Symbol}, f == g → operation f = operation g
  /-- Negation is an involution. -/
  complement_complement : ∀ d, complement (complement d) = d
  /-- Negation turns truth around. -/
  holds_complement : ∀ d, holds (complement d) ↔ ¬ holds d

/-- Values for variables by their identities. -/
abbrev Assignment (D : Type u) := Nat × Bool → D

/-- The value that is assigned to a variable. -/
def Assignment.get {D : Type u} (β : Assignment D) (v : Variable) : D := β v.identity

/-- Equal variables have the same value. -/
theorem Assignment.get_congr {D : Type u} (β : Assignment D) {v w : Variable} (h : v == w) :
    β.get v = β.get w := congrArg β (Variable.beq_iff.1 h)

namespace Structure

variable {D : Type u} (M : Structure D)

/-- The value or, under negation, its complement. -/
def signed (negated : Bool) (d : D) : D := if negated then M.complement d else d

/-- Without a negation a value stays what it is. -/
@[simp] theorem signed_false (d : D) : M.signed false d = d := rfl

/-- Under a negation a value is its complement. -/
@[simp] theorem signed_true (d : D) : M.signed true d = M.complement d := rfl

/-- Signs cancel in pairs. -/
theorem signed_signed (n m : Bool) (d : D) : M.signed n (M.signed m d) = M.signed (m != n) d := by
  cases n <;> cases m <;> simp [M.complement_complement]

/-- A signed value is true when the value is, or is not, depending on the sign. -/
theorem holds_signed (negated : Bool) (d : D) :
    M.holds (M.signed negated d) ↔ if negated then ¬ M.holds d else M.holds d := by
  cases negated <;> simp [M.holds_complement]

/-- What a symbol makes of the values of its arguments when variables have values. -/
def headValue (σ : Variable → D) : Symbol → List D → D
  | .var v, _ => σ v
  | head, arguments => M.operation head arguments

mutual

/-- The value of an expression. -/
def value (σ : Variable → D) : Expr → D
  | ⟨head, negated, args⟩ => M.signed negated (M.headValue σ head (values σ args))

/-- The values of arguments. -/
def values (σ : Variable → D) : List Expr → List D
  | [] => []
  | a :: as => value σ a :: values σ as

end

/-- The values of arguments are those of each. -/
theorem values_eq_map (σ : Variable → D) (args : List Expr) :
    M.values σ args = args.map (M.value σ) := by
  induction args with
  | nil => rfl
  | cons a as ih => simp [values, ih]

/-- The value of an expression without its sign. -/
def atomValue (σ : Variable → D) (e : Expr) : D := M.headValue σ e.head (e.args.map (M.value σ))

/-- The sign of an expression acts on the value it has without the sign. -/
theorem value_eq (σ : Variable → D) (e : Expr) :
    M.value σ e = M.signed e.negated (M.atomValue σ e) := by
  obtain ⟨head, negated, args⟩ := e
  simp [value, atomValue, values_eq_map]

/-- Expressions of the same sign have the same value if they have it without the sign. -/
theorem value_congr_atom {σ τ : Variable → D} {e f : Expr} (signs : e.negated = f.negated)
    (atoms : M.atomValue σ e = M.atomValue τ f) : M.value σ e = M.value τ f := by
  rw [value_eq, value_eq, signs, atoms]

/-- Negating an expression takes the complement of its value. -/
theorem value_flip (σ : Variable → D) (e : Expr) (flip : Bool) :
    M.value σ { e with negated := e.negated != flip } = M.signed flip (M.value σ e) := by
  rw [value_eq, value_eq, signed_signed]
  rfl

/-- The operation of equal symbols under an assignment is the same. -/
theorem headValue_congr (β : Assignment D) {f g : Symbol} (h : f == g) :
    M.headValue β.get f = M.headValue β.get g := by
  funext arguments
  cases f with
  | var v =>
    cases g with
    | var w => exact β.get_congr h
    | _ => cases h
  | _ =>
    cases g with
    | var w => cases h
    | _ => exact congrFun (M.operation_congr h) arguments

/-- Equal expressions have the same value. -/
theorem value_congr (β : Assignment D) {e f : Expr} (h : e == f) :
    M.value β.get e = M.value β.get f := by
  induction e using Expr.induction generalizing f with
  | node head negated args ih =>
    obtain ⟨signs, heads, arguments⟩ := Expr.beq_iff.1 h |>.imp_right Expr.sameAtom_iff.1
    obtain ⟨_, _, bs⟩ := f
    refine M.value_congr_atom signs ?_
    simp only [atomValue, M.headValue_congr β heads]
    congr 1
    dsimp only at arguments
    clear h signs heads
    induction arguments with
    | nil => rfl
    | cons first _ rest =>
      simp only [List.map_cons, ih _ List.mem_cons_self first,
        rest fun arg member => ih arg (List.mem_cons_of_mem _ member)]

/-- Expressions that are equal apart from the sign have the same value without it. -/
theorem atomValue_congr (β : Assignment D) {e f : Expr} (h : e.sameAtom f) :
    M.atomValue β.get e = M.atomValue β.get f := by
  have signed : e.positive == f.positive := Expr.beq_iff.2 ⟨rfl, h⟩
  have same := M.value_congr β signed
  rwa [value_eq, value_eq] at same

/-! ### Clauses -/

/-- Some literal of a list is true. -/
def SomeTrue (σ : Variable → D) (literals : List Expr) : Prop :=
  ∃ literal ∈ literals, M.holds (M.value σ literal)

/-- The clause is true for all values of the variables that are not fixed; the others have the
values of `α`. Its variables have to stand alone. -/
structure Satisfies (fixed : List Variable) (α : Assignment D) (clause : Clause) : Prop where
  /-- No variable is applied to arguments. -/
  firstOrder : ∀ literal ∈ clause.literals, literal.FirstOrder
  /-- Some literal is true, whatever the values. -/
  someTrue : ∀ β : Assignment D, (∀ v ∈ fixed, β.get v = α.get v) →
    M.SomeTrue β.get clause.literals

/-- A clause stays true when more variables are fixed. -/
theorem Satisfies.mono {M : Structure D} {fixed more : List Variable} {α : Assignment D}
    {clause : Clause} (satisfied : M.Satisfies fixed α clause) (subset : fixed ⊆ more) :
    M.Satisfies more α clause :=
  ⟨satisfied.firstOrder, fun β agrees =>
    satisfied.someTrue β fun v member => agrees v (subset member)⟩

/-- The empty clause is true nowhere. -/
theorem not_satisfies_empty (fixed : List Variable) (α : Assignment D) {clause : Clause}
    (empty : clause.isEmpty) : ¬ M.Satisfies fixed α clause := by
  intro satisfied
  obtain ⟨literal, member, -⟩ := satisfied.someTrue α fun _ _ => rfl
  rw [List.isEmpty_iff.1 empty] at member
  exact absurd member List.not_mem_nil

/-- Collecting literals into a clause keeps what they say. -/
theorem someTrue_foldl_add (β : Assignment D) (literals : List Expr) (clause : Clause) :
    M.SomeTrue β.get (literals.foldl Clause.add clause).literals ↔
      M.SomeTrue β.get clause.literals ∨ M.SomeTrue β.get literals := by
  induction literals generalizing clause with
  | nil => simp [SomeTrue]
  | cons literal rest ih =>
    have added : M.SomeTrue β.get (clause.add literal).literals ↔
        M.SomeTrue β.get clause.literals ∨ M.holds (M.value β.get literal) := by
      unfold Clause.add
      split
      · -- The literal is dropped because an equal one, with the same value, is there.
        rename_i present
        obtain ⟨other, member, same⟩ := List.contains_iff_exists_mem_beq.1 present
        rw [M.value_congr β same]
        exact ⟨Or.inl, Or.rec id fun true => ⟨other, member, true⟩⟩
      · simp [SomeTrue, or_and_right, exists_or]
    rw [List.foldl_cons, ih, added]
    simp [SomeTrue, or_assoc]

/-- A clause says what the literals it was made from say. -/
theorem someTrue_ofList (β : Assignment D) (literals : List Expr) :
    M.SomeTrue β.get (Clause.ofList literals).literals ↔ M.SomeTrue β.get literals := by
  rw [Clause.ofList, someTrue_foldl_add]
  simp [SomeTrue, Clause.empty]

/-- A merged clause says what one of the two says. -/
theorem someTrue_merge (β : Assignment D) (first second : Clause) :
    M.SomeTrue β.get (first.merge second).literals ↔
      M.SomeTrue β.get first.literals ∨ M.SomeTrue β.get second.literals :=
  M.someTrue_foldl_add β second.literals first

end Structure

end Refute
