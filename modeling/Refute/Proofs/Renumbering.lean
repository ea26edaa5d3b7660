import Mathlib.Data.List.InsertIdx
import Mathlib.Logic.Embedding.Basic
import Refute.Clause.Basic

/-!
# Renumbering

The numbers of system variables and Skolem functions come from counters, so two sessions give one
statement different numbers. A renumbering gives different numbers new and different ones. It leaves
variables read from text alone, and names, signs, marks and the shape of expressions stay. Whatever
is found out by comparing symbols is therefore the same before and after: equality, occurrence, the
variables of an expression in order, and clauses without repeats.
-/

namespace Refute

/-- New numbers for system variables and for Skolem functions, different ones for different ones. -/
structure Renumbering where
  /-- The new number of a system variable. -/
  system : Nat ↪ Nat
  /-- The new number of a Skolem function. -/
  skolem : Nat ↪ Nat

/-! ### Lists that are compared by elements -/

section Lists

variable {α β : Type} [BEq α] [BEq β] {f : α → β}

/-- Lists compare like their images under a map that keeps the comparison of elements. -/
theorem map_beq_map (same : ∀ a b, (f a == f b) = (a == b)) (as bs : List α) :
    (as.map f == bs.map f) = (as == bs) := by
  induction as generalizing bs with
  | nil => cases bs <;> rfl
  | cons a as ih =>
    cases bs with
    | nil => rfl
    | cons b bs => simp only [List.map_cons, List.cons_beq_cons, same, ih]

/-- An element is found among the images exactly if it is found in the list. -/
theorem contains_map (same : ∀ a b, (f a == f b) = (a == b)) (as : List α) (a : α) :
    (as.map f).contains (f a) = as.contains a := by
  induction as with
  | nil => rfl
  | cons b as ih => simp only [List.map_cons, List.contains_cons, same, ih]

/-- Loops whose passes correspond have corresponding results. -/
theorem foldl_map_hom {σ τ α β : Type} {f : σ → α → σ} {f' : τ → β → τ} {r : σ → τ} {g : α → β}
    (pass : ∀ s a, f' (r s) (g a) = r (f s a)) (as : List α) (s : σ) :
    (as.map g).foldl f' (r s) = r (as.foldl f s) := by
  rw [List.foldl_map]
  exact List.foldl_hom r pass

/-- A loop over images runs along the loop over the list if every pass does, and fails where it
fails. -/
theorem foldlM_map_except {σ τ ε δ α β : Type} {f : σ → α → Except ε σ} {f' : τ → β → Except δ τ}
    {r : σ → τ} {e : ε → δ} {g : α → β}
    (pass : ∀ s a, f' (r s) (g a) = ((f s a).map r).mapError e) (as : List α) (s : σ) :
    (as.map g).foldlM f' (r s) = ((as.foldlM f s).map r).mapError e := by
  induction as generalizing s with
  | nil => rfl
  | cons a as ih =>
    rw [List.map_cons, List.foldlM_cons, List.foldlM_cons, pass]
    cases f s a with
    | ok next => exact ih next
    | error cause => rfl

/-- A loop from the image of a state runs along the loop from the state if every pass does. -/
theorem foldlM_hom_except {σ τ ε δ α : Type} {f : σ → α → Except ε σ} {f' : τ → α → Except δ τ}
    {r : σ → τ} {e : ε → δ} (pass : ∀ s a, f' (r s) a = ((f s a).map r).mapError e) (as : List α)
    (s : σ) : as.foldlM f' (r s) = ((as.foldlM f s).map r).mapError e := by
  have run := foldlM_map_except (g := id) pass as s
  rwa [List.map_id] at run

/-- A loop over images that may give up runs along the loop over the list if every pass does. -/
theorem foldlM_map_option {σ τ α β : Type} {f : σ → α → Option σ} {f' : τ → β → Option τ}
    {r : σ → τ} {g : α → β} (pass : ∀ s a, f' (r s) (g a) = (f s a).map r) (as : List α) (s : σ) :
    (as.map g).foldlM f' (r s) = (as.foldlM f s).map r := by
  induction as generalizing s with
  | nil => rfl
  | cons a as ih =>
    rw [List.map_cons, List.foldlM_cons, List.foldlM_cons, pass]
    cases f s a with
    | some next => exact ih next
    | none => rfl

/-- Reading every image gives the images of what is read from the list. -/
theorem mapM_map_option {α β γ δ : Type} {f : α → Option γ} {f' : β → Option δ} {g : α → β}
    {r : γ → δ} (pass : ∀ a, f' (g a) = (f a).map r) (as : List α) :
    (as.map g).mapM f' = (as.mapM f).map (List.map r) := by
  induction as with
  | nil => rfl
  | cons a as ih =>
    rw [List.map_cons, List.mapM_cons, List.mapM_cons, pass, ih]
    cases f a with
    | none => rfl
    | some first => cases as.mapM f <;> rfl

/-- An embedding of numbers keeps whether two numbers are equal. -/
theorem beq_embedding (f : Nat ↪ Nat) (i j : Nat) : (f i == f j) = (i == j) := by
  by_cases same : i = j <;> simp [same]

end Lists

variable (ρ : Renumbering)

/-! ### Symbols -/

namespace Variable

/-- The variable under its new number. -/
def renumber (v : Variable) : Variable :=
  { v with id := if v.system then ρ.system v.id else v.id }

/-- A renumbered variable is bound as it was. -/
@[simp]
theorem universal_renumber (v : Variable) : (v.renumber ρ).universal = v.universal := rfl

/-- Renumbering variables keeps whether two are equal. -/
@[simp]
theorem beq_renumber (v w : Variable) : (v.renumber ρ == w.renumber ρ) = (v == w) := by
  obtain ⟨name, id, system, universal⟩ := v
  obtain ⟨otherName, otherId, otherSystem, otherUniversal⟩ := w
  change ((_ == _) && _) = ((_ == _) && _)
  cases system <;> cases otherSystem <;>
    simp [renumber, -EmbeddingLike.apply_eq_iff_eq, beq_embedding]

end Variable

/-- The Skolem function under its new number, made under the renumbered variables. -/
def Skolem.renumber (s : Skolem) : Skolem :=
  ⟨ρ.skolem s.id, s.arguments.map (Variable.renumber ρ)⟩

/-- Renumbering Skolem symbols keeps whether two are equal. -/
@[simp]
theorem Skolem.beq_renumber (s t : Skolem) : (s.renumber ρ == t.renumber ρ) = (s == t) :=
  beq_embedding ρ.skolem s.id t.id

namespace Symbol

/-- The symbol under its new number. -/
def renumber : Symbol → Symbol
  | var v => var (v.renumber ρ)
  | skolem s => skolem (s.renumber ρ)
  | binder b => binder { b with bound := b.bound.map (Variable.renumber ρ) }
  | other => other

/-- Renumbering keeps whether two symbols are equal, since it embeds the numbers of each kind. -/
@[simp]
theorem beq_renumber (f g : Symbol) : (f.renumber ρ == g.renumber ρ) = (f == g) := by
  cases f with
  | var v =>
    cases g with
    | var w => exact Variable.beq_renumber ρ v w
    | _ => rfl
  | skolem s =>
    cases g with
    | skolem t => exact Skolem.beq_renumber ρ s t
    | _ => rfl
  | binder b =>
    cases g with
    | binder c =>
      exact congrArg (b.quantifier == c.quantifier && ·)
        (map_beq_map (Variable.beq_renumber ρ) b.bound c.bound)
    | _ => rfl
  | _ => cases g <;> rfl

end Symbol

/-! ### Expressions -/

namespace Expr

mutual

/-- The expression under new numbers. -/
def renumber : Expr → Expr
  | ⟨head, negated, args⟩ => ⟨head.renumber ρ, negated, renumberArgs args⟩

/-- Arguments under new numbers. -/
def renumberArgs : List Expr → List Expr
  | [] => []
  | a :: as => renumber a :: renumberArgs as

end

/-- Arguments are renumbered one by one. -/
theorem renumberArgs_eq_map (args : List Expr) : renumberArgs ρ args = args.map (renumber ρ) := by
  induction args with
  | nil => rfl
  | cons a as ih => simp [renumberArgs, ih]

/-- An expression is renumbered in its head and in its arguments, and its sign stays. -/
@[simp]
theorem renumber_mk (head : Symbol) (negated : Bool) (args : List Expr) :
    renumber ρ ⟨head, negated, args⟩ = ⟨head.renumber ρ, negated, args.map (renumber ρ)⟩ := by
  rw [renumber, renumberArgs_eq_map]

/-- The head of a renumbered expression is the renumbered head. -/
@[simp]
theorem head_renumber (e : Expr) : (e.renumber ρ).head = e.head.renumber ρ := by
  cases e
  rw [renumber_mk]

/-- Renumbering leaves the sign of an expression. -/
@[simp]
theorem negated_renumber (e : Expr) : (e.renumber ρ).negated = e.negated := by
  cases e
  rw [renumber_mk]

/-- The arguments of a renumbered expression are the renumbered arguments. -/
@[simp]
theorem args_renumber (e : Expr) : (e.renumber ρ).args = e.args.map (renumber ρ) := by
  cases e
  rw [renumber_mk]

/-- An expression can be negated before or after it is renumbered. -/
@[simp]
theorem negate_renumber (e : Expr) : (e.renumber ρ).negate = e.negate.renumber ρ := by
  cases e
  simp only [negate, renumber_mk]

/-- The sign of an expression can be dropped before or after it is renumbered. -/
@[simp]
theorem positive_renumber (e : Expr) : (e.renumber ρ).positive = e.positive.renumber ρ := by
  cases e
  simp only [positive, renumber_mk]

/-- Argument lists compare as before if their members do. -/
theorem sameArgs_map_renumber {args : List Expr}
    (same : ∀ arg ∈ args, ∀ f : Expr, (arg.renumber ρ).same (f.renumber ρ) = arg.same f)
    (others : List Expr) :
    sameArgs (args.map (renumber ρ)) (others.map (renumber ρ)) = sameArgs args others := by
  induction args generalizing others with
  | nil => cases others <;> rfl
  | cons a as ih =>
    rw [List.forall_mem_cons] at same
    cases others with
    | nil => rfl
    | cons b bs => simp only [List.map_cons, sameArgs, same.1 b, ih same.2 bs]

/-- Renumbered expressions are the same exactly if the expressions are. -/
theorem same_renumber (e f : Expr) : (e.renumber ρ).same (f.renumber ρ) = e.same f := by
  induction e using Expr.induction generalizing f with
  | node head negated args ih =>
    obtain ⟨other, sign, others⟩ := f
    simp only [renumber_mk, same, Symbol.beq_renumber, sameArgs_map_renumber ρ ih]

/-- Renumbering keeps whether two expressions are equal. -/
@[simp]
theorem beq_renumber (e f : Expr) : (e.renumber ρ == f.renumber ρ) = (e == f) :=
  same_renumber ρ e f

/-- Renumbering keeps whether two literals have the same atom. -/
@[simp]
theorem sameAtom_renumber (e f : Expr) : (e.renumber ρ).sameAtom (f.renumber ρ) = e.sameAtom f := by
  simp only [sameAtom, head_renumber, args_renumber, Symbol.beq_renumber,
    sameArgs_map_renumber ρ fun arg _ => same_renumber ρ arg]

/-- Renumbering keeps whether an atom occurs in an expression. -/
@[simp]
theorem atomOccursIn_renumber (sought e : Expr) :
    (sought.renumber ρ).atomOccursIn (e.renumber ρ) = sought.atomOccursIn e := by
  induction e using Expr.induction with
  | node head negated args ih =>
    have inside : (args.map (renumber ρ)).any (atomOccursIn (sought.renumber ρ)) =
        args.any (atomOccursIn sought) := by
      rw [Bool.eq_iff_iff, List.any_map, List.any_eq_true, List.any_eq_true]
      exact exists_congr fun arg => and_congr_right fun member => by rw [Function.comp, ih arg member]
    have root := sameAtom_renumber ρ ⟨head, negated, args⟩ sought
    rw [renumber_mk] at root ⊢
    simp only [atomOccursIn, atomOccursInArgs_eq_any, inside, root]

/-- Renumbering leaves the size of an expression. -/
@[simp]
theorem size_renumber (e : Expr) : (e.renumber ρ).size = e.size := by
  induction e using Expr.induction with
  | node head negated args ih =>
    have inside : sizeArgs (args.map (renumber ρ)) = sizeArgs args := by
      clear negated
      induction args with
      | nil => rfl
      | cons a as ihArgs =>
        rw [List.forall_mem_cons] at ih
        rw [List.map_cons, sizeArgs, sizeArgs, ih.1, ihArgs ih.2]
    simp only [renumber_mk, size, inside]

/-- Renumbering makes no variable of an expression that is none. -/
@[simp]
theorem isVariable_renumber (e : Expr) : (e.renumber ρ).isVariable = e.isVariable := by
  obtain ⟨head, negated, args⟩ := e
  cases head <;> rfl

/-- Renumbering keeps what counts as an unknown of unification. -/
@[simp]
theorem isUnknown_renumber (e : Expr) : (e.renumber ρ).isUnknown = e.isUnknown := by
  obtain ⟨head, negated, args⟩ := e
  cases head <;> rfl

/-- Renumbering keeps the kind of an expression. -/
@[simp]
theorem kind_renumber (e : Expr) : (e.renumber ρ).kind = e.kind := by
  obtain ⟨head, negated, args⟩ := e
  have empty : (args.map (renumber ρ)).isEmpty = args.isEmpty := List.isEmpty_map
  rw [renumber_mk]
  cases head <;> simp only [kind, Symbol.renumber, empty]

/-- A variable is found anew among renumbered ones exactly if it was new before. -/
theorem addVariable_renumber (found : List Variable) (v : Variable) :
    addVariable (found.map (Variable.renumber ρ)) (v.renumber ρ) =
      (addVariable found v).map (Variable.renumber ρ) := by
  unfold addVariable
  rw [contains_map (Variable.beq_renumber ρ)]
  split
  · rfl
  · simp

/-- Variables are collected in the same order before and after they are renumbered. -/
theorem foldl_addVariable_renumber (found vs : List Variable) :
    (vs.map (Variable.renumber ρ)).foldl addVariable (found.map (Variable.renumber ρ)) =
      (vs.foldl addVariable found).map (Variable.renumber ρ) :=
  foldl_map_hom (addVariable_renumber ρ) vs found

/-- The variables of a renumbered expression are collected in the same order. -/
theorem collectVariables_renumber (e : Expr) (found : List Variable) :
    collectVariables (found.map (Variable.renumber ρ)) (e.renumber ρ) =
      (collectVariables found e).map (Variable.renumber ρ) := by
  induction e using Expr.induction generalizing found with
  | node head negated args ih =>
    have inside : ∀ found : List Variable,
        (args.map (renumber ρ)).foldl collectVariables (found.map (Variable.renumber ρ)) =
          (args.foldl collectVariables found).map (Variable.renumber ρ) := by
      clear negated
      induction args with
      | nil => exact fun _ => rfl
      | cons a as ihArgs =>
        intro found
        rw [List.forall_mem_cons] at ih
        simp only [List.map_cons, List.foldl_cons, ih.1, ihArgs ih.2]
    rw [renumber_mk]
    cases head with
    | var v =>
      simp only [Symbol.renumber, collectVariables, collectVariablesArgs_eq_foldl,
        addVariable_renumber, inside]
    | _ => simp only [Symbol.renumber, collectVariables, collectVariablesArgs_eq_foldl, inside]

/-- The variables of a renumbered expression are its renumbered variables. -/
@[simp]
theorem vars_renumber (e : Expr) : (e.renumber ρ).vars = e.vars.map (Variable.renumber ρ) :=
  collectVariables_renumber ρ e []

end Expr

/-! ### Clauses -/

namespace Clause

/-- The clause under new numbers. -/
def renumber (clause : Clause) : Clause := ⟨clause.literals.map (Expr.renumber ρ)⟩

/-- The literals of a renumbered clause are its renumbered literals. -/
@[simp]
theorem literals_renumber (clause : Clause) :
    (clause.renumber ρ).literals = clause.literals.map (Expr.renumber ρ) := rfl

/-- Renumbering keeps the number of literals. -/
@[simp]
theorem length_renumber (clause : Clause) : (clause.renumber ρ).length = clause.length :=
  List.length_map _

/-- A renumbered clause is empty exactly if the clause is. -/
@[simp]
theorem isEmpty_renumber (clause : Clause) : (clause.renumber ρ).isEmpty = clause.isEmpty :=
  List.isEmpty_map

/-- A clause has a literal exactly if the renumbered one has the renumbered literal. -/
@[simp]
theorem contains_renumber (clause : Clause) (literal : Expr) :
    (clause.renumber ρ).contains (literal.renumber ρ) = clause.contains literal :=
  contains_map (Expr.beq_renumber ρ) clause.literals literal

/-- A literal can be added to a clause before or after both are renumbered. -/
@[simp]
theorem add_renumber (clause : Clause) (literal : Expr) :
    (clause.renumber ρ).add (literal.renumber ρ) = (clause.add literal).renumber ρ := by
  have known := contains_renumber ρ clause literal
  unfold contains at known
  unfold add
  rw [known]
  split
  · rfl
  · simp [renumber]

/-- Literals can be added to a clause before or after all are renumbered. -/
theorem foldl_add_renumber (literals : List Expr) (clause : Clause) :
    (literals.map (Expr.renumber ρ)).foldl add (clause.renumber ρ) =
      (literals.foldl add clause).renumber ρ :=
  foldl_map_hom (add_renumber ρ) literals clause

/-- A clause made of renumbered literals is the renumbered clause of the literals. -/
theorem ofList_renumber (literals : List Expr) :
    ofList (literals.map (Expr.renumber ρ)) = (ofList literals).renumber ρ :=
  foldl_add_renumber ρ literals empty

/-- Clauses can be merged before or after they are renumbered. -/
@[simp]
theorem merge_renumber (clause other : Clause) :
    (clause.renumber ρ).merge (other.renumber ρ) = (clause.merge other).renumber ρ :=
  foldl_add_renumber ρ other.literals clause

/-- A literal is left out at the same place before and after renumbering. -/
@[simp]
theorem without_renumber (clause : Clause) (index : Nat) :
    (clause.renumber ρ).without index = (clause.without index).renumber ρ := by
  rw [without, literals_renumber, List.eraseIdx_map, ofList_renumber, without]

/-- Renumbering keeps whether all literals of a clause are among those of another. -/
theorem subset_renumber (clause other : Clause) :
    (clause.renumber ρ).subset (other.renumber ρ) = clause.subset other := by
  simp only [subset, literals_renumber, List.all_map, Function.comp_def, contains_renumber]

/-- Renumbering keeps whether two clauses are equal. -/
@[simp]
theorem beq_renumber (clause other : Clause) :
    (clause.renumber ρ == other.renumber ρ) = (clause == other) := by
  change (_ && _) = (_ && _)
  rw [subset_renumber, subset_renumber]

end Clause

end Refute
