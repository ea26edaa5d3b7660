import Refute.Inference.Restriction

/-!
# Factoring

Literals of the same sign that unify under the restrictions are merged: the later one is dropped and
the unifier is applied to the rest. This is repeated with the first such pair until there is none.
Every merge shortens the clause.
-/

namespace Refute.Clause

/-- The first literal from an index on that has the sign of the given one and unifies with it. -/
def mergeWith (hypothesis : List Variable) (first : Expr) (index : Nat) :
    List Expr → Option (Nat × Unifier)
  | [] => none
  | second :: rest =>
    if first.negated != second.negated then mergeWith hypothesis first (index + 1) rest
    else
      match Expr.unifyRestricted hypothesis first second with
      | .ok u => some (index, u)
      | .error _ => mergeWith hypothesis first (index + 1) rest

/-- The first pair of literals that can be merged: the index of the later one and the unifier. -/
def mergeable? (hypothesis : List Variable) (index : Nat) : List Expr → Option (Nat × Unifier)
  | [] => none
  | first :: rest =>
    match mergeWith hypothesis first (index + 1) rest with
    | some found => some found
    | none => mergeable? hypothesis (index + 1) rest

/-- Merges the first pair of literals that can be merged. -/
def factorOnce (hypothesis : List Variable) (clause : Clause) : Option Clause :=
  (mergeable? hypothesis 0 clause.literals).map fun (later, u) =>
    u.applyToClause (clause.without later)

/-- Merges pairs of literals at most the given number of times. -/
def factorWithin (hypothesis : List Variable) : Nat → Clause → Clause
  | 0, clause => clause
  | merges + 1, clause =>
    match clause.factorOnce hypothesis with
    | none => clause
    | some next => factorWithin hypothesis merges next

/-- Merges pairs of literals until none can be merged; no clause has more merges than literals. -/
def factor (hypothesis : List Variable) (clause : Clause) : Clause :=
  factorWithin hypothesis clause.length clause

/-- The later literal of a pair stands in the list that was searched. -/
theorem mergeWith_lt {hypothesis : List Variable} {first : Expr} {index later : Nat} {u : Unifier}
    {rest : List Expr} (found : mergeWith hypothesis first index rest = some (later, u)) :
    later < index + rest.length := by
  induction rest generalizing index with
  | nil => simp [mergeWith] at found
  | cons second rest ih =>
    simp only [List.length_cons]
    unfold mergeWith at found
    split at found
    · have := ih found
      omega
    · split at found
      · simp only [Option.some.injEq, Prod.mk.injEq] at found
        omega
      · have := ih found
        omega

/-- The later literal of the first pair that can be merged is a literal of the clause. -/
theorem mergeable?_lt {hypothesis : List Variable} {index later : Nat} {u : Unifier}
    {literals : List Expr} (found : mergeable? hypothesis index literals = some (later, u)) :
    later < index + literals.length := by
  induction literals generalizing index with
  | nil => simp [mergeable?] at found
  | cons first rest ih =>
    simp only [List.length_cons]
    unfold mergeable? at found
    split at found
    · rename_i merged
      rw [found] at merged
      have := mergeWith_lt merged
      omega
    · have := ih found
      omega

/-- Every merge shortens the clause. -/
theorem length_factorOnce_lt {hypothesis : List Variable} {clause next : Clause}
    (merged : clause.factorOnce hypothesis = some next) : next.length < clause.length := by
  obtain ⟨⟨later, u⟩, found, rfl⟩ := Option.map_eq_some_iff.1 merged
  have inside : later < clause.length := by simpa [length] using mergeable?_lt found
  have shorter := length_without_lt inside
  have image := length_ofList_le ((clause.without later).literals.map u.apply)
  rw [List.length_map] at image
  exact Nat.lt_of_le_of_lt image shorter

/-- As many merges as there are literals leave nothing to merge. -/
theorem factorOnce_factorWithin {hypothesis : List Variable} {merges : Nat} {clause : Clause}
    (enough : clause.length ≤ merges) :
    (factorWithin hypothesis merges clause).factorOnce hypothesis = none := by
  induction merges generalizing clause with
  | zero =>
    have empty : clause.literals = [] := List.length_eq_zero_iff.1 (Nat.le_zero.1 enough)
    simp [factorWithin, factorOnce, empty, mergeable?]
  | succ merges ih =>
    unfold factorWithin
    split
    · assumption
    · rename_i next merged
      have shorter := length_factorOnce_lt merged
      exact ih (by omega)

/-- No pair of literals of a factored clause can be merged. -/
theorem factorOnce_factor (hypothesis : List Variable) (clause : Clause) :
    (clause.factor hypothesis).factorOnce hypothesis = none :=
  factorOnce_factorWithin (Nat.le_refl _)

end Refute.Clause
