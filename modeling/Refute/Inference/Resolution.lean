import Refute.Inference.Restriction

/-!
# Resolution

Two clauses resolve on a literal of each if the literals have opposite signs and unify under the
restrictions; the resolvent is what remains of both clauses under the unifier. A clause is a
duplicate of another one if they are equal, or if they unify literal by literal under one unifier.
-/

namespace Refute

namespace Clause

/-- The resolvent on the literals at two indices, if they resolve. -/
def resolveAt (hypothesis : List Variable) (first second : Clause) (i j : Nat)
    (left right : Expr) : Option Clause :=
  match Expr.resolvingUnifier hypothesis left right.negate with
  | .error _ => none
  | .ok u => some ((u.applyToClause (first.without i)).merge (u.applyToClause (second.without j)))

/-- Every resolvent of two clauses, by the literals of the first and then of the second. -/
def resolve (hypothesis : List Variable) (first second : Clause) : List Clause :=
  first.literals.zipIdx.flatMap fun (left, i) =>
    second.literals.zipIdx.filterMap fun (right, j) =>
      resolveAt hypothesis first second i j left right

/-- Extends a unifier by two literals that stand at the same place of two clauses; signs and kinds
have to agree. -/
def matchLiterals (u : Unifier) (pair : Expr × Expr) : Option Unifier :=
  if pair.1.negated == pair.2.negated && pair.1.kind == pair.2.kind then
    (u.unify pair.1 pair.2).toOption
  else none

/-- The clauses unify literal by literal under one allowed unifier. -/
def matchesByPlace (hypothesis : List Variable) (candidate existing : Clause) : Bool :=
  candidate.length == existing.length &&
    match (candidate.literals.zip existing.literals).foldlM matchLiterals Unifier.empty with
    | none => false
    | some u => u.bindings.all fun binding => !binding.isRestricted hypothesis

/-- The candidate adds nothing to the existing clause. -/
def isDuplicate (hypothesis : List Variable) (candidate existing : Clause) : Bool :=
  candidate == existing || candidate.matchesByPlace hypothesis existing

end Clause

/-- The variables of clauses that no universal quantifier bound, each once. -/
def hypothesisVariables (clauses : List Clause) : List Variable :=
  clauses.foldl (fun found clause =>
    clause.literals.foldl (fun found literal =>
      (literal.vars.filter (!·.universal)).foldl Expr.addVariable found) found) []

end Refute
