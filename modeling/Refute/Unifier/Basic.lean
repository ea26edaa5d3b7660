import Refute.Clause.Basic

/-!
# Unifiers

A unifier is an ordered list of bindings of variables and Skolem terms. Replacements are stored as
they were met, so applying a unifier follows bindings through other bindings. A Skolem term is bound
as a whole, with its arguments, and is found again by equality apart from the sign.

Following bindings can go in circles when a Skolem term is bound. `Unifier.image?` has a value
exactly when it does not: on the way from a term to its instance every place in the term and in the
replacements is passed at most once, so their total size bounds the number of steps.
-/

namespace Refute

/-- A variable or Skolem term and what it becomes. -/
structure Binding where
  /-- What is replaced. -/
  unknown : Expr
  /-- What it becomes. -/
  replacement : Expr

/-- Bindings in the order in which they were made. -/
structure Unifier where
  /-- The bindings, the first one first. -/
  bindings : List Binding

/-- A binding is printed as its two sides around an arrow. -/
def Binding.render (binding : Binding) : String :=
  binding.unknown.render ++ " -> " ++ binding.replacement.render

namespace Unifier

/-- The unifier that binds nothing. -/
def empty : Unifier := ⟨[]⟩

/-- The replacement of a term, whatever its sign. -/
def lookup? (u : Unifier) (term : Expr) : Option Expr :=
  (u.bindings.find? fun binding => binding.unknown.sameAtom term).map (·.replacement)

/-- Adds a binding between two terms without their signs. -/
def bind (u : Unifier) (unknown replacement : Expr) : Unifier :=
  ⟨u.bindings ++ [⟨unknown.positive, replacement.positive⟩]⟩

/-- The instance of a term, if it is reached within a number of nested steps. -/
def applyWithin (u : Unifier) : Nat → Expr → Option Expr
  | 0, _ => none
  | steps + 1, term =>
    match u.lookup? term with
    | some replacement =>
      (u.applyWithin steps replacement).map fun found =>
        { found with negated := found.negated != term.negated }
    | none =>
      (term.args.mapM fun arg => u.applyWithin steps arg).map fun args => { term with args }

/-- The total size of a term and of all replacements. -/
def reach (u : Unifier) (term : Expr) : Nat :=
  u.bindings.foldl (fun total binding => total + binding.replacement.size) term.size

/-- The instance of a term: all bindings are followed, and the sign of the term is kept. It is
absent when the bindings go in circles. -/
def image? (u : Unifier) (term : Expr) : Option Expr := u.applyWithin (u.reach term) term

/-- The instance of a term, or the term itself when the bindings go in circles. -/
def apply (u : Unifier) (term : Expr) : Expr := (u.image? term).getD term

/-- The clause of the instances of the literals. -/
def applyToClause (u : Unifier) (clause : Clause) : Clause :=
  Clause.ofList (clause.literals.map u.apply)

/-- A unifier is printed as its bindings between braces. -/
def render (u : Unifier) : String :=
  "\x7b" ++ ", ".intercalate (u.bindings.map Binding.render) ++ "\x7d"

end Unifier

end Refute
