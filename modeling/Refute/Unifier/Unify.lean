import Refute.Unifier.Basic

/-!
# Unification

Two terms are unified by extending a unifier until they are equal apart from their signs; the signs
of arguments have to agree. A variable or Skolem term is bound to the other side unless it occurs in
it. A variable is preferred to a Skolem term, and otherwise the left side to the right one.

One comparison of two terms is a `Unifier.Move`: they agree, they are replaced by other terms, one
is bound, their arguments are unified in turn, or they cannot be unified. On Skolem terms the moves
can go in circles. Between two bindings a pair of places in the terms and replacements that comes up
again comes up for ever, and no more bindings are made than there are places, so a number of moves
that no finite run exceeds is known from the start; running out of it is the cause `endless`.
-/

namespace Refute

/-- Why two terms do not unify. -/
inductive UnifyError where
  /-- The term to bind occurs in what it would be bound to. -/
  | occursCheck (unknown term : Expr)
  /-- The symbols, or the signs of arguments, differ. -/
  | symbolClash (expected found : Expr)
  /-- The numbers of arguments differ. -/
  | arityMismatch (expected found : Nat)
  /-- The binding is not allowed. -/
  | restricted (binding : Binding)
  /-- The literals are not of opposite sign. -/
  | polarity (first second : Expr)
  /-- The bindings of Skolem terms go in circles. -/
  | endless

/-- The wording of a unification error. -/
def UnifyError.message : UnifyError → String
  | occursCheck unknown term =>
    "occurs check failed: " ++ unknown.render ++ " occurs in " ++ term.render
  | symbolClash expected found =>
    "symbol clash: cannot unify " ++ expected.render ++ " with " ++ found.render
  | arityMismatch expected found => s!"arity mismatch: expected {expected}, found {found}"
  | restricted binding => binding.render ++ " may not be bound here"
  | polarity first second =>
    first.render ++ " and " ++ second.render ++ " do not have complementary polarity"
  | endless => "the bindings of Skolem terms go in circles"

namespace Unifier

/-- A failed unification: its cause and the bindings made before it. -/
structure Failure where
  /-- Why the terms do not unify. -/
  cause : UnifyError
  /-- The unifier as it was extended so far. -/
  reached : Unifier

/-- What one comparison of two terms comes to. -/
inductive Move where
  /-- The terms agree. -/
  | agree
  /-- Two other terms are to be unified instead. -/
  | follow (left right : Expr)
  /-- The first term is to be bound to the second. -/
  | bind (unknown term : Expr)
  /-- The arguments are to be unified in turn. -/
  | descend
  /-- The terms do not unify. -/
  | clash (cause : UnifyError)

/-- The move for a variable or Skolem term and another term: bindings are followed, first that of
the unknown, and an unknown without one is bound. -/
def moveUnknown (u : Unifier) (unknown term : Expr) : Move :=
  match u.lookup? unknown with
  | some bound => .follow bound term
  | none =>
    if term.isUnknown then
      match u.lookup? term with
      | some bound => .follow unknown bound
      | none => .bind unknown term
    else .bind unknown term

/-- The move for two terms. -/
def move (u : Unifier) (left right : Expr) : Move :=
  if left.sameAtom right then .agree
  else if !left.isVariable && right.isVariable then u.moveUnknown right left
  else if left.isUnknown then u.moveUnknown left right
  else if right.isUnknown then u.moveUnknown right left
  else if left.head != right.head then .clash (.symbolClash left right)
  else if left.args.length != right.args.length then
    .clash (.arityMismatch left.args.length right.args.length)
  else .descend

/-- Binds an unknown to a term unless it occurs in the instance of the term. -/
def bindUnknown (u : Unifier) (unknown term : Expr) : Except Failure Unifier :=
  match u.image? term with
  | none => .error ⟨.endless, u⟩
  | some found =>
    if unknown.atomOccursIn found then .error ⟨.occursCheck unknown.positive found, u⟩
    else .ok (u.bind unknown term)

/-- Unifies two terms within a number of nested moves. -/
def unifyWithin : Nat → Unifier → Expr → Expr → Except Failure Unifier
  | 0, u, _, _ => .error ⟨.endless, u⟩
  | moves + 1, u, left, right =>
    match u.move left right with
    | .agree => .ok u
    | .follow left right => unifyWithin moves u left right
    | .bind unknown term => u.bindUnknown unknown term
    | .clash cause => .error ⟨cause, u⟩
    | .descend =>
      (left.args.zip right.args).foldlM (fun u (pair : Expr × Expr) =>
        if pair.1.negated != pair.2.negated then .error ⟨.symbolClash pair.1 pair.2, u⟩
        else unifyWithin moves u pair.1 pair.2) u

/-- The number of places in two terms and in the bindings. -/
def places (u : Unifier) (left right : Expr) : Nat :=
  u.bindings.foldl (fun total binding => total + binding.unknown.size + binding.replacement.size)
    (left.size + right.size)

/-- More nested moves than a finite unification makes: one for each pair of places between two
bindings. -/
def moveBound (u : Unifier) (left right : Expr) : Nat :=
  let places := u.places left right
  (places + 1) * (places * places) + 1

/-- Extends a unifier so that two terms become equal apart from their signs. -/
def unify (u : Unifier) (left right : Expr) : Except Failure Unifier :=
  unifyWithin (u.moveBound left right) u left right

end Unifier

/-- The unifier of two terms. -/
def Expr.unify (left right : Expr) : Except UnifyError Unifier :=
  (Unifier.empty.unify left right).mapError Unifier.Failure.cause

end Refute
