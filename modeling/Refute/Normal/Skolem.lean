import Refute.Expr.Basic
import Refute.Session

/-!
# Skolem functions

An existential variable becomes a Skolem function of the universal variables in whose scope its
quantifier stands, outer ones first, and the quantifier disappears around its body. Universal
quantifiers disappear afterwards. A quantifier without exactly one body is kept.
-/

namespace Refute

/-- Skolem functions with consecutive numbers, one for each variable, in front of earlier ones. -/
def Skolem.introduce (universals : List Variable) (next : Nat)
    (replacements : List (Variable × Skolem)) : List Variable → List (Variable × Skolem)
  | [] => replacements
  | v :: rest => introduce universals (next + 1) ((v, ⟨next, universals⟩) :: replacements) rest

namespace Expr

/-- The body of a quantifier takes over its sign. -/
def unquantify (head : Symbol) (negated : Bool) (args : List Expr) : Expr :=
  match args with
  | [body] => if negated then body.negate else body
  | args => ⟨head, negated, args⟩

mutual

/-- Replaces existential variables; the number of the next Skolem function is passed through. -/
def skolemizeWith (universals : List Variable) (replacements : List (Variable × Skolem))
    (next : Nat) : Expr → Expr × Nat
  | ⟨.binder ⟨.existential, bound⟩, negated, args⟩ =>
    let (args, next) := skolemizeArgs universals
      (Skolem.introduce universals next replacements bound) (next + bound.length) args
    (unquantify (.binder ⟨.existential, bound⟩) negated args, next)
  | ⟨.binder ⟨.universal, bound⟩, negated, args⟩ =>
    let (args, next) := skolemizeArgs (universals ++ bound) replacements next args
    (⟨.binder ⟨.universal, bound⟩, negated, args⟩, next)
  | ⟨.var v, negated, args⟩ =>
    match replacements.find? (·.1 == v) with
    | some (_, skolem) => (⟨.skolem skolem, negated, args⟩, next)
    | none => (⟨.var v, negated, args⟩, next)
  | ⟨head, negated, args⟩ =>
    let (args, next) := skolemizeArgs universals replacements next args
    (⟨head, negated, args⟩, next)

/-- Replaces existential variables in arguments from left to right. -/
def skolemizeArgs (universals : List Variable) (replacements : List (Variable × Skolem))
    (next : Nat) : List Expr → List Expr × Nat
  | [] => ([], next)
  | a :: as =>
    let (a, next) := skolemizeWith universals replacements next a
    let (as, next) := skolemizeArgs universals replacements next as
    (a :: as, next)

end

/-- Replaces all existential variables by new Skolem functions of the session. -/
def skolemize (session : Session) (e : Expr) : Expr × Session :=
  let (replaced, next) := skolemizeWith [] [] session.nextSkolem e
  (replaced, { session with nextSkolem := next })

mutual

/-- Drops universal quantifiers; the variables they bound stay marked universal. -/
def dropUniversals : Expr → Expr
  | ⟨.binder ⟨.universal, bound⟩, negated, args⟩ =>
    unquantify (.binder ⟨.universal, bound⟩) negated (dropUniversalsArgs args)
  | ⟨head, negated, args⟩ => ⟨head, negated, dropUniversalsArgs args⟩

/-- Drops universal quantifiers in arguments. -/
def dropUniversalsArgs : List Expr → List Expr
  | [] => []
  | a :: as => dropUniversals a :: dropUniversalsArgs as

end

/-- Universal quantifiers are dropped in one argument after the other. -/
theorem dropUniversalsArgs_eq_map (args : List Expr) :
    dropUniversalsArgs args = args.map dropUniversals := by
  induction args with
  | nil => rfl
  | cons a as ih => simp [dropUniversalsArgs, ih]

end Expr

end Refute
