import Refute.Expr.Basic

/-!
# Printing expressions

A literal is printed as a symbol applied to its arguments, with `!` for negation, and an equation as
its two sides around `==` or `!=`. A formula is printed as its symbols in suffix order.
-/

namespace Refute.Expr

/-- Printed arguments between parentheses. -/
def renderApplied (name : String) (args : List String) : String :=
  name ++ "(" ++ ", ".intercalate args ++ ")"

/-- A printed literal, from its printed arguments. -/
def renderWith (head : Symbol) (negated : Bool) (args : List String) : String :=
  match head, args with
  | .op .equals, [left, right] => left ++ (if negated then " != " else " == ") ++ right
  | .skolem s, args => (if negated then "!" else "") ++ renderApplied ("$" ++ toString s.id) args
  | head, [] => (if negated then "!" else "") ++ head.render
  | head, args => (if negated then "!" else "") ++ renderApplied head.render args

mutual

/-- The printed literal. -/
def render : Expr → String
  | ⟨head, negated, args⟩ => renderWith head negated (renderArgs args)

/-- The printed arguments. -/
def renderArgs : List Expr → List String
  | [] => []
  | a :: as => render a :: renderArgs as

end

/-- Arguments are printed one by one. -/
theorem renderArgs_eq_map (args : List Expr) : renderArgs args = args.map render := by
  induction args with
  | nil => rfl
  | cons a as ih => simp [renderArgs, ih]

mutual

/-- The symbols of an expression in suffix order: arguments, symbol, and `!` if it is negated. -/
def toPostfix : Expr → List Symbol
  | ⟨head, negated, args⟩ =>
    toPostfixArgs args ++ head :: (if negated then [.op .not] else [])

/-- The symbols of the arguments, one argument after the other. -/
def toPostfixArgs : List Expr → List Symbol
  | [] => []
  | a :: as => toPostfix a ++ toPostfixArgs as

end

/-- The symbols of arguments are those of each in turn. -/
theorem toPostfixArgs_eq_flatMap (args : List Expr) :
    toPostfixArgs args = args.flatMap toPostfix := by
  induction args with
  | nil => rfl
  | cons a as ih => simp [toPostfixArgs, ih]

/-- A formula is printed in suffix order. -/
def renderPostfix (e : Expr) : String := Symbol.renderAll e.toPostfix

end Refute.Expr
