import Refute.Expr.Print
import Refute.ParseError

/-!
# Expressions from suffix order

Symbols in suffix order build expressions on a stack, last result first: an operand is pushed,
negation flips the sign of the last result, and an operator, function, relation or quantifier takes
its arguments off the stack. A sequence is an expression when exactly one result remains.
-/

namespace Refute.Expr

/-- The last results in the order they were made, and the results before them. -/
def popArgs (count : Nat) (owner : Symbol) (stack : List Expr) :
    Except ParseError (List Expr × List Expr) :=
  if stack.length < count then .error (.missingOperand owner.render)
  else .ok ((stack.take count).reverse, stack.drop count)

/-- Refuses formulas as arguments. -/
def requireAtomic (owner : Symbol) (args : List Expr) : Except ParseError Unit :=
  if args.all isAtomic then .ok () else .error (.compoundArgument owner.render)

/-- Takes arguments off the stack and pushes the application. -/
def pushNode (owner : Symbol) (count : Nat) (atomic : Bool) (stack : List Expr) :
    Except ParseError (List Expr) := do
  let (args, rest) ← popArgs count owner stack
  if atomic then requireAtomic owner args
  .ok (node owner args :: rest)

/-- What one symbol does to the stack. -/
def pushSymbol (stack : List Expr) (symbol : Symbol) : Except ParseError (List Expr) :=
  match symbol with
  | .var _ => .ok (leaf symbol :: stack)
  | .const _ => .ok (leaf symbol :: stack)
  | .skolem _ => .ok (leaf symbol :: stack)
  | .op .not =>
    match stack with
    | [] => .error (.missingOperand symbol.render)
    | last :: rest => .ok (last.negate :: rest)
  | .op operator => pushNode symbol 2 operator.isComparison stack
  | .fn f => pushNode symbol f.arity true stack
  | .rel r => pushNode symbol r.arity true stack
  | .binder _ => pushNode symbol 1 false stack
  | _ => .error (.unexpectedToken symbol.render)

/-- The expression that a sequence of symbols in suffix order is. -/
def ofPostfix (symbols : List Symbol) : Except ParseError Expr := do
  match ← symbols.foldlM pushSymbol [] with
  | [] => .error .emptyExpression
  | [e] => .ok e
  | stack => .error (.danglingOperands stack.length)

end Refute.Expr
