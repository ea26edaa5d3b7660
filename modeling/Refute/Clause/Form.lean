import Refute.Clause.Basic

/-!
# Clausal forms

A clausal form is a conjunction of clauses. It is read off symbols in suffix order with a stack of
disjunctions: an atom is pushed, `OR` merges the last two, and `AND` finishes the last two, or the
last one if there is only one. What remains on the stack at the end is finished too.
-/

namespace Refute

/-- A conjunction of clauses. -/
structure ClausalForm where
  /-- The clauses in order. -/
  clauses : List Clause

/-- The state of the reader of clauses. -/
structure ClauseReader where
  /-- The disjunctions that are not finished, the last one first. -/
  stack : List Clause := []
  /-- The finished clauses in order. -/
  finished : List Clause := []

namespace ClauseReader

/-- Pushes a literal as a disjunction of its own. -/
def push (reader : ClauseReader) (literal : Expr) : ClauseReader :=
  { reader with stack := Clause.singleton literal :: reader.stack }

/-- Takes the last disjunctions, each a single literal, off the stack. -/
def pop (reader : ClauseReader) (count : Nat) (owner : Symbol) :
    Except ClauseError (List Expr × ClauseReader) :=
  if reader.stack.length < count then .error (.missingOperand owner.render)
  else do
    let args ← (reader.stack.take count).reverse.mapM Clause.single
    .ok (args, { reader with stack := reader.stack.drop count })

/-- Replaces the last literals by the application of a symbol to them. -/
def apply (reader : ClauseReader) (owner : Symbol) (arity : Nat) : Except ClauseError ClauseReader := do
  let (args, rest) ← reader.pop arity owner
  .ok (rest.push (Expr.node owner args))

/-- Replaces the last two literals by an equation between them, or by its negation. -/
def equate (reader : ClauseReader) (operator : Operator) : Except ClauseError ClauseReader := do
  let (args, rest) ← reader.pop 2 (.op operator)
  .ok (rest.push ⟨.op .equals, operator == .notEquals, args⟩)

/-- Merges the last two disjunctions. -/
def disjoin (reader : ClauseReader) : Except ClauseError ClauseReader :=
  match reader.stack with
  | right :: left :: rest => .ok { reader with stack := left.merge right :: rest }
  | _ => .error (.missingOperand (Operator.render .or))

/-- Finishes the last two disjunctions, or the only one. -/
def conjoin (reader : ClauseReader) : ClauseReader :=
  match reader.stack with
  | right :: left :: rest => ⟨rest, reader.finished ++ [left, right]⟩
  | [only] => ⟨[], reader.finished ++ [only]⟩
  | [] => reader

/-- What one symbol does to the state. -/
def step (reader : ClauseReader) (symbol : Symbol) : Except ClauseError ClauseReader :=
  match symbol with
  | .var _ => .ok (reader.push (Expr.leaf symbol))
  | .const _ => .ok (reader.push (Expr.leaf symbol))
  | .skolem s => .ok (reader.push (Expr.ofSkolem s))
  | .fn f => reader.apply symbol f.arity
  | .rel r => reader.apply symbol r.arity
  | .op .not =>
    match reader.stack with
    | [] => .error (.missingOperand symbol.render)
    | last :: rest => do
      let literal ← last.single
      .ok ({ reader with stack := rest }.push literal.negate)
  | .op .equals => reader.equate .equals
  | .op .notEquals => reader.equate .notEquals
  | .op .or => reader.disjoin
  | .op .and => .ok reader.conjoin
  | .op .implication => .error (.notNormalized symbol.render)
  | .op .biconditional => .error (.notNormalized symbol.render)
  | .quantifier _ => .error (.notNormalized symbol.render)
  | .binder _ => .error (.notNormalized symbol.render)
  | _ => .error (.unexpectedSymbol symbol.render)

end ClauseReader

namespace ClausalForm

/-- The clauses of a sequence of symbols in suffix order. -/
def ofPostfix (symbols : List Symbol) : Except ClauseError ClausalForm := do
  let start : ClauseReader := {}
  let reader ← symbols.foldlM ClauseReader.step start
  .ok ⟨reader.finished ++ reader.stack.reverse⟩

/-- A clausal form is printed as its clauses joined by `AND`, each in parentheses if there are
several. -/
def render (form : ClausalForm) : String :=
  match form.clauses with
  | [] => "TRUE"
  | [clause] => clause.render
  | clauses => " AND ".intercalate (clauses.map fun clause => "(" ++ clause.render ++ ")")

end ClausalForm

end Refute
