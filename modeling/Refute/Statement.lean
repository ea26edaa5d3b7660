import Refute.Clause.Form
import Refute.Expr.Postfix
import Refute.Infix
import Refute.Normal.Form
import Refute.Token.Lexer

/-!
# Statements

A statement is a sequence of symbols in suffix order together with the expression it is. Its
clauses, and the clauses of its negation, are read off conjunctive normal forms that take new
numbers from the session.
-/

namespace Refute

/-- Symbols in suffix order and the expression they are. -/
structure Statement where
  /-- The symbols as they were read. -/
  symbols : List Symbol
  /-- The expression. -/
  formula : Expr

namespace Statement

/-- The statement that a sequence of symbols in suffix order is. -/
def ofPostfix (symbols : List Symbol) : Except ParseError Statement := do
  .ok ⟨symbols, ← Expr.ofPostfix symbols⟩

/-- The statement that a sequence of infix symbols is. -/
def ofInfix (symbols : List Symbol) : Except ParseError Statement := do
  ofPostfix (← Infix.toPostfix symbols)

/-- Reads a statement in a session. -/
def parse (session : Session) (text : String) : Except ParseError Statement × Session :=
  let (tokens, session) := session.tokenize text
  (tokens.bind ofInfix, session)

/-- A statement is printed as its symbols. -/
def render (statement : Statement) : String := Symbol.renderAll statement.symbols

/-- The symbols of the conjunctive normal form in suffix order. -/
def cnfSymbols (session : Session) (statement : Statement) : List Symbol × Session :=
  let (form, session) := statement.formula.toCnf session
  (form.toPostfix, session)

/-- The clauses of the statement. -/
def clauses (session : Session) (statement : Statement) :
    Except ClauseError ClausalForm × Session :=
  let (symbols, session) := statement.cnfSymbols session
  (ClausalForm.ofPostfix symbols, session)

/-- The clauses of the negation of the statement. -/
def negatedClauses (session : Session) (statement : Statement) :
    Except ClauseError ClausalForm × Session :=
  let (form, session) := statement.formula.negate.toCnf session
  (ClausalForm.ofPostfix form.toPostfix, session)

end Statement

end Refute
