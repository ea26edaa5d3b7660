import Refute.ParseError

/-!
# From infix to suffix order

Symbols are read one at a time. Operands go out at once; operators, quantifiers and applications
wait on a stack until their operands are complete. Operators of at least the precedence of a new one
leave the stack before it, so all of them associate to the left, and negation, which stands before
its operand, makes nothing leave. A quantifier reaches to the end of the group around it, so it
leaves when that group closes. The commas of an argument list are counted and checked against the
arity.
-/

namespace Refute

/-- What waits for its operands, or for its group to close. -/
inductive Pending where
  /-- An operator whose right operand is being read. -/
  | operator (operator : Operator)
  /-- A quantifier whose body is being read. -/
  | scope (binder : Binder)
  /-- A parenthesis that groups; nothing was read in it yet if it is empty. -/
  | group (empty : Bool)
  /-- An argument list with the number of commas read; it is empty if nothing was read since it
  opened or since its last comma. -/
  | call (owner : Symbol) (commas : Nat) (empty : Bool)

/-- What the next symbols may complete before anything else is read. -/
inductive Awaited where
  /-- Nothing in particular. -/
  | nothing
  /-- The argument list of a function or relation. -/
  | arguments (owner : Symbol)
  /-- The variables of a quantifier. -/
  | header (quantifier : Quantifier)
  /-- The next variable in the list of a quantifier. -/
  | listed (quantifier : Quantifier) (found : List Variable)
  /-- A comma or the end of the list of a quantifier. -/
  | delimiter (quantifier : Quantifier) (found : List Variable)
  /-- The mark that may stand between the variables of a quantifier and its body. -/
  | body

/-- The state of the reader of infix symbols. -/
structure Infix where
  /-- The symbols in suffix order so far. -/
  output : List Symbol := []
  /-- What waits, the innermost first. -/
  pending : List Pending := []
  /-- What the next symbols may complete. -/
  awaited : Awaited := .nothing

namespace Pending

/-- The symbol that goes out when nothing more is to be read for it. -/
def symbol? : Pending → Option Symbol
  | operator o => some (.op o)
  | scope b => some (.binder b)
  | group _ => none
  | call _ _ _ => none

/-- A group or an argument list that a parenthesis has to close. -/
def isOpen (entry : Pending) : Bool := entry.symbol?.isNone

/-- An operator that leaves before a new operator of the given precedence waits. -/
def yieldsTo (precedence : Nat) : Pending → Bool
  | operator o => precedence ≤ o.precedence
  | _ => false

/-- The innermost group or argument list is no longer empty. -/
def fill : List Pending → List Pending
  | [] => []
  | group _ :: rest => group false :: rest
  | call owner commas _ :: rest => call owner commas false :: rest
  | entry :: rest => entry :: fill rest

end Pending

namespace Infix

/-- Sends out what waits on top of the stack as long as it satisfies the test. -/
def flushWhile (test : Pending → Bool) (state : Infix) : Infix :=
  { state with
    output := state.output ++ (state.pending.takeWhile test).filterMap Pending.symbol?
    pending := state.pending.dropWhile test }

/-- Sends out everything that waits inside the innermost group. -/
def flushGroup (state : Infix) : Infix :=
  state.flushWhile fun entry => !entry.isOpen

/-- Sends out a symbol. -/
def emit (state : Infix) (symbol : Symbol) : Infix :=
  { state with output := state.output ++ [symbol] }

/-- Lets an entry wait. -/
def suspend (state : Infix) (entry : Pending) : Infix :=
  { state with pending := entry :: state.pending }

/-- Sends out an application that has the given number of arguments. -/
def emitApplied (state : Infix) (owner : Symbol) (found : Nat) : Except ParseError Infix :=
  let expected := owner.arity?.getD 0
  if expected = found then .ok (state.emit owner)
  else .error (.arityMismatch owner.render expected found)

/-- A comma ends an argument, which may not be empty, of the innermost argument list. -/
def readComma (state : Infix) : Except ParseError Infix :=
  let flushed := state.flushGroup
  match flushed.pending with
  | .call owner commas empty :: rest =>
    if empty then .error (.missingOperand ",")
    else .ok { flushed with pending := .call owner (commas + 1) true :: rest }
  | _ => .error (.unexpectedToken ",")

/-- A closing parenthesis ends the innermost group or argument list. -/
def readClose (state : Infix) : Except ParseError Infix :=
  let flushed := state.flushGroup
  match flushed.pending with
  | .group empty :: rest =>
    if empty then .error .emptyExpression else .ok { flushed with pending := rest }
  | .call owner commas empty :: rest =>
    if empty && 0 < commas then .error (.missingOperand ",")
    else
      { flushed with pending := rest }.emitApplied owner (if empty then 0 else commas + 1)
  | _ => .error .missingLeftParen

/-- A symbol that fills the innermost group. -/
def readContent (state : Infix) (symbol : Symbol) : Except ParseError Infix :=
  match symbol with
  | .var _ => .ok (state.emit symbol)
  | .const _ => .ok (state.emit symbol)
  | .skolem _ => .ok (state.emit symbol)
  | .fn _ => .ok { state with awaited := .arguments symbol }
  | .rel _ => .ok { state with awaited := .arguments symbol }
  | .leftParen => .ok (state.suspend (.group true))
  | .op .not => .ok (state.suspend (.operator .not))
  | .op operator =>
    .ok ((state.flushWhile (Pending.yieldsTo operator.precedence)).suspend (.operator operator))
  | .quantifier q => .ok { state with awaited := .header q }
  | .binder b => .ok (state.suspend (.scope b))
  | other => .error (.unexpectedToken other.render)

/-- Reads a symbol when nothing in particular is awaited. -/
def readFree (state : Infix) (symbol : Symbol) : Except ParseError Infix :=
  match symbol with
  | .comma => state.readComma
  | .rightParen => state.readClose
  | other => { state with pending := Pending.fill state.pending }.readContent other

/-- The variables of a quantifier are complete: it waits for its body. -/
def openScope (state : Infix) (quantifier : Quantifier) (bound : List Variable) : Infix :=
  { state.suspend (.scope ⟨quantifier, bound⟩) with awaited := .body }

/-- Reads one symbol. -/
def step (state : Infix) (symbol : Symbol) : Except ParseError Infix :=
  let free := { state with awaited := .nothing }
  match state.awaited, symbol with
  | .nothing, symbol => free.readFree symbol
  | .arguments owner, .leftParen => .ok (free.suspend (.call owner 0 true))
  | .arguments owner, symbol => do (← free.emitApplied owner 0).readFree symbol
  | .header q, .var v => .ok (free.openScope q [v])
  | .header q, .leftParen => .ok { state with awaited := .listed q [] }
  | .header q, _ => .error (.emptyQuantifier q.render)
  | .listed q found, .var v => .ok { state with awaited := .delimiter q (found ++ [v]) }
  | .listed _ _, other => .error (.unexpectedToken other.render)
  | .delimiter q found, .comma => .ok { state with awaited := .listed q found }
  | .delimiter q found, .rightParen => .ok (free.openScope q found)
  | .delimiter _ _, other => .error (.unexpectedToken other.render)
  | .body, .comma => .ok free
  | .body, .suchThat => .ok free
  | .body, symbol => free.readFree symbol

/-- Settles what is still awaited when the symbols end. -/
def settle (state : Infix) : Except ParseError Infix :=
  match state.awaited with
  | .nothing => .ok state
  | .body => .ok state
  | .arguments owner => state.emitApplied owner 0
  | .header q => .error (.emptyQuantifier q.render)
  | .listed _ _ => .error .missingRightParen
  | .delimiter _ _ => .error .missingRightParen

/-- Sends out all that waits; an open group is an error. -/
def finish (state : Infix) : Except ParseError (List Symbol) := do
  let flushed := (← state.settle).flushGroup
  match flushed.pending with
  | [] => .ok flushed.output
  | _ => .error .missingRightParen

/-- The symbols of an infix sequence in suffix order. -/
def toPostfix (symbols : List Symbol) : Except ParseError (List Symbol) := do
  let start : Infix := {}
  (← symbols.foldlM step start).finish

end Infix

end Refute
