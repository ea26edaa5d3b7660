import Refute.Symbol

/-!
# Parse errors

Why a text or a sequence of symbols is not a statement. Each cause holds what its message names.
-/

namespace Refute

/-- Why a text or a sequence of symbols is not a statement. -/
inductive ParseError where
  /-- A closing parenthesis closes nothing. -/
  | missingLeftParen
  /-- A group or a quantifier's list of variables is never closed. -/
  | missingRightParen
  /-- A formula stands where an individual is due. -/
  | compoundArgument (owner : String)
  /-- An application has the wrong number of arguments. -/
  | arityMismatch (name : String) (expected found : Nat)
  /-- A name that was not declared is applied to arguments. -/
  | unknownFunction (name : String)
  /-- A symbol stands where it may not. -/
  | unexpectedToken (token : String)
  /-- A character starts no token; the offset counts bytes. -/
  | unexpectedCharacter (character : Char) (offset : Nat)
  /-- A text literal is never closed; the offset of its quote counts bytes. -/
  | unterminatedString (offset : Nat)
  /-- A number does not fit. -/
  | invalidNumber (text : String)
  /-- An operator, application or comma lacks an operand. -/
  | missingOperand (owner : String)
  /-- Several operands are left that nothing joins. -/
  | danglingOperands (count : Nat)
  /-- There is nothing to read, or nothing between two parentheses. -/
  | emptyExpression
  /-- A quantifier is not followed by a variable. -/
  | emptyQuantifier (quantifier : String)
  deriving DecidableEq

/-- The wording of a parse error. -/
def ParseError.message : ParseError → String
  | missingLeftParen => "missing left parenthesis"
  | missingRightParen => "missing right parenthesis"
  | compoundArgument owner => s!"compound expression used as an argument of `{owner}`"
  | arityMismatch name expected found =>
    s!"`{name}` expects {expected} argument(s), found {found}"
  | unknownFunction name => s!"unknown function `{name}`"
  | unexpectedToken token => s!"unexpected `{token}`"
  | unexpectedCharacter character offset =>
    s!"unexpected character `{character}` at offset {offset}"
  | unterminatedString offset => s!"unterminated string literal starting at offset {offset}"
  | invalidNumber text => s!"invalid number `{text}`"
  | missingOperand owner => s!"`{owner}` is missing an operand"
  | danglingOperands count => s!"{count} operands are not joined by any operator"
  | emptyExpression => "empty expression"
  | emptyQuantifier quantifier => s!"`{quantifier}` is not followed by any variable"

end Refute
