import Refute.Settings
import Refute.Statement

/-!
# Problem files

A problem file has one directive on a line. A comment goes from `#` or `%` to the end of its line,
and blank lines are skipped. Directives declare constants, functions and relations, assign settings,
and state premises and goals; a name is declared before it is used, and only once.
-/

namespace Refute

/-- What is wrong with a line of a problem file. -/
inductive ProblemFault where
  /-- The statement cannot be read. -/
  | statement (cause : ParseError)
  /-- The setting cannot be read. -/
  | setting (cause : SettingError)
  /-- A directive that takes a statement has none. -/
  | missingStatement (directive : String)
  /-- The value of a constant cannot be read. -/
  | invalidLiteral (literal : String)
  /-- A function or relation is not declared with a name and an arity. -/
  | invalidDeclaration (text : String)
  /-- The text is not a name. -/
  | invalidName (name : String)
  /-- The name is declared already. -/
  | alreadyDeclared (name : String)
  /-- There is no such directive. -/
  | unknownDirective (directive : String)

/-- A fault and the line it is on, counted from 1. -/
structure ProblemError where
  /-- The number of the line. -/
  line : Nat
  /-- What is wrong with it. -/
  fault : ProblemFault

/-- The wording of a fault. -/
def ProblemFault.message : ProblemFault → String
  | statement cause => cause.message
  | setting cause => cause.message
  | missingStatement directive => s!"`{directive}` needs a statement"
  | invalidLiteral literal => s!"invalid literal `{literal}`"
  | invalidDeclaration text => s!"expected `name(arity)`, found `{text}`"
  | invalidName name => s!"`{name}` is not a valid name"
  | alreadyDeclared name => s!"`{name}` is already declared"
  | unknownDirective directive => s!"unknown directive `{directive}`"

/-- The wording of a problem error. -/
def ProblemError.message (error : ProblemError) : String :=
  "line " ++ toString error.line ++ ": " ++ error.fault.message

/-- Declarations, settings, premises and goals. -/
structure Problem where
  /-- The session in which the statements were read. -/
  session : Session := .empty
  /-- The premises in order. -/
  premises : List Statement := []
  /-- The goals in order. -/
  goals : List Statement := []
  /-- The settings assigned. -/
  settings : Settings := .empty

namespace Problem

/-- A letter or underscore followed by letters, numerals and underscores. -/
def isName : List Char → Bool
  | [] => false
  | first :: rest => Text.startsName first && rest.all Text.continuesName

/-- The text between a quote at the start and a quote at the end. -/
def unquote? : List Char → Option (List Char)
  | '"' :: rest =>
    match rest.getLast? with
    | some '"' => some rest.dropLast
    | _ => none
  | _ => none

/-- Reads the value of a constant: a quoted text, a boolean, an integer or a float. -/
def readLiteral? (text : List Char) : Option Value :=
  match unquote? text with
  | some content => some (.text (String.ofList content))
  | none =>
    if text == "true".toList then some (.bool true)
    else if text == "false".toList then some (.bool false)
    else
      match Decimal.readInteger? text with
      | some number => some (.integer number)
      | none => (Decimal.readFloat? text).map .float

/-- Reads `name(arity)`. -/
def readDeclaration? (text : List Char) : Option (List Char × Nat) := do
  let (name, rest) ← Text.cutAt? (· == '(') text
  if rest.getLast? == some ')' then
    let arity ← Decimal.readCount? (Text.trim rest.dropLast)
    some (Text.trim name, arity)
  else none

/-- Refuses what is no name and what is declared already. -/
def requireNew (problem : Problem) (name : List Char) : Except ProblemFault Unit :=
  let text := String.ofList name
  if !isName name then .error (.invalidName text)
  else if (problem.session.lookup? text).isSome then .error (.alreadyDeclared text)
  else .ok ()

/-- Reads the statement of a directive. -/
def readStatement (problem : Problem) (directive : String) (text : List Char) :
    Except ProblemFault (Statement × Problem) :=
  if text.isEmpty then .error (.missingStatement directive)
  else
    match Statement.parse problem.session (String.ofList text) with
    | (.error cause, _) => .error (.statement cause)
    | (.ok statement, session) => .ok (statement, { problem with session })

/-- Declares a constant; without a value it stands for the text of its name. -/
def readConstant (problem : Problem) (text : List Char) : Except ProblemFault Problem := do
  let (name, value) ← match Text.cutAt? (· == '=') text with
    | none => .ok (text, Value.text (String.ofList text))
    | some (name, literal) =>
      match readLiteral? (Text.trim literal) with
      | none => .error (.invalidLiteral (String.ofList (Text.trim literal)))
      | some value => .ok (Text.trim name, value)
  problem.requireNew name
  .ok { problem with session := problem.session.declareConstant ⟨String.ofList name, value⟩ }

/-- Reads the name and arity of a function or relation that is not declared yet. -/
def readSymbol (problem : Problem) (text : List Char) : Except ProblemFault (String × Nat) := do
  match readDeclaration? text with
  | none => .error (.invalidDeclaration (String.ofList text))
  | some (name, arity) =>
    problem.requireNew name
    .ok (String.ofList name, arity)

/-- Carries out a directive. -/
def directive (problem : Problem) (keyword : String) (text : List Char) :
    Except ProblemFault Problem := do
  match keyword with
  | "axiom" =>
    let (statement, problem) ← problem.readStatement keyword text
    .ok { problem with premises := problem.premises ++ [statement] }
  | "prove" =>
    let (statement, problem) ← problem.readStatement keyword text
    .ok { problem with goals := problem.goals ++ [statement] }
  | "constant" => problem.readConstant text
  | "function" =>
    let (name, arity) ← problem.readSymbol text
    .ok { problem with
      session := problem.session.declareFunction (Function.uninterpreted name arity) }
  | "relation" =>
    let (name, arity) ← problem.readSymbol text
    .ok { problem with
      session := problem.session.declareRelation (Relation.uninterpreted name arity) }
  | "assign" =>
    match problem.settings.assign (String.ofList text) with
    | .error cause => .error (.setting cause)
    | .ok settings => .ok { problem with settings }
  | other => .error (.unknownDirective other)

/-- A line without its comment and without the blanks around it. -/
def content (line : List Char) : List Char :=
  Text.trim (line.takeWhile fun c => c != '#' && c != '%')

/-- The first word of a line and the trimmed rest. -/
def words (line : List Char) : List Char × List Char :=
  match Text.cutAt? Text.isBlank line with
  | some (keyword, rest) => (keyword, Text.trim rest)
  | none => (line, [])

/-- Reads one line with its number. -/
def readLine (problem : Problem) (line : List Char × Nat) : Except ProblemError Problem :=
  match content line.1 with
  | [] => .ok problem
  | text =>
    let (keyword, rest) := words text
    (problem.directive (String.ofList keyword) rest).mapError fun fault => ⟨line.2, fault⟩

/-- Reads a problem file up to the first faulty line. -/
def parse (text : String) : Except ProblemError Problem :=
  let start : Problem := {}
  ((Text.lines text.toList).zipIdx 1).foldlM readLine start

end Problem

end Refute
