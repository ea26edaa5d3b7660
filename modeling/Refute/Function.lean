import Refute.Value

/-!
# Functions and relations

A function has a name, an arity and, when it can be evaluated, an operation with a signature. A
relation is a function that has to answer with a boolean. A function without an operation takes part
in parsing and in proofs, and only evaluating it fails. Two functions are the same symbol when name
and arity agree.
-/

namespace Refute

/-- Why an expression has no value. -/
inductive EvalError where
  /-- An application has the wrong number of arguments. -/
  | arityMismatch (name : String) (expected found : Nat)
  /-- An operand or a result has the wrong kind. -/
  | kindMismatch (name : String) (expected found : ValueKind)
  /-- A relation answered with something else than a boolean. -/
  | nonBoolean (name : String) (found : ValueKind)
  /-- The function has no operation. -/
  | uninterpreted (name : String)
  /-- The environment gives the variable no value. -/
  | unbound (name : String)
  /-- The symbol has no value. -/
  | notEvaluable (name : String)

/-- The wording of an evaluation error. -/
def EvalError.message : EvalError → String
  | arityMismatch name expected found =>
    s!"`{name}` expects {expected} argument(s), found {found}"
  | kindMismatch name expected found =>
    "`" ++ name ++ "` expected a " ++ expected.render ++ " value, found " ++ found.render
  | nonBoolean name found =>
    "relation `" ++ name ++ "` returned a non-boolean " ++ found.render ++ " value"
  | uninterpreted name => s!"`{name}` has no evaluator"
  | unbound name => s!"variable `{name}` is not bound in the environment"
  | notEvaluable name => s!"`{name}` cannot be evaluated"

/-- The kinds of the arguments and of the result of an operation. -/
structure Signature where
  /-- One kind per argument. -/
  arguments : List ValueKind
  /-- The kind of the result. -/
  result : ValueKind

/-- What a function computes, with the kinds it takes and gives. -/
structure Operation where
  /-- The kinds that are checked before and after running. -/
  signature : Signature
  /-- The computation itself. -/
  run : List Value → Except EvalError Value

/-- A named function of fixed arity. -/
structure Function where
  /-- The name under which it is written. -/
  name : String
  /-- The number of arguments it takes. -/
  arity : Nat
  /-- What it computes, if it can be evaluated. -/
  operation : Option Operation

/-- A function whose answer has to be a boolean. -/
structure Relation where
  /-- The function that decides it. -/
  function : Function

namespace Function

/-- Functions are the same symbol when name and arity agree. -/
instance : BEq Function where
  beq f g := f.name == g.name && f.arity == g.arity

/-- A function known by name and arity only. -/
def uninterpreted (name : String) (arity : Nat) : Function :=
  { name, arity, operation := none }

/-- A function that computes an operation; its arity is that of the signature. -/
def interpreted (name : String) (operation : Operation) : Function :=
  { name, arity := operation.signature.arguments.length, operation := some operation }

/-- The first argument whose kind is not the expected one. -/
def checkKinds (name : String) : List ValueKind → List Value → Except EvalError Unit
  | expected :: kinds, value :: values =>
    if expected = value.kind then checkKinds name kinds values
    else .error (.kindMismatch name expected value.kind)
  | _, _ => .ok ()

/-- Runs the operation once the number and the kinds of the arguments are right. -/
def invoke (f : Function) (values : List Value) : Except EvalError Value :=
  if values.length ≠ f.arity then .error (.arityMismatch f.name f.arity values.length)
  else
    match f.operation with
    | none => .error (.uninterpreted f.name)
    | some operation => do
      checkKinds f.name operation.signature.arguments values
      operation.run values

/-- Runs the operation and checks the kind of its result. -/
def evaluate (f : Function) (values : List Value) : Except EvalError Value := do
  let result ← f.invoke values
  match f.operation with
  | none => .ok result
  | some operation =>
    if result.kind = operation.signature.result then .ok result
    else .error (.kindMismatch f.name operation.signature.result result.kind)

/-- The description of a signature. -/
def describeSignature (signature : Signature) : String :=
  "Signature \x7b args: [" ++ ", ".intercalate (signature.arguments.map ValueKind.title) ++
    "], returns: " ++ signature.result.title ++ " \x7d"

/-- A one-line description of a function: its name, arity, signature and whether it can be run. -/
def describe (f : Function) : String :=
  let signature :=
    match f.operation with
    | none => "None"
    | some operation => "Some(" ++ describeSignature operation.signature ++ ")"
  "Function \x7b name: \"" ++ f.name ++ "\", arity: " ++ toString f.arity ++ ", signature: " ++
    signature ++ ", evaluable: " ++ (if f.operation.isSome then "true" else "false") ++ " \x7d"

end Function

namespace Relation

/-- Relations are the same symbol when their functions are. -/
instance : BEq Relation where
  beq r s := r.function == s.function

/-- The name of a relation. -/
def name (r : Relation) : String := r.function.name

/-- The arity of a relation. -/
def arity (r : Relation) : Nat := r.function.arity

/-- A relation known by name and arity only. -/
def uninterpreted (name : String) (arity : Nat) : Relation :=
  ⟨Function.uninterpreted name arity⟩

/-- A relation decided by a computation on arguments of the given kinds. -/
def interpreted (name : String) (arguments : List ValueKind)
    (run : List Value → Except EvalError Value) : Relation :=
  ⟨Function.interpreted name { signature := { arguments, result := .bool }, run }⟩

/-- Whether the relation holds; an answer that is no boolean is an error. -/
def holds (r : Relation) (values : List Value) : Except EvalError Bool := do
  match ← r.function.invoke values with
  | .bool truth => .ok truth
  | other => .error (.nonBoolean r.name other.kind)

end Relation

end Refute
