import Refute.Symbol

/-!
# Sessions

A session holds the declared names, the active bindings of variable names, and the counters from
which variables and Skolem functions take their numbers. All statements of a session share it, so
numbers never repeat. Lists of declarations and bindings have the latest entry first, and the latest
entry of a name counts.
-/

namespace Refute

/-- Declared names, active bindings and counters. -/
structure Session where
  /-- The active bindings of variable names, the innermost first. -/
  bindings : List (String × Variable) := []
  /-- The declared functions, the latest first. -/
  functions : List Function := []
  /-- The declared relations, the latest first. -/
  relations : List Relation := []
  /-- The declared constants, the latest first. -/
  constants : List Constant := []
  /-- The number of the next variable read from text. -/
  nextVariable : Nat := 0
  /-- The number of the next variable made while renaming apart. -/
  nextSystem : Nat := 0
  /-- The number of the next Skolem function. -/
  nextSkolem : Nat := 0

namespace Session

/-- The session in which nothing is declared or bound. -/
def empty : Session := {}

/-- A variable with the next number, whose name is not bound. -/
def freshVariable (session : Session) (name : String) : Variable × Session :=
  ({ name, id := session.nextVariable, system := false, universal := false },
    { session with nextVariable := session.nextVariable + 1 })

/-- A variable with the next number, to which its name is now bound. -/
def bindVariable (session : Session) (name : String) : Variable × Session :=
  let (v, session) := session.freshVariable name
  (v, { session with bindings := (name, v) :: session.bindings })

/-- The innermost binding of a name. -/
def binding? (session : Session) (name : String) : Option Variable :=
  (session.bindings.find? (·.1 == name)).map (·.2)

/-- Drops the innermost binding of a name and brings back the one beneath it. -/
def unbind (session : Session) (name : String) : Option Variable × Session :=
  (session.binding? name,
    { session with bindings := session.bindings.eraseP (·.1 == name) })

/-- A variable of the renaming space with the next number. -/
def systemVariable (session : Session) (name : String) (universal : Bool) : Variable × Session :=
  ({ name, id := session.nextSystem, system := true, universal },
    { session with nextSystem := session.nextSystem + 1 })

/-- A Skolem function with the next number. -/
def freshSkolem (session : Session) (arguments : List Variable) : Skolem × Session :=
  ({ id := session.nextSkolem, arguments },
    { session with nextSkolem := session.nextSkolem + 1 })

/-- Declares a function; an earlier function of that name is replaced. -/
def declareFunction (session : Session) (f : Function) : Session :=
  { session with functions := f :: session.functions }

/-- Declares a relation; an earlier relation of that name is replaced. -/
def declareRelation (session : Session) (r : Relation) : Session :=
  { session with relations := r :: session.relations }

/-- Declares a constant; an earlier constant of that name is replaced. -/
def declareConstant (session : Session) (c : Constant) : Session :=
  { session with constants := c :: session.constants }

/-- The function declared under a name. -/
def function? (session : Session) (name : String) : Option Function :=
  session.functions.find? (·.name == name)

/-- The relation declared under a name. -/
def relation? (session : Session) (name : String) : Option Relation :=
  session.relations.find? (·.name == name)

/-- The constant declared under a name. -/
def constant? (session : Session) (name : String) : Option Constant :=
  session.constants.find? (·.name == name)

/-- What a declared name stands for: a relation first, then a function, then a constant. -/
def lookup? (session : Session) (name : String) : Option Symbol :=
  match session.relation? name, session.function? name, session.constant? name with
  | some r, _, _ => some (.rel r)
  | none, some f, _ => some (.fn f)
  | none, none, some c => some (.const c)
  | none, none, none => none

end Session

end Refute
