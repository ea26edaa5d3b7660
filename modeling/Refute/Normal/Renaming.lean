import Refute.Expr.Basic
import Refute.Session

/-!
# Renaming apart

Every quantifier gets variables of its own, taken from the session's counter in the order in which
the quantifiers are met, outer before inner and left before right. An occurrence is renamed to the
variable of the innermost quantifier that binds its name, the last one of that name in its list. A
free name gets one variable for the whole expression when it is first met. Variables bound by a
universal quantifier are marked universal, all others are not.
-/

namespace Refute

/-- What a renaming has handed out so far. -/
structure Renaming where
  /-- The number of the next variable. -/
  next : Nat
  /-- The variables of the free names met so far. -/
  free : List (String × Variable) := []

namespace Renaming

/-- A renamed variable. -/
def renamed (name : String) (id : Nat) (universal : Bool) : Variable :=
  { name, id, system := true, universal }

/-- Renamed variables with consecutive numbers. -/
def number (universal : Bool) (next : Nat) : List Variable → List Variable
  | [] => []
  | v :: rest => renamed v.name next universal :: number universal (next + 1) rest

/-- The scope inside a quantifier: its variables shadow those around it, later ones earlier ones. -/
def extend (scope : List (String × Variable)) (bound : List Variable) :
    List (String × Variable) :=
  bound.foldl (fun scope v => (v.name, v) :: scope) scope

/-- The variable of an occurrence of a name. -/
def resolve (scope : List (String × Variable)) (state : Renaming) (name : String) :
    Variable × Renaming :=
  match scope.find? (·.1 == name), state.free.find? (·.1 == name) with
  | some entry, _ => (entry.2, state)
  | none, some entry => (entry.2, state)
  | none, none =>
    let fresh := renamed name state.next false
    (fresh, { next := state.next + 1, free := (name, fresh) :: state.free })

end Renaming

namespace Expr

mutual

/-- Renames the variables of an expression inside the given scope. -/
def rename (scope : List (String × Variable)) (state : Renaming) : Expr → Expr × Renaming
  | ⟨.binder b, negated, args⟩ =>
    let bound := Renaming.number (b.quantifier == .universal) state.next b.bound
    let (args, state) := renameArgs (Renaming.extend scope bound)
      { state with next := state.next + b.bound.length } args
    (⟨.binder { b with bound }, negated, args⟩, state)
  | ⟨.var v, negated, args⟩ =>
    let (renamed, state) := Renaming.resolve scope state v.name
    (⟨.var renamed, negated, args⟩, state)
  | ⟨head, negated, args⟩ =>
    let (args, state) := renameArgs scope state args
    (⟨head, negated, args⟩, state)

/-- Renames the variables of arguments from left to right. -/
def renameArgs (scope : List (String × Variable)) (state : Renaming) :
    List Expr → List Expr × Renaming
  | [] => ([], state)
  | a :: as =>
    let (a, state) := rename scope state a
    let (as, state) := renameArgs scope state as
    (a :: as, state)

end

/-- Renames all variables of an expression apart from everything in the session. -/
def standardize (session : Session) (e : Expr) : Expr × Session :=
  let (apart, state) := rename [] { next := session.nextSystem } e
  (apart, { session with nextSystem := state.next })

end Expr

end Refute
