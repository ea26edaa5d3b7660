import Refute.Symbol

/-!
# Expressions

An expression is a symbol, possibly negated, applied to arguments. Formulas, the literals of
clauses and the terms inside them are all expressions, because the language does not separate
individuals from propositions: a variable may stand as a formula, and an argument may be negated.
Nothing forces the number of arguments to suit the symbol; the operations say what they do when it
does not.

Equality of expressions compares symbols by identity, signs and arguments. `Expr.sameAtom` is
equality apart from the outermost sign.
-/

namespace Refute

/-- A symbol, possibly negated, applied to arguments. -/
structure Expr where
  /-- The outermost symbol. -/
  head : Symbol
  /-- The expression is negated as a whole. -/
  negated : Bool
  /-- What the symbol is applied to. -/
  args : List Expr

namespace Expr

/-- A property that passes from the arguments to every application holds of all expressions. -/
@[elab_as_elim]
theorem induction {motive : Expr → Prop}
    (node : ∀ head negated args, (∀ arg ∈ args, motive arg) → motive ⟨head, negated, args⟩)
    (e : Expr) : motive e := by
  refine @Expr.rec motive (fun args => ∀ arg ∈ args, motive arg) node ?_ ?_ e
  · intro arg member
    exact absurd member List.not_mem_nil
  · intro first others holdsFirst holdsOthers arg member
    rcases List.mem_cons.1 member with rfl | later
    · exact holdsFirst
    · exact holdsOthers arg later

/-- A symbol that is applied to nothing. -/
def leaf (head : Symbol) : Expr := ⟨head, false, []⟩

/-- A symbol applied to arguments, not negated. -/
def node (head : Symbol) (args : List Expr) : Expr := ⟨head, false, args⟩

/-- Two expressions joined by an operator. -/
def binary (operator : Operator) (left right : Expr) : Expr :=
  node (.op operator) [left, right]

/-- A variable as an expression. -/
def ofVariable (v : Variable) : Expr := leaf (.var v)

/-- A Skolem function applied to the variables it was made under. -/
def ofSkolem (s : Skolem) : Expr := node (.skolem s) (s.arguments.map ofVariable)

/-- The negation of an expression. -/
def negate (e : Expr) : Expr := { e with negated := !e.negated }

/-- The expression without its outermost negation. -/
def positive (e : Expr) : Expr := { e with negated := false }

mutual

/-- Equality of symbols, signs and arguments. -/
def same : Expr → Expr → Bool
  | ⟨f, n, as⟩, ⟨g, m, bs⟩ => f == g && n == m && sameArgs as bs

/-- Equality of argument lists. -/
def sameArgs : List Expr → List Expr → Bool
  | [], [] => true
  | a :: as, b :: bs => same a b && sameArgs as bs
  | _, _ => false

end

/-- Equality of expressions is equality of symbols, signs and arguments. -/
instance : BEq Expr where
  beq := same

/-- Equality apart from the outermost sign. -/
def sameAtom (e f : Expr) : Bool :=
  e.head == f.head && sameArgs e.args f.args

mutual

/-- The number of symbols in an expression. -/
def size : Expr → Nat
  | ⟨_, _, args⟩ => sizeArgs args + 1

/-- The number of symbols in a list of arguments. -/
def sizeArgs : List Expr → Nat
  | [] => 0
  | a :: as => size a + sizeArgs as

end

/-- Every expression holds a symbol. -/
theorem size_pos (e : Expr) : 0 < e.size := by
  cases e
  simp [size]

mutual

/-- The expression sought is equal to the given one or to something inside it. -/
def occursIn (sought : Expr) : Expr → Bool
  | ⟨head, negated, args⟩ => same ⟨head, negated, args⟩ sought || occursInArgs sought args

/-- The expression sought occurs in one of the arguments. -/
def occursInArgs (sought : Expr) : List Expr → Bool
  | [] => false
  | a :: as => occursIn sought a || occursInArgs sought as

end

/-- Occurrence in arguments is occurrence in one of them. -/
theorem occursInArgs_eq_any (sought : Expr) (args : List Expr) :
    occursInArgs sought args = args.any (occursIn sought) := by
  induction args with
  | nil => rfl
  | cons a as ih => simp [occursInArgs, ih]

mutual

/-- The expression sought is, apart from its sign, equal to the given one or to something inside
it. -/
def atomOccursIn (sought : Expr) : Expr → Bool
  | ⟨head, negated, args⟩ =>
    sameAtom ⟨head, negated, args⟩ sought || atomOccursInArgs sought args

/-- The expression sought occurs, apart from its sign, in one of the arguments. -/
def atomOccursInArgs (sought : Expr) : List Expr → Bool
  | [] => false
  | a :: as => atomOccursIn sought a || atomOccursInArgs sought as

end

/-- Occurrence in arguments apart from the sign is such an occurrence in one of them. -/
theorem atomOccursInArgs_eq_any (sought : Expr) (args : List Expr) :
    atomOccursInArgs sought args = args.any (atomOccursIn sought) := by
  induction args with
  | nil => rfl
  | cons a as ih => simp [atomOccursInArgs, ih]

/-- Adds a variable to a list that does not hold it yet. -/
def addVariable (found : List Variable) (v : Variable) : List Variable :=
  if found.contains v then found else found ++ [v]

mutual

/-- The variables of an expression added to those found before, in order of first occurrence. -/
def collectVariables (found : List Variable) : Expr → List Variable
  | ⟨.var v, _, args⟩ => collectVariablesArgs (addVariable found v) args
  | ⟨_, _, args⟩ => collectVariablesArgs found args

/-- The variables of the arguments added to those found before. -/
def collectVariablesArgs (found : List Variable) : List Expr → List Variable
  | [] => found
  | a :: as => collectVariablesArgs (collectVariables found a) as

end

/-- The variables of arguments are collected from one argument after the other. -/
theorem collectVariablesArgs_eq_foldl (found : List Variable) (args : List Expr) :
    collectVariablesArgs found args = args.foldl collectVariables found := by
  induction args generalizing found with
  | nil => rfl
  | cons a as ih => simp [collectVariablesArgs, ih]

/-- The variables of an expression in order of first occurrence. -/
def vars (e : Expr) : List Variable := collectVariables [] e

/-- What part an expression plays in unification. -/
inductive Kind where
  | var
  | skolem
  | constant
  /-- A symbol other than a variable or Skolem function, applied to arguments. -/
  | complex
  deriving DecidableEq

/-- The kind of an expression. -/
def kind (e : Expr) : Kind :=
  match e.head with
  | .var _ => .var
  | .skolem _ => .skolem
  | _ => if e.args.isEmpty then .constant else .complex

/-- The expression is headed by a variable. -/
def isVariable (e : Expr) : Bool :=
  match e.head with
  | .var _ => true
  | _ => false

/-- Variables and Skolem terms both stand for unknown individuals. -/
def isUnknown (e : Expr) : Bool :=
  match e.head with
  | .var _ => true
  | .skolem _ => true
  | _ => false

/-- The variable that heads the expression. -/
def asVariable? (e : Expr) : Option Variable :=
  match e.head with
  | .var v => some v
  | _ => none

/-- The operator that heads the expression. -/
def operator? (e : Expr) : Option Operator := e.head.operator?

/-- Headed by a connective. -/
def isConnective (e : Expr) : Bool := e.head.isConnective

/-- Headed by neither a connective nor a quantifier. -/
def isAtomic (e : Expr) : Bool := !e.isConnective && !e.head.isBinder

end Expr

end Refute
