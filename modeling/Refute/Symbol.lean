import Refute.Function

/-!
# Symbols

The vocabulary of statements: names, operators, quantifiers and punctuation. A statement is written
as a sequence of symbols, infix or in suffix order. Equality of symbols is identity of what they
stand for: a variable is its number and the space the number comes from, a Skolem function is its
number, a function or relation is its name and arity, and a constant is its name and value.
-/

namespace Refute

/-- Logical and comparison operators. -/
inductive Operator where
  | not
  | equals
  | notEquals
  | and
  | or
  | implication
  | biconditional
  deriving DecidableEq

/-- The two quantifiers. -/
inductive Quantifier where
  | universal
  | existential
  deriving DecidableEq

/-- A variable; the name serves display and rebinding, not identity. -/
structure Variable where
  /-- The name it was written with. -/
  name : String
  /-- Its number among the variables of its space. -/
  id : Nat
  /-- It was made while renaming apart, not while reading text. -/
  system : Bool
  /-- It is bound by a universal quantifier. -/
  universal : Bool

/-- A named constant. -/
structure Constant where
  /-- The name, or the spelling of a literal. -/
  name : String
  /-- What it denotes. -/
  value : Value
  deriving BEq

/-- A quantifier together with the variables it binds. -/
structure Binder where
  /-- Which quantifier. -/
  quantifier : Quantifier
  /-- The bound variables in order. -/
  bound : List Variable

/-- A function that stands for an existential variable. -/
structure Skolem where
  /-- Its number. -/
  id : Nat
  /-- The universal variables in whose scope the existential stood. -/
  arguments : List Variable

/-- Everything that can stand in a statement. -/
inductive Symbol where
  | var (v : Variable)
  | const (c : Constant)
  | fn (f : Function)
  | rel (r : Relation)
  | op (o : Operator)
  /-- A quantifier whose variables are still to be read. -/
  | quantifier (q : Quantifier)
  | binder (b : Binder)
  | skolem (s : Skolem)
  | leftParen
  | rightParen
  | comma
  | suchThat

namespace Operator

/-- How tightly an operator binds. -/
def precedence : Operator → Nat
  | not => 5
  | equals => 4
  | notEquals => 4
  | and => 3
  | or => 2
  | implication => 1
  | biconditional => 0

/-- Negation is the only operator with one operand. -/
def isUnary : Operator → Bool
  | not => true
  | _ => false

/-- The operators that join formulas. -/
def isConnective : Operator → Bool
  | and => true
  | or => true
  | implication => true
  | biconditional => true
  | _ => false

/-- The operators that compare values. -/
def isComparison : Operator → Bool
  | equals => true
  | notEquals => true
  | _ => false

/-- The written form of an operator. -/
def render : Operator → String
  | not => "!"
  | equals => "=="
  | notEquals => "!="
  | and => "AND"
  | or => "OR"
  | implication => "=>"
  | biconditional => "<=>"

end Operator

namespace Quantifier

/-- The quantifier that negation turns this one into. -/
def dual : Quantifier → Quantifier
  | .universal => .existential
  | .existential => .universal

/-- The written form of a quantifier. -/
def render : Quantifier → String
  | .universal => "FORALL"
  | .existential => "EXISTS"

end Quantifier

namespace Variable

/-- Variables are the same when their numbers and the spaces of the numbers agree. -/
instance : BEq Variable where
  beq v w := v.id == w.id && v.system == w.system

/-- Variables made while renaming apart are written by number, others by name. -/
def render (v : Variable) : String :=
  if v.system then "?" ++ toString v.id else v.name

end Variable

namespace Binder

/-- Binders are the same when quantifier and variables agree. -/
instance : BEq Binder where
  beq b c := b.quantifier == c.quantifier && b.bound == c.bound

/-- A binder is written as its quantifier and the list of its variables. -/
def render (b : Binder) : String :=
  b.quantifier.render ++ "(" ++ ",".intercalate (b.bound.map Variable.render) ++ ")"

end Binder

namespace Skolem

/-- Skolem functions are the same when their numbers agree. -/
instance : BEq Skolem where
  beq s t := s.id == t.id

/-- A Skolem function is written with the variables it was made under. -/
def render (s : Skolem) : String :=
  "$" ++ toString s.id ++ "(" ++ ", ".intercalate (s.arguments.map Variable.render) ++ ")"

end Skolem

namespace Symbol

/-- Identity of symbols: the same constructor, and the same thing under it. -/
def same : Symbol → Symbol → Bool
  | var v, var w => v == w
  | const c, const d => c == d
  | fn f, fn g => f == g
  | rel r, rel s => r == s
  | op o, op p => o == p
  | quantifier q, quantifier r => q == r
  | binder b, binder c => b == c
  | skolem s, skolem t => s == t
  | leftParen, leftParen => true
  | rightParen, rightParen => true
  | comma, comma => true
  | suchThat, suchThat => true
  | _, _ => false

/-- Equality of symbols is identity. -/
instance : BEq Symbol where
  beq := same

/-- Variables, constants and Skolem functions stand alone as operands. -/
def isOperand : Symbol → Bool
  | var _ => true
  | const _ => true
  | skolem _ => true
  | _ => false

/-- Functions and relations take arguments. -/
def isApplication : Symbol → Bool
  | fn _ => true
  | rel _ => true
  | _ => false

/-- The declared arity of a function or relation. -/
def arity? : Symbol → Option Nat
  | fn f => some f.arity
  | rel r => some r.arity
  | _ => none

/-- The operator that a symbol is. -/
def operator? : Symbol → Option Operator
  | op o => some o
  | _ => none

/-- A connective joins formulas. -/
def isConnective : Symbol → Bool
  | op o => o.isConnective
  | _ => false

/-- A quantifier with its variables. -/
def isBinder : Symbol → Bool
  | binder _ => true
  | _ => false

/-- The written form of a symbol. -/
def render : Symbol → String
  | var v => v.render
  | const c => c.name
  | fn f => f.name
  | rel r => r.name
  | op o => o.render
  | quantifier q => q.render
  | binder b => b.render
  | skolem s => s.render
  | leftParen => "("
  | rightParen => ")"
  | comma => ","
  | suchThat => ":"

/-- A sequence of symbols is written with single spaces between them. -/
def renderAll (symbols : List Symbol) : String :=
  " ".intercalate (symbols.map render)

end Symbol

end Refute
