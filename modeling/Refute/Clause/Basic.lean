import Refute.Expr.Print

/-!
# Clauses

A clause is a disjunction of literals, kept in order and without repeats. Two clauses are equal when
each holds the literals of the other. The empty clause is a contradiction.
-/

namespace Refute

/-- Why symbols in suffix order are not clauses, or a clause is not a literal. -/
inductive ClauseError where
  /-- An operator or application lacks an operand. -/
  | missingOperand (owner : String)
  /-- A disjunction of this many literals stands where one literal is due. -/
  | notSingleLiteral (count : Nat)
  /-- The symbol does not occur in conjunctive normal form. -/
  | notNormalized (symbol : String)
  /-- The symbol is punctuation. -/
  | unexpectedSymbol (symbol : String)
  deriving DecidableEq

/-- The wording of a clause error. -/
def ClauseError.message : ClauseError → String
  | missingOperand owner => s!"`{owner}` is missing an operand"
  | notSingleLiteral count => s!"expected a single term, found a disjunction of {count}"
  | notNormalized symbol => s!"`{symbol}` must be removed before clauses can be formed"
  | unexpectedSymbol symbol => s!"unexpected `{symbol}` in CNF"

/-- A disjunction of literals. -/
structure Clause where
  /-- The literals in order. -/
  literals : List Expr

namespace Clause

/-- The contradiction. -/
def empty : Clause := ⟨[]⟩

/-- A clause of one literal. -/
def singleton (literal : Expr) : Clause := ⟨[literal]⟩

/-- Adds a literal at the end unless it is there already. -/
def add (clause : Clause) (literal : Expr) : Clause :=
  if clause.literals.contains literal then clause else ⟨clause.literals ++ [literal]⟩

/-- The clause of a list of literals. -/
def ofList (literals : List Expr) : Clause := literals.foldl add empty

/-- The disjunction of two clauses. -/
def merge (clause other : Clause) : Clause := other.literals.foldl add clause

/-- The number of literals. -/
def length (clause : Clause) : Nat := clause.literals.length

/-- There are no literals. -/
def isEmpty (clause : Clause) : Bool := clause.literals.isEmpty

/-- The literal occurs in the clause. -/
def contains (clause : Clause) (literal : Expr) : Bool := clause.literals.contains literal

/-- The clause without the literal at an index. -/
def without (clause : Clause) (index : Nat) : Clause := ofList (clause.literals.eraseIdx index)

/-- An added literal makes a clause longer by one at most. -/
theorem length_add_le (clause : Clause) (literal : Expr) :
    (clause.add literal).length ≤ clause.length + 1 := by
  unfold add
  split <;> simp [length]

/-- A clause is no longer than the lists it was collected from. -/
theorem length_foldl_add_le (literals : List Expr) (clause : Clause) :
    (literals.foldl add clause).length ≤ clause.length + literals.length := by
  induction literals generalizing clause with
  | nil => simp
  | cons literal rest ih =>
    have first := length_add_le clause literal
    have others := ih (clause.add literal)
    simp only [List.foldl_cons, List.length_cons]
    omega

/-- A clause is no longer than the list it was made from. -/
theorem length_ofList_le (literals : List Expr) : (ofList literals).length ≤ literals.length := by
  simpa [ofList, empty, length] using length_foldl_add_le literals empty

/-- A clause without one of its literals is shorter. -/
theorem length_without_lt {clause : Clause} {index : Nat} (inside : index < clause.length) :
    (clause.without index).length < clause.length := by
  have bound := length_ofList_le (clause.literals.eraseIdx index)
  rw [List.length_eraseIdx_of_lt inside] at bound
  simp only [without, length] at *
  omega

/-- The only literal of the clause. -/
def single (clause : Clause) : Except ClauseError Expr :=
  match clause.literals with
  | [literal] => .ok literal
  | literals => .error (.notSingleLiteral literals.length)

/-- Every literal of the clause occurs in the other one. -/
def subset (clause other : Clause) : Bool := clause.literals.all other.contains

/-- Clauses are equal when they have the same literals. -/
instance : BEq Clause where
  beq clause other := clause.subset other && other.subset clause

/-- A clause is printed as its literals joined by `OR`. -/
def render (clause : Clause) : String :=
  if clause.isEmpty then "FALSE" else " OR ".intercalate (clause.literals.map Expr.render)

end Clause

end Refute
