import Refute.Expr.Basic

/-!
# Distribution

Disjunction distributes over conjunction until no disjunction has a conjunction beneath it. Operands
are distributed first; their disjunction then splits along the conjunctions of the left operand and,
where these end, along those of the right one. Only conjunctions of two operands split, and only a
disjunction of two operands is entered.
-/

namespace Refute.Expr

/-- The disjunction of a left operand that does not split with a distributed right one. -/
def disjoinRight (left : Expr) : Expr → Expr
  | ⟨.op .and, false, [b, c]⟩ => binary .and (disjoinRight left b) (disjoinRight left c)
  | right => binary .or left right

/-- The disjunction of two distributed operands. -/
def disjoin : Expr → Expr → Expr
  | ⟨.op .and, false, [a, b]⟩, right => binary .and (disjoin a right) (disjoin b right)
  | left, right => disjoinRight left right

/-- A right operand that is no conjunction does not split. -/
theorem disjoinRight_of_ne {left right : Expr} (whole : ∀ a b, right ≠ binary .and a b) :
    disjoinRight left right = binary .or left right :=
  disjoinRight.eq_2 left right whole

/-- Where the left operand is no conjunction, the right one may split. -/
theorem disjoin_of_ne {left right : Expr} (whole : ∀ a b, left ≠ binary .and a b) :
    disjoin left right = disjoinRight left right :=
  disjoin.eq_2 left right whole

mutual

/-- Distributes disjunction over conjunction. -/
def distribute : Expr → Expr
  | ⟨.op .and, false, args⟩ => ⟨.op .and, false, distributeArgs args⟩
  | ⟨.op .or, false, [left, right]⟩ => disjoin (distribute left) (distribute right)
  | e => e

/-- Distributes inside each operand of a conjunction. -/
def distributeArgs : List Expr → List Expr
  | [] => []
  | a :: as => distribute a :: distributeArgs as

end

/-- The operands of a conjunction are distributed one by one. -/
theorem distributeArgs_eq_map (args : List Expr) :
    distributeArgs args = args.map distribute := by
  induction args with
  | nil => rfl
  | cons a as ih => simp [distributeArgs, ih]

/-- The operands of a conjunction of two are distributed. -/
theorem distribute_and (a b : Expr) :
    distribute (binary .and a b) = binary .and a.distribute b.distribute := by
  simp [binary, node, distribute, distributeArgs]

/-- The operands of a disjunction of two are distributed before they are joined. -/
theorem distribute_or (a b : Expr) :
    distribute (binary .or a b) = disjoin a.distribute b.distribute := by
  simp [binary, node, distribute]

mutual

/-- A disjunction, nested in any way, of expressions that are not conjunctions. -/
def isClause : Expr → Bool
  | ⟨.op .and, false, _⟩ => false
  | ⟨.op .or, false, args⟩ => isClauseArgs args
  | _ => true

/-- Every operand is a clause. -/
def isClauseArgs : List Expr → Bool
  | [] => true
  | a :: as => isClause a && isClauseArgs as

end

/-- All operands are clauses. -/
theorem isClauseArgs_eq_all (args : List Expr) : isClauseArgs args = args.all isClause := by
  induction args with
  | nil => rfl
  | cons a as ih => simp [isClauseArgs, ih]

mutual

/-- A conjunction, nested in any way, of clauses. -/
def isCnf : Expr → Bool
  | ⟨.op .and, false, args⟩ => isCnfArgs args
  | ⟨.op .or, false, args⟩ => isClauseArgs args
  | _ => true

/-- Every operand is in conjunctive normal form. -/
def isCnfArgs : List Expr → Bool
  | [] => true
  | a :: as => isCnf a && isCnfArgs as

end

/-- All operands are in conjunctive normal form. -/
theorem isCnfArgs_eq_all (args : List Expr) : isCnfArgs args = args.all isCnf := by
  induction args with
  | nil => rfl
  | cons a as ih => simp [isCnfArgs, ih]

end Refute.Expr
