import Mathlib.Data.List.Chain
import Refute.Proofs.Alternation

/-!
# Suffix order

An expression is written in suffix order as its operands, its symbol and a negation if it is
negated. Reading pushes one result for each symbol other than negation, applied to the results it
takes off the stack, and a negation turns the sign of the last result around. So what the results on
the stack are written as is what was read, except that of several negations after one symbol only
their number modulo two is left. Conversely, reading a formula that was written leaves it on top of
the stack.
-/

namespace Refute

namespace Symbol

/-- The symbols with every run of `k` negations replaced by `k % 2` of them, where a run of the
given length stands in front of the symbols. -/
def mergeNegations (run : Nat) : List Symbol → List Symbol
  | [] => List.replicate (run % 2) (.op .not)
  | .op .not :: rest => mergeNegations (run + 1) rest
  | symbol :: rest => List.replicate (run % 2) (.op .not) ++ symbol :: mergeNegations 0 rest

/-- No two negations are adjacent. -/
def SingleNegations (symbols : List Symbol) : Prop :=
  symbols.IsChain fun first second => first = .op .not → second ≠ .op .not

/-- A symbol ends a run of negations, of which one is left if their number is odd. -/
theorem mergeNegations_cons {symbol : Symbol} (other : symbol ≠ .op .not) (run : Nat)
    (rest : List Symbol) :
    mergeNegations run (symbol :: rest) =
      List.replicate (run % 2) (.op .not) ++ symbol :: mergeNegations 0 rest := by
  rw [mergeNegations]
  exact other

/-- Symbols among which no two negations are adjacent stay as they are. -/
theorem mergeNegations_of_singleNegations {symbols : List Symbol}
    (single : SingleNegations symbols) : mergeNegations 0 symbols = symbols := by
  induction symbols with
  | nil => rfl
  | cons symbol rest ih =>
    have later := ih single.tail
    by_cases negation : symbol = .op .not
    · subst negation
      cases rest with
      | nil => rfl
      | cons next rest =>
        have other : next ≠ .op .not := (List.isChain_cons_cons.1 single).1 rfl
        rw [mergeNegations_cons other] at later
        rw [mergeNegations, mergeNegations_cons other]
        exact congrArg (.op .not :: ·) later
    · rw [mergeNegations_cons negation, later]
      rfl

end Symbol

namespace Expr

variable {symbol : Symbol} {args stack : List Expr}

/-! ### Reading what was written -/

/-- A symbol is applied to the last results if they may be its arguments. -/
theorem Applies.pushSymbol (applies : Applies symbol args) (stack : List Expr) :
    pushSymbol (args.reverse ++ stack) symbol = .ok (node symbol args :: stack) := by
  cases applies with
  | atom takes atomic =>
    have operand : args.length = 0 → symbol.isOperand →
        Expr.pushSymbol (args.reverse ++ stack) symbol = .ok (node symbol args :: stack) := by
      intro none stands
      obtain rfl := List.length_eq_zero_iff.1 none
      exact pushSymbol_operand stands stack
    have application : ∀ {count}, args.length = count →
        pushNode symbol count true (args.reverse ++ stack) = .ok (node symbol args :: stack) := by
      rintro _ rfl
      exact pushNode_eq_ok_iff.2 ⟨fun _ => atomic, rfl⟩
    cases symbol with
    | var v => exact operand takes rfl
    | const c => exact operand takes rfl
    | skolem s => exact operand takes rfl
    | fn f => exact application takes
    | rel r => exact application takes
    | op operator =>
      cases operator with
      | equals => exact application takes
      | notEquals => exact application takes
      | _ => cases takes
    | _ => cases takes
  | @connective operator a b joins =>
    have joined : pushNode (.op operator) [a, b].length false ([a, b].reverse ++ stack) =
        .ok (node (.op operator) [a, b] :: stack) := pushNode_eq_ok_iff.2 ⟨nofun, rfl⟩
    cases operator with
    | and => exact joined
    | or => exact joined
    | implication => exact joined
    | biconditional => exact joined
    | _ => cases joins
  | quantifier => exact pushSymbol_binder _ _ stack

/-- In a formula every symbol is applied to formulas that may be its arguments. -/
theorem Formula.applies {negated : Bool} (formula : Formula ⟨symbol, negated, args⟩) :
    Applies symbol args ∧ ∀ arg ∈ args, arg.Formula := by
  cases formula with
  | atom isAtom =>
    obtain ⟨takes, atoms⟩ := everywhere_iff.1 isAtom
    exact ⟨.atom takes fun arg member => IsAtom.isAtomic (atoms arg member),
      fun arg member => .atom (atoms arg member)⟩
  | connective joins left right =>
    exact ⟨.connective joins, List.forall_mem_cons.2 ⟨left, List.forall_mem_singleton.2 right⟩⟩
  | quantified inner => exact ⟨.quantifier, List.forall_mem_singleton.2 inner⟩

/-- Reading a formula in suffix order leaves it on top of the stack. -/
theorem Formula.foldlM_toPostfix {e : Expr} (formula : e.Formula) (stack : List Expr) :
    e.toPostfix.foldlM Expr.pushSymbol stack = .ok (e :: stack) := by
  induction e using Expr.induction generalizing stack with
  | node head negated args ih =>
    obtain ⟨applies, formulas⟩ := formula.applies
    have inArgs : ∀ stack, (toPostfixArgs args).foldlM Expr.pushSymbol stack =
        .ok (args.reverse ++ stack) := by
      clear applies formula
      induction args with
      | nil => exact fun stack => rfl
      | cons a as inside =>
        rw [List.forall_mem_cons] at ih formulas
        intro stack
        rw [toPostfixArgs, foldlM_append_of_ok (ih.1 formulas.1 stack), inside ih.2 formulas.2,
          List.reverse_cons, List.append_assoc]
        rfl
    rw [toPostfix, foldlM_append_of_ok (inArgs stack), List.foldlM_cons, applies.pushSymbol]
    cases negated <;> rfl

/-- A formula that is written in suffix order is read as itself. -/
theorem ofPostfix_toPostfix {e : Expr} (formula : e.Formula) : ofPostfix e.toPostfix = .ok e := by
  unfold ofPostfix
  rw [formula.foldlM_toPostfix]
  rfl

/-! ### Writing what was read -/

/-- The symbols of the results on a stack, the last of which is on top. -/
def written (stack : List Expr) : List Symbol := stack.reverse.flatMap toPostfix

/-- The symbols of the results without the sign of the last one. -/
def writtenBare : List Expr → List Symbol
  | [] => []
  | last :: rest => written rest ++ last.positive.toPostfix

/-- So many negations were read after the symbol that made the last result. -/
def Trailed (run : Nat) : List Expr → Prop
  | [] => run = 0
  | last :: _ => last.negated = (run % 2 == 1)

/-- The last result is written after the others. -/
theorem written_cons (last : Expr) (rest : List Expr) :
    written (last :: rest) = written rest ++ last.toPostfix := by
  simp [written]

/-- Results on top of the stack are written as arguments are. -/
theorem written_append_reverse (args rest : List Expr) :
    written (args.reverse ++ rest) = written rest ++ toPostfixArgs args := by
  simp [written, toPostfixArgs_eq_flatMap]

/-- Of the negations after the last symbol one is written if their number is odd. -/
theorem Trailed.written_eq {run : Nat} (trailed : Trailed run stack) :
    written stack = writtenBare stack ++ List.replicate (run % 2) (.op .not) := by
  cases stack with
  | nil =>
    obtain rfl : run = 0 := trailed
    rfl
  | cons last rest =>
    obtain ⟨head, negated, args⟩ := last
    obtain rfl : negated = (run % 2 == 1) := trailed
    rw [written_cons, writtenBare, List.append_assoc]
    rcases Nat.mod_two_eq_zero_or_one run with even | odd
    · simp [toPostfix, positive, even]
    · simp [toPostfix, positive, odd]

/-- What is on the stack in the end is written as what was on it before and what was read, with runs
of negations merged. -/
theorem written_of_foldlM {run : Nat} {symbols : List Symbol} {next : List Expr}
    (trailed : Trailed run stack) (done : symbols.foldlM Expr.pushSymbol stack = .ok next) :
    written next = writtenBare stack ++ Symbol.mergeNegations run symbols := by
  induction symbols generalizing stack run with
  | nil =>
    obtain rfl := Except.ok.inj done
    exact trailed.written_eq
  | cons symbol symbols ih =>
    rw [List.foldlM_cons, bind_eq_ok_iff] at done
    obtain ⟨between, pushed, others⟩ := done
    obtain ⟨rfl, last, rest, rfl, rfl⟩ | ⟨args, rest, taken, rfl, applies⟩ := pushSymbol_ok pushed
    · have further : Trailed (run + 1) (last.negate :: rest) := by
        change (!last.negated) = _
        rw [show last.negated = (run % 2 == 1) from trailed]
        rcases Nat.mod_two_eq_zero_or_one run with even | odd
        · simp [Nat.add_mod, even]
        · simp [Nat.add_mod, odd]
      have later := ih further others
      exact later
    · have other : symbol ≠ .op .not := by
        rintro rfl
        cases applies with
        | atom takes => cases takes
        | connective joins => cases joins
      have made : writtenBare (node symbol args :: rest) = written stack ++ [symbol] := by
        rw [taken, written_append_reverse, List.append_assoc]
        simp [writtenBare, node, positive, toPostfix]
      have fresh : Trailed 0 (node symbol args :: rest) := rfl
      rw [ih fresh others, made, trailed.written_eq, Symbol.mergeNegations_cons other]
      simp only [List.append_assoc, List.singleton_append]

/-- What is read in suffix order is written with at most one negation after each symbol. -/
theorem toPostfix_of_ofPostfix {symbols : List Symbol} {e : Expr}
    (read : ofPostfix symbols = .ok e) : e.toPostfix = Symbol.mergeNegations 0 symbols := by
  have empty : Trailed 0 [] := rfl
  have same := written_of_foldlM empty (foldlM_of_ofPostfix read)
  simpa [written, writtenBare] using same

/-- Reading symbols in suffix order and writing the expression again merges runs of negations and
changes nothing else, and every formula is read as what it was written from. -/
theorem suffix_order_round_trips :
    (∀ symbols e, ofPostfix symbols = .ok e →
      e.toPostfix = Symbol.mergeNegations 0 symbols ∧
      (Symbol.SingleNegations symbols → e.toPostfix = symbols)) ∧
    ∀ e : Expr, e.Formula → ofPostfix e.toPostfix = .ok e := by
  refine ⟨fun symbols e read => ?_, fun e formula => ofPostfix_toPostfix formula⟩
  have merged := toPostfix_of_ofPostfix read
  exact ⟨merged, fun single =>
    merged.trans (Symbol.mergeNegations_of_singleNegations single)⟩

/-- A Skolem term with three negations, equated with a variable under a quantifier with two. -/
def negationRuns : List Symbol :=
  [.skolem ⟨0, []⟩, .op .not, .op .not, .op .not, .var ⟨"x", 0, false, false⟩, .op .equals,
    .binder ⟨.universal, []⟩, .op .not, .op .not]

/-- The same symbols with one negation and none. -/
def negationSigns : List Symbol :=
  [.skolem ⟨0, []⟩, .op .not, .var ⟨"x", 0, false, false⟩, .op .equals, .binder ⟨.universal, []⟩]

/-- Symbols with runs of three and of two negations are written with one and with none, and these
are read as the same formula. -/
theorem round_trips_negationRuns :
    ∃ e : Expr, ofPostfix negationRuns = .ok e ∧ e.toPostfix = negationSigns ∧ e.Formula ∧
      ofPostfix negationSigns = .ok e := by
  obtain ⟨e, read⟩ : ∃ e, ofPostfix negationRuns = .ok e := ⟨_, rfl⟩
  have written : e.toPostfix = negationSigns := (suffix_order_round_trips.1 _ _ read).1
  have formula := formula_of_ofPostfix read
  have again := suffix_order_round_trips.2 e formula
  rw [written] at again
  exact ⟨e, read, written, formula, again⟩

end Expr

end Refute
