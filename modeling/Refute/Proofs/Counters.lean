import Mathlib.Algebra.Group.Embedding
import Mathlib.Algebra.Group.Nat.Defs
import Refute.Proofs.NormalForm
import Refute.Proofs.Renumbering

/-!
# Clauses under later counters

The clauses of a statement take their numbers from the counters of a session. A session whose
counters stand further gives the same clauses, all numbers of system variables moved up by one
amount and all numbers of Skolem functions by another. The two passes that hand out numbers do so
one after the other, whatever the first one is, and look variables up by name or by the numbers they
gave themselves; no other pass looks at numbers.
-/

namespace Refute

/-! ### Passes that look at no numbers -/

namespace Expr

variable (ρ : Renumbering)

/-- A binary operation is renumbered in its operands. -/
theorem binary_renumber (operator : Operator) (a b : Expr) :
    (binary operator a b).renumber ρ = binary operator (a.renumber ρ) (b.renumber ρ) := by
  simp only [binary, node, renumber_mk, Symbol.renumber, List.map_cons, List.map_nil]

/-- A quantifier is dropped before or after its body is renumbered. -/
theorem unquantify_renumber (head : Symbol) (negated : Bool) (args : List Expr) :
    unquantify (head.renumber ρ) negated (args.map (renumber ρ)) =
      (unquantify head negated args).renumber ρ := by
  match args with
  | [] => simp [unquantify]
  | [body] => cases negated <;> simp [unquantify]
  | a :: b :: rest => simp [unquantify]

/-- Universal quantifiers can be dropped before or after renumbering. -/
theorem dropUniversals_renumber (e : Expr) :
    (e.renumber ρ).dropUniversals = e.dropUniversals.renumber ρ := by
  induction e using Expr.induction with
  | node head negated args ih =>
    have inside : (args.map (renumber ρ)).map dropUniversals =
        (args.map dropUniversals).map (renumber ρ) := by
      rw [List.map_map, List.map_map]
      exact List.map_congr_left ih
    rw [renumber_mk]
    cases head with
    | binder b =>
      obtain ⟨quantifier, bound⟩ := b
      cases quantifier with
      | universal =>
        simp only [Symbol.renumber, dropUniversals, dropUniversalsArgs_eq_map, inside]
        exact unquantify_renumber ρ (.binder ⟨.universal, bound⟩) negated _
      | existential =>
        simp only [Symbol.renumber, dropUniversals, dropUniversalsArgs_eq_map, inside, renumber_mk]
    | _ => simp only [Symbol.renumber, dropUniversals, dropUniversalsArgs_eq_map, inside, renumber_mk]

/-- What is no conjunction of two operands is none under new numbers. -/
theorem ne_and_renumber {e : Expr} (other : ∀ b c, e = ⟨.op .and, false, [b, c]⟩ → False) (b c : Expr)
    (same : e.renumber ρ = ⟨.op .and, false, [b, c]⟩) : False := by
  obtain ⟨head, negated, args⟩ := e
  rw [renumber_mk] at same
  injection same with sameHead sameSign sameArgs
  obtain ⟨first, second, rfl⟩ : ∃ first second, args = [first, second] :=
    List.length_eq_two.1 (by simpa using congrArg List.length sameArgs)
  cases head with
  | op operator =>
    injection sameHead with sameOperator
    exact other first second (by rw [sameSign, sameOperator])
  | _ => cases sameHead

/-- A disjunction is split along its right operand before or after renumbering. -/
theorem disjoinRight_renumber (left right : Expr) :
    disjoinRight (left.renumber ρ) (right.renumber ρ) = (disjoinRight left right).renumber ρ := by
  fun_induction disjoinRight left right with
  | case1 b c ihLeft ihRight =>
    rw [renumber_mk, binary_renumber, ← ihLeft, ← ihRight]
    rfl
  | case2 right other =>
    rw [disjoinRight.eq_2 _ _ (ne_and_renumber ρ other), binary_renumber]

/-- A disjunction is split along both operands before or after renumbering. -/
theorem disjoin_renumber (left right : Expr) :
    disjoin (left.renumber ρ) (right.renumber ρ) = (disjoin left right).renumber ρ := by
  fun_induction disjoin left right with
  | case1 right a b ihLeft ihRight =>
    rw [renumber_mk, binary_renumber, ← ihLeft, ← ihRight]
    rfl
  | case2 left right other =>
    rw [disjoin.eq_2 _ _ (ne_and_renumber ρ other), disjoinRight_renumber]

/-- Disjunctions can be distributed before or after renumbering. -/
theorem distribute_renumber (e : Expr) : (e.renumber ρ).distribute = e.distribute.renumber ρ := by
  induction e using Expr.induction with
  | node head negated args ih =>
    have inside : (args.map (renumber ρ)).map distribute = (args.map distribute).map (renumber ρ) := by
      rw [List.map_map, List.map_map]
      exact List.map_congr_left ih
    rw [renumber_mk]
    cases head with
    | op operator =>
      cases operator with
      | and => cases negated <;> simp [Symbol.renumber, distribute, distributeArgs_eq_map, inside]
      | or =>
        cases negated with
        | true => simp [Symbol.renumber, distribute]
        | false =>
          rcases args with _ | ⟨left, _ | ⟨right, _ | ⟨third, rest⟩⟩⟩
          · rfl
          · simp [Symbol.renumber, distribute]
          · have first := ih left (by simp)
            have second := ih right (by simp)
            simp only [List.map_cons, List.map_nil, Symbol.renumber, distribute, first, second,
              disjoin_renumber]
          · simp [Symbol.renumber, distribute]
      | _ => simp [Symbol.renumber, distribute]
    | _ => simp [Symbol.renumber, distribute]

/-- The expression of a renumbered variable. -/
theorem ofVariable_renumber (v : Variable) :
    (ofVariable v).renumber ρ = ofVariable (v.renumber ρ) := by
  simp [ofVariable, leaf, Symbol.renumber]

/-- The application of a renumbered Skolem function. -/
theorem ofSkolem_renumber (s : Skolem) : (ofSkolem s).renumber ρ = ofSkolem (s.renumber ρ) := by
  simp [ofSkolem, node, Symbol.renumber, Skolem.renumber, ofVariable_renumber]

/-- The postfix form of a renumbered expression has the renumbered symbols. -/
theorem toPostfix_renumber (e : Expr) :
    (e.renumber ρ).toPostfix = e.toPostfix.map (Symbol.renumber ρ) := by
  induction e using Expr.induction with
  | node head negated args ih =>
    have inside : (args.map (renumber ρ)).flatMap toPostfix =
        (args.flatMap toPostfix).map (Symbol.renumber ρ) := by
      rw [List.flatMap_map, List.map_flatMap]
      exact List.flatMap_congr ih
    rw [renumber_mk]
    cases negated <;> simp [toPostfix, toPostfixArgs_eq_flatMap, inside, Symbol.renumber]

end Expr

/-! ### Reading clauses -/

/-- A clause of one literal stays one. -/
theorem Clause.single_renumber (ρ : Renumbering) {clause : Clause} {literal : Expr}
    (single : clause.single = .ok literal) :
    (clause.renumber ρ).single = .ok (literal.renumber ρ) := by
  obtain ⟨literals⟩ := clause
  match literals with
  | [only] =>
    injection single with same
    rw [← same]
    rfl

/-- Clauses of one literal each stay so. -/
theorem Clause.mapM_single_renumber (ρ : Renumbering) {clauses : List Clause} {literals : List Expr}
    (singles : clauses.mapM single = .ok literals) :
    (clauses.map (renumber ρ)).mapM single = .ok (literals.map (Expr.renumber ρ)) := by
  induction clauses generalizing literals with
  | nil =>
    injection singles with same
    rw [← same]
    rfl
  | cons clause rest ih =>
    rw [List.mapM_cons] at singles
    obtain ⟨literal, first, singles⟩ := bind_eq_ok_iff.1 singles
    obtain ⟨others, later, singles⟩ := bind_eq_ok_iff.1 singles
    injection singles with same
    rw [List.map_cons, List.mapM_cons, single_renumber ρ first, ih later, ← same]
    rfl

namespace ClauseReader

variable (ρ : Renumbering) {reader next : ClauseReader}

/-- The reader with all it holds under new numbers. -/
def renumber (reader : ClauseReader) : ClauseReader :=
  ⟨reader.stack.map (Clause.renumber ρ), reader.finished.map (Clause.renumber ρ)⟩

/-- A literal can be pushed before or after renumbering. -/
theorem push_renumber (reader : ClauseReader) (literal : Expr) :
    (reader.renumber ρ).push (literal.renumber ρ) = (reader.push literal).renumber ρ := rfl

/-- Operands are popped from a renumbered stack as from the stack itself. -/
theorem pop_renumber {count : Nat} {owner : Symbol} {args : List Expr}
    (popped : reader.pop count owner = .ok (args, next)) :
    (reader.renumber ρ).pop count owner = .ok (args.map (Expr.renumber ρ), next.renumber ρ) := by
  unfold pop at popped
  split at popped
  · cases popped
  · rename_i enough
    obtain ⟨literals, singles, same⟩ := bind_eq_ok_iff.1 popped
    injection same with same
    injection same with sameArgs sameNext
    have taken := Clause.mapM_single_renumber ρ singles
    rw [List.map_reverse, List.map_take] at taken
    unfold pop
    rw [if_neg (by simpa [renumber] using enough)]
    refine bind_eq_ok_iff.2 ⟨_, taken, ?_⟩
    simp [← sameArgs, ← sameNext, renumber]

/-- Two terms can be equated before or after renumbering. -/
theorem equate_renumber {operator : Operator} (equated : reader.equate operator = .ok next) :
    (reader.renumber ρ).equate operator = .ok (next.renumber ρ) := by
  obtain ⟨⟨args, rest⟩, popped, same⟩ := bind_eq_ok_iff.1 equated
  injection same with same
  refine bind_eq_ok_iff.2 ⟨_, pop_renumber ρ popped, ?_⟩
  rw [← same, ← push_renumber, Expr.renumber_mk]
  rfl

/-- A symbol without a number is applied to its operands before or after renumbering. -/
theorem apply_renumber {owner : Symbol} {arity : Nat} (plain : owner.renumber ρ = owner)
    (applied : reader.apply owner arity = .ok next) :
    (reader.renumber ρ).apply owner arity = .ok (next.renumber ρ) := by
  obtain ⟨⟨args, rest⟩, popped, same⟩ := bind_eq_ok_iff.1 applied
  injection same with same
  refine bind_eq_ok_iff.2 ⟨_, pop_renumber ρ popped, ?_⟩
  rw [← same, ← push_renumber, Expr.node, Expr.renumber_mk, plain]
  rfl

/-- The last two disjunctions can be merged before or after renumbering. -/
theorem disjoin_renumber (disjoined : reader.disjoin = .ok next) :
    (reader.renumber ρ).disjoin = .ok (next.renumber ρ) := by
  obtain ⟨stack, finished⟩ := reader
  match stack with
  | right :: left :: rest =>
    injection disjoined with same
    rw [← same]
    simp [disjoin, renumber]

/-- The last two disjunctions can be finished before or after renumbering. -/
theorem conjoin_renumber (reader : ClauseReader) :
    (reader.renumber ρ).conjoin = reader.conjoin.renumber ρ := by
  obtain ⟨stack, finished⟩ := reader
  match stack with
  | [] => rfl
  | [only] => simp [conjoin, renumber]
  | right :: left :: rest => simp [conjoin, renumber]

/-- A symbol that is read is read under its new number too. -/
theorem step_renumber {symbol : Symbol} (stepped : reader.step symbol = .ok next) :
    (reader.renumber ρ).step (symbol.renumber ρ) = .ok (next.renumber ρ) := by
  cases symbol with
  | var v =>
    injection stepped with same
    rw [← same, ← push_renumber, Expr.leaf, Expr.renumber_mk]
    rfl
  | const c =>
    injection stepped with same
    rw [← same, ← push_renumber, Expr.leaf, Expr.renumber_mk]
    rfl
  | skolem s =>
    injection stepped with same
    rw [← same, ← push_renumber, Expr.ofSkolem_renumber]
    rfl
  | fn f => exact apply_renumber ρ rfl stepped
  | rel r => exact apply_renumber ρ rfl stepped
  | op operator =>
    cases operator with
    | not =>
      obtain ⟨_ | ⟨last, rest⟩, finished⟩ := reader
      · cases stepped
      · obtain ⟨literal, single, same⟩ := bind_eq_ok_iff.1 stepped
        injection same with same
        refine bind_eq_ok_iff.2 ⟨_, Clause.single_renumber ρ single, ?_⟩
        rw [← same, ← push_renumber, Expr.negate_renumber]
        rfl
    | equals => exact equate_renumber ρ stepped
    | notEquals => exact equate_renumber ρ stepped
    | or => exact disjoin_renumber ρ stepped
    | and =>
      injection stepped with same
      rw [← same, ← conjoin_renumber]
      rfl
    | _ => cases stepped
  | _ => cases stepped

/-- Symbols are read onto a renumbered stack as onto the stack itself. -/
theorem foldlM_step_renumber {symbols : List Symbol}
    (read : symbols.foldlM step reader = .ok next) :
    (symbols.map (Symbol.renumber ρ)).foldlM step (reader.renumber ρ) = .ok (next.renumber ρ) := by
  induction symbols generalizing reader with
  | nil =>
    injection read with same
    rw [← same]
    rfl
  | cons symbol rest ih =>
    obtain ⟨middle, stepped, read⟩ := bind_eq_ok_iff.1 read
    rw [List.map_cons, List.foldlM_cons, step_renumber ρ stepped]
    exact ih read

end ClauseReader

/-- The clauses read from renumbered symbols are the renumbered clauses. -/
theorem ClausalForm.ofPostfix_renumber (ρ : Renumbering) {symbols : List Symbol}
    {clauses : List Clause} (read : ofPostfix symbols = .ok ⟨clauses⟩) :
    ofPostfix (symbols.map (Symbol.renumber ρ)) = .ok ⟨clauses.map (Clause.renumber ρ)⟩ := by
  obtain ⟨last, read, same⟩ := bind_eq_ok_iff.1 read
  injection same with same
  injection same with same
  refine bind_eq_ok_iff.2 ⟨last.renumber ρ, ClauseReader.foldlM_step_renumber ρ read, ?_⟩
  simp [← same, ClauseReader.renumber]

/-! ### Passes that hand out numbers -/

/-- All numbers moved up, those of system variables and those of Skolem functions each by an amount
of their own. -/
def Renumbering.shift (system skolem : Nat) : Renumbering :=
  ⟨addRightEmbedding system, addRightEmbedding skolem⟩

variable (system skolem : Nat)

namespace Renaming

/-- Names with the variables they stand for, under later numbers. -/
def laterScope (scope : List (String × Variable)) : List (String × Variable) :=
  scope.map (Prod.map id (Variable.renumber (.shift system skolem)))

/-- What has been handed out, under later numbers. -/
def later (state : Renaming) : Renaming := ⟨state.next + system, laterScope system skolem state.free⟩

/-- Variables that are numbered from a later start have later numbers. -/
theorem number_later (universal : Bool) (next : Nat) (vs : List Variable) :
    number universal (next + system) vs =
      (number universal next vs).map (Variable.renumber (.shift system skolem)) := by
  induction vs generalizing next with
  | nil => rfl
  | cons v rest ih =>
    rw [number, number, List.map_cons, Nat.add_right_comm, ih]
    rfl

/-- A scope can be extended before or after its variables are moved up. -/
theorem extend_later (scope : List (String × Variable)) (bound : List Variable) :
    extend (laterScope system skolem scope)
        (bound.map (Variable.renumber (.shift system skolem))) =
      laterScope system skolem (extend scope bound) :=
  foldl_map_hom (fun _ _ => rfl) bound scope

/-- A name is found in a scope with later numbers exactly if it is found in the scope. -/
theorem find?_laterScope (scope : List (String × Variable)) (name : String) :
    (laterScope system skolem scope).find? (·.1 == name) =
      (scope.find? (·.1 == name)).map
        (Prod.map id (Variable.renumber (.shift system skolem))) := by
  rw [laterScope, List.find?_map]
  rfl

/-- A name stands for the same variable in a scope with later numbers, one moved up. -/
theorem resolve_later (scope : List (String × Variable)) (state : Renaming) (name : String) :
    resolve (laterScope system skolem scope) (state.later system skolem) name =
      Prod.map (Variable.renumber (.shift system skolem)) (later system skolem)
        (resolve scope state name) := by
  unfold resolve
  simp only [later, find?_laterScope]
  cases scope.find? (·.1 == name) with
  | some entry => rfl
  | none =>
    cases state.free.find? (·.1 == name) with
    | some entry => rfl
    | none =>
      simp only [Option.map_none, Prod.map, later, laterScope, List.map_cons, Nat.add_right_comm]
      rfl

end Renaming

namespace Expr

/-- Arguments are renamed with later numbers if each of them is. -/
theorem renameArgs_later {args : List Expr}
    (each : ∀ arg ∈ args, ∀ scope state,
      rename (Renaming.laterScope system skolem scope) (Renaming.later system skolem state) arg =
        Prod.map (renumber (.shift system skolem)) (Renaming.later system skolem)
          (rename scope state arg))
    (scope : List (String × Variable)) (state : Renaming) :
    renameArgs (Renaming.laterScope system skolem scope) (state.later system skolem) args =
      Prod.map (List.map (renumber (.shift system skolem))) (Renaming.later system skolem)
        (renameArgs scope state args) := by
  induction args generalizing state with
  | nil => rfl
  | cons a as ih =>
    rw [List.forall_mem_cons] at each
    simp only [renameArgs, each.1, Prod.map, ih each.2, List.map_cons]

/-- Renaming apart from a later number on gives later numbers. -/
theorem rename_later {e : Expr} (firstOrder : e.FirstOrder) (skolemFree : e.SkolemFree)
    (scope : List (String × Variable)) (state : Renaming) :
    rename (Renaming.laterScope system skolem scope) (state.later system skolem) e =
      Prod.map (renumber (.shift system skolem)) (Renaming.later system skolem)
        (rename scope state e) := by
  induction e using Expr.induction generalizing scope state with
  | node head negated args ih =>
    obtain ⟨leaf, orders⟩ := everywhere_iff.1 firstOrder
    obtain ⟨plain, frees⟩ := everywhere_iff.1 skolemFree
    have inArgs := renameArgs_later system skolem fun arg member scope state =>
      ih arg member (orders arg member) (frees arg member) scope state
    cases head with
    | var v =>
      obtain rfl : args = [] := List.length_eq_zero_iff.1 (leaf v rfl)
      simp only [rename, Renaming.resolve_later, Prod.map, renumber_mk, List.map_nil, Symbol.renumber]
    | skolem s => exact absurd rfl (plain s)
    | binder b =>
      have numbered := Renaming.number_later system skolem (b.quantifier == .universal) state.next
        b.bound
      have inside := inArgs
        (Renaming.extend scope (Renaming.number (b.quantifier == .universal) state.next b.bound))
        { state with next := state.next + b.bound.length }
      rw [← Renaming.extend_later] at inside
      simp only [Renaming.later, Nat.add_right_comm] at inside ⊢
      simp only [rename, numbered, inside, Prod.map, renumber_mk, Symbol.renumber]
    | _ => simp only [rename, inArgs, Prod.map, renumber_mk, Symbol.renumber]

end Expr

namespace Skolem

/-- Variables with the Skolem functions that replace them, under later numbers. -/
def laterReplacements (replacements : List (Variable × Skolem)) : List (Variable × Skolem) :=
  replacements.map
    (Prod.map (Variable.renumber (.shift system skolem)) (renumber (.shift system skolem)))

/-- Skolem functions that are introduced from a later start have later numbers. -/
theorem introduce_later (universals : List Variable) (next : Nat)
    (replacements : List (Variable × Skolem)) (bound : List Variable) :
    introduce (universals.map (Variable.renumber (.shift system skolem))) (next + skolem)
        (laterReplacements system skolem replacements)
        (bound.map (Variable.renumber (.shift system skolem))) =
      laterReplacements system skolem (introduce universals next replacements bound) := by
  induction bound generalizing next replacements with
  | nil => rfl
  | cons v rest ih =>
    rw [List.map_cons, introduce, introduce, Nat.add_right_comm, ← ih]
    rfl

/-- A variable is replaced under later numbers exactly if it was replaced before. -/
theorem find?_laterReplacements (replacements : List (Variable × Skolem)) (v : Variable) :
    (laterReplacements system skolem replacements).find?
        (·.1 == v.renumber (.shift system skolem)) =
      (replacements.find? (·.1 == v)).map
        (Prod.map (Variable.renumber (.shift system skolem)) (renumber (.shift system skolem))) := by
  have same : (fun entry : Variable × Skolem => entry.1 == v.renumber (.shift system skolem)) ∘
      Prod.map (Variable.renumber (.shift system skolem)) (renumber (.shift system skolem)) =
        fun entry => entry.1 == v :=
    funext fun entry => Variable.beq_renumber _ entry.1 v
  rw [laterReplacements, List.find?_map, same]

end Skolem

namespace Expr

/-- Arguments are skolemized with later numbers if each of them is. -/
theorem skolemizeArgs_later {args : List Expr}
    (each : ∀ arg ∈ args, ∀ universals replacements next,
      skolemizeWith (universals.map (Variable.renumber (.shift system skolem)))
          (Skolem.laterReplacements system skolem replacements) (next + skolem)
          (arg.renumber (.shift system skolem)) =
        Prod.map (renumber (.shift system skolem)) (· + skolem)
          (skolemizeWith universals replacements next arg))
    (universals : List Variable) (replacements : List (Variable × Skolem)) (next : Nat) :
    skolemizeArgs (universals.map (Variable.renumber (.shift system skolem)))
        (Skolem.laterReplacements system skolem replacements) (next + skolem)
        (args.map (renumber (.shift system skolem))) =
      Prod.map (List.map (renumber (.shift system skolem))) (· + skolem)
        (skolemizeArgs universals replacements next args) := by
  induction args generalizing next with
  | nil => rfl
  | cons a as ih =>
    rw [List.forall_mem_cons] at each
    simp only [skolemizeArgs, List.map_cons, each.1, Prod.map, ih each.2]

/-- Skolem functions from a later number on have later numbers. -/
theorem skolemizeWith_later (e : Expr) (universals : List Variable)
    (replacements : List (Variable × Skolem)) (next : Nat) :
    skolemizeWith (universals.map (Variable.renumber (.shift system skolem)))
        (Skolem.laterReplacements system skolem replacements) (next + skolem)
        (e.renumber (.shift system skolem)) =
      Prod.map (renumber (.shift system skolem)) (· + skolem)
        (skolemizeWith universals replacements next e) := by
  induction e using Expr.induction generalizing universals replacements next with
  | node head negated args ih =>
    have inArgs := skolemizeArgs_later system skolem ih
    rw [renumber_mk]
    cases head with
    | var v =>
      simp only [Symbol.renumber, skolemizeWith, Skolem.find?_laterReplacements]
      cases replacements.find? (·.1 == v) with
      | none => simp [Symbol.renumber]
      | some entry => simp [Symbol.renumber]
    | binder b =>
      obtain ⟨quantifier, bound⟩ := b
      cases quantifier with
      | universal =>
        have inside := inArgs (universals ++ bound) replacements next
        rw [List.map_append] at inside
        simp only [Symbol.renumber, skolemizeWith, inside, Prod.map, renumber_mk]
      | existential =>
        have inside := inArgs universals (Skolem.introduce universals next replacements bound)
          (next + bound.length)
        rw [← Skolem.introduce_later, Nat.add_right_comm] at inside
        simp only [Symbol.renumber, skolemizeWith, List.length_map, inside, Prod.map]
        rw [← unquantify_renumber]
        rfl
    | _ => simp only [Symbol.renumber, skolemizeWith, inArgs, Prod.map, renumber_mk]

end Expr

/-! ### Statements -/

/-- A session whose counters of system variables and of Skolem functions stand further. -/
structure Session.Later (earlier later : Session) : Prop where
  /-- The system variables are that much further. -/
  system : later.nextSystem = earlier.nextSystem + system
  /-- The Skolem functions are that much further. -/
  skolem : later.nextSkolem = earlier.nextSkolem + skolem

namespace Expr

variable {system skolem} {earlier later : Session} {e : Expr}

/-- In a formula variables stand alone. -/
theorem Normal.firstOrder (normal : e.Normal) : e.FirstOrder := by
  induction normal with
  | literal isAtom =>
    refine isAtom.imp fun head count takes v same => ?_
    rw [same] at takes
    exact takes
  | junction either _ _ left right =>
    exact everywhere_iff.2 ⟨nofun, List.forall_mem_cons.2 ⟨left, List.forall_mem_singleton.2 right⟩⟩
  | quantified _ inner => exact everywhere_iff.2 ⟨nofun, List.forall_mem_singleton.2 inner⟩

/-- From later counters on, a formula has the same normal form under later numbers. -/
theorem toCnf_later (formula : e.Formula) (skolemFree : e.SkolemFree)
    (stands : Session.Later system skolem earlier later) :
    (e.toCnf later).1 = (e.toCnf earlier).1.renumber (.shift system skolem) ∧
      Session.Later system skolem (e.toCnf earlier).2 (e.toCnf later).2 := by
  have apart : e.apartForm later =
      Prod.map (renumber (.shift system skolem)) (Renaming.later system skolem)
        (e.apartForm earlier) := by
    have renamed := rename_later system skolem (formula.normal false).firstOrder
      (skolemFree.nnf formula false) [] { next := earlier.nextSystem }
    rw [Renaming.later, ← stands.system] at renamed
    exact renamed
  have replaced : e.skolemForm later =
      Prod.map (renumber (.shift system skolem)) (· + skolem) (e.skolemForm earlier) := by
    have skolemized := skolemizeWith_later system skolem (e.apartForm earlier).1 [] []
      earlier.nextSkolem
    rw [← stands.skolem] at skolemized
    rw [skolemForm, apart]
    exact skolemized
  rw [toCnf_eq, toCnf_eq, replaced, apart]
  simp only [Prod.map, dropUniversals_renumber, distribute_renumber]
  exact ⟨trivial, rfl, rfl⟩

/-- From later counters on, a formula has the same clauses under later numbers. -/
theorem exists_clauses_later (formula : e.Formula) (skolemFree : e.SkolemFree)
    (stands : Session.Later system skolem earlier later) :
    ∃ clauses, ClausalForm.ofPostfix (e.toCnf earlier).1.toPostfix = .ok ⟨clauses⟩ ∧
      ClausalForm.ofPostfix (e.toCnf later).1.toPostfix =
        .ok ⟨clauses.map (Clause.renumber (.shift system skolem))⟩ := by
  obtain ⟨⟨clauses⟩, read, -⟩ :=
    ClausalForm.ofPostfix_toPostfix (conjunction_toCnf formula skolemFree earlier)
  refine ⟨clauses, read, ?_⟩
  rw [(toCnf_later formula skolemFree stands).1, toPostfix_renumber]
  exact ClausalForm.ofPostfix_renumber _ read

end Expr

end Refute
