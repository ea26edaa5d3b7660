import Mathlib.Data.List.Induction
import Refute.Clause.Form
import Refute.Normal.Distribution
import Refute.Proofs.Loop
import Refute.Proofs.Universal

/-!
# Clausal forms

Distribution turns a formula without quantifiers into a conjunction of disjunctions of literals and
keeps its truth. Such a formula, written in suffix order, is always read as clauses, and the clauses
are the conjuncts in some order: a conjunction may finish disjunctions that belong to a conjunction
around it, but it loses none. Each of them has the literals of its disjunction from left to right,
without repeats. So all clauses are true exactly when the formula is.
-/

namespace Refute

universe u

namespace Expr

/-! ### Distribution -/

/-- A disjunction of atoms that have a property. -/
inductive Disjunction (p : Expr → Prop) : Expr → Prop
  /-- An atom, perhaps negated. -/
  | literal {e : Expr} (isAtom : e.IsAtom) (holds : p e) : Disjunction p e
  /-- Two disjunctions. -/
  | or {a b : Expr} (left : Disjunction p a) (right : Disjunction p b) :
      Disjunction p (binary .or a b)

/-- A conjunction of disjunctions of atoms that have a property. -/
inductive Conjunction (p : Expr → Prop) : Expr → Prop
  /-- A disjunction. -/
  | clause {e : Expr} (disjunction : Disjunction p e) : Conjunction p e
  /-- Two conjunctions. -/
  | and {a b : Expr} (left : Conjunction p a) (right : Conjunction p b) :
      Conjunction p (binary .and a b)

variable {p : Expr → Prop} {a b e : Expr}

/-- A disjunction is no conjunction. -/
theorem Disjunction.head_ne (disjunction : Disjunction p e) : e.head ≠ .op .and := by
  cases disjunction with
  | literal isAtom =>
    intro same
    have takes := (everywhere_iff.1 isAtom).1
    rw [same] at takes
    exact takes
  | or => exact nofun

/-- A disjunction to the right is not split. -/
theorem disjoinRight_of_disjunction (left : Expr) (disjunction : Disjunction p b) :
    disjoinRight left b = binary .or left b := by
  have other := disjunction.head_ne
  unfold disjoinRight
  split
  · exact absurd rfl other
  · rfl

/-- A disjunction to the left is not split. -/
theorem disjoin_of_disjunction (disjunction : Disjunction p a) (right : Expr) :
    disjoin a right = disjoinRight a right := by
  have other := disjunction.head_ne
  unfold disjoin
  split
  · exact absurd rfl other
  · rfl

/-- Splitting along the right operand leaves a conjunction of disjunctions. -/
theorem Conjunction.disjoinRight (left : Disjunction p a) (right : Conjunction p b) :
    Conjunction p (disjoinRight a b) := by
  induction right with
  | clause disjunction =>
    rw [disjoinRight_of_disjunction a disjunction]
    exact .clause (.or left disjunction)
  | and _ _ first second => exact .and first second

/-- Splitting along both operands leaves a conjunction of disjunctions. -/
theorem Conjunction.disjoin (left : Conjunction p a) (right : Conjunction p b) :
    Conjunction p (disjoin a b) := by
  induction left with
  | clause disjunction =>
    rw [disjoin_of_disjunction disjunction b]
    exact right.disjoinRight disjunction
  | and _ _ first second => exact .and first second

/-- Distribution leaves an atom. -/
theorem distribute_atom (isAtom : e.IsAtom) : distribute e = e := by
  have takes := (everywhere_iff.1 isAtom).1
  unfold distribute
  split
  · exact absurd takes id
  · exact absurd takes id
  · rfl

/-- Distribution leaves a conjunction of disjunctions. -/
theorem Matrix.distribute (matrix : e.Matrix p) : Conjunction p e.distribute := by
  induction matrix with
  | literal isAtom holds =>
    rw [distribute_atom isAtom]
    exact .clause (.literal isAtom holds)
  | @junction operator a b either _ _ left right =>
    rcases either with rfl | rfl
    · exact distribute_and a b ▸ .and left right
    · exact distribute_or a b ▸ left.disjoin right

end Expr

namespace Structure

variable {K : Type} [DecidableEq K] {D : Type u} (M : Structure D) (key : Variable → K) (env : K → D)
variable {p : Expr → Prop} {a b e : Expr}

/-- The split along the right operand is true if one of the operands is. -/
theorem truth_disjoinRight (right : b.Conjunction p) :
    M.Truth key env (a.disjoinRight b) ↔ M.Truth key env a ∨ M.Truth key env b := by
  induction right with
  | clause disjunction => rw [Expr.disjoinRight_of_disjunction a disjunction, truth_or]
  | @and b c _ _ first second =>
    change M.Truth key env (.binary .and (a.disjoinRight b) (a.disjoinRight c)) ↔ _
    rw [truth_and, truth_and, first, second, or_and_left]

/-- The split along both operands is true if one of the operands is. -/
theorem truth_disjoin (left : a.Conjunction p) (right : b.Conjunction p) :
    M.Truth key env (a.disjoin b) ↔ M.Truth key env a ∨ M.Truth key env b := by
  induction left with
  | clause disjunction =>
    rw [Expr.disjoin_of_disjunction disjunction b, M.truth_disjoinRight key env right]
  | @and a c _ _ first second =>
    change M.Truth key env (.binary .and (a.disjoin b) (c.disjoin b)) ↔ _
    rw [truth_and, truth_and, first, second, and_or_right]

/-- Distribution keeps the truth of a formula. -/
theorem truth_distribute (matrix : e.Matrix p) :
    M.Truth key env e.distribute ↔ M.Truth key env e := by
  induction matrix with
  | literal isAtom => rw [Expr.distribute_atom isAtom]
  | junction either leftMatrix rightMatrix left right =>
    rcases either with rfl | rfl
    · rw [Expr.distribute_and, truth_and, truth_and, left, right]
    · rw [Expr.distribute_or, M.truth_disjoin key env leftMatrix.distribute rightMatrix.distribute,
        truth_or, left, right]

end Structure

/-! ### Reading clauses -/

namespace Expr

/-- The clause that a disjunction is. -/
def disjuncts : Expr → Clause
  | ⟨.op .or, false, [a, b]⟩ => a.disjuncts.merge b.disjuncts
  | e => .singleton e.literal

/-- The clauses that a conjunction joins, from left to right. -/
def conjuncts : Expr → List Clause
  | ⟨.op .and, false, [a, b]⟩ => a.conjuncts ++ b.conjuncts
  | e => [e.disjuncts]

variable {p : Expr → Prop} {e : Expr}

/-- An atom is a clause of one literal. -/
theorem disjuncts_atom (isAtom : e.IsAtom) : e.disjuncts = .singleton e.literal := by
  have takes := (everywhere_iff.1 isAtom).1
  unfold disjuncts
  split
  · exact absurd takes id
  · rfl

/-- A disjunction is the merged clause of its operands. -/
theorem disjuncts_or (a b : Expr) : (binary .or a b).disjuncts = a.disjuncts.merge b.disjuncts := by
  simp [binary, node, disjuncts]

/-- A disjunction is a single clause. -/
theorem conjuncts_disjunction (disjunction : Disjunction p e) : e.conjuncts = [e.disjuncts] := by
  have other := disjunction.head_ne
  unfold conjuncts
  split
  · exact absurd rfl other
  · rfl

/-- A conjunction has the clauses of its left operand before those of its right one. -/
theorem conjuncts_and (a b : Expr) : (binary .and a b).conjuncts = a.conjuncts ++ b.conjuncts := by
  simp [binary, node, conjuncts]

/-- In suffix order an operator comes after its operands. -/
theorem toPostfix_binary (operator : Operator) (a b : Expr) :
    (binary operator a b).toPostfix = a.toPostfix ++ (b.toPostfix ++ [.op operator]) := by
  simp [binary, node, toPostfix, toPostfixArgs]

end Expr

namespace ClauseReader

/-- The reader with more disjunctions on its stack, each a single literal, the last one on top. -/
def pushAll (reader : ClauseReader) (literals : List Expr) : ClauseReader :=
  { reader with stack := (literals.map Clause.singleton).reverse ++ reader.stack }

/-- Literals are pushed one after the other. -/
theorem push_pushAll (reader : ClauseReader) (literal : Expr) (literals : List Expr) :
    (reader.push literal).pushAll literals = reader.pushAll (literal :: literals) := by
  simp [push, pushAll]

/-- Literals that were pushed are taken off as they were pushed. -/
theorem pop_pushAll (reader : ClauseReader) (literals : List Expr) (owner : Symbol) :
    (reader.pushAll literals).pop literals.length owner = .ok (literals, reader) := by
  have singles : (literals.map Clause.singleton).mapM Clause.single = .ok literals := by
    induction literals with
    | nil => rfl
    | cons literal rest ih =>
      rw [List.map_cons, List.mapM_cons, ih]
      rfl
  have length : ((literals.map Clause.singleton).reverse).length = literals.length := by simp
  unfold pop pushAll
  rw [if_neg (by simp), List.take_left' length, List.drop_left' length, List.reverse_reverse, singles]
  rfl

/-- The head of an atom whose arguments have been pushed leaves its literal. -/
theorem step_head (reader : ClauseReader) {head : Symbol} {args : List Expr}
    (takes : head.Takes args.length) :
    (reader.pushAll (Expr.literals args)).step head =
      .ok (reader.push (Expr.literal ⟨head, false, args⟩)) := by
  have popped := reader.pop_pushAll (Expr.literals args) head
  have length : (Expr.literals args).length = args.length := by simp [Expr.literals_eq_map]
  have operand : args.length = 0 → reader.pushAll (Expr.literals args) = reader := by
    intro none
    obtain rfl := List.length_eq_zero_iff.1 none
    rfl
  cases head with
  | var v =>
    rw [operand takes]
    simp [step, Expr.literal, Expr.leaf, List.length_eq_zero_iff.1 takes, Expr.literals]
  | const c =>
    rw [operand takes]
    simp [step, Expr.literal, Expr.leaf, List.length_eq_zero_iff.1 takes, Expr.literals]
  | skolem s =>
    rw [operand takes]
    simp [step, Expr.literal, Expr.ofSkolem, Expr.node]
  | fn f =>
    rw [length, show args.length = f.arity from takes] at popped
    simp [step, apply, popped, Expr.literal, Expr.node, Bind.bind, Except.bind]
  | rel r =>
    rw [length, show args.length = r.arity from takes] at popped
    simp [step, apply, popped, Expr.literal, Expr.node, Bind.bind, Except.bind]
  | op operator =>
    cases operator with
    | equals =>
      rw [length, show args.length = 2 from takes] at popped
      simp only [step, equate, popped, Bind.bind, Except.bind]
      rfl
    | notEquals =>
      rw [length, show args.length = 2 from takes] at popped
      simp only [step, equate, popped, Bind.bind, Except.bind]
      rfl
    | _ => exact absurd takes id
  | _ => exact absurd takes id

/-- An atom is read as its literal. -/
theorem foldlM_step_atom {e : Expr} (isAtom : e.IsAtom) (reader : ClauseReader) :
    e.toPostfix.foldlM step reader = .ok (reader.push e.literal) := by
  induction e using Expr.induction generalizing reader with
  | node head negated args ih =>
    obtain ⟨takes, atoms⟩ := Expr.everywhere_iff.1 isAtom
    have inArgs : ∀ reader : ClauseReader, (Expr.toPostfixArgs args).foldlM step reader =
        .ok (reader.pushAll (Expr.literals args)) := by
      clear takes isAtom
      induction args with
      | nil => exact fun reader => rfl
      | cons a as ihArgs =>
        intro reader
        rw [List.forall_mem_cons] at atoms
        rw [Expr.toPostfixArgs, foldlM_append_of_ok (ih a List.mem_cons_self atoms.1 reader),
          ihArgs (fun arg member => ih arg (List.mem_cons_of_mem a member)) atoms.2, push_pushAll]
        rfl
    rw [Expr.toPostfix, foldlM_append_of_ok (inArgs reader), List.foldlM_cons,
      step_head reader takes]
    cases negated with
    | false => rfl
    | true =>
      -- The sign comes last and turns the literal around.
      have flipped : Expr.literal ⟨head, true, args⟩ = (Expr.literal ⟨head, false, args⟩).negate := by
        have flipped := Expr.literal_flip ⟨head, false, args⟩ true
        simpa [Expr.negate] using flipped
      rw [flipped]
      rfl

/-- A disjunction is read as its clause. -/
theorem foldlM_step_disjunction {p : Expr → Prop} {e : Expr} (disjunction : e.Disjunction p)
    (reader : ClauseReader) :
    e.toPostfix.foldlM step reader = .ok { reader with stack := e.disjuncts :: reader.stack } := by
  induction disjunction generalizing reader with
  | literal isAtom =>
    rw [foldlM_step_atom isAtom, Expr.disjuncts_atom isAtom]
    rfl
  | @or a b _ _ left right =>
    rw [Expr.toPostfix_binary, foldlM_append_of_ok (left reader), foldlM_append_of_ok (right _),
      Expr.disjuncts_or]
    rfl

/-- Finishing disjunctions loses none. -/
theorem perm_conjoin (reader : ClauseReader) :
    (reader.conjoin.finished ++ reader.conjoin.stack).Perm (reader.finished ++ reader.stack) := by
  unfold conjoin
  split
  · rename_i right left rest held
    rw [held, List.append_assoc]
    exact (List.Perm.swap right left rest).append_left reader.finished
  · rename_i only held
    rw [held]
    simp
  · rfl

/-- A conjunction is read without loss: its conjuncts join the disjunctions that the reader holds.
-/
theorem foldlM_step_conjunction {p : Expr → Prop} {e : Expr} (conjunction : e.Conjunction p)
    (reader : ClauseReader) :
    ∃ last, e.toPostfix.foldlM step reader = .ok last ∧
      (last.finished ++ last.stack).Perm (e.conjuncts ++ (reader.finished ++ reader.stack)) := by
  induction conjunction generalizing reader with
  | @clause e disjunction =>
    refine ⟨_, foldlM_step_disjunction disjunction reader, ?_⟩
    rw [Expr.conjuncts_disjunction disjunction]
    exact List.perm_middle
  | @and a b _ _ left right =>
    obtain ⟨afterLeft, readLeft, heldLeft⟩ := left reader
    obtain ⟨afterRight, readRight, heldRight⟩ := right afterLeft
    refine ⟨afterRight.conjoin, ?_, ?_⟩
    · rw [Expr.toPostfix_binary, foldlM_append_of_ok readLeft, foldlM_append_of_ok readRight]
      rfl
    · rw [Expr.conjuncts_and, List.append_assoc]
      have joined := heldRight.trans (heldLeft.append_left b.conjuncts)
      exact (perm_conjoin afterRight).trans (joined.trans (List.perm_append_comm_assoc _ _ _))

end ClauseReader

/-- A conjunction in suffix order is read as its conjuncts in some order. -/
theorem ClausalForm.ofPostfix_toPostfix {p : Expr → Prop} {e : Expr} (conjunction : e.Conjunction p) :
    ∃ form, ofPostfix e.toPostfix = .ok form ∧ form.clauses.Perm e.conjuncts := by
  obtain ⟨last, read, held⟩ := ClauseReader.foldlM_step_conjunction conjunction {}
  refine ⟨⟨last.finished ++ last.stack.reverse⟩, ?_, ?_⟩
  · exact bind_eq_ok_iff.2 ⟨last, read, rfl⟩
  · have reversed := (List.reverse_perm last.stack).append_left last.finished
    simpa using reversed.trans held

/-! ### Clauses from left to right -/

/-- Literals that were collected into a clause are added like those they were collected from. -/
theorem Clause.foldl_add_ofList (clause : Clause) (literals : List Expr) :
    (ofList literals).literals.foldl add clause = literals.foldl add clause := by
  induction literals using List.reverseRecOn with
  | nil => rfl
  | append_singleton literals last ih =>
    have whole : ofList (literals ++ [last]) = (ofList literals).add last := by
      simp [ofList, List.foldl_append]
    have added : (literals ++ [last]).foldl add clause = (literals.foldl add clause).add last := by
      simp [List.foldl_append]
    rw [whole, added]
    by_cases present : (ofList literals).contains last
    · -- What is equal to an earlier literal is dropped, whichever clause it is added to.
      have already : (literals.foldl add clause).contains last :=
        contains_foldl_add.2 (.inr (contains_ofList.1 present))
      have dropped : (ofList literals).add last = ofList literals := if_pos present
      have droppedToo : (literals.foldl add clause).add last = literals.foldl add clause :=
        if_pos already
      rw [dropped, droppedToo, ih]
    · have kept : (ofList literals).add last = ⟨(ofList literals).literals ++ [last]⟩ :=
        if_neg present
      rw [kept, List.foldl_append, ih]
      rfl

/-- The disjunction of two clauses is the clause of both lists. -/
theorem Clause.merge_ofList (left right : List Expr) :
    (ofList left).merge (ofList right) = ofList (left ++ right) := by
  rw [merge, foldl_add_ofList, ofList, ofList, List.foldl_append]

namespace Expr

/-- The parts of a conjunction without a conjunction inside, from left to right. -/
def disjunctions : Expr → List Expr
  | ⟨.op .and, false, [a, b]⟩ => a.disjunctions ++ b.disjunctions
  | e => [e]

/-- The parts of a disjunction without a disjunction inside, from left to right. -/
def alternatives : Expr → List Expr
  | ⟨.op .or, false, [a, b]⟩ => a.alternatives ++ b.alternatives
  | e => [e]

variable {p : Expr → Prop} {e : Expr}

/-- An atom has itself as its only alternative. -/
theorem alternatives_atom (isAtom : e.IsAtom) : e.alternatives = [e] := by
  have takes := (everywhere_iff.1 isAtom).1
  unfold alternatives
  split
  · exact absurd takes id
  · rfl

/-- A disjunction has the alternatives of its left operand before those of its right one. -/
theorem alternatives_or (a b : Expr) :
    (binary .or a b).alternatives = a.alternatives ++ b.alternatives := by
  simp [binary, node, alternatives]

/-- A disjunction has no conjunction to take apart. -/
theorem disjunctions_disjunction (disjunction : Disjunction p e) : e.disjunctions = [e] := by
  have other := disjunction.head_ne
  unfold disjunctions
  split
  · exact absurd rfl other
  · rfl

/-- A conjunction has the disjunctions of its left operand before those of its right one. -/
theorem disjunctions_and (a b : Expr) :
    (binary .and a b).disjunctions = a.disjunctions ++ b.disjunctions := by
  simp [binary, node, disjunctions]

/-- The parts of a disjunction are atoms, and its clause is that of their literals. -/
theorem Disjunction.alternatives (disjunction : Disjunction p e) :
    (∀ a ∈ e.alternatives, a.IsAtom ∧ p a) ∧
      e.disjuncts = .ofList (e.alternatives.map Expr.literal) := by
  induction disjunction with
  | literal isAtom holds =>
    rw [alternatives_atom isAtom, disjuncts_atom isAtom]
    exact ⟨List.forall_mem_singleton.2 ⟨isAtom, holds⟩, rfl⟩
  | or _ _ left right =>
    rw [alternatives_or, disjuncts_or, left.2, right.2, Clause.merge_ofList, List.map_append]
    exact ⟨List.forall_mem_append.2 ⟨left.1, right.1⟩, rfl⟩

/-- The parts of a conjunction are disjunctions, and its clauses are theirs. -/
theorem Conjunction.disjunctions (conjunction : Conjunction p e) :
    (∀ d ∈ e.disjunctions, d.Disjunction p) ∧ e.conjuncts = e.disjunctions.map disjuncts := by
  induction conjunction with
  | clause disjunction =>
    rw [disjunctions_disjunction disjunction, conjuncts_disjunction disjunction]
    exact ⟨List.forall_mem_singleton.2 disjunction, rfl⟩
  | and _ _ left right =>
    rw [disjunctions_and, conjuncts_and, left.2, right.2, List.map_append]
    exact ⟨List.forall_mem_append.2 ⟨left.1, right.1⟩, rfl⟩

end Expr

/-- A conjunction of disjunctions of atoms, written in suffix order, is always read. The clauses
are, in some order, one for each part of it without a conjunction: the clause of the literals of the
atoms of that part, from left to right. -/
theorem ClausalForm.ofPostfix_toPostfix_perm_disjunctions {p : Expr → Prop} {e : Expr}
    (conjunction : e.Conjunction p) :
    (∀ d ∈ e.disjunctions, d.Disjunction p ∧ ∀ a ∈ d.alternatives, a.IsAtom ∧ p a) ∧
      ∃ form, ofPostfix e.toPostfix = .ok form ∧ form.clauses.Perm
        (e.disjunctions.map fun d => .ofList (d.alternatives.map Expr.literal)) := by
  obtain ⟨parts, conjuncts⟩ := conjunction.disjunctions
  obtain ⟨form, read, perm⟩ := ofPostfix_toPostfix conjunction
  refine ⟨fun d member => ⟨parts d member, (parts d member).alternatives.1⟩, form, read, ?_⟩
  have clauses : e.disjunctions.map Expr.disjuncts =
      e.disjunctions.map fun d => .ofList (d.alternatives.map Expr.literal) :=
    List.map_congr_left fun d member => (parts d member).alternatives.2
  rwa [conjuncts, clauses] at perm

namespace ClausalForm

/-- One of several variables of a name. -/
def side (id : Nat) : Expr := .ofVariable ⟨"x", id, false, false⟩

/-- A conjunction whose inner conjunctions finish an operand of the outermost one. -/
def rightNested : Expr :=
  .binary .and (side 0)
    (.binary .and
      (.binary .and (.binary .or (side 1) (.binary .or (side 0).negate (side 1)))
        ⟨.op .notEquals, true, [side 0, side 1]⟩)
      (.binary .notEquals (side 0) (side 1)))

/-- The nested conjunction is read as its four clauses, one of them without the repeated literal. -/
theorem ofPostfix_toPostfix_rightNested :
    rightNested.Conjunction Expr.NaNFree ∧
      ∃ form, ofPostfix rightNested.toPostfix = .ok form ∧ form.clauses.Perm
        [⟨[side 0]⟩, ⟨[side 1, (side 0).negate]⟩, ⟨[.binary .equals (side 0) (side 1)]⟩,
          ⟨[(Expr.binary .equals (side 0) (side 1)).negate]⟩] := by
  have conjunction : rightNested.Conjunction Expr.NaNFree := by
    refine .and (.clause (.literal ?_ ?_)) (.and (.and (.clause (.or (.literal ?_ ?_)
      (.or (.literal ?_ ?_) (.literal ?_ ?_)))) (.clause (.literal ?_ ?_)))
      (.clause (.literal ?_ ?_)))
    all_goals
      simp [Expr.IsAtom, Expr.NaNFree, Expr.Everywhere, Expr.EverywhereArgs, Symbol.Takes,
        Symbol.isNaN, side, Expr.ofVariable, Expr.leaf, Expr.negate, Expr.binary, Expr.node]
  exact ⟨conjunction, (ofPostfix_toPostfix_perm_disjunctions conjunction).2⟩

end ClausalForm

/-! ### What clauses say -/

/-- The literals of clauses are those of the atoms of a conjunction. -/
theorem Expr.Conjunction.exists_atom {p : Expr → Prop} {e : Expr} (conjunction : e.Conjunction p)
    {clause : Clause} (member : clause ∈ e.conjuncts) {literal : Expr}
    (inside : literal ∈ clause.literals) :
    ∃ atom : Expr, atom.IsAtom ∧ p atom ∧ literal = atom.literal := by
  have inDisjunction : ∀ {e : Expr}, e.Disjunction p → literal ∈ e.disjuncts.literals →
      ∃ atom : Expr, atom.IsAtom ∧ p atom ∧ literal = atom.literal := by
    intro e disjunction inside
    induction disjunction with
    | @literal e isAtom holds =>
      rw [disjuncts_atom isAtom] at inside
      exact ⟨e, isAtom, holds, List.mem_singleton.1 inside⟩
    | @or a b _ _ left right =>
      rw [disjuncts_or] at inside
      exact (Clause.mem_of_mem_foldl_add inside).elim left right
  induction conjunction with
  | clause disjunction =>
    rw [conjuncts_disjunction disjunction] at member
    obtain rfl := List.mem_singleton.1 member
    exact inDisjunction disjunction inside
  | @and a b _ _ left right =>
    rw [conjuncts_and] at member
    exact (List.mem_append.1 member).elim left right

namespace Structure

variable {D : Type u} (M : Structure D) (β : Assignment D) {p : Expr → Prop} {e : Expr}

/-- A disjunction is true exactly if a literal of its clause is. -/
theorem truth_disjuncts (disjunction : e.Disjunction p) :
    M.Truth Variable.identity β e ↔ M.SomeTrue β.get e.disjuncts.literals := by
  induction disjunction with
  | @literal e isAtom =>
    rw [truth_atom _ _ isAtom, Expr.disjuncts_atom isAtom]
    constructor
    · exact fun true => ⟨e.literal, List.mem_singleton_self _, true⟩
    · rintro ⟨literal, member, true⟩
      exact List.mem_singleton.1 member ▸ true
  | or _ _ left right => rw [truth_or, left, right, Expr.disjuncts_or, M.someTrue_merge]

/-- A conjunction is true when all its conjuncts are. -/
theorem truth_conjuncts (conjunction : e.Conjunction p) :
    M.Truth Variable.identity β e ↔ ∀ clause ∈ e.conjuncts, M.SomeTrue β.get clause.literals := by
  induction conjunction with
  | clause disjunction =>
    rw [M.truth_disjuncts β disjunction, Expr.conjuncts_disjunction disjunction,
      List.forall_mem_singleton]
  | and _ _ left right => rw [truth_and, left, right, Expr.conjuncts_and, List.forall_mem_append]

end Structure

end Refute
