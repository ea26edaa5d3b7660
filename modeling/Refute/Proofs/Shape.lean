import Refute.Proofs.Distribution
import Refute.Proofs.Elimination
import Refute.Proofs.NormalForm

/-!
# The shape of normal forms

Whatever a statement is made of, Skolem functions that someone put into it included, each pass of
the conversion leaves a formula of a smaller shape: negation normal form leaves literals under
conjunctions, disjunctions and quantifiers, none of them negated; renaming changes nothing about
that; Skolem functions take the existential quantifiers away and the next pass the universal ones;
distribution brings the conjunctions to the top. Clauses can be read off what is left, so the
conversion of a statement, or of its negation, never fails. The first pass and the last one apply
rules that copy what they are applied to; the conversion comes to an end because these rules do.
-/

open Relation (ReflTransGen)

namespace Refute

namespace Expr

/-- A formula in which only atoms are negated and none says with `!=` that two sides differ. Its
quantifiers are of permitted kinds. -/
inductive Framed (kinds : Set Quantifier) : Expr → Prop
  /-- An atom, perhaps negated. -/
  | literal {e : Expr} (isAtom : e.IsAtom) (other : e.head ≠ .op .notEquals) : Framed kinds e
  /-- A conjunction or disjunction. -/
  | junction {operator : Operator} {a b : Expr} (either : operator = .and ∨ operator = .or)
      (left : Framed kinds a) (right : Framed kinds b) : Framed kinds (binary operator a b)
  /-- A formula under a quantifier. -/
  | quantified {binder : Binder} {body : Expr} (kind : binder.quantifier ∈ kinds)
      (inner : Framed kinds body) : Framed kinds (node (.binder binder) [body])

variable {e : Expr}

/-- Negation normal form leaves negations on atoms only, and no `!=` above the arguments of
atoms. -/
theorem Formula.framed (formula : e.Formula) (flip : Bool) : (nnf flip e).Framed Set.univ := by
  refine formula.nnf_induction (Q := fun _ result => result.Framed Set.univ) ?atom (fun _ => id)
    .junction (fun _ => .quantified trivial) flip
  intro e flip isAtom
  refine .literal (isAtom.nnf flip) ?_
  obtain ⟨root, -⟩ := everywhere_iff.1 isAtom
  obtain ⟨head, negated, args⟩ := e
  cases head with
  | op operator =>
    cases operator with
    | equals => exact nofun
    | notEquals => exact nofun
    | _ => exact absurd root id
  | binder b => exact absurd root id
  | _ => exact nofun

/-- A renamed atom is an atom. -/
theorem IsAtom.rename (isAtom : e.IsAtom) (scope : List (String × Variable)) (state : Renaming) :
    (rename scope state e).1.IsAtom := by
  induction e using Expr.induction generalizing state with
  | node head negated args ih =>
    obtain ⟨takes, atoms⟩ := everywhere_iff.1 isAtom
    have inArgs : ∀ state, (renameArgs scope state args).1.length = args.length ∧
        ∀ arg ∈ (renameArgs scope state args).1, arg.IsAtom := by
      clear takes isAtom
      induction args with
      | nil => exact fun state => ⟨rfl, List.forall_mem_nil _⟩
      | cons a as ihArgs =>
        intro state
        rw [List.forall_mem_cons] at atoms
        obtain ⟨length, others⟩ := ihArgs (fun arg member =>
          ih arg (List.mem_cons_of_mem a member)) atoms.2 (Expr.rename scope state a).2
        exact ⟨congrArg Nat.succ length,
          List.forall_mem_cons.2 ⟨ih a List.mem_cons_self atoms.1 state, others⟩⟩
    cases head with
    | var v =>
      obtain rfl : args = [] := List.length_eq_zero_iff.1 takes
      exact everywhere_iff.2 ⟨rfl, List.forall_mem_nil _⟩
    | binder b => exact absurd takes id
    | _ => exact everywhere_iff.2 ⟨(inArgs state).1 ▸ takes, (inArgs state).2⟩

/-- Renaming keeps the comparison that heads an expression, and brings in none. -/
theorem head_rename_ne (other : e.head ≠ .op .notEquals) (scope : List (String × Variable))
    (state : Renaming) : (rename scope state e).1.head ≠ .op .notEquals := by
  obtain ⟨head, negated, args⟩ := e
  cases head with
  | op operator => exact other
  | _ => exact nofun

/-- Renaming keeps the frame of a formula. -/
theorem Framed.rename {kinds : Set Quantifier} (framed : e.Framed kinds)
    (scope : List (String × Variable)) (state : Renaming) :
    (rename scope state e).1.Framed kinds := by
  induction framed generalizing scope state with
  | literal isAtom other =>
    exact .literal (isAtom.rename scope state) (head_rename_ne other scope state)
  | junction either _ _ left right =>
    rw [rename_binary]
    exact .junction either (left scope state) (right scope _)
  | @quantified binder body kind _ inner =>
    obtain ⟨quantifier, bound⟩ := binder
    rw [rename_quantified]
    exact .quantified kind (inner _ _)

/-- Replacing variables brings in no comparison. -/
theorem head_mapLeaves_ne (other : e.head ≠ .op .notEquals)
    (replacements : List (Variable × Skolem)) :
    (e.mapLeaves (Skolem.replacement replacements)).head ≠ .op .notEquals := by
  obtain ⟨head, negated, args⟩ := e
  cases head with
  | var v =>
    change Skolem.replacement replacements v ≠ .op .notEquals
    obtain ⟨entry, -, -, same⟩ | ⟨-, -, same⟩ := Skolem.replacement_cases replacements v <;>
      rw [same] <;> exact nofun
  | op operator => exact other
  | _ => exact nofun

/-- Skolem functions leave universal quantifiers only. -/
theorem Framed.skolemizeWith (framed : e.Framed Set.univ) (universals : List Variable)
    (replacements : List (Variable × Skolem)) (next : Nat) :
    (skolemizeWith universals replacements next e).1.Framed {.universal} := by
  induction framed generalizing universals replacements next with
  | literal isAtom other =>
    rw [skolemizeWith_atom isAtom]
    exact .literal (isAtom.replace replacements) (head_mapLeaves_ne other replacements)
  | junction either _ _ left right =>
    rw [skolemizeWith_binary]
    exact .junction either (left _ _ _) (right _ _ _)
  | @quantified binder body _ _ inner =>
    obtain ⟨quantifier, bound⟩ := binder
    cases quantifier with
    | universal =>
      rw [skolemizeWith_universal]
      exact .quantified rfl (inner _ _ _)
    | existential =>
      rw [skolemizeWith_existential]
      exact inner _ _ _

/-- Without its universal quantifiers a formula has no quantifiers. -/
theorem Framed.matrix (framed : e.Framed {.universal}) :
    e.dropUniversals.Matrix fun atom => atom.head ≠ .op .notEquals := by
  induction framed with
  | literal isAtom other =>
    rw [dropUniversals_atom isAtom]
    exact .literal isAtom other
  | junction either _ _ left right =>
    rw [dropUniversals_binary]
    exact .junction either left right
  | @quantified binder body kind _ inner =>
    obtain ⟨quantifier, bound⟩ := binder
    obtain rfl : quantifier = .universal := kind
    rw [dropUniversals_universal]
    exact inner

/-- The normal form of a formula is a conjunction of disjunctions of literals. -/
theorem Formula.conjunction_toCnf (formula : e.Formula) (session : Session) :
    (e.toCnf session).1.Conjunction fun atom => atom.head ≠ .op .notEquals := by
  rw [toCnf_eq]
  exact (((formula.framed false).rename [] _).skolemizeWith [] [] session.nextSkolem).matrix.distribute

/-! ### The end of the conversion -/

/-- A disjunction of atoms is a clause. -/
theorem Disjunction.isClause {p : Expr → Prop} (disjunction : Disjunction p e) : e.isClause := by
  induction disjunction with
  | @literal e isAtom holds =>
    obtain ⟨head, negated, args⟩ := e
    have takes := (everywhere_iff.1 isAtom).1
    refine isClause_of_part (.inr ⟨?_, ?_⟩)
    · rintro rfl
      exact takes
    · rintro rfl
      exact takes
  | or _ _ left right => simp [binary, node, Expr.isClause, isClauseArgs, left, right]

/-- A conjunction of disjunctions of atoms is in conjunctive normal form. -/
theorem Conjunction.isCnf {p : Expr → Prop} (conjunction : Conjunction p e) : e.isCnf := by
  induction conjunction with
  | clause disjunction => exact isCnf_of_isClause disjunction.isClause
  | and _ _ left right => simp [binary, node, Expr.isCnf, isCnfArgs, left, right]

/-- The conversion of an expression comes to an end. The passes in between go once through the
expression; the first and the last apply rules, and these can be applied a limited number of times
only, in whatever order. -/
structure Converts (session : Session) (e : Expr) : Prop where
  /-- The rules of the first pass come to an end. -/
  eliminates : Acc (fun f g => Eliminates g f) e
  /-- They lead to what the first pass leaves, to which none of them applies. -/
  eliminated : ReflTransGen Eliminates e e.eliminateConnectives ∧
    Settled Eliminates e.eliminateConnectives
  /-- The rules of the last pass come to an end. -/
  distributes : Acc (fun f g => Distributes g f) (e.skolemForm session).1.dropUniversals
  /-- One pass in order leads to the normal form. -/
  distributed : (distributeOnce (e.skolemForm session).1.dropUniversals).1 = (e.toCnf session).1
  /-- The last pass is not repeated, since what it leaves is in conjunctive normal form. -/
  ends : (e.toCnf session).1.isCnf

/-- The conversion of a formula comes to an end. -/
theorem Formula.converts (formula : e.Formula) (session : Session) : e.Converts session where
  eliminates := acc_eliminates e
  eliminated := ⟨run_eliminateConnectives e, settled_eliminateConnectives e⟩
  distributes := acc_distributes _
  distributed := distributeOnce_eq _
  ends := (formula.conjunction_toCnf session).isCnf

end Expr

namespace Statement

/-- The ways to come by a statement. -/
inductive Built : Statement → Prop
  /-- It was read from a text. -/
  | read {session next : Session} {text : String} {statement : Statement}
      (parsed : parse session text = (.ok statement, next)) : Built statement
  /-- It was put together from symbols in suffix order, of whatever kind. -/
  | assembled {symbols : List Symbol} {statement : Statement}
      (made : ofPostfix symbols = .ok statement) : Built statement

/-- Whichever way a statement was come by, it is a formula. -/
theorem Built.formula {statement : Statement} (built : statement.Built) :
    statement.formula.Formula := by
  cases built with
  | read parsed => exact (formula_of_parse parsed).1
  | assembled made =>
    obtain ⟨formula, assembled, same⟩ := bind_eq_ok_iff.1 made
    obtain rfl := Except.ok.inj same
    exact Expr.formula_of_ofPostfix assembled

/-- In every session the conversion of a statement, and that of its negation, comes to an end. It
leaves a conjunction of disjunctions of atoms: above the atoms stand conjunctions and disjunctions
of two operands each, none of them negated and no conjunction below a disjunction, and no atom is a
`!=`. Clauses are always read off it, and they are its conjuncts. -/
theorem conjunction_toCnf_and_clauses_ok {statement : Statement} (built : statement.Built)
    (session : Session) :
    (statement.formula.Converts session ∧ statement.formula.negate.Converts session) ∧
    ((statement.formula.toCnf session).1.Conjunction fun atom => atom.head ≠ .op .notEquals) ∧
    ((statement.formula.negate.toCnf session).1.Conjunction fun atom =>
      atom.head ≠ .op .notEquals) ∧
    (∃ form, (statement.clauses session).1 = .ok form ∧
      form.clauses.Perm (statement.formula.toCnf session).1.conjuncts) ∧
    ∃ form, (statement.negatedClauses session).1 = .ok form ∧
      form.clauses.Perm (statement.formula.negate.toCnf session).1.conjuncts := by
  have shape := built.formula.conjunction_toCnf session
  have negatedShape := built.formula.negate.conjunction_toCnf session
  exact ⟨⟨built.formula.converts session, built.formula.negate.converts session⟩, shape, negatedShape,
    ClausalForm.ofPostfix_toPostfix shape, ClausalForm.ofPostfix_toPostfix negatedShape⟩

/-- The negation of `FORALL x, (x != $3 <=> EXISTS y, x)`, with a Skolem function put into it. -/
def differing : Statement :=
  let x : Variable := ⟨"x", 0, false, false⟩
  let y : Variable := ⟨"y", 1, false, false⟩
  let someone : Symbol := .skolem ⟨3, [y]⟩
  ⟨[.var x, someone, .op .notEquals, .var x, .binder ⟨.existential, [y]⟩, .op .biconditional,
      .binder ⟨.universal, [x]⟩, .op .not],
    ⟨.binder ⟨.universal, [x]⟩, true, [.binary .biconditional
      (.binary .notEquals (.ofVariable x) (.leaf someone))
      (.node (.binder ⟨.existential, [y]⟩) [.ofVariable x])]⟩⟩

/-- Under the negation the biconditional leaves four clauses, about a new Skolem constant; its own
negation leaves two, about a universal variable. The Skolem function that was there stays. -/
theorem clauses_ok_differing :
    let chosen : Expr := .ofSkolem ⟨0, []⟩
    let anyone : Expr := .ofVariable ⟨"x", 0, true, true⟩
    let same : Expr → Expr := fun e => .binary .equals e (.ofSkolem ⟨3, [⟨"y", 1, false, false⟩]⟩)
    let form : ClausalForm := ⟨[⟨[(same chosen).negate, chosen]⟩, ⟨[(same chosen).negate, same chosen]⟩,
      ⟨[chosen.negate, chosen]⟩, ⟨[chosen.negate, same chosen]⟩]⟩
    let negatedForm : ClausalForm := ⟨[⟨[same anyone, anyone]⟩, ⟨[anyone.negate, (same anyone).negate]⟩]⟩
    ofPostfix differing.symbols = .ok differing ∧
      differing.formula.Converts Session.empty ∧
      ((differing.formula.toCnf Session.empty).1.Conjunction fun atom =>
        atom.head ≠ .op .notEquals) ∧
      ((differing.clauses Session.empty).1 = .ok form ∧
        form.clauses.Perm (differing.formula.toCnf Session.empty).1.conjuncts) ∧
      (differing.negatedClauses Session.empty).1 = .ok negatedForm ∧
        negatedForm.clauses.Perm (differing.formula.negate.toCnf Session.empty).1.conjuncts := by
  intro chosen anyone same form negatedForm
  have made : ofPostfix differing.symbols = .ok differing := rfl
  have read : (differing.clauses Session.empty).1 = .ok form := by with_unfolding_all rfl
  have negatedRead : (differing.negatedClauses Session.empty).1 = .ok negatedForm := by
    with_unfolding_all rfl
  obtain ⟨⟨converts, -⟩, shape, -, ⟨clauses, found, each⟩, negatedClauses, negatedFound, negatedEach⟩ :=
    conjunction_toCnf_and_clauses_ok (.assembled made) Session.empty
  obtain rfl : form = clauses := Except.ok.inj (read.symm.trans found)
  obtain rfl : negatedForm = negatedClauses := Except.ok.inj (negatedRead.symm.trans negatedFound)
  exact ⟨made, converts, shape, ⟨read, each⟩, negatedRead, negatedEach⟩

end Statement

end Refute
