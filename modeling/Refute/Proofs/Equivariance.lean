import Refute.Proofs.Renumbering
import Refute.Prover.Search

/-!
# Searches under new numbers

Everything a search does commutes with a renumbering: it follows and makes bindings, it checks them
against fixed variables, it factors, resolves and drops duplicates, and it counts. A search that
starts from renumbered clauses ends with the same verdict after the same work, and its derivation is
the renumbered one.
-/

namespace Refute

variable (ρ : Renumbering)

/-! ### Unifiers -/

/-- The binding under new numbers. -/
def Binding.renumber (binding : Binding) : Binding :=
  ⟨binding.unknown.renumber ρ, binding.replacement.renumber ρ⟩

/-- The cause under new numbers. -/
def UnifyError.renumber : UnifyError → UnifyError
  | occursCheck unknown term => occursCheck (unknown.renumber ρ) (term.renumber ρ)
  | symbolClash expected found => symbolClash (expected.renumber ρ) (found.renumber ρ)
  | arityMismatch expected found => arityMismatch expected found
  | restricted binding => restricted (binding.renumber ρ)
  | polarity first second => polarity (first.renumber ρ) (second.renumber ρ)
  | endless => endless

namespace Unifier

/-- The unifier under new numbers. -/
def renumber (u : Unifier) : Unifier := ⟨u.bindings.map (Binding.renumber ρ)⟩

/-- The failure under new numbers. -/
def Failure.renumber (failure : Failure) : Failure :=
  ⟨failure.cause.renumber ρ, failure.reached.renumber ρ⟩

/-- The move under new numbers. -/
def Move.renumber : Move → Move
  | agree => agree
  | follow left right => follow (left.renumber ρ) (right.renumber ρ)
  | bind unknown term => bind (unknown.renumber ρ) (term.renumber ρ)
  | descend => descend
  | clash cause => clash (cause.renumber ρ)

/-- A renumbered unknown is bound to the renumbered replacement, if to any. -/
@[simp]
theorem lookup?_renumber (u : Unifier) (term : Expr) :
    (u.renumber ρ).lookup? (term.renumber ρ) = (u.lookup? term).map (Expr.renumber ρ) := by
  have same : (fun binding : Binding => binding.unknown.sameAtom (term.renumber ρ)) ∘
      Binding.renumber ρ = fun binding => binding.unknown.sameAtom term :=
    funext fun binding => Expr.sameAtom_renumber ρ binding.unknown term
  rw [lookup?, renumber, List.find?_map, same, lookup?, Option.map_map, Option.map_map]
  rfl

/-- A binding can be made before or after all is renumbered. -/
@[simp]
theorem bind_renumber (u : Unifier) (unknown replacement : Expr) :
    (u.renumber ρ).bind (unknown.renumber ρ) (replacement.renumber ρ) =
      (u.bind unknown replacement).renumber ρ := by
  simp [bind, renumber, Binding.renumber]

/-- Bindings are followed through the same places before and after renumbering. -/
theorem applyWithin_renumber (u : Unifier) (steps : Nat) (term : Expr) :
    (u.renumber ρ).applyWithin steps (term.renumber ρ) =
      (u.applyWithin steps term).map (Expr.renumber ρ) := by
  induction steps generalizing term with
  | zero => rfl
  | succ steps ih =>
    rw [applyWithin, applyWithin, lookup?_renumber]
    cases u.lookup? term with
    | some replacement =>
      simp only [Option.map_some, ih, Option.map_map, Expr.negated_renumber]
      congr 1
      funext found
      cases found
      simp
    | none =>
      have args := mapM_map_option (fun arg => ih arg) term.args
      simp only [Option.map_none, Expr.args_renumber, args, Option.map_map]
      congr 1
      funext found
      cases term
      simp

/-- As many steps are allowed for following renumbered bindings. -/
theorem reach_renumber (u : Unifier) (term : Expr) :
    (u.renumber ρ).reach (term.renumber ρ) = u.reach term := by
  simp [reach, renumber, Binding.renumber, List.foldl_map]

/-- The image of a renumbered term is the renumbered image, and there is none if there was none. -/
@[simp]
theorem image?_renumber (u : Unifier) (term : Expr) :
    (u.renumber ρ).image? (term.renumber ρ) = (u.image? term).map (Expr.renumber ρ) := by
  rw [image?, reach_renumber, applyWithin_renumber, image?]

/-- A renumbered unifier takes a renumbered term to the renumbered image. -/
@[simp]
theorem apply_renumber (u : Unifier) (term : Expr) :
    (u.renumber ρ).apply (term.renumber ρ) = (u.apply term).renumber ρ := by
  rw [apply, image?_renumber, apply]
  cases u.image? term <;> rfl

/-- A renumbered unifier takes a renumbered clause to the renumbered image. -/
@[simp]
theorem applyToClause_renumber (u : Unifier) (clause : Clause) :
    (u.renumber ρ).applyToClause (clause.renumber ρ) = (u.applyToClause clause).renumber ρ := by
  have literals : (clause.literals.map (Expr.renumber ρ)).map (u.renumber ρ).apply =
      (clause.literals.map u.apply).map (Expr.renumber ρ) := by
    rw [List.map_map, List.map_map]
    exact List.map_congr_left fun literal _ => apply_renumber ρ u literal
  rw [applyToClause, Clause.literals_renumber, literals, Clause.ofList_renumber, applyToClause]

/-- An unknown and a term call for the same move under new numbers. -/
theorem moveUnknown_renumber (u : Unifier) (unknown term : Expr) :
    (u.renumber ρ).moveUnknown (unknown.renumber ρ) (term.renumber ρ) =
      (u.moveUnknown unknown term).renumber ρ := by
  unfold moveUnknown
  rw [lookup?_renumber, lookup?_renumber, Expr.isUnknown_renumber]
  cases u.lookup? unknown with
  | some bound => rfl
  | none =>
    cases term.isUnknown with
    | false => rfl
    | true => cases u.lookup? term <;> rfl

/-- Two terms call for the same move under new numbers. -/
theorem move_renumber (u : Unifier) (left right : Expr) :
    (u.renumber ρ).move (left.renumber ρ) (right.renumber ρ) = (u.move left right).renumber ρ := by
  unfold move
  simp only [Expr.sameAtom_renumber, Expr.isVariable_renumber, Expr.isUnknown_renumber,
    Expr.head_renumber, Expr.args_renumber, List.length_map, moveUnknown_renumber, bne,
    Symbol.beq_renumber]
  split_ifs <;> rfl

/-- An unknown is bound, or fails the occurs check, as it does under the old numbers. -/
theorem bindUnknown_renumber (u : Unifier) (unknown term : Expr) :
    (u.renumber ρ).bindUnknown (unknown.renumber ρ) (term.renumber ρ) =
      ((u.bindUnknown unknown term).map (renumber ρ)).mapError (Failure.renumber ρ) := by
  unfold bindUnknown
  rw [image?_renumber]
  cases u.image? term with
  | none => rfl
  | some found =>
    simp only [Option.map_some, Expr.atomOccursIn_renumber, Expr.positive_renumber, bind_renumber]
    split_ifs <;> rfl

/-- Unification within a number of moves makes the same bindings under new numbers, or fails for the
same cause. -/
theorem unifyWithin_renumber (moves : Nat) (u : Unifier) (left right : Expr) :
    unifyWithin moves (u.renumber ρ) (left.renumber ρ) (right.renumber ρ) =
      ((unifyWithin moves u left right).map (renumber ρ)).mapError (Failure.renumber ρ) := by
  induction moves generalizing u left right with
  | zero => rfl
  | succ moves ih =>
    rw [unifyWithin, unifyWithin, move_renumber]
    cases u.move left right with
    | agree => rfl
    | follow left right => exact ih u left right
    | bind unknown term => exact bindUnknown_renumber ρ u unknown term
    | clash cause => rfl
    | descend =>
      simp only [Move.renumber, Expr.args_renumber, List.zip_map]
      refine foldlM_map_except (fun u pair => ?_) (left.args.zip right.args) u
      simp only [Prod.map_fst, Prod.map_snd, Expr.negated_renumber, ih]
      split_ifs <;> rfl

/-- As many moves are allowed for unifying renumbered terms. -/
theorem moveBound_renumber (u : Unifier) (left right : Expr) :
    (u.renumber ρ).moveBound (left.renumber ρ) (right.renumber ρ) = u.moveBound left right := by
  simp [moveBound, places, renumber, Binding.renumber, List.foldl_map]

/-- Renumbered terms unify exactly if the terms do, with the renumbered bindings. -/
@[simp]
theorem unify_renumber (u : Unifier) (left right : Expr) :
    (u.renumber ρ).unify (left.renumber ρ) (right.renumber ρ) =
      ((u.unify left right).map (renumber ρ)).mapError (Failure.renumber ρ) := by
  rw [unify, moveBound_renumber, unifyWithin_renumber, unify]

end Unifier

/-! ### Restrictions -/

/-- A binding is at odds with the fixed variables under new numbers exactly if it was before. -/
theorem Binding.isRestricted_renumber (hypothesis : List Variable) (binding : Binding) :
    (binding.renumber ρ).isRestricted (hypothesis.map (Variable.renumber ρ)) =
      binding.isRestricted hypothesis := by
  obtain ⟨⟨head, negated, args⟩, replacement⟩ := binding
  simp only [isRestricted, renumber, Expr.renumber_mk]
  cases head with
  | var v => exact contains_map (Variable.beq_renumber ρ) hypothesis v
  | skolem s => exact congrArg not (Expr.isUnknown_renumber ρ replacement)
  | _ => rfl

/-- The check of a unifier against fixed variables comes out the same under new numbers. -/
theorem Unifier.check_renumber (hypothesis : List Variable) (u : Unifier) :
    (u.renumber ρ).check (hypothesis.map (Variable.renumber ρ)) =
      (u.check hypothesis).mapError (UnifyError.renumber ρ) := by
  have same : Binding.isRestricted (hypothesis.map (Variable.renumber ρ)) ∘ Binding.renumber ρ =
      Binding.isRestricted hypothesis :=
    funext fun binding => Binding.isRestricted_renumber ρ hypothesis binding
  rw [check, renumber, List.find?_map, same, check]
  cases u.bindings.find? (Binding.isRestricted hypothesis) <;> rfl

namespace Expr

/-- Unification from no bindings gives the renumbered unifier or the renumbered cause. -/
theorem unify_renumber (left right : Expr) :
    (left.renumber ρ).unify (right.renumber ρ) =
      ((left.unify right).map (Unifier.renumber ρ)).mapError (UnifyError.renumber ρ) := by
  have same := Unifier.unify_renumber ρ Unifier.empty left right
  have empty : Unifier.empty.renumber ρ = Unifier.empty := rfl
  rw [empty] at same
  rw [unify, same, unify]
  cases Unifier.empty.unify left right <;> rfl

variable (hypothesis : List Variable)

/-- Unification followed by the check comes out the same under new numbers. -/
theorem unifyChecked_renumber (left right : Expr) :
    unifyChecked (hypothesis.map (Variable.renumber ρ)) (left.renumber ρ) (right.renumber ρ) =
      ((unifyChecked hypothesis left right).map (Unifier.renumber ρ)).mapError
        (UnifyError.renumber ρ) := by
  rw [unifyChecked, unify_renumber, unifyChecked]
  cases left.unify right with
  | error cause => rfl
  | ok u =>
    change (do (u.renumber ρ).check _; .ok (u.renumber ρ)) =
      ((do u.check hypothesis; .ok u : Except UnifyError Unifier).map _).mapError _
    rw [Unifier.check_renumber]
    cases u.check hypothesis <;> rfl

/-- Two expressions are both fixed variables exactly if the renumbered ones are. -/
theorem areFixedVariables_renumber (left right : Expr) :
    areFixedVariables (left.renumber ρ) (right.renumber ρ) = areFixedVariables left right := by
  obtain ⟨head, negated, args⟩ := left
  obtain ⟨other, sign, others⟩ := right
  simp only [areFixedVariables, renumber_mk]
  cases head with
  | var v =>
    cases other with
    | var w => simp only [Symbol.renumber, bne, Variable.beq_renumber, Variable.universal_renumber]
    | _ => rfl
  | _ => cases other <;> rfl

/-- Restricted unification comes out the same under new numbers. -/
theorem unifyRestricted_renumber (left right : Expr) :
    unifyRestricted (hypothesis.map (Variable.renumber ρ)) (left.renumber ρ) (right.renumber ρ) =
      ((unifyRestricted hypothesis left right).map (Unifier.renumber ρ)).mapError
        (UnifyError.renumber ρ) := by
  unfold unifyRestricted
  rw [areFixedVariables_renumber, unifyChecked_renumber, unifyChecked_renumber]
  cases areFixedVariables left right with
  | true => rfl
  | false => cases unifyChecked hypothesis left right <;> rfl

/-- Complementary literals resolve under new numbers exactly if they did before. -/
theorem resolvingUnifier_renumber (literal negation : Expr) :
    resolvingUnifier (hypothesis.map (Variable.renumber ρ)) (literal.renumber ρ)
        (negation.renumber ρ) =
      ((resolvingUnifier hypothesis literal negation).map (Unifier.renumber ρ)).mapError
        (UnifyError.renumber ρ) := by
  unfold resolvingUnifier
  rw [negated_renumber, negated_renumber, unifyRestricted_renumber, negate_renumber]
  cases literal.negated != negation.negated <;> rfl

end Expr

/-! ### Inferences -/

namespace Clause

variable (hypothesis : List Variable)

/-- A literal merges with the same one of the literals after it. -/
theorem mergeWith_renumber (first : Expr) (index : Nat) (rest : List Expr) :
    mergeWith (hypothesis.map (Variable.renumber ρ)) (first.renumber ρ) index
        (rest.map (Expr.renumber ρ)) =
      (mergeWith hypothesis first index rest).map (Prod.map id (Unifier.renumber ρ)) := by
  induction rest generalizing index with
  | nil => rfl
  | cons second rest ih =>
    simp only [List.map_cons, mergeWith, Expr.negated_renumber, Expr.unifyRestricted_renumber, ih]
    cases first.negated != second.negated with
    | true => rfl
    | false => cases Expr.unifyRestricted hypothesis first second <;> rfl

/-- The first pair of literals that merge stands at the same place. -/
theorem mergeable?_renumber (index : Nat) (literals : List Expr) :
    mergeable? (hypothesis.map (Variable.renumber ρ)) index (literals.map (Expr.renumber ρ)) =
      (mergeable? hypothesis index literals).map (Prod.map id (Unifier.renumber ρ)) := by
  induction literals generalizing index with
  | nil => rfl
  | cons first rest ih =>
    simp only [List.map_cons, mergeable?, mergeWith_renumber, ih]
    cases mergeWith hypothesis first (index + 1) rest <;> rfl

/-- One merge of literals commutes with renumbering. -/
theorem factorOnce_renumber (clause : Clause) :
    (clause.renumber ρ).factorOnce (hypothesis.map (Variable.renumber ρ)) =
      (clause.factorOnce hypothesis).map (renumber ρ) := by
  rw [factorOnce, literals_renumber, mergeable?_renumber, factorOnce, Option.map_map, Option.map_map]
  congr 1
  funext found
  simp only [Function.comp, Prod.map, without_renumber, Unifier.applyToClause_renumber, id]

/-- A bounded number of merges commutes with renumbering. -/
theorem factorWithin_renumber (merges : Nat) (clause : Clause) :
    factorWithin (hypothesis.map (Variable.renumber ρ)) merges (clause.renumber ρ) =
      (factorWithin hypothesis merges clause).renumber ρ := by
  induction merges generalizing clause with
  | zero => rfl
  | succ merges ih =>
    rw [factorWithin, factorOnce_renumber, factorWithin]
    cases clause.factorOnce hypothesis with
    | none => rfl
    | some next => exact ih next

/-- A clause can be factored before or after it is renumbered. -/
@[simp]
theorem factor_renumber (clause : Clause) :
    (clause.renumber ρ).factor (hypothesis.map (Variable.renumber ρ)) =
      (clause.factor hypothesis).renumber ρ := by
  rw [factor, length_renumber, factorWithin_renumber, factor]

/-- Two clauses resolve on the same literals under new numbers. -/
theorem resolveAt_renumber (first second : Clause) (i j : Nat) (left right : Expr) :
    resolveAt (hypothesis.map (Variable.renumber ρ)) (first.renumber ρ) (second.renumber ρ) i j
        (left.renumber ρ) (right.renumber ρ) =
      (resolveAt hypothesis first second i j left right).map (renumber ρ) := by
  rw [resolveAt, Expr.negate_renumber, Expr.resolvingUnifier_renumber, resolveAt]
  cases Expr.resolvingUnifier hypothesis left right.negate with
  | error cause => rfl
  | ok u =>
    change some _ = some _
    simp only [without_renumber, Unifier.applyToClause_renumber, merge_renumber]

/-- The resolvents of renumbered clauses are the renumbered resolvents, in the same order. -/
@[simp]
theorem resolve_renumber (first second : Clause) :
    resolve (hypothesis.map (Variable.renumber ρ)) (first.renumber ρ) (second.renumber ρ) =
      (resolve hypothesis first second).map (renumber ρ) := by
  simp only [resolve, literals_renumber, List.zipIdx_map, List.flatMap_map, List.filterMap_map,
    List.map_flatMap, List.map_filterMap, Prod.map, id]
  congr 1
  funext left
  congr 1
  funext right
  exact resolveAt_renumber ρ hypothesis first second left.2 right.2 left.1 right.1

/-- Two literals match under renumbered bindings exactly if they did before. -/
theorem matchLiterals_renumber (u : Unifier) (pair : Expr × Expr) :
    matchLiterals (u.renumber ρ) (Prod.map (Expr.renumber ρ) (Expr.renumber ρ) pair) =
      (matchLiterals u pair).map (Unifier.renumber ρ) := by
  simp only [matchLiterals, Prod.map_fst, Prod.map_snd, Expr.negated_renumber, Expr.kind_renumber,
    Unifier.unify_renumber]
  split_ifs
  · cases u.unify pair.1 pair.2 <;> rfl
  · rfl

/-- Clauses match place by place under new numbers exactly if they did before. -/
theorem matchesByPlace_renumber (candidate existing : Clause) :
    (candidate.renumber ρ).matchesByPlace (hypothesis.map (Variable.renumber ρ))
        (existing.renumber ρ) =
      candidate.matchesByPlace hypothesis existing := by
  have run := foldlM_map_option (matchLiterals_renumber ρ)
    (candidate.literals.zip existing.literals) Unifier.empty
  have empty : Unifier.empty.renumber ρ = Unifier.empty := rfl
  rw [empty] at run
  simp only [matchesByPlace, length_renumber, literals_renumber, List.zip_map, run]
  cases (candidate.literals.zip existing.literals).foldlM matchLiterals Unifier.empty with
  | none => rfl
  | some u =>
    simp only [Option.map_some, Unifier.renumber, List.all_map, Function.comp_def,
      Binding.isRestricted_renumber]

/-- A clause is a duplicate of another under new numbers exactly if it was before. -/
@[simp]
theorem isDuplicate_renumber (candidate existing : Clause) :
    (candidate.renumber ρ).isDuplicate (hypothesis.map (Variable.renumber ρ)) (existing.renumber ρ) =
      candidate.isDuplicate hypothesis existing := by
  rw [isDuplicate, beq_renumber, matchesByPlace_renumber, isDuplicate]

end Clause

/-- The variables fixed by renumbered clauses are the renumbered ones. -/
theorem hypothesisVariables_renumber (clauses : List Clause) :
    hypothesisVariables (clauses.map (Clause.renumber ρ)) =
      (hypothesisVariables clauses).map (Variable.renumber ρ) := by
  have ofLiteral (found : List Variable) (literal : Expr) :
      ((literal.renumber ρ).vars.filter (!·.universal)).foldl Expr.addVariable
          (found.map (Variable.renumber ρ)) =
        ((literal.vars.filter (!·.universal)).foldl Expr.addVariable found).map
          (Variable.renumber ρ) := by
    rw [Expr.vars_renumber, List.filter_map]
    exact Expr.foldl_addVariable_renumber ρ found _
  exact foldl_map_hom (r := List.map (Variable.renumber ρ)) (fun found clause =>
    foldl_map_hom (g := Expr.renumber ρ) ofLiteral clause.literals found) clauses []

/-! ### Provers -/

/-- The step with its variables under new numbers; its own number and its parents stay. -/
def Step.renumber (step : Step) : Step := { step with clause := step.clause.renumber ρ }

namespace Derivation

/-- The derivation under new numbers. -/
def renumber (d : Derivation) : Derivation := ⟨d.steps.map (Step.renumber ρ)⟩

/-- A renumbered derivation holds as many clauses. -/
@[simp]
theorem size_renumber (d : Derivation) : (d.renumber ρ).size = d.size := Array.size_map

/-- A clause can be entered before or after all is renumbered, with the same number and parents. -/
@[simp]
theorem insert_renumber (d : Derivation) (clause : Clause) (parents : Option (Nat × Nat)) :
    (d.renumber ρ).insert (clause.renumber ρ) parents = (d.insert clause parents).renumber ρ := by
  have size := size_renumber ρ d
  simp only [renumber] at size
  simp [insert, renumber, Step.renumber, size]

/-- The step with a number is the renumbered step. -/
@[simp]
theorem get?_renumber (d : Derivation) (number : Nat) :
    (d.renumber ρ).get? number = (d.get? number).map (Step.renumber ρ) := by
  cases number with
  | zero => rfl
  | succ index => exact Array.getElem?_map

/-- A search through the clauses held finds one exactly if it did before. -/
theorem any_renumber {p q : Clause → Bool} (same : ∀ clause, p (clause.renumber ρ) = q clause)
    (d : Derivation) :
    ((d.renumber ρ).steps.any fun step => p step.clause) = d.steps.any fun step => q step.clause := by
  rw [renumber, Array.any_map]
  congr 1
  funext step
  exact same step.clause

/-- The empty clause has the same number in a renumbered derivation. -/
@[simp]
theorem emptyClause?_renumber (d : Derivation) : (d.renumber ρ).emptyClause? = d.emptyClause? := by
  have same : (fun step : Step => step.clause.isEmpty) ∘ Step.renumber ρ =
      fun step => step.clause.isEmpty :=
    funext fun step => Clause.isEmpty_renumber ρ step.clause
  rw [emptyClause?, renumber, Array.find?_map, same, Option.map_map]
  rfl

end Derivation

namespace Prover

/-- The prover under new numbers; what it has spent stays. -/
def renumber (prover : Prover) : Prover :=
  { prover with
    derivation := prover.derivation.renumber ρ
    hypothesis := prover.hypothesis.map (Variable.renumber ρ) }

/-- The clauses of a renumbered prover are the renumbered ones. -/
@[simp]
theorem derivation_renumber (prover : Prover) :
    (prover.renumber ρ).derivation = prover.derivation.renumber ρ := rfl

/-- The fixed variables of a renumbered prover are the renumbered ones. -/
@[simp]
theorem hypothesis_renumber (prover : Prover) :
    (prover.renumber ρ).hypothesis = prover.hypothesis.map (Variable.renumber ρ) := rfl

/-- Numbers of variables do not change what is counted. -/
@[simp]
theorem bump_renumber (prover : Prover) (name : String) :
    (prover.renumber ρ).bump name = (prover.bump name).renumber ρ := rfl

/-- A resolvent counts the same under all numbers. -/
@[simp]
theorem countResolvent_renumber (prover : Prover) :
    (prover.renumber ρ).countResolvent = prover.countResolvent.renumber ρ := rfl

/-- A round counts the same under all numbers. -/
@[simp]
theorem countRound_renumber (prover : Prover) :
    (prover.renumber ρ).countRound = prover.countRound.renumber ρ := rfl

/-- The ending under new numbers. -/
def Ending.renumber (ending : Ending) : Ending := ⟨ending.verdict, ending.prover.renumber ρ⟩

/-- A clause that is given can be entered before or after all is renumbered. -/
theorem addInput_renumber (prover : Prover) (clause : Clause) :
    (prover.renumber ρ).addInput (clause.renumber ρ) = (prover.addInput clause).renumber ρ := by
  have held : ((prover.derivation.renumber ρ).steps.any fun step =>
      step.clause == (clause.factor prover.hypothesis).renumber ρ) =
        prover.derivation.steps.any fun step => step.clause == clause.factor prover.hypothesis :=
    Derivation.any_renumber ρ (p := (· == (clause.factor prover.hypothesis).renumber ρ))
      (q := (· == clause.factor prover.hypothesis))
      (fun other => Clause.beq_renumber ρ other (clause.factor prover.hypothesis)) prover.derivation
  simp only [addInput, renumber, Clause.factor_renumber, held]
  split_ifs
  · rfl
  · simp

/-- Known clauses can be entered before or after all is renumbered. -/
theorem addKnowledge_renumber (prover : Prover) (clauses : List Clause) :
    (prover.renumber ρ).addKnowledge ⟨clauses.map (Clause.renumber ρ)⟩ =
      (prover.addKnowledge ⟨clauses⟩).renumber ρ :=
  foldl_map_hom (addInput_renumber ρ) clauses prover

/-- The clauses of a negated goal can be entered before or after all is renumbered. -/
theorem addNegatedHypothesis_renumber (prover : Prover) (clauses : List Clause) :
    (prover.renumber ρ).addNegatedHypothesis ⟨clauses.map (Clause.renumber ρ)⟩ =
      (prover.addNegatedHypothesis ⟨clauses⟩).renumber ρ := by
  have fixed := Expr.foldl_addVariable_renumber ρ prover.hypothesis (hypothesisVariables clauses)
  have entered (start : Prover) :
      (clauses.map (Clause.renumber ρ)).foldl addInput (start.renumber ρ) =
        (clauses.foldl addInput start).renumber ρ :=
    foldl_map_hom (addInput_renumber ρ) clauses start
  rw [addNegatedHypothesis, addNegatedHypothesis, ← entered]
  simp only [hypothesisVariables_renumber]
  simp only [renumber, fixed]

/-- A renumbered prover knows the clauses that it knew. -/
theorem isKnown_renumber (prover : Prover) (candidate : Clause) :
    (prover.renumber ρ).isKnown (candidate.renumber ρ) = prover.isKnown candidate :=
  Derivation.any_renumber ρ (Clause.isDuplicate_renumber ρ prover.hypothesis candidate)
    prover.derivation

/-- A resolvent is kept, dropped or ends the search as it did before. -/
theorem keep_renumber (parents : Nat × Nat) (prover : Prover) (resolvent : Clause) :
    keep parents (prover.renumber ρ) (resolvent.renumber ρ) =
      ((keep parents prover resolvent).map (renumber ρ)).mapError (Ending.renumber ρ) := by
  have budget : (prover.countResolvent.renumber ρ).budget = prover.countResolvent.budget := rfl
  simp only [keep, countResolvent_renumber, derivation_renumber, hypothesis_renumber, budget,
    isKnown_renumber, Clause.isEmpty_renumber, Clause.factor_renumber, Derivation.size_renumber,
    Derivation.insert_renumber]
  split_ifs <;> rfl

/-- Resolving the clauses with two numbers commutes with renumbering. -/
theorem resolvePair_renumber (interrupt : Interrupt) (prover : Prover) (first second : Nat) :
    (prover.renumber ρ).resolvePair interrupt first second =
      ((prover.resolvePair interrupt first second).map (renumber ρ)).mapError
        (Ending.renumber ρ) := by
  unfold resolvePair
  have pairs : (prover.renumber ρ).tally = prover.tally := rfl
  rw [pairs]
  cases interrupt (prover.tally.count "pairs_tried") with
  | some limit => rfl
  | none =>
    simp only [bump_renumber, derivation_renumber, hypothesis_renumber, derivation_bump,
      hypothesis_bump, Derivation.get?_renumber]
    cases prover.derivation.get? first with
    | none => rfl
    | some left =>
      cases prover.derivation.get? second with
      | none => rfl
      | some right =>
        have resolvents := Clause.resolve_renumber ρ prover.hypothesis left.clause right.clause
        simp only [Option.map_some, Step.renumber, resolvents]
        exact foldlM_map_except (keep_renumber ρ (first, second)) _ (prover.bump "pairs_tried")

/-- A round commutes with renumbering, also where it ends the search. -/
theorem round_renumber (interrupt : Interrupt) (old size : Nat) (prover : Prover) :
    round interrupt old size (prover.renumber ρ) =
      ((round interrupt old size prover).map (renumber ρ)).mapError (Ending.renumber ρ) := by
  refine foldlM_hom_except (fun prover first => ?_) (numbersBetween 0 size) prover
  refine foldlM_hom_except (fun prover second => ?_) (numbersBetween (max old first) size) prover
  exact resolvePair_renumber ρ interrupt prover first second

/-- A search of some rounds ends with the same verdict and the renumbered prover. -/
theorem searchFrom_renumber (interrupt : Interrupt) (remaining old : Nat) (prover : Prover) :
    searchFrom interrupt remaining old (prover.renumber ρ) =
      (searchFrom interrupt remaining old prover).renumber ρ := by
  induction remaining generalizing old prover with
  | zero => rfl
  | succ remaining ih =>
    have size : (prover.renumber ρ).derivation.size = prover.derivation.size :=
      Derivation.size_renumber ρ prover.derivation
    have run := round_renumber ρ interrupt old prover.derivation.size prover.countRound
    rw [searchFrom, searchFrom]
    simp only [size, countRound_renumber, run]
    cases round interrupt old prover.derivation.size prover.countRound with
    | error ending => rfl
    | ok next =>
      have grown : (next.renumber ρ).derivation.size = next.derivation.size :=
        Derivation.size_renumber ρ next.derivation
      simp only [Except.map, Except.mapError, grown]
      by_cases same : next.derivation.size = prover.derivation.size
      · rw [if_pos same, if_pos same]
        rfl
      · rw [if_neg same, if_neg same]
        exact ih prover.derivation.size next

/-- A search that starts from renumbered clauses comes to the same outcome, and to the renumbered
derivation. -/
theorem search_renumber (interrupt : Interrupt) (prover : Prover) :
    (prover.renumber ρ).search interrupt =
      ((prover.search interrupt).1, (prover.search interrupt).2.renumber ρ) := by
  have found : (prover.renumber ρ).derivation.emptyClause? = prover.derivation.emptyClause? :=
    Derivation.emptyClause?_renumber ρ prover.derivation
  have spent (prover : Prover) (verdict : Verdict) :
      (prover.renumber ρ).outcome verdict = prover.outcome verdict := by
    simp only [outcome, renumber, Derivation.size_renumber]
  have run := searchFrom_renumber ρ interrupt (prover.budget.rounds - prover.rounds) 0 prover
  unfold search
  rw [found]
  cases prover.derivation.emptyClause? with
  | some number => exact congrArg (·, prover.renumber ρ) (spent prover (.proof number))
  | none =>
    have budget : (prover.renumber ρ).budget.rounds - (prover.renumber ρ).rounds =
        prover.budget.rounds - prover.rounds := rfl
    simp only [budget, run]
    simp only [Ending.renumber, spent]

end Prover

end Refute
