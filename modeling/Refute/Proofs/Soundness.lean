import Refute.Proofs.Run

/-!
# Soundness without Skolem functions

If all clauses that a prover is given are true in a structure, then so are all clauses it derives,
provided no Skolem function occurs in what it is given. Truth is relative to the variables that are
fixed: when more of them become fixed, less is said, so the clauses that were true before stay true.
A proof therefore shows that no structure makes all inputs true.
-/

namespace Refute

universe u

namespace Prover

variable {D : Type u} {M : Structure D} {α : Assignment D} {p : Prover}

/-- The clauses held have no Skolem functions and are true. -/
def IsSound (p : Prover) (M : Structure D) (α : Assignment D) : Prop :=
  ∀ number step, p.derivation.get? number = some step →
    step.clause.SkolemFree ∧ M.Satisfies p.hypothesis α step.clause

/-- Fixing more variables keeps what is held true. -/
theorem IsSound.mono {q : Prover} (sound : p.IsSound M α) (same : q.derivation = p.derivation)
    (fixed : p.hypothesis ⊆ q.hypothesis) : q.IsSound M α := by
  intro number step located
  rw [same] at located
  exact (sound number step located).imp_right fun satisfied => satisfied.mono fixed

/-- Entering true clauses keeps what is held true. -/
theorem IsSound.foldl_addInput (sound : p.IsSound M α) {clauses : List Clause}
    (skolemFree : ∀ clause ∈ clauses, clause.SkolemFree)
    (satisfied : ∀ clause ∈ clauses, M.Satisfies p.hypothesis α clause) :
    (clauses.foldl addInput p).IsSound M α := by
  intro number step located
  rw [hypothesis_foldl_addInput]
  refine foldl_addInput_invariant
    (Q := fun clause => clause.SkolemFree ∧ M.Satisfies p.hypothesis α clause)
    sound (fun clause member => ⟨?_, ?_⟩) located
  · exact Clause.Everywhere.factor (skolemFree clause member) p.hypothesis
  · have holds := satisfied clause member
    exact holds.factorsTo ((skolemFree clause member).factorsTo holds.firstOrder p.hypothesis)

/-- Deriving clauses keeps what is held true. -/
theorem IsSound.continues {q : Prover} (sound : p.IsSound M α) (continues : p.Continues q) :
    q.IsSound M α := by
  intro number step located
  rw [continues.hypothesis]
  refine continues.derivation.invariant
    (Q := fun clause => clause.SkolemFree ∧ M.Satisfies p.hypothesis α clause) sound ?_ located
  rintro first second resolvent ⟨firstFree, firstTrue⟩ ⟨secondFree, secondTrue⟩ member
  have free : resolvent.SkolemFree := Clause.Everywhere.resolve firstFree secondFree member
  have holds := firstTrue.resolvesTo secondTrue
    (firstFree.resolvesTo secondFree firstTrue.firstOrder secondTrue.firstOrder member)
  exact ⟨Clause.Everywhere.factor free p.hypothesis,
    holds.factorsTo (free.factorsTo holds.firstOrder p.hypothesis)⟩

/-- A command that enters true clauses keeps what is held true. -/
theorem IsSound.perform (sound : p.IsSound M α) {command : Command}
    (skolemFree : ∀ clause ∈ command.clauses, clause.SkolemFree)
    (satisfied : ∀ clause ∈ command.clauses, M.Satisfies (p.perform command).hypothesis α clause) :
    (p.perform command).IsSound M α := by
  obtain ⟨start, same, fixed, performed⟩ | ⟨-, continues⟩ := p.perform_cases command
  · rw [performed] at satisfied ⊢
    rw [hypothesis_foldl_addInput] at satisfied
    exact (sound.mono same fixed).foldl_addInput skolemFree satisfied
  · exact sound.continues continues

/-- Commands that enter true clauses keep what is held true. -/
theorem IsSound.run (sound : p.IsSound M α) {commands : List Command}
    (skolemFree : ∀ command ∈ commands, ∀ clause ∈ command.clauses, clause.SkolemFree)
    (satisfied : ∀ entry ∈ p.inputs commands, M.Satisfies entry.1 α entry.2) :
    (p.run commands).IsSound M α := by
  induction commands generalizing p with
  | nil => exact sound
  | cons command rest ih =>
    refine ih (sound.perform (skolemFree command List.mem_cons_self) ?_) ?_ ?_
    · exact fun clause member =>
        satisfied _ (List.mem_append_left _ (List.mem_map_of_mem member))
    · exact fun other member => skolemFree other (List.mem_cons_of_mem command member)
    · exact fun entry member => satisfied entry (List.mem_append_right _ member)

/-- A prover that holds nothing holds nothing false. -/
theorem isSound_new (budget : Budget) (M : Structure D) (α : Assignment D) :
    (new budget).IsSound M α := by
  intro number step located
  rw [get?_new] at located
  cases located

/-- Whatever a new prover is asked to do, if no Skolem function occurs in the clauses it is given:
every clause it holds is true in every structure, and under all values of the fixed variables, in
which what it was given is true, and where a search finds a proof, there is no such structure. -/
theorem satisfies_run_and_unsatisfiable_of_proof (budget : Budget) (commands : List Command)
    (skolemFree : ∀ command ∈ commands, ∀ clause ∈ command.clauses, clause.SkolemFree) :
    (∀ {D : Type u} (M : Structure D) (α : Assignment D),
      (∀ entry ∈ (new budget).inputs commands, M.Satisfies entry.1 α entry.2) →
      ∀ number step, ((new budget).run commands).derivation.get? number = some step →
        M.Satisfies ((new budget).run commands).hypothesis α step.clause) ∧
    ∀ (interrupt : Interrupt), (((new budget).run commands).search interrupt).1.isProof →
      ∀ {D : Type u} (M : Structure D) (α : Assignment D),
        ¬ ∀ entry ∈ (new budget).inputs commands, M.Satisfies entry.1 α entry.2 := by
  have sound := fun {D : Type u} (M : Structure D) (α : Assignment D) =>
    (isSound_new budget M α).run skolemFree
  refine ⟨fun M α satisfied number step located => (sound M α satisfied number step located).2, ?_⟩
  intro interrupt proved D M α satisfied
  have finished := ((new budget).run commands).search_finished interrupt
  unfold Outcome.isProof at proved
  split at proved
  · rename_i number verdict
    obtain ⟨place, step, located, -, empty⟩ := finished.proof number verdict
    have held := (sound M α satisfied).continues finished.continues place step located
    exact M.not_satisfies_empty _ α empty held.2
  · cases proved

/-- `P(x)` for all `x` is known, and `P(a)` is denied. -/
def contradictoryCommands : List Command :=
  let relation : Symbol := .rel ⟨⟨"P", 1, none⟩⟩
  let anything : Expr := .ofVariable ⟨"x", 0, true, true⟩
  let something : Expr := .leaf (.const ⟨"a", .text "a"⟩)
  [.knowledge ⟨[⟨[.node relation [anything]]⟩]⟩,
    .negatedHypothesis ⟨[⟨[(Expr.node relation [something]).negate]⟩]⟩]

/-- The search from contradictory clauses ends with a proof, and no structure makes all of them
true. -/
theorem unsatisfiable_contradictoryCommands :
    (∀ command ∈ contradictoryCommands, ∀ clause ∈ command.clauses, clause.SkolemFree) ∧
      (((new {}).run contradictoryCommands).search Interrupt.never).1.isProof ∧
      ∀ {D : Type} (M : Structure D) (α : Assignment D),
        ¬ ∀ entry ∈ (new {}).inputs contradictoryCommands, M.Satisfies entry.1 α entry.2 := by
  have skolemFree : ∀ command ∈ contradictoryCommands, ∀ clause ∈ command.clauses,
      clause.SkolemFree := by
    simp [contradictoryCommands, Command.clauses, Clause.SkolemFree, Expr.SkolemFree,
      Expr.Everywhere, Expr.EverywhereArgs, Expr.node, Expr.negate, Expr.ofVariable, Expr.leaf]
  have proved : (((new {}).run contradictoryCommands).search Interrupt.never).1.isProof := by
    decide +kernel
  exact ⟨skolemFree, proved,
    (satisfies_run_and_unsatisfiable_of_proof {} contradictoryCommands skolemFree).2 _ proved⟩

end Prover

end Refute
