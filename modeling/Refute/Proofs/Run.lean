import Refute.Proofs.Collection
import Refute.Proofs.Search

/-!
# Runs of a prover

A prover is driven by commands: to take over knowledge, to take over the negated hypothesis, and to
search. `Prover.inputs` lists the clauses that a sequence of commands enters, each with the
variables that are fixed when it is entered. Every input is held in factored form or as a clause
equal to that, and every clause that is entered is given its place as number.
-/

namespace Refute

/-- What a prover can be asked to do. -/
inductive Command where
  /-- Take over a statement that is known. -/
  | knowledge (form : ClausalForm)
  /-- Take over the negated hypothesis. -/
  | negatedHypothesis (form : ClausalForm)
  /-- Search for the empty clause. -/
  | search (interrupt : Interrupt)

/-- The clauses that a command enters. -/
def Command.clauses : Command → List Clause
  | knowledge form => form.clauses
  | negatedHypothesis form => form.clauses
  | search _ => []

namespace Prover

/-- Follows one command. -/
def perform (prover : Prover) : Command → Prover
  | .knowledge form => prover.addKnowledge form
  | .negatedHypothesis form => prover.addNegatedHypothesis form
  | .search interrupt => (prover.search interrupt).2

/-- Follows commands one after the other. -/
def run (prover : Prover) (commands : List Command) : Prover := commands.foldl perform prover

/-- The clauses that commands enter, with the variables that are fixed then. -/
def inputs (prover : Prover) : List Command → List (List Variable × Clause)
  | [] => []
  | command :: rest =>
    let next := prover.perform command
    command.clauses.map (fun clause => (next.hypothesis, clause)) ++ next.inputs rest

variable {p : Prover}

/-- A new prover holds no clause. -/
@[simp]
theorem get?_new (budget : Budget) (number : Nat) : (new budget).derivation.get? number = none := by
  cases number <;> rfl

/-- A new prover holds no step out of place. -/
theorem numbered_new (budget : Budget) : (new budget).derivation.Numbered := by
  intro number step located
  rw [get?_new] at located
  cases located

/-! ### Entering clauses -/

/-- An input clause is entered in factored form unless an equal one is held. -/
theorem addInput_cases (p : Prover) (clause : Clause) :
    ((∃ number step, p.derivation.get? number = some step ∧
        step.clause == clause.factor p.hypothesis) ∧ p.addInput clause = p) ∨
      p.addInput clause =
        { p with derivation := p.derivation.insert (clause.factor p.hypothesis) none } := by
  unfold addInput
  dsimp only
  split
  · rename_i known
    exact .inl ⟨Derivation.any_iff.1 known, rfl⟩
  · exact .inr rfl

/-- Entering a clause fixes no variables. -/
@[simp]
theorem hypothesis_addInput (p : Prover) (clause : Clause) :
    (p.addInput clause).hypothesis = p.hypothesis := by
  obtain ⟨-, same⟩ | same := p.addInput_cases clause <;> rw [same]

/-- Entering clauses fixes no variables. -/
@[simp]
theorem hypothesis_foldl_addInput (p : Prover) (clauses : List Clause) :
    (clauses.foldl addInput p).hypothesis = p.hypothesis := by
  induction clauses generalizing p with
  | nil => rfl
  | cons clause rest ih => rw [List.foldl_cons, ih, hypothesis_addInput]

/-- What a clause that is entered and the others have in common passes to the prover. -/
theorem addInput_invariant {Q : Clause → Prop} {clause : Clause}
    (held : ∀ number step, p.derivation.get? number = some step → Q step.clause)
    (new : Q (clause.factor p.hypothesis)) {number : Nat} {step : Step}
    (located : (p.addInput clause).derivation.get? number = some step) : Q step.clause := by
  obtain ⟨-, same⟩ | same := p.addInput_cases clause
  · exact held number step (same ▸ located)
  · rw [same, Derivation.get?_insert] at located
    split at located
    · obtain rfl := Option.some.inj located
      exact new
    · exact held number step located

/-- What clauses that are entered and the others have in common passes to the prover. -/
theorem foldl_addInput_invariant {Q : Clause → Prop} {clauses : List Clause}
    (held : ∀ number step, p.derivation.get? number = some step → Q step.clause)
    (new : ∀ clause ∈ clauses, Q (clause.factor p.hypothesis)) {number : Nat} {step : Step}
    (located : (clauses.foldl addInput p).derivation.get? number = some step) : Q step.clause := by
  induction clauses generalizing p with
  | nil => exact held number step located
  | cons clause rest ih =>
    refine ih (fun _ _ => addInput_invariant held (new clause List.mem_cons_self)) ?_ located
    intro other member
    rw [hypothesis_addInput]
    exact new other (List.mem_cons_of_mem clause member)

/-- Entering a clause leaves the others where they are. -/
theorem get?_addInput {clause : Clause} {number : Nat} {step : Step}
    (located : p.derivation.get? number = some step) :
    (p.addInput clause).derivation.get? number = some step := by
  obtain ⟨-, same⟩ | same := p.addInput_cases clause
  · rw [same, located]
  · rw [same]
    exact Derivation.get?_insert_of_some located _ _

/-- Entering clauses leaves the others where they are. -/
theorem get?_foldl_addInput (clauses : List Clause) {number : Nat} {step : Step}
    (located : p.derivation.get? number = some step) :
    (clauses.foldl addInput p).derivation.get? number = some step := by
  induction clauses generalizing p with
  | nil => exact located
  | cons clause rest ih => exact ih (get?_addInput located)

/-- The clause is held, or an equal one. -/
def Holds (p : Prover) (clause : Clause) : Prop :=
  ∃ number step, p.derivation.get? number = some step ∧ (step.clause = clause ∨ step.clause == clause)

/-- Every clause that is entered is held in factored form. -/
theorem holds_foldl_addInput {clauses : List Clause} {clause : Clause} (member : clause ∈ clauses) :
    (clauses.foldl addInput p).Holds (clause.factor p.hypothesis) := by
  induction clauses generalizing p with
  | nil => exact absurd member List.not_mem_nil
  | cons first rest ih =>
    rcases List.mem_cons.1 member with rfl | later
    · have now : (p.addInput clause).Holds (clause.factor p.hypothesis) := by
        obtain ⟨⟨number, step, located, equal⟩, same⟩ | same := p.addInput_cases clause
        · rw [same]
          exact ⟨number, step, located, .inr equal⟩
        · refine ⟨p.derivation.size + 1, ⟨p.derivation.size + 1, clause.factor p.hypothesis, none⟩, ?_,
            .inl rfl⟩
          rw [same, Derivation.get?_insert, if_pos rfl]
      obtain ⟨number, step, located, equal⟩ := now
      exact ⟨number, step, get?_foldl_addInput rest located, equal⟩
    · have rest := ih (p := p.addInput first) later
      rwa [hypothesis_addInput] at rest

/-! ### Following commands -/

/-- The prover with the variables of a negated hypothesis fixed. -/
def fixing (p : Prover) (form : ClausalForm) : Prover :=
  { p with hypothesis := (hypothesisVariables form.clauses).foldl Expr.addVariable p.hypothesis }

/-- A command that enters clauses does so with variables fixed that were fixed before or are now; a
search goes on from the prover. -/
theorem perform_cases (p : Prover) (command : Command) :
    (∃ start : Prover, start.derivation = p.derivation ∧ p.hypothesis ⊆ start.hypothesis ∧
        p.perform command = command.clauses.foldl addInput start) ∨
      (command.clauses = [] ∧ p.Continues (p.perform command)) := by
  cases command with
  | knowledge form => exact .inl ⟨p, rfl, List.Subset.refl _, rfl⟩
  | negatedHypothesis form =>
    exact .inl ⟨p.fixing form, rfl, subset_foldl (fun v _ => Expr.subset_addVariable v) _, rfl⟩
  | search interrupt => exact .inr ⟨rfl, (p.search_finished interrupt).continues⟩

/-- Commands leave the clauses that are held where they are. -/
theorem get?_perform {command : Command} {number : Nat} {step : Step}
    (located : p.derivation.get? number = some step) :
    (p.perform command).derivation.get? number = some step := by
  obtain ⟨start, same, -, performed⟩ | ⟨-, continues⟩ := p.perform_cases command
  · rw [performed]
    exact get?_foldl_addInput _ (same ▸ located)
  · exact continues.derivation.get? located

/-- An input clause that is entered is given its place as number. -/
theorem numbered_addInput (numbered : p.derivation.Numbered) (clause : Clause) :
    (p.addInput clause).derivation.Numbered := by
  obtain ⟨-, same⟩ | same := p.addInput_cases clause
  · rwa [same]
  · rw [same]
    exact numbered.insert _ _

/-- Input clauses that are entered are given their places as numbers. -/
theorem numbered_foldl_addInput (numbered : p.derivation.Numbered) (clauses : List Clause) :
    (clauses.foldl addInput p).derivation.Numbered := by
  induction clauses generalizing p with
  | nil => exact numbered
  | cons clause rest ih => exact ih (numbered_addInput numbered clause)

/-- Whatever a command enters is given its place as number. -/
theorem numbered_perform (numbered : p.derivation.Numbered) (command : Command) :
    (p.perform command).derivation.Numbered := by
  obtain ⟨start, same, -, performed⟩ | ⟨-, continues⟩ := p.perform_cases command
  · rw [performed]
    exact numbered_foldl_addInput (same ▸ numbered) _
  · exact continues.derivation.numbered numbered

/-- Whatever commands enter is given its place as number. -/
theorem numbered_run (numbered : p.derivation.Numbered) (commands : List Command) :
    (p.run commands).derivation.Numbered := by
  induction commands generalizing p with
  | nil => exact numbered
  | cons command rest ih => exact ih (numbered_perform numbered command)

/-- Commands leave the clauses that are held where they are. -/
theorem get?_run (commands : List Command) {number : Nat} {step : Step}
    (located : p.derivation.get? number = some step) :
    (p.run commands).derivation.get? number = some step := by
  induction commands generalizing p with
  | nil => exact located
  | cons command rest ih => exact ih (get?_perform located)

/-- Commands keep the variables fixed that were. -/
theorem subset_hypothesis_perform (p : Prover) (command : Command) :
    p.hypothesis ⊆ (p.perform command).hypothesis := by
  obtain ⟨start, -, subset, performed⟩ | ⟨-, continues⟩ := p.perform_cases command
  · rwa [performed, hypothesis_foldl_addInput]
  · rw [continues.hypothesis]
    exact List.Subset.refl _

/-- What is fixed when an input is entered stays fixed. -/
theorem subset_hypothesis_of_mem_inputs {commands : List Command}
    {entry : List Variable × Clause} (member : entry ∈ p.inputs commands) :
    entry.1 ⊆ (p.run commands).hypothesis := by
  have stays : ∀ (commands : List Command) (p : Prover),
      p.hypothesis ⊆ (p.run commands).hypothesis := by
    intro commands
    induction commands with
    | nil => exact fun p => List.Subset.refl _
    | cons command rest ih =>
      exact fun p => List.Subset.trans (p.subset_hypothesis_perform command) (ih _)
  induction commands generalizing p with
  | nil => exact absurd member List.not_mem_nil
  | cons command rest ih =>
    rcases List.mem_append.1 member with now | later
    · obtain ⟨clause, -, rfl⟩ := List.mem_map.1 now
      exact stays rest _
    · exact ih later

/-- Every input is held in factored form after the commands. -/
theorem holds_of_mem_inputs {commands : List Command} {fixed : List Variable} {clause : Clause}
    (member : (fixed, clause) ∈ p.inputs commands) :
    (p.run commands).Holds (clause.factor fixed) := by
  induction commands generalizing p with
  | nil => exact absurd member List.not_mem_nil
  | cons command rest ih =>
    rcases List.mem_append.1 member with now | later
    · obtain ⟨entered, inside, same⟩ := List.mem_map.1 now
      obtain ⟨rfl, rfl⟩ := Prod.mk.inj same
      have holds : (p.perform command).Holds (entered.factor (p.perform command).hypothesis) := by
        obtain ⟨start, -, -, performed⟩ | ⟨none, -⟩ := p.perform_cases command
        · rw [performed, hypothesis_foldl_addInput]
          exact holds_foldl_addInput inside
        · exact absurd (none ▸ inside) List.not_mem_nil
      obtain ⟨number, step, located, equal⟩ := holds
      exact ⟨number, step, get?_run rest located, equal⟩
    · exact ih later

/-- What factored inputs have and factored resolvents take over from their parents holds of every
clause after the commands. -/
theorem run_invariant {Q : Clause → Prop} {commands : List Command}
    (held : ∀ number step, p.derivation.get? number = some step → Q step.clause)
    (entered : ∀ command ∈ commands, ∀ clause ∈ command.clauses, ∀ fixed, Q (clause.factor fixed))
    (resolved : ∀ fixed first second resolvent, Q first → Q second →
      resolvent ∈ first.resolve fixed second → Q (resolvent.factor fixed))
    {number : Nat} {step : Step} (located : (p.run commands).derivation.get? number = some step) :
    Q step.clause := by
  induction commands generalizing p with
  | nil => exact held number step located
  | cons command rest ih =>
    refine ih (p := p.perform command) ?_
      (fun other member => entered other (List.mem_cons_of_mem command member)) located
    intro number step
    obtain ⟨start, same, -, performed⟩ | ⟨-, continues⟩ := p.perform_cases command
    · rw [performed]
      exact foldl_addInput_invariant (Q := Q) (same ▸ held)
        fun clause member => entered command List.mem_cons_self clause member _
    · exact continues.derivation.invariant held (resolved p.hypothesis)

/-- The clauses of commands are inputs. -/
theorem mem_inputs {commands : List Command} {command : Command} {clause : Clause}
    (listed : command ∈ commands) (member : clause ∈ command.clauses) :
    ∃ fixed, (fixed, clause) ∈ p.inputs commands := by
  induction commands generalizing p with
  | nil => exact absurd listed List.not_mem_nil
  | cons first rest ih =>
    rcases List.mem_cons.1 listed with rfl | later
    · exact ⟨_, List.mem_append_left _ (List.mem_map_of_mem member)⟩
    · obtain ⟨fixed, inside⟩ := ih (p := p.perform first) later
      exact ⟨fixed, List.mem_append_right _ inside⟩

end Prover

end Refute
