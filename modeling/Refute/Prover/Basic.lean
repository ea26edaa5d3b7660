import Refute.Clause.Form
import Refute.Derivation
import Refute.Inference.Factoring
import Refute.Inference.Resolution
import Refute.Prover.Budget
import Refute.Tally

/-!
# Provers

A prover holds the clauses of its knowledge and of the negated hypothesis, everything derived from
them, and counts of what it did: two that it needs itself, and a tally of statistics. Input clauses
are factored, and one that is equal to a clause held already is not entered again. The variables of
the negated hypothesis that no universal quantifier bound are fixed from then on.
-/

namespace Refute

/-- Clauses, what is fixed in them, and counts of the work done. -/
structure Prover where
  /-- What a search may spend. -/
  budget : Budget
  /-- The clauses held. -/
  derivation : Derivation := .empty
  /-- The variables that are never bound. -/
  hypothesis : List Variable := []
  /-- The rounds begun, which the budget limits. -/
  rounds : Nat := 0
  /-- The resolvents generated, which outcomes report. -/
  generated : Nat := 0
  /-- The statistics: rounds, pairs tried, resolvents, duplicates dropped and clauses kept. -/
  tally : Tally := .empty

namespace Prover

/-- A prover that holds nothing. -/
def new (budget : Budget) : Prover := { budget }

/-- Counts one more under a name of the statistics. -/
def bump (prover : Prover) (name : String) : Prover :=
  { prover with tally := prover.tally.add name 1 }

/-- Counts a round that begins. -/
def countRound (prover : Prover) : Prover :=
  { prover with rounds := prover.rounds + 1 }.bump "rounds"

/-- Counts a resolvent that was generated. -/
def countResolvent (prover : Prover) : Prover :=
  { prover with generated := prover.generated + 1 }.bump "resolvents"

/-- Counting changes no clause. -/
@[simp]
theorem derivation_bump (prover : Prover) (name : String) :
    (prover.bump name).derivation = prover.derivation := rfl

/-- Counting fixes no variable. -/
@[simp]
theorem hypothesis_bump (prover : Prover) (name : String) :
    (prover.bump name).hypothesis = prover.hypothesis := rfl

/-- Enters an input clause after factoring it, unless an equal one is held. -/
def addInput (prover : Prover) (clause : Clause) : Prover :=
  let factored := clause.factor prover.hypothesis
  if prover.derivation.steps.any fun step => step.clause == factored then prover
  else { prover with derivation := prover.derivation.insert factored none }

/-- Enters the clauses of a statement that is known. -/
def addKnowledge (prover : Prover) (form : ClausalForm) : Prover :=
  form.clauses.foldl addInput prover

/-- Enters the clauses of the negated hypothesis and fixes its free variables. -/
def addNegatedHypothesis (prover : Prover) (form : ClausalForm) : Prover :=
  let hypothesis := (hypothesisVariables form.clauses).foldl Expr.addVariable prover.hypothesis
  form.clauses.foldl addInput { prover with hypothesis }

/-- The outcome of a search that ends now. -/
def outcome (prover : Prover) (verdict : Verdict) : Outcome :=
  { verdict
    rounds := prover.rounds
    generated := prover.generated
    kept := prover.derivation.size }

end Prover

end Refute
