import Refute.Prover.Basic
import Refute.Statement

/-!
# Search

A search resolves clauses round by round. The frontier of a round holds the clauses added by the
round before, in the first round all clauses. Since clauses are numbered in the order in which they
are added, the frontier is an interval of numbers, and the pairs that have not been resolved yet are
those of a clause with a later one in the frontier. A resolvent is factored and kept unless it is a
duplicate. The empty clause ends the search with a proof, a round that adds nothing with saturation.

Before each pair the search asks whether it is interrupted. The answer may depend on the number of
pairs tried so far; a clock or a flag that someone else sets is such an answer.
-/

namespace Refute

/-- Whether a search is stopped from outside, by the number of pairs tried so far. -/
abbrev Interrupt := Nat → Option Limit

/-- The search is never stopped from outside. -/
def Interrupt.never : Interrupt := fun _ => none

namespace Prover

/-- A search that has ended. -/
structure Ending where
  /-- How it ended. -/
  verdict : Verdict
  /-- The prover as the search left it. -/
  prover : Prover

/-- A clause that is a duplicate of one that is held. -/
def isKnown (prover : Prover) (candidate : Clause) : Bool :=
  prover.derivation.steps.any fun step => candidate.isDuplicate prover.hypothesis step.clause

/-- Takes over a resolvent of two clauses. -/
def keep (parents : Nat × Nat) (prover : Prover) (resolvent : Clause) : Except Ending Prover :=
  let counted := prover.countResolvent
  if resolvent.isEmpty then
    let proved := { counted with derivation := counted.derivation.insert resolvent (some parents) }
    .error ⟨.proof proved.derivation.size, proved⟩
  else
    let factored := resolvent.factor counted.hypothesis
    if counted.isKnown factored then .ok (counted.bump "duplicates")
    else if counted.budget.clauses ≤ counted.derivation.size then
      .error ⟨.stopped .clauses, counted⟩
    else
      let derivation := counted.derivation.insert factored (some parents)
      .ok ({ counted with derivation }.bump "kept")

/-- Resolves two clauses, given by their numbers. -/
def resolvePair (interrupt : Interrupt) (prover : Prover) (first second : Nat) :
    Except Ending Prover :=
  match interrupt (prover.tally.count "pairs_tried") with
  | some limit => .error ⟨.stopped limit, prover⟩
  | none =>
    let counted := prover.bump "pairs_tried"
    match counted.derivation.get? first, counted.derivation.get? second with
    | some left, some right =>
      (left.clause.resolve counted.hypothesis right.clause).foldlM (keep (first, second)) counted
    | _, _ => .ok counted

/-- The numbers after the first and up to the second. -/
def numbersBetween (low high : Nat) : List Nat :=
  List.range' (low + 1) (high - low)

/-- Resolves every clause with the later clauses of the frontier, which starts after `old`. -/
def round (interrupt : Interrupt) (old size : Nat) (prover : Prover) : Except Ending Prover :=
  (numbersBetween 0 size).foldlM (fun prover first =>
    (numbersBetween (max old first) size).foldlM (fun prover second =>
      prover.resolvePair interrupt first second) prover) prover

/-- Searches for at most the given number of rounds; the frontier of the first starts after
`old`. -/
def searchFrom (interrupt : Interrupt) : Nat → Nat → Prover → Ending
  | 0, _, prover => ⟨.stopped .rounds, prover⟩
  | remaining + 1, old, prover =>
    let size := prover.derivation.size
    match round interrupt old size prover.countRound with
    | .error ending => ending
    | .ok next =>
      if next.derivation.size = size then ⟨.saturated, next⟩
      else searchFrom interrupt remaining size next

/-- Searches for the empty clause from all clauses held. -/
def search (prover : Prover) (interrupt : Interrupt) : Outcome × Prover :=
  match prover.derivation.emptyClause? with
  | some number => (prover.outcome (.proof number), prover)
  | none =>
    let ending := searchFrom interrupt (prover.budget.rounds - prover.rounds) 0 prover
    (ending.prover.outcome ending.verdict, ending.prover)

/-- Enters the clauses of known statements up to the first that has none. -/
def addStatements (session : Session) (prover : Prover) :
    List Statement → Except ClauseError Unit × Session × Prover
  | [] => (.ok (), session, prover)
  | statement :: rest =>
    match statement.clauses session with
    | (.error cause, session) => (.error cause, session, prover)
    | (.ok form, session) => addStatements session (prover.addKnowledge form) rest

/-- Searches for a proof of a statement from known statements. -/
def prove (prover : Prover) (interrupt : Interrupt) (session : Session)
    (knowledge : List Statement) (goal : Statement) :
    Except ClauseError Outcome × Session × Prover :=
  match prover.addStatements session knowledge with
  | (.error cause, session, prover) => (.error cause, session, prover)
  | (.ok _, session, prover) =>
    match goal.negatedClauses session with
    | (.error cause, session) => (.error cause, session, prover)
    | (.ok form, session) =>
      let (outcome, prover) := (prover.addNegatedHypothesis form).search interrupt
      (.ok outcome, session, prover)

end Prover

end Refute
