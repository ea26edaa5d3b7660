import Refute.Settings

/-!
# Budgets and outcomes

A budget limits a search: rounds, kept clauses and seconds. A search ends with the empty clause,
with saturation, or with a limit, and its outcome reports what was spent.
-/

namespace Refute

/-- What a search may spend. -/
structure Budget where
  /-- The greatest number of rounds. -/
  rounds : Nat := 1000
  /-- The greatest number of clauses kept, inputs included. -/
  clauses : Nat := 10000
  /-- The greatest number of seconds, without limit if it is zero. -/
  seconds : Nat := 0
  deriving DecidableEq

/-- What stopped a search. -/
inductive Limit where
  | rounds
  | clauses
  | time
  | cancelled
  deriving DecidableEq

/-- How a search ended. -/
inductive Verdict where
  /-- The empty clause was derived under this number. -/
  | proof (emptyClause : Nat)
  /-- A round added nothing. -/
  | saturated
  /-- The search was stopped. -/
  | stopped (limit : Limit)
  deriving DecidableEq

/-- How a search ended and what was spent until then. -/
structure Outcome where
  /-- How the search ended. -/
  verdict : Verdict
  /-- The rounds begun. -/
  rounds : Nat
  /-- The resolvents generated. -/
  generated : Nat
  /-- The clauses in the derivation. -/
  kept : Nat
  deriving DecidableEq

namespace Budget

/-- Takes over one setting; the names of the limits are the only ones. -/
def applySetting (budget : Budget) (settings : Settings) (name : String) :
    Except SettingError Budget := do
  if name == "max_rounds" then
    .ok { budget with rounds := (← settings.count? name).getD budget.rounds }
  else if name == "max_clauses" then
    .ok { budget with clauses := (← settings.count? name).getD budget.clauses }
  else if name == "max_seconds" then
    .ok { budget with seconds := (← settings.count? name).getD budget.seconds }
  else .error (.unknown name)

/-- Takes over settings in order up to the first that is refused. -/
def applyNames (settings : Settings) (budget : Budget) :
    List String → Except SettingError Unit × Budget
  | [] => (.ok (), budget)
  | name :: rest =>
    match budget.applySetting settings name with
    | .ok budget => applyNames settings budget rest
    | .error cause => (.error cause, budget)

/-- Takes over settings in the order of their names; those before a refused one stay in force. -/
def applySettings (budget : Budget) (settings : Settings) : Except SettingError Unit × Budget :=
  budget.applyNames settings (settings.toList.map (·.1))

end Budget

/-- The name of a limit. -/
def Limit.render : Limit → String
  | rounds => "max_rounds"
  | clauses => "max_clauses"
  | time => "max_seconds"
  | cancelled => "cancelled"

namespace Outcome

/-- The hypothesis was proved. -/
def isProof (outcome : Outcome) : Bool :=
  match outcome.verdict with
  | .proof _ => true
  | _ => false

/-- Whether the hypothesis follows, if the search found out. -/
def answer? (outcome : Outcome) : Option Bool :=
  match outcome.verdict with
  | .proof _ => some true
  | .saturated => some false
  | .stopped _ => none

/-- The limit that stopped the search. -/
def limit? (outcome : Outcome) : Option Limit :=
  match outcome.verdict with
  | .stopped limit => some limit
  | _ => none

/-- What was spent. -/
def renderSpent (outcome : Outcome) : String :=
  "after " ++ toString outcome.rounds ++ " rounds, " ++ toString outcome.generated ++
    " generated, " ++ toString outcome.kept ++ " kept)"

/-- An outcome is printed as its verdict and what was spent. -/
def render (outcome : Outcome) : String :=
  match outcome.verdict with
  | .proof emptyClause =>
    "proved (empty clause " ++ toString emptyClause ++ " " ++ outcome.renderSpent
  | .saturated => "not proved (saturated " ++ outcome.renderSpent
  | .stopped limit => "unknown (" ++ limit.render ++ " reached " ++ outcome.renderSpent

end Outcome

end Refute
