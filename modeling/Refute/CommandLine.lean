import Refute.Problem
import Refute.Prover.Search

/-!
# The command line

The command reads a problem file and tries to prove each goal from the premises. Limits come from
the file, then from assignments on the command line, then from the options for single limits. The
exit code is 0 if every goal was proved, 4 if some search saturated, 3 if the worst was a limit, and
2 if the problem could not be used.
-/

namespace Refute

/-- What the arguments ask for. -/
structure Options where
  /-- The problem file, the standard input if there is none. -/
  file : Option String := none
  /-- Print the clauses of every premise and goal. -/
  showClauses : Bool := false
  /-- Print the derivation of each proof. -/
  showProof : Bool := false
  /-- The greatest number of rounds. -/
  maxRounds : Option Nat := none
  /-- The greatest number of clauses kept. -/
  maxClauses : Option Nat := none
  /-- The greatest number of seconds for each goal. -/
  maxSeconds : Option Nat := none
  /-- The settings assigned, in order. -/
  assignments : List String := []

/-- Why the arguments cannot be used. -/
inductive UsageError where
  /-- There is no such option. -/
  | unknownOption (option : String)
  /-- The option takes a value and has none. -/
  | missingValue (option : String)
  /-- The option takes a count. -/
  | invalidCount (option value : String)
  /-- There is more than one problem file. -/
  | extraFile (file : String)

/-- What a run prints and the code it exits with. -/
structure Report where
  /-- The exit code. -/
  code : Nat
  /-- The lines on standard output. -/
  output : List String
  /-- The lines on standard error. -/
  errors : List String

/-- The wording of a usage error. -/
def UsageError.message : UsageError → String
  | unknownOption option => s!"unexpected argument '{option}'"
  | missingValue option => s!"a value is required for '{option}'"
  | invalidCount option value => s!"invalid value '{value}' for '{option}'"
  | extraFile file => s!"unexpected argument '{file}'"

namespace Options

/-- An option that takes a value. -/
inductive Valued where
  | maxRounds
  | maxClauses
  | maxSeconds
  | assign

/-- The option with a long name. -/
def Valued.ofName? : String → Option Valued
  | "--max-rounds" => some .maxRounds
  | "--max-clauses" => some .maxClauses
  | "--max-seconds" => some .maxSeconds
  | "--assign" => some .assign
  | _ => none

/-- Reads the count that an option takes. -/
def readCount (option value : String) : Except UsageError Nat :=
  match Decimal.readCount? value.toList with
  | some count => .ok count
  | none => .error (.invalidCount option value)

/-- Takes over an option and its value. -/
def set (options : Options) (name : String) (option : Valued) (value : String) :
    Except UsageError Options := do
  match option with
  | .maxRounds => .ok { options with maxRounds := some (← readCount name value) }
  | .maxClauses => .ok { options with maxClauses := some (← readCount name value) }
  | .maxSeconds => .ok { options with maxSeconds := some (← readCount name value) }
  | .assign => .ok { options with assignments := options.assignments ++ [value] }

/-- Takes over the problem file. -/
def setFile (options : Options) (file : String) : Except UsageError Options :=
  match options.file with
  | none => .ok { options with file := some file }
  | some _ => .error (.extraFile file)

/-- The value written in one argument with the short name of an option. -/
def shortValue : List Char → String
  | '=' :: value => String.ofList value
  | value => String.ofList value

/-- Takes over an argument that needs no other: a flag, an option with its value, or a file. -/
def readAlone (options : Options) (argument : String) : Except UsageError Options :=
  if argument == "--cnf" then .ok { options with showClauses := true }
  else if argument == "--show-proof" then .ok { options with showProof := true }
  else
    match argument.toList with
    | '-' :: 'a' :: value => options.set "-a" .assign (shortValue value)
    | '-' :: '-' :: _ =>
      match Text.cutAt? (· == '=') argument.toList with
      | none => .error (.unknownOption argument)
      | some (name, value) =>
        match Valued.ofName? (String.ofList name) with
        | none => .error (.unknownOption argument)
        | some option => options.set (String.ofList name) option (String.ofList value)
    | ['-'] => options.setFile argument
    | '-' :: _ => .error (.unknownOption argument)
    | _ => options.setFile argument

/-- The option whose value is the next argument. -/
def awaitsValue? (argument : String) : Option Valued :=
  if argument == "-a" then some .assign else Valued.ofName? argument

/-- Takes over arguments in order. -/
def readAll (options : Options) : List String → Except UsageError Options
  | [] => .ok options
  | [argument] =>
    match awaitsValue? argument with
    | some _ => .error (.missingValue argument)
    | none => options.readAlone argument
  | argument :: next :: rest =>
    match awaitsValue? argument with
    | some option => do (← options.set argument option next).readAll rest
    | none => do (← options.readAlone argument).readAll (next :: rest)

/-- What a list of arguments asks for. -/
def parse (arguments : List String) : Except UsageError Options :=
  let start : Options := {}
  start.readAll arguments

/-- The settings assigned on the command line. -/
def settings (options : Options) : Except SettingError Settings :=
  options.assignments.foldlM Settings.assign Settings.empty

/-- The budget under the settings of the file, the assignments and the single limits. -/
def budget (options : Options) (file : Settings) : Except SettingError Budget := do
  let start : Budget := {}
  let (fromFile, budget) := start.applySettings file
  fromFile
  let (fromAssignments, budget) := budget.applySettings (← options.settings)
  fromAssignments
  .ok {
    rounds := options.maxRounds.getD budget.rounds
    clauses := options.maxClauses.getD budget.clauses
    seconds := options.maxSeconds.getD budget.seconds }

end Options

namespace Report

/-- A run that prints nothing but an error. -/
def failure (message : String) : Report := ⟨2, [], [message]⟩

/-- Prints another line. -/
def line (report : Report) (text : String) : Report :=
  { report with output := report.output ++ [text] }

/-- Prints a statement and its clauses under a label. -/
def showStatement (label : String) (state : Session × Report) (statement : Statement) :
    Session × Report :=
  let (form, session) := statement.clauses state.1
  let described := state.2.line (label ++ ": " ++ statement.render)
  match form with
  | .ok form => (session, described.line ("  cnf: " ++ form.render))
  | .error cause => (session, described.line ("  cnf error: " ++ cause.message))

/-- Prints all premises and goals with their clauses. -/
def showStatements (problem : Problem) (report : Report) : Session × Report :=
  let afterPremises := problem.premises.foldl (showStatement "axiom") (problem.session, report)
  let (session, report) := problem.goals.foldl (showStatement "goal") afterPremises
  (session, report.line "")

/-- One step of a printed derivation. -/
def stepLine (derivation : Derivation) (number : Nat) : Option String :=
  (derivation.get? number).map fun step =>
    let origin := match step.parents with
      | none => "input"
      | some (left, right) => toString left ++ ", " ++ toString right
    "  " ++ toString number ++ ": " ++ step.clause.render ++ "  [" ++ origin ++ "]"

/-- The printed derivation of a proof. -/
def proofLines (prover : Prover) (outcome : Outcome) : List String :=
  match outcome.verdict with
  | .proof number =>
    (prover.derivation.ancestry number).filterMap (stepLine prover.derivation)
  | _ => []

/-- The exit code of one outcome. -/
def codeOf (outcome : Outcome) : Nat :=
  match outcome.verdict with
  | .proof _ => 0
  | .saturated => 4
  | .stopped _ => 3

/-- Tries to prove the goals in order; the report ends with a goal that has no clauses. -/
def proveAll (interrupt : Interrupt) (showProof : Bool) (budget : Budget)
    (premises : List Statement) (session : Session) (report : Report) : List Statement → Report
  | [] => report
  | goal :: rest =>
    match (Prover.new budget).prove interrupt session premises goal with
    | (.error cause, _, _) =>
      { report with code := 2, errors := ["CNF error: " ++ cause.message] }
    | (.ok outcome, session, prover) =>
      let proof := if showProof then proofLines prover outcome else []
      let stated := "prove " ++ goal.render ++ ": " ++ outcome.render
      proveAll interrupt showProof budget premises session
        { report with
          code := max report.code (codeOf outcome)
          output := report.output ++ stated :: proof } rest

/-- Runs a problem that was read, under a budget. -/
def ofProblem (interrupt : Interrupt) (options : Options) (problem : Problem) (budget : Budget) :
    Report :=
  let heading : Report :=
    { code := 0
      output := ["fol-prover 0.1.0", "", "Axioms: " ++ toString problem.premises.length,
        "Goals: " ++ toString problem.goals.length, ""]
      errors := [] }
  let (session, report) :=
    if options.showClauses then showStatements problem heading else (problem.session, heading)
  proveAll interrupt options.showProof budget problem.premises session report problem.goals

/-- Runs the text of a problem file. -/
def run (interrupt : Interrupt) (options : Options) (text : String) : Report :=
  match Problem.parse text with
  | .error error => failure ("Parse error: " ++ error.message)
  | .ok problem =>
    match options.budget problem.settings with
    | .error cause => failure ("Parameter error: " ++ cause.message)
    | .ok budget => ofProblem interrupt options problem budget

/-- Lines as they are printed. -/
def text (lines : List String) : String := String.join (lines.map (· ++ "\n"))

end Report

end Refute
