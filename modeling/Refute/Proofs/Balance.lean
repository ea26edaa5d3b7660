import Refute.Proofs.Justification

/-!
# The books of a prover

A prover counts the rounds it begins and the resolvents it generates, for itself and once more in
its tally, which also counts what becomes of the resolvents. Both counts agree after any calls.
Every resolvent is kept, dropped as a duplicate, the empty clause, or the one for which there was no
room, and the counts balance. Budgets are kept to: no round is begun beyond the last, and no clause
is kept beyond the last.

The books are kept by the step that takes over a resolvent. While a search goes on no empty clause
has been derived; the end of the search says which of the other resolvents was the last.
-/

namespace Refute

/-! ### Counts by name -/

namespace Tally

/-- A counter has the value it was given last. -/
theorem count_set (tally : Tally) (name other : String) (value : Nat) :
    (tally.set name value).count other = if name = other then value else tally.count other := by
  unfold count get? set
  rw [Std.TreeMap.getElem?_insert]
  by_cases same : name = other
  · rw [if_pos (Std.compare_eq_iff_eq.2 same), if_pos same]
    rfl
  · rw [if_neg fun equal => same (Std.compare_eq_iff_eq.1 equal), if_neg same]

/-- A counter that was never touched counts zero. -/
theorem count_empty (name : String) : empty.count name = 0 := by
  unfold count get? empty
  rw [Std.TreeMap.getElem?_emptyc]
  rfl

/-- Adding to a counter leaves the others as they are. -/
theorem count_add (tally : Tally) (name other : String) (amount : Nat) :
    (tally.add name amount).count other =
      tally.count other + if name = other then amount else 0 := by
  unfold add
  rw [count_set]
  by_cases same : name = other
  · rw [if_pos same, if_pos same, same]
  · rw [if_neg same, if_neg same, Nat.add_zero]

end Tally

/-- Counting under a name leaves the other counts as they are. -/
theorem Prover.count_bump (p : Prover) (name other : String) :
    (p.bump name).tally.count other = p.tally.count other + if name = other then 1 else 0 :=
  p.tally.count_add name other 1

/-! ### What becomes of resolvents -/

/-- The step was derived, and its clause has literals. -/
def Step.isRetained (step : Step) : Bool := step.parents.isSome && !step.clause.isEmpty

/-- The empty clause was derived in the step. -/
def Step.isRefutation (step : Step) : Bool := step.parents.isSome && step.clause.isEmpty

/-- The search was stopped because there was no room for a clause. -/
def Verdict.isFull : Verdict → Bool
  | .stopped .clauses => true
  | _ => false

/-- Time or a request is what stops a search from outside. -/
def Interrupt.External (interrupt : Interrupt) : Prop :=
  ∀ pairs limit, interrupt pairs = some limit → limit = .time ∨ limit = .cancelled

/-- The number of steps of a kind. -/
def Derivation.count (kind : Step → Bool) (d : Derivation) : Nat := d.steps.countP kind

namespace Derivation

/-- A step that is entered counts if it is of the kind. -/
theorem count_insert (kind : Step → Bool) (d : Derivation) (clause : Clause)
    (parents : Option (Nat × Nat)) :
    (d.insert clause parents).count kind =
      d.count kind + (kind ⟨d.size + 1, clause, parents⟩).toNat := by
  unfold count insert
  rw [Array.countP_push]
  cases kind ⟨d.size + 1, clause, parents⟩ <;> rfl

/-- An input is not counted among the clauses that are kept. -/
theorem count_isRetained_input (d : Derivation) (clause : Clause) :
    (d.insert clause none).count Step.isRetained = d.count Step.isRetained :=
  d.count_insert _ clause none

/-- An input is not counted among the empty clauses that are derived. -/
theorem count_isRefutation_input (d : Derivation) (clause : Clause) :
    (d.insert clause none).count Step.isRefutation = d.count Step.isRefutation :=
  d.count_insert _ clause none

/-- A derived clause is counted among those that are kept unless it is empty. -/
theorem count_isRetained_derived (d : Derivation) (clause : Clause) (parents : Nat × Nat) :
    (d.insert clause (some parents)).count Step.isRetained =
      d.count Step.isRetained + (!clause.isEmpty).toNat :=
  d.count_insert _ clause (some parents)

/-- A derived clause is counted among the empty ones if it is empty. -/
theorem count_isRefutation_derived (d : Derivation) (clause : Clause) (parents : Nat × Nat) :
    (d.insert clause (some parents)).count Step.isRefutation =
      d.count Step.isRefutation + clause.isEmpty.toNat :=
  d.count_insert _ clause (some parents)

/-- If no empty clause is found, none was derived. -/
theorem count_isRefutation_of_emptyClause? {d : Derivation} (missed : d.emptyClause? = none) :
    d.count Step.isRefutation = 0 := by
  have literals := Array.find?_eq_none.1 (Option.map_eq_none_iff.1 missed)
  refine Array.countP_eq_zero.2 fun step member refutation => ?_
  exact literals step member (Bool.and_eq_true_iff.1 refutation).2

end Derivation

namespace Prover

/-- The books of a prover with the given budget that ran out of room a number of times: it keeps to
the budget, counts twice the rounds and resolvents and once the clauses that it keeps, and has
derived the empty clause once at most; and something has become of every resolvent. -/
structure Books (given : Budget) (stops : Nat) (p : Prover) : Prop where
  /-- The budget stays. -/
  budget : p.budget = given
  /-- No round is begun beyond the budget. -/
  limit : p.rounds ≤ given.rounds
  /-- The tally counts the rounds as the prover does. -/
  rounds : p.tally.count "rounds" = p.rounds
  /-- The tally counts the resolvents as the prover does. -/
  generated : p.tally.count "resolvents" = p.generated
  /-- The clauses kept are counted. -/
  kept : p.tally.count "kept" = p.derivation.count Step.isRetained
  /-- No clause is kept beyond the budget. -/
  room : ∀ number step, p.derivation.get? number = some step → step.isRetained →
    number ≤ given.clauses
  /-- The empty clause is derived once at most. -/
  refutations : p.derivation.count Step.isRefutation ≤ 1
  /-- Something becomes of every resolvent. -/
  balance : p.generated = p.tally.count "kept" + p.tally.count "duplicates" +
    p.derivation.count Step.isRefutation + stops

/-- The books while a search goes on in a round. -/
structure Searching (given : Budget) (current stops : Nat) (p : Prover) : Prop
    extends Books given stops p where
  /-- The rounds are counted. -/
  spent : p.rounds = current
  /-- The empty clause has not been derived. -/
  fresh : p.derivation.count Step.isRefutation = 0

/-- The books are right while the search goes on. When it has ended they are, if the search counts
that ran out of room. -/
def Settles (given : Budget) (current stops : Nat) : Except Ending Prover → Prop
  | .ok next => next.Searching given current stops
  | .error ending => ending.prover.Books given (stops + ending.verdict.isFull.toNat)

variable {p : Prover} {given : Budget} {current stops : Nat}

/-! ### Inputs -/

/-- No clause is kept beyond the budget if there is room for the one that is entered. -/
theorem Books.room_insert (books : p.Books given stops) {clause : Clause}
    {parents : Option (Nat × Nat)}
    (inside : ∀ number, Step.isRetained ⟨number, clause, parents⟩ →
      p.derivation.size < given.clauses) :
    ∀ number step, (p.derivation.insert clause parents).get? number = some step →
      step.isRetained → number ≤ given.clauses := by
  intro number step located retained
  rw [Derivation.get?_insert] at located
  split at located
  · rename_i last
    obtain rfl := Option.some.inj located
    have less := inside number retained
    omega
  · exact books.room number step located retained

/-- An input is no resolvent. -/
theorem Books.addInput (books : p.Books given stops) (clause : Clause) :
    (p.addInput clause).Books given stops := by
  obtain ⟨-, same⟩ | same := p.addInput_cases clause
  · rw [same]
    exact books
  · rw [same]
    refine ⟨books.budget, books.limit, books.rounds, books.generated, ?_, ?_, ?_, ?_⟩
    · rw [Derivation.count_isRetained_input]
      exact books.kept
    · exact books.room_insert fun _ derived => absurd derived Bool.false_ne_true
    · rw [Derivation.count_isRefutation_input]
      exact books.refutations
    · rw [Derivation.count_isRefutation_input]
      exact books.balance

/-- Entering inputs keeps the books. -/
theorem Books.foldl_addInput (books : p.Books given stops) (clauses : List Clause) :
    (clauses.foldl Prover.addInput p).Books given stops := by
  induction clauses generalizing p with
  | nil => exact books
  | cons clause rest ih => exact ih (books.addInput clause)

/-! ### Searches -/

/-- A resolvent is counted twice as generated, and no other count changes. -/
theorem count_countResolvent (p : Prover) :
    p.countResolvent.tally.count "rounds" = p.tally.count "rounds" ∧
      p.countResolvent.tally.count "resolvents" = p.tally.count "resolvents" + 1 ∧
      p.countResolvent.tally.count "kept" = p.tally.count "kept" ∧
      p.countResolvent.tally.count "duplicates" = p.tally.count "duplicates" := by
  simp [countResolvent, count_bump]

/-- The empty clause is a resolvent that is neither kept nor dropped. -/
theorem Searching.books_of_isEmpty (searching : p.Searching given current stops)
    (parents : Nat × Nat) {resolvent : Clause} (empty : resolvent.isEmpty) :
    Books given stops { p.countResolvent with
      derivation := p.derivation.insert resolvent (some parents) } := by
  have books := searching.toBooks
  obtain ⟨rounds, generated, kept, duplicates⟩ := p.count_countResolvent
  refine ⟨books.budget, books.limit, rounds.trans books.rounds, ?_, ?_, ?_, ?_, ?_⟩
  · exact generated.trans (congrArg (· + 1) books.generated)
  · rw [Derivation.count_isRetained_derived, empty, kept]
    exact books.kept
  · exact books.room_insert fun _ derived => by simp [Step.isRetained, empty] at derived
  · rw [Derivation.count_isRefutation_derived, empty, searching.fresh]
    rfl
  · rw [Derivation.count_isRefutation_derived, empty, kept, duplicates, Bool.toNat_true]
    change p.generated + 1 = _
    rw [books.balance]
    omega

/-- A duplicate is counted as such. -/
theorem Searching.duplicate (searching : p.Searching given current stops) :
    Searching given current stops (p.countResolvent.bump "duplicates") := by
  have books := searching.toBooks
  obtain ⟨rounds, generated, kept, duplicates⟩ := p.count_countResolvent
  refine ⟨⟨books.budget, books.limit, ?_, ?_, ?_, books.room, books.refutations, ?_⟩,
    searching.spent, searching.fresh⟩
  · rw [count_bump, rounds]
    exact books.rounds
  · rw [count_bump, generated]
    exact congrArg (· + 1) books.generated
  · rw [count_bump, kept]
    exact books.kept
  · rw [count_bump, count_bump, kept, duplicates]
    change p.generated + 1 = _ + 0 + (_ + 1) + p.derivation.count Step.isRefutation + _
    rw [books.balance]
    omega

/-- A clause that is kept is counted as such. -/
theorem Searching.kept_insert (searching : p.Searching given current stops) (parents : Nat × Nat)
    {clause : Clause} (literals : clause.isEmpty = false) (space : p.derivation.size < given.clauses) :
    Searching given current stops ({ p.countResolvent with
      derivation := p.derivation.insert clause (some parents) }.bump "kept") := by
  have books := searching.toBooks
  obtain ⟨rounds, generated, kept, duplicates⟩ := p.count_countResolvent
  have refuted : (p.derivation.insert clause (some parents)).count Step.isRefutation =
      p.derivation.count Step.isRefutation := by
    rw [Derivation.count_isRefutation_derived, literals]
    rfl
  refine ⟨⟨books.budget, books.limit, ?_, ?_, ?_, books.room_insert fun _ _ => space,
    refuted.trans_le books.refutations, ?_⟩, searching.spent, refuted.trans searching.fresh⟩
  · rw [count_bump, rounds]
    exact books.rounds
  · rw [count_bump, generated]
    exact congrArg (· + 1) books.generated
  · rw [count_bump, kept, derivation_bump, Derivation.count_isRetained_derived, literals, books.kept]
    rfl
  · rw [count_bump, count_bump, kept, duplicates, derivation_bump, refuted]
    change p.generated + 1 = (_ + 1) + (_ + 0) + _ + _
    rw [books.balance]
    omega

/-- A resolvent is the empty clause, a duplicate, the one for which there is no room, or kept. -/
theorem Searching.keep (searching : p.Searching given current stops) (parents : Nat × Nat)
    (resolvent : Clause) : Settles given current stops (keep parents p resolvent) := by
  have books := searching.toBooks
  unfold Prover.keep
  dsimp only
  split
  · rename_i empty
    exact searching.books_of_isEmpty parents empty
  rename_i held
  split
  · exact searching.duplicate
  split
  · obtain ⟨rounds, generated, kept, duplicates⟩ := p.count_countResolvent
    refine ⟨books.budget, books.limit, rounds.trans books.rounds, ?_, kept.trans books.kept,
      books.room, books.refutations, ?_⟩
    · exact generated.trans (congrArg (· + 1) books.generated)
    · change p.generated + 1 = p.countResolvent.tally.count "kept" +
        p.countResolvent.tally.count "duplicates" + p.derivation.count Step.isRefutation + (stops + 1)
      rw [kept, duplicates, books.balance]
      omega
  · rename_i space
    exact searching.kept_insert parents
      (Clause.isEmpty_factor (Bool.eq_false_of_not_eq_true held) p.hypothesis)
      (books.budget ▸ Nat.lt_of_not_le space)

/-- The books are right after a pair is tried. -/
theorem Searching.resolvePair (searching : p.Searching given current stops) {interrupt : Interrupt}
    (external : interrupt.External) (first second : Nat) :
    Settles given current stops (p.resolvePair interrupt first second) := by
  have books := searching.toBooks
  have counted : Searching given current stops (p.bump "pairs_tried") := by
    refine ⟨⟨books.budget, books.limit, ?_, ?_, ?_, books.room, books.refutations, ?_⟩,
      searching.spent, searching.fresh⟩
    · exact (count_bump ..).trans books.rounds
    · exact (count_bump ..).trans books.generated
    · exact (count_bump ..).trans books.kept
    · rw [count_bump, count_bump]
      exact books.balance
  unfold Prover.resolvePair
  split
  · rename_i limit stopped
    rcases external _ limit stopped with rfl | rfl
    · exact books
    · exact books
  dsimp only
  split
  · exact foldlM_either (R := Settles given current stops)
      (fun _ resolvent _ now => now.keep _ resolvent) counted
  · exact counted

/-- A round keeps the books, also where it ends the search. -/
theorem Searching.round (searching : p.Searching given current stops) {interrupt : Interrupt}
    (external : interrupt.External) (old size : Nat) :
    Settles given current stops (round interrupt old size p) :=
  foldlM_either (R := Settles given current stops) (fun _ first _ before =>
    foldlM_either (R := Settles given current stops)
      (fun _ second _ now => now.resolvePair external first second) before) searching

/-- The books are right after a search that has rounds left. -/
theorem Searching.searchFrom {interrupt : Interrupt} (external : interrupt.External)
    {remaining : Nat} (searching : p.Searching given current stops)
    (rounds : remaining + current ≤ given.rounds) (old : Nat) :
    (searchFrom interrupt remaining old p).prover.Books given
      (stops + (searchFrom interrupt remaining old p).verdict.isFull.toNat) := by
  induction remaining generalizing old p current with
  | zero => exact searching.toBooks
  | succ remaining ih =>
    have books := searching.toBooks
    have begun : p.countRound.Searching given (current + 1) stops := by
      refine ⟨⟨books.budget, ?_, ?_, ?_, ?_, books.room, books.refutations, ?_⟩,
        congrArg (· + 1) searching.spent, searching.fresh⟩
      · have spent := searching.spent
        change p.rounds + 1 ≤ given.rounds
        omega
      · exact (count_bump ..).trans (congrArg (· + 1) books.rounds)
      · exact (count_bump ..).trans books.generated
      · exact (count_bump ..).trans books.kept
      · rw [countRound, count_bump, count_bump]
        exact books.balance
    have after := begun.round external old p.derivation.size
    unfold Prover.searchFrom
    dsimp only
    split
    · rename_i ending stopped
      rw [stopped] at after
      exact after
    · rename_i next done
      rw [done] at after
      split
      · exact Searching.toBooks after
      · exact ih after (by omega) p.derivation.size

/-- The books are right after a search. -/
theorem Books.search (books : p.Books given stops) {interrupt : Interrupt}
    (external : interrupt.External) :
    (p.search interrupt).2.Books given (stops + (p.search interrupt).1.verdict.isFull.toNat) := by
  unfold Prover.search
  split
  · exact books
  · rename_i missed
    have searching : p.Searching given p.rounds stops :=
      ⟨books, rfl, Derivation.count_isRefutation_of_emptyClause? missed⟩
    have limit := books.limit
    have budget := books.budget
    exact searching.searchFrom external (by rw [budget]; omega) 0

end Prover

/-! ### Calls -/

/-- What stops the searches of a call from outside is time or a request. -/
def Call.External : Call → Prop
  | search interrupt => interrupt.External
  | prove interrupt _ _ _ => interrupt.External
  | _ => True

/-- The command enters clauses. -/
def Command.isInput : Command → Bool
  | search _ => false
  | _ => true

namespace Prover

variable {p : Prover} {given : Budget} {stops : Nat}

/-- A problem is taken over by entering clauses. -/
theorem isInput_of_mem_problem (session : Session) (goal : Statement) (knowledge : List Statement) :
    ∀ command ∈ problem session goal knowledge, command.isInput := by
  induction knowledge generalizing session with
  | nil =>
    unfold problem
    rcases goal.negatedClauses session with ⟨cause | form, after⟩
    · exact List.forall_mem_nil _
    · exact List.forall_mem_singleton.2 rfl
  | cons statement rest ih =>
    unfold problem
    rcases statement.clauses session with ⟨cause | form, after⟩
    · exact List.forall_mem_nil _
    · exact List.forall_mem_cons.2 ⟨rfl, ih after⟩

/-- A call enters clauses, and then it searches or has no outcome. -/
theorem respond_cases (p : Prover) (call : Call) :
    ∃ commands : List Command, (∀ command ∈ commands, command.isInput) ∧
      (p.respond call = (none, p.run commands) ∨
        ∃ interrupt : Interrupt, (call.External → interrupt.External) ∧
          p.respond call = (some ((p.run commands).search interrupt).1,
            ((p.run commands).search interrupt).2)) := by
  cases call with
  | knowledge form => exact ⟨[.knowledge form], List.forall_mem_singleton.2 rfl, .inl rfl⟩
  | negatedHypothesis form =>
    exact ⟨[.negatedHypothesis form], List.forall_mem_singleton.2 rfl, .inl rfl⟩
  | search interrupt => exact ⟨[], List.forall_mem_nil _, .inr ⟨interrupt, id, rfl⟩⟩
  | prove interrupt session known goal =>
    refine ⟨problem session goal known, isInput_of_mem_problem session goal known, ?_⟩
    unfold respond
    dsimp only
    obtain ⟨cause, next, ended, -⟩ | ⟨outcome, next, last, ended, -⟩ :=
      p.prove_cases interrupt session known goal
    · rw [ended]
      exact .inl rfl
    · refine .inr ⟨interrupt, id, ?_⟩
      rw [ended, search_of_prove ended]
      rfl

/-- Entering clauses counts neither rounds nor resolvents, and keeps the books. -/
theorem Books.run (books : p.Books given stops) {commands : List Command}
    (inputs : ∀ command ∈ commands, command.isInput) : (p.run commands).Books given stops := by
  induction commands generalizing p with
  | nil => exact books
  | cons command rest ih =>
    rw [List.forall_mem_cons] at inputs
    refine ih (p := p.perform command) ?_ inputs.2
    cases command with
    | knowledge form => exact books.foldl_addInput form.clauses
    | negatedHypothesis form =>
      have fixed : (p.fixing form).Books given stops :=
        ⟨books.budget, books.limit, books.rounds, books.generated, books.kept, books.room,
          books.refutations, books.balance⟩
      exact fixed.foldl_addInput form.clauses
    | search interrupt => cases inputs.1

/-- The outcomes of the searches that calls come to. -/
def outcomes (prover : Prover) : List Call → List Outcome
  | [] => []
  | call :: rest => (prover.respond call).1.toList ++ (prover.respond call).2.outcomes rest

/-- The number of searches that ran out of room. -/
def timesFull (outcomes : List Outcome) : Nat := outcomes.countP fun outcome => outcome.verdict.isFull

/-- The books are right after a call. -/
theorem Books.respond (books : p.Books given stops) {call : Call} (external : call.External) :
    (p.respond call).2.Books given (stops + timesFull (p.respond call).1.toList) := by
  obtain ⟨commands, inputs, entered | ⟨interrupt, outside, searched⟩⟩ := p.respond_cases call
  · rw [entered]
    exact books.run inputs
  · rw [searched]
    have after := (books.run inputs).search (outside external)
    have once : ∀ outcome : Outcome, timesFull [outcome] = outcome.verdict.isFull.toNat := by
      intro outcome
      cases full : outcome.verdict.isFull <;> simp [timesFull, full]
    rw [Option.toList_some, once]
    exact after

/-- The books are right after calls. -/
theorem Books.follow (books : p.Books given stops) {calls : List Call}
    (external : ∀ call ∈ calls, call.External) :
    (p.follow calls).Books given (stops + timesFull (p.outcomes calls)) := by
  induction calls generalizing p stops with
  | nil => exact books
  | cons call rest ih =>
    rw [List.forall_mem_cons] at external
    have after := ih (books.respond external.1) external.2
    rw [Nat.add_assoc, timesFull, timesFull, ← List.countP_append] at after
    exact after

/-! ### Reports -/

/-- The outcome reports the rounds and resolvents that the prover has counted. -/
def ReportedBy (p : Prover) (outcome : Outcome) : Prop :=
  outcome.rounds = p.rounds ∧ outcome.generated = p.generated

/-- Entering clauses changes no count. -/
theorem ReportedBy.foldl_addInput {outcome : Outcome} (reported : p.ReportedBy outcome)
    (clauses : List Clause) : (clauses.foldl addInput p).ReportedBy outcome := by
  induction clauses generalizing p with
  | nil => exact reported
  | cons clause rest ih =>
    refine ih ?_
    obtain ⟨-, same⟩ | same := p.addInput_cases clause
    · rwa [same]
    · rw [same]
      exact reported

/-- Commands that enter clauses change no count. -/
theorem ReportedBy.run {outcome : Outcome} (reported : p.ReportedBy outcome) {commands : List Command}
    (inputs : ∀ command ∈ commands, command.isInput) : (p.run commands).ReportedBy outcome := by
  induction commands generalizing p with
  | nil => exact reported
  | cons command rest ih =>
    rw [List.forall_mem_cons] at inputs
    refine ih (p := p.perform command) ?_ inputs.2
    cases command with
    | knowledge form => exact reported.foldl_addInput form.clauses
    | negatedHypothesis form =>
      exact ReportedBy.foldl_addInput (p := p.fixing form) reported form.clauses
    | search interrupt => cases inputs.1

/-- What a search ends with is reported by its outcome. -/
theorem reportedBy_search (p : Prover) (interrupt : Interrupt) :
    (p.search interrupt).2.ReportedBy (p.search interrupt).1 := by
  unfold search
  split <;> exact ⟨rfl, rfl⟩

/-- After calls the outcome of the last search still reports what is counted. -/
theorem reportedBy_follow {calls : List Call} {before : Option Outcome}
    (reported : ∀ outcome, before = some outcome → p.ReportedBy outcome) :
    ∀ outcome, (p.outcomes calls).getLast?.or before = some outcome →
      (p.follow calls).ReportedBy outcome := by
  induction calls generalizing p before with
  | nil => exact reported
  | cons call rest ih =>
    intro outcome last
    rw [outcomes, List.getLast?_append, Option.or_assoc] at last
    refine ih (p := (p.respond call).2) (fun outcome now => ?_) outcome last
    obtain ⟨commands, inputs, entered | ⟨interrupt, -, searched⟩⟩ := p.respond_cases call
    · rw [entered] at now ⊢
      exact (reported outcome now).run inputs
    · rw [searched] at now ⊢
      obtain rfl := Option.some.inj now
      exact (p.run commands).reportedBy_search interrupt

/-- The counts of a prover with the given budget after calls with the given outcomes. -/
structure Balanced (given : Budget) (outcomes : List Outcome) (p : Prover) : Prop where
  /-- Every round is counted, and none is begun beyond the budget. -/
  rounds : p.tally.count "rounds" = p.rounds ∧ p.rounds ≤ given.rounds
  /-- Every resolvent is counted. -/
  generated : p.tally.count "resolvents" = p.generated
  /-- The last search reports both counts. -/
  reported : ∀ outcome, outcomes.getLast? = some outcome →
    outcome.rounds = p.tally.count "rounds" ∧ outcome.generated = p.tally.count "resolvents"
  /-- The steps are counted that have parents and literals. -/
  kept : p.tally.count "kept" = p.derivation.count Step.isRetained
  /-- None of these steps has a number beyond the budget. -/
  room : ∀ number step, p.derivation.get? number = some step → step.isRetained →
    number ≤ given.clauses
  /-- The empty clause is derived once at most. -/
  refutations : p.derivation.count Step.isRefutation ≤ 1
  /-- Every resolvent is kept, a duplicate or the empty clause, or there was no room for it. -/
  resolvents : p.tally.count "resolvents" = p.tally.count "kept" + p.tally.count "duplicates" +
    p.derivation.count Step.isRefutation + timesFull outcomes

/-- Whatever a new prover is asked to do, its counts balance, if nothing but time or a request stops
its searches from outside. -/
theorem balanced_follow (given : Budget) {calls : List Call}
    (external : ∀ call ∈ calls, call.External) :
    Balanced given ((new given).outcomes calls) ((new given).follow calls) := by
  have start : (new given).Books given 0 := by
    have zero : ∀ name, (new given).tally.count name = 0 := Tally.count_empty
    refine ⟨rfl, Nat.zero_le _, zero _, zero _, zero _, by simp, Nat.zero_le _, ?_⟩
    rw [zero, zero]
    rfl
  have books := start.follow external
  rw [Nat.zero_add] at books
  have reported := @reportedBy_follow (new given) calls none (fun _ none => by cases none)
  simp only [Option.or_none] at reported
  generalize (new given).follow calls = p at books reported ⊢
  refine ⟨⟨books.rounds, books.limit⟩, books.generated, fun outcome last => ?_, books.kept, books.room,
    books.refutations, books.generated.trans books.balance⟩
  rw [books.rounds, books.generated]
  exact reported outcome last

/-- With room for three clauses, `P(a)` and `!P(x) | P(f(x))` are searched until there is no room
for `P(f(f(a)))`. Then `!P(a)` is entered, and a second search finds `P(f(a))` once more, and the
empty clause. Of the four resolvents one was kept, one was a duplicate, one is empty, and one had no
room. -/
theorem balanced_follow_full :
    let x : Variable := ⟨"x", 0, true, true⟩
    let f : Expr → Expr := fun e => .node (.fn ⟨"f", 1, none⟩) [e]
    let P : Expr → Expr := fun e => .node (.rel ⟨⟨"P", 1, none⟩⟩) [e]
    let a : Expr := .leaf (.const ⟨"a", .text "a"⟩)
    let given : Budget := { clauses := 3 }
    let calls : List Call :=
      [.knowledge ⟨[⟨[P a]⟩, ⟨[(P (.ofVariable x)).negate, P (f (.ofVariable x))]⟩]⟩, .search .never,
        .negatedHypothesis ⟨[⟨[(P a).negate]⟩]⟩, .search .never]
    (∀ call ∈ calls, call.External) ∧
      (new given).outcomes calls = [⟨.stopped .clauses, 2, 2, 3⟩, ⟨.proof 5, 3, 4, 5⟩] ∧
      ((new given).follow calls).tally.toList = [("duplicates", 1), ("kept", 1), ("pairs_tried", 6),
        ("resolvents", 4), ("rounds", 3)] ∧
      Balanced given ((new given).outcomes calls) ((new given).follow calls) := by
  intro x f P a given calls
  have never : Interrupt.never.External := fun _ _ stopped => by cases stopped
  have external : ∀ call ∈ calls, call.External := by
    simp only [calls, List.forall_mem_cons]
    exact ⟨trivial, never, trivial, never, List.forall_mem_nil _⟩
  refine ⟨external, by decide +kernel, by decide +kernel, balanced_follow given external⟩

end Prover

end Refute
