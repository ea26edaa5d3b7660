import Refute.Proofs.Entailment

/-!
# Justification

Whatever a prover is asked to do, every clause of its derivation is accounted for. The clauses are
numbered in the order in which they were entered and never change. A clause without parents is a
factored input, and a clause with parents a factored resolvent of two clauses with smaller numbers,
under the variables that were fixed when the search came to it. No two clauses are equal, and a
proof names an empty one.

That no two clauses are equal needs an invariant of the search. A resolvent is compared with all
clauses before it is entered, except the empty one; but a search begins only when no clause is
empty, and it ends with the first that is.
-/

namespace Refute

/-! ### Clauses that differ -/

/-- Equality of clauses is symmetric. -/
theorem Clause.beq_comm (clause other : Clause) : (clause == other) = (other == clause) :=
  Bool.and_comm _ _

/-- Only the empty clause is equal to the empty clause. -/
theorem Clause.isEmpty_of_beq {clause other : Clause} (same : clause == other)
    (empty : other.isEmpty) : clause.isEmpty := by
  obtain ⟨literals⟩ := other
  obtain rfl : literals = [] := List.isEmpty_iff.1 empty
  have inside := List.all_eq_true.1 (Bool.and_eq_true_iff.1 same).1
  refine List.isEmpty_iff.2 (List.eq_nil_iff_forall_not_mem.2 fun literal member => ?_)
  have held := inside literal member
  simp [contains] at held

namespace Derivation

/-- No two clauses are equal. -/
def Distinct (d : Derivation) : Prop :=
  ∀ i j first second, i ≠ j → d.get? i = some first → d.get? j = some second →
    (first.clause == second.clause) = false

/-- A clause that differs from all others can be entered. -/
theorem Distinct.insert {d : Derivation} (distinct : d.Distinct) {clause : Clause}
    (new : ∀ number step, d.get? number = some step → (step.clause == clause) = false)
    (parents : Option (Nat × Nat)) : (d.insert clause parents).Distinct := by
  intro i j first second different atFirst atSecond
  rw [get?_insert] at atFirst atSecond
  split at atFirst
  · rw [if_neg (by omega)] at atSecond
    obtain rfl := Option.some.inj atFirst
    rw [Clause.beq_comm]
    exact new j second atSecond
  · split at atSecond
    · obtain rfl := Option.some.inj atSecond
      exact new i first atFirst
    · exact distinct i j first second different atFirst atSecond

end Derivation

/-! ### Searches enter no clause twice -/

namespace Prover

variable {p : Prover}

/-- No clause is empty, and no two are equal: the search goes on. -/
structure Open (p : Prover) : Prop where
  /-- No two clauses are equal. -/
  distinct : p.derivation.Distinct
  /-- Every clause has literals. -/
  held : ∀ number step, p.derivation.get? number = some step → step.clause.isEmpty = false

/-- While the search goes on no clause is empty and no two are equal; when it ends no two are
equal. -/
def Distinguishes : Except Ending Prover → Prop
  | .ok next => next.Open
  | .error ending => ending.prover.derivation.Distinct

/-- A resolvent that is entered differs from all clauses. -/
theorem Open.keep (isOpen : p.Open) (parents : Nat × Nat) (resolvent : Clause) :
    Distinguishes (keep parents p resolvent) := by
  unfold Prover.keep
  dsimp only
  split
  · rename_i empty
    refine isOpen.distinct.insert (fun number step located => ?_) _
    by_contra same
    have other := isOpen.held number step located
    rw [Clause.isEmpty_of_beq (Bool.of_not_eq_false same) empty] at other
    cases other
  rename_i held
  split
  · exact ⟨isOpen.distinct, isOpen.held⟩
  rename_i unknown
  split
  · exact isOpen.distinct
  have new : ∀ number step, p.derivation.get? number = some step →
      (step.clause == resolvent.factor p.hypothesis) = false := by
    intro number step located
    by_contra same
    rw [Clause.beq_comm] at same
    refine unknown (Derivation.any_iff.2 ⟨number, step, located, ?_⟩)
    exact Bool.or_eq_true_iff.2 (.inl (Bool.of_not_eq_false same))
  refine ⟨isOpen.distinct.insert new _, fun number step located => ?_⟩
  rw [derivation_bump, Derivation.get?_insert] at located
  split at located
  · obtain rfl := Option.some.inj located
    exact Clause.isEmpty_factor (Bool.eq_false_of_not_eq_true held) p.hypothesis
  · exact isOpen.held number step located

/-- Resolving two clauses enters no clause twice. -/
theorem Open.resolvePair (isOpen : p.Open) (interrupt : Interrupt) (first second : Nat) :
    Distinguishes (p.resolvePair interrupt first second) := by
  have counted : (p.bump "pairs_tried").Open := ⟨isOpen.distinct, isOpen.held⟩
  unfold Prover.resolvePair
  split
  · exact isOpen.distinct
  dsimp only
  split
  · exact foldlM_either (R := Distinguishes) (fun _ resolvent _ now => now.keep _ resolvent) counted
  · exact counted

/-- A round enters no clause twice. -/
theorem Open.round (isOpen : p.Open) (interrupt : Interrupt) (old size : Nat) :
    Distinguishes (round interrupt old size p) :=
  foldlM_either (R := Distinguishes) (fun _ first _ before =>
    foldlM_either (R := Distinguishes) (fun _ second _ now => now.resolvePair interrupt first second)
      before) isOpen

/-- A search enters no clause twice, whichever way it ends. -/
theorem Open.searchFrom (isOpen : p.Open) (interrupt : Interrupt) (remaining old : Nat) :
    (searchFrom interrupt remaining old p).prover.derivation.Distinct := by
  induction remaining generalizing old p with
  | zero => exact isOpen.distinct
  | succ remaining ih =>
    have counted : p.countRound.Open := ⟨isOpen.distinct, isOpen.held⟩
    have after := counted.round interrupt old p.derivation.size
    unfold Prover.searchFrom
    dsimp only
    split
    · rename_i ending stopped
      rw [stopped] at after
      exact after
    · rename_i next done
      rw [done] at after
      split
      · exact Open.distinct after
      · exact ih after p.derivation.size

/-- A search enters no clause twice. -/
theorem distinct_search (distinct : p.derivation.Distinct) (interrupt : Interrupt) :
    (p.search interrupt).2.derivation.Distinct := by
  unfold search
  split
  · exact distinct
  · rename_i missed
    have isOpen : p.Open :=
      ⟨distinct, fun _ _ => Derivation.isEmpty_eq_false_of_emptyClause? missed⟩
    exact isOpen.searchFrom interrupt _ 0

/-! ### Commands enter no clause twice -/

/-- An input that is held already is not entered again. -/
theorem distinct_addInput (distinct : p.derivation.Distinct) (clause : Clause) :
    (p.addInput clause).derivation.Distinct := by
  unfold addInput
  dsimp only
  split
  · exact distinct
  · rename_i unknown
    refine distinct.insert (fun number step located => ?_) none
    by_contra same
    exact unknown (Derivation.any_iff.2 ⟨number, step, located, Bool.of_not_eq_false same⟩)

/-- Entering inputs enters no clause twice. -/
theorem distinct_foldl_addInput (distinct : p.derivation.Distinct) (clauses : List Clause) :
    (clauses.foldl addInput p).derivation.Distinct := by
  induction clauses generalizing p with
  | nil => exact distinct
  | cons clause rest ih => exact ih (distinct_addInput distinct clause)

/-- Commands enter no clause twice. -/
theorem distinct_run (distinct : p.derivation.Distinct) (commands : List Command) :
    (p.run commands).derivation.Distinct := by
  induction commands generalizing p with
  | nil => exact distinct
  | cons command rest ih =>
    refine ih (p := p.perform command) ?_
    cases command with
    | knowledge form => exact distinct_foldl_addInput distinct form.clauses
    | negatedHypothesis form =>
      exact distinct_foldl_addInput (p := p.fixing form) distinct form.clauses
    | search interrupt => exact distinct_search distinct interrupt

/-! ### Where clauses come from -/

/-- Why a step stands under its number: it is a factored clause of the command that entered it, or
the command was a search and the step is the factored resolvent of two clauses with smaller numbers.
The prover is the one that got the command. -/
inductive Justified (d : Derivation) (p : Prover) (number : Nat) : Command → Step → Prop
  /-- A clause of the command is factored. -/
  | input {command : Command} {clause : Clause} (member : clause ∈ command.clauses) :
      Justified d p number command ⟨number, clause.factor (p.perform command).hypothesis, none⟩
  /-- Two clauses are resolved, and the resolvent is factored. -/
  | resolvent {interrupt : Interrupt} {first second : Nat} {left right : Step} {resolvent : Clause}
      (less : first < second) (later : second < number) (atFirst : d.get? first = some left)
      (atSecond : d.get? second = some right)
      (resolved : resolvent ∈ left.clause.resolve p.hypothesis right.clause) :
      Justified d p number (.search interrupt)
        ⟨number, resolvent.factor p.hypothesis, some (first, second)⟩

/-- A step is justified in every derivation that keeps the steps of this one. -/
theorem Justified.mono {d e : Derivation} {number : Nat} {command : Command} {step : Step}
    (justified : Justified d p number command step)
    (kept : ∀ {number step}, d.get? number = some step → e.get? number = some step) :
    Justified e p number command step := by
  cases justified with
  | input member => exact .input member
  | resolvent less later atFirst atSecond resolved =>
    exact .resolvent less later (kept atFirst) (kept atSecond) resolved

/-- A clause after inputs was there before, or it is one of them. -/
theorem eq_or_input_of_foldl_addInput {clauses : List Clause} {number : Nat} {step : Step}
    (located : (clauses.foldl addInput p).derivation.get? number = some step) :
    p.derivation.get? number = some step ∨
      ∃ clause ∈ clauses, step = ⟨number, clause.factor p.hypothesis, none⟩ := by
  induction clauses generalizing p with
  | nil => exact .inl located
  | cons clause rest ih =>
    rcases ih located with before | ⟨other, member, rfl⟩
    · obtain ⟨-, same⟩ | same := p.addInput_cases clause
      · exact .inl (same ▸ before)
      · rw [same, Derivation.get?_insert] at before
        split at before
        · exact .inr ⟨clause, List.mem_cons_self, (Option.some.inj before).symm⟩
        · exact .inl before
    · rw [hypothesis_addInput]
      exact .inr ⟨other, List.mem_cons_of_mem clause member, rfl⟩

/-- A clause after a command was there before, or the command justifies it. -/
theorem eq_or_justified_of_perform {command : Command} {number : Nat} {step : Step}
    (located : (p.perform command).derivation.get? number = some step) :
    p.derivation.get? number = some step ∨
      Justified (p.perform command).derivation p number command step := by
  have entered : ∀ start : Prover, start.derivation = p.derivation →
      p.perform command = command.clauses.foldl addInput start →
      p.derivation.get? number = some step ∨
        Justified (p.perform command).derivation p number command step := by
    intro start same performed
    have fixed : start.hypothesis = (p.perform command).hypothesis := by
      rw [performed, hypothesis_foldl_addInput]
    rw [performed] at located
    rcases eq_or_input_of_foldl_addInput located with old | ⟨clause, member, rfl⟩
    · exact .inl (same ▸ old)
    · rw [fixed]
      exact .inr (.input member)
  cases command with
  | knowledge form => exact entered p rfl rfl
  | negatedHypothesis form => exact entered (p.fixing form) rfl rfl
  | search interrupt =>
    have continues := (p.search_finished interrupt).continues
    obtain old | ⟨_, _, _, _, _, less, later, atFirst, atSecond, resolved, rfl⟩ :=
      continues.derivation.eq_or_resolvent located
    · exact .inl old
    · exact .inr (.resolvent less later atFirst atSecond resolved)

/-- The numbers that a command hands out are those after the ones handed out before. -/
theorem mem_numbersBetween_of_perform {command : Command} {number : Nat} {step : Step}
    (located : (p.perform command).derivation.get? number = some step)
    (new : p.derivation.get? number ≠ some step) :
    number ∈ numbersBetween p.derivation.size (p.perform command).derivation.size := by
  obtain ⟨positive, inside⟩ := Derivation.exists_get?_iff.1 ⟨step, located⟩
  refine mem_numbersBetween.2 ⟨?_, inside⟩
  by_contra early
  obtain ⟨other, before⟩ := Derivation.exists_get?_iff.2 ⟨positive, Nat.le_of_not_lt early⟩
  obtain rfl := Option.some.inj ((get?_perform before).symm.trans located)
  exact new before

/-- Every clause after commands was there before, or one of the commands justifies it. -/
theorem eq_or_justified_of_run {commands : List Command} {number : Nat} {step : Step}
    (located : (p.run commands).derivation.get? number = some step) :
    p.derivation.get? number = some step ∨
      ∃ before command after, commands = before ++ command :: after ∧
        number ∈ numbersBetween (p.run before).derivation.size
          ((p.run before).perform command).derivation.size ∧
        Justified (p.run commands).derivation (p.run before) number command step := by
  induction commands generalizing p with
  | nil => exact .inl located
  | cons command rest ih =>
    rcases ih (p := p.perform command) located with now | ⟨before, later, after, rfl, rest⟩
    · by_cases old : p.derivation.get? number = some step
      · exact .inl old
      · have justified := (eq_or_justified_of_perform now).resolve_left old
        exact .inr ⟨[], command, rest, rfl, mem_numbersBetween_of_perform now old,
          justified.mono (get?_run rest)⟩
    · exact .inr ⟨command :: before, later, after, rfl, rest⟩

end Prover

/-! ### Calls -/

/-- What can be asked of a prover from outside. -/
inductive Call where
  /-- To take over a statement that is known. -/
  | knowledge (form : ClausalForm)
  /-- To take over the negated hypothesis. -/
  | negatedHypothesis (form : ClausalForm)
  /-- To search for the empty clause. -/
  | search (interrupt : Interrupt)
  /-- To search for a proof of a statement from known ones. -/
  | prove (interrupt : Interrupt) (session : Session) (knowledge : List Statement) (goal : Statement)

/-- The command enters a negated hypothesis. -/
def Command.entersHypothesis : Command → Bool
  | negatedHypothesis _ => true
  | _ => false

/-- The commands that a call comes to. A search for a proof begins once the negated goal has been
entered, which it is unless one of the statements has no clauses. -/
def Call.commands : Call → List Command
  | knowledge form => [.knowledge form]
  | negatedHypothesis form => [.negatedHypothesis form]
  | search interrupt => [.search interrupt]
  | prove interrupt session known goal =>
    let given := Prover.problem session goal known
    if given.any Command.entersHypothesis then given ++ [.search interrupt] else given

namespace Prover

variable {p : Prover}

/-- Answers a call; only searches have an outcome. -/
def respond (prover : Prover) : Call → Option Outcome × Prover
  | .knowledge form => (none, prover.addKnowledge form)
  | .negatedHypothesis form => (none, prover.addNegatedHypothesis form)
  | .search interrupt => (some (prover.search interrupt).1, (prover.search interrupt).2)
  | .prove interrupt session knowledge goal =>
    let result := prover.prove interrupt session knowledge goal
    (result.1.toOption, result.2.2)

/-- Answers calls one after the other. -/
def follow (prover : Prover) (calls : List Call) : Prover :=
  calls.foldl (fun prover call => (prover.respond call).2) prover

/-- A search for a proof follows the commands of its problem, and then it searches unless a
statement has no clauses. -/
theorem prove_cases (p : Prover) (interrupt : Interrupt) (session : Session)
    (knowledge : List Statement) (goal : Statement) :
    (∃ cause next, p.prove interrupt session knowledge goal =
        (.error cause, next, p.run (problem session goal knowledge)) ∧
      (problem session goal knowledge).any Command.entersHypothesis = false) ∨
    ∃ outcome next last, p.prove interrupt session knowledge goal = (.ok outcome, next, last) ∧
      (problem session goal knowledge).any Command.entersHypothesis = true := by
  induction knowledge generalizing p session with
  | nil =>
    unfold prove addStatements problem
    rcases read : goal.negatedClauses session with ⟨cause | form, after⟩
    · exact .inl ⟨cause, after, by simp only [read]; rfl, rfl⟩
    · exact .inr ⟨_, _, _, by simp only [read]; rfl, rfl⟩
  | cons statement rest ih =>
    rw [prove_cons]
    unfold problem
    rcases statement.clauses session with ⟨cause | form, after⟩
    · exact .inl ⟨cause, after, rfl, rfl⟩
    · exact ih (p.addKnowledge form) after

/-- Commands are performed one after the other. -/
theorem run_append (p : Prover) (commands more : List Command) :
    p.run (commands ++ more) = (p.run commands).run more := List.foldl_append

/-- A call is answered by its commands. -/
theorem respond_eq_run (p : Prover) (call : Call) : (p.respond call).2 = p.run call.commands := by
  cases call with
  | prove interrupt session known goal =>
    change (p.prove interrupt session known goal).2.2 = p.run (if _ then _ else _)
    obtain ⟨cause, next, ended, none⟩ | ⟨outcome, next, last, ended, entered⟩ :=
      p.prove_cases interrupt session known goal
    · rw [ended, if_neg (Bool.not_eq_true _ ▸ none)]
    · have searched := search_of_prove ended
      rw [ended, if_pos entered, run_append]
      exact (congrArg Prod.snd searched).symm
  | _ => rfl

/-- Calls come to the commands of each of them in turn. -/
theorem follow_eq_run (p : Prover) (calls : List Call) :
    p.follow calls = p.run (calls.flatMap Call.commands) := by
  induction calls generalizing p with
  | nil => rfl
  | cons call rest ih =>
    rw [List.flatMap_cons, run_append, ← respond_eq_run]
    exact ih _

/-- Calls leave the clauses that are held where they are. -/
theorem get?_follow (calls : List Call) {number : Nat} {step : Step}
    (located : p.derivation.get? number = some step) :
    (p.follow calls).derivation.get? number = some step := by
  rw [follow_eq_run]
  exact get?_run _ located

/-- Whatever a new prover enters is given its place as number. -/
theorem numbered_follow (budget : Budget) (calls : List Call) :
    ((new budget).follow calls).derivation.Numbered := by
  rw [follow_eq_run]
  exact numbered_run (numbered_new budget) _

/-- A proof that is the outcome of a call gives the number of an empty clause. -/
theorem isEmpty_of_respond {call : Call} {outcome : Outcome} {number : Nat}
    (answered : (p.respond call).1 = some outcome) (proved : outcome.verdict = .proof number) :
    ∃ place step, (p.respond call).2.derivation.get? place = some step ∧ step.number = number ∧
      step.clause.isEmpty := by
  cases call with
  | knowledge form => cases answered
  | negatedHypothesis form => cases answered
  | search interrupt =>
    obtain rfl := Option.some.inj answered
    exact (p.search_finished interrupt).proof number proved
  | prove interrupt session known goal =>
    change (p.prove interrupt session known goal).1.toOption = some outcome at answered
    change ∃ place step,
      (p.prove interrupt session known goal).2.2.derivation.get? place = some step ∧ _
    rcases ended : p.prove interrupt session known goal with ⟨cause | result, next, last⟩
    · rw [ended] at answered
      cases answered
    · rw [ended] at answered
      obtain rfl := Option.some.inj answered
      have finished := (p.run (problem session goal known)).search_finished interrupt
      rw [search_of_prove ended] at finished
      exact finished.proof number proved

end Prover

namespace Derivation

/-- The steps are those that the numbers from 1 on stand for. -/
theorem getElem?_toList_steps (d : Derivation) (index : Nat) :
    d.steps.toList[index]? = d.get? (index + 1) := Array.getElem?_toList

/-- The numbers of steps that stand in their places go from 1 up without a gap. -/
theorem Numbered.map_number {d : Derivation} (numbered : d.Numbered) :
    d.steps.toList.map Step.number = List.range' 1 d.size := by
  refine List.ext_getElem (by simp [size]) fun index inside _ => ?_
  have located : d.get? (index + 1) = some (d.steps.toList.get ⟨index, by simpa using inside⟩) := by
    rw [← getElem?_toList_steps]
    exact List.getElem?_eq_getElem _
  rw [List.getElem_map, List.getElem_range']
  exact (numbered _ _ located).trans (by omega)

/-- A derivation in which the steps of another one have stayed begins with them. -/
theorem steps_grow {d e : Derivation}
    (kept : ∀ {number step}, d.get? number = some step → e.get? number = some step) :
    d.steps.toList <+: e.steps.toList := by
  refine List.prefix_iff_getElem?.2 fun index inside => ?_
  have located := List.getElem?_eq_getElem inside
  rw [getElem?_toList_steps] at located ⊢
  exact kept located

end Derivation

namespace Prover

/-- What a new prover owes its clauses to after calls. -/
structure Accounted (budget : Budget) (calls : List Call) (p : Prover) : Prop where
  /-- The numbers of the steps go from 1 up in order. -/
  numbers : p.derivation.steps.toList.map Step.number = List.range' 1 p.derivation.size
  /-- The steps after some of the calls come first and have not changed. -/
  unchanged : ∀ before after, calls = before ++ after →
    ((new budget).follow before).derivation.steps.toList <+: p.derivation.steps.toList
  /-- Every step was entered by one of the commands that the calls come to. -/
  justified : ∀ number step, p.derivation.get? number = some step →
    ∃ before command after, calls.flatMap Call.commands = before ++ command :: after ∧
      number ∈ numbersBetween ((new budget).run before).derivation.size
        (((new budget).run before).perform command).derivation.size ∧
      Justified p.derivation ((new budget).run before) number command step
  /-- No two clauses are equal. -/
  distinct : p.derivation.Distinct
  /-- A proof that was the outcome of a call names an empty clause. -/
  proof : ∀ before call after, calls = before ++ call :: after → ∀ outcome number,
    (((new budget).follow before).respond call).1 = some outcome →
      outcome.verdict = .proof number →
        ∃ step, p.derivation.get? number = some step ∧ step.clause.isEmpty

/-- Whatever a new prover is asked to do, its clauses are accounted for. -/
theorem accounted_follow (budget : Budget) (calls : List Call) :
    Accounted budget calls ((new budget).follow calls) where
  numbers := (numbered_follow budget calls).map_number
  unchanged before after same := by
    rw [same]
    unfold follow
    rw [List.foldl_append]
    exact Derivation.steps_grow (get?_follow after)
  justified number step located := by
    rw [follow_eq_run] at located ⊢
    refine (eq_or_justified_of_run located).resolve_left fun held => ?_
    rw [get?_new] at held
    cases held
  distinct := by
    rw [follow_eq_run]
    refine distinct_run (fun i j first second _ held => ?_) _
    rw [get?_new] at held
    cases held
  proof before call after same outcome number answered proved := by
    obtain ⟨place, step, located, named, empty⟩ := isEmpty_of_respond answered proved
    have stays : ((new budget).follow calls).derivation.get? place = some step := by
      rw [same]
      unfold follow
      rw [List.foldl_append]
      exact get?_follow after located
    obtain rfl : place = number := (numbered_follow budget calls place step stays).symm.trans named
    exact ⟨step, stays, empty⟩

/-- The search for a proof of `EXISTS z, P(w, z)` from `FORALL x, EXISTS y, P(x, y)`, and a second
search after it. -/
def aboveCalls : List Call :=
  [.prove Interrupt.never aboveSession [.unbounded] someAbove, .search Interrupt.never]

/-- After a proof and a second search every clause of the prover is accounted for. -/
theorem accounted_aboveProver :
    (new {}).follow aboveCalls = aboveProver ∧ Accounted {} aboveCalls aboveProver := by
  have followed : (new {}).follow aboveCalls = aboveProver := by
    with_unfolding_all rfl
  have accounted := accounted_follow {} aboveCalls
  rw [followed] at accounted
  exact ⟨followed, accounted⟩

end Prover

end Refute
