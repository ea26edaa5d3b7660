import Refute.CommandLine
import Refute.Proofs.Counters
import Refute.Proofs.Entailment
import Refute.Proofs.Equivariance

/-!
# Independence from counters

What a search finds out does not depend on where the counters of its session stand. From any two
sessions a prover comes to the same outcome after the same work, and one renumbering takes the first
derivation to the second. A run of a problem therefore says of a goal what a search for this goal
alone would say: neither the goals before it nor the clauses printed first can change that.
-/

namespace Refute

/-! ### Proofs from later counters -/

namespace Prover

variable {system skolem : Nat} {earlier later : Session} {knowledge : List Statement}
  {goal : Statement}

/-- From later counters on, a prover that holds the same clauses under later numbers comes to the
same outcome and holds the same clauses under later numbers again. -/
theorem exists_prove_later (interrupt : Interrupt) (prover : Prover)
    (formulas : ∀ statement ∈ goal :: knowledge,
      statement.formula.Formula ∧ statement.formula.SkolemFree)
    (stands : Session.Later system skolem earlier later) :
    ∃ outcome afterEarlier afterLater last,
      prover.prove interrupt earlier knowledge goal = (.ok outcome, afterEarlier, last) ∧
      (prover.renumber (.shift system skolem)).prove interrupt later knowledge goal =
        (.ok outcome, afterLater, last.renumber (.shift system skolem)) := by
  induction knowledge generalizing prover earlier later with
  | nil =>
    obtain ⟨formula, skolemFree⟩ := formulas goal List.mem_cons_self
    obtain ⟨clauses, first, second⟩ := Expr.exists_clauses_later formula.negate
      ((Expr.everywhere_signed _).2 skolemFree) stands
    have found := search_renumber (.shift system skolem) interrupt
      (prover.addNegatedHypothesis ⟨clauses⟩)
    rw [← addNegatedHypothesis_renumber] at found
    refine ⟨((prover.addNegatedHypothesis ⟨clauses⟩).search interrupt).1,
      (goal.formula.negate.toCnf earlier).2, (goal.formula.negate.toCnf later).2,
      ((prover.addNegatedHypothesis ⟨clauses⟩).search interrupt).2, ?_, ?_⟩
    · simp only [prove, addStatements, Statement.negatedClauses, first]
    · simp only [prove, addStatements, Statement.negatedClauses, second, found]
  | cons statement rest ih =>
    obtain ⟨formula, skolemFree⟩ := formulas statement (by simp)
    have others : ∀ other ∈ goal :: rest, other.formula.Formula ∧ other.formula.SkolemFree := by
      intro other member
      rcases List.mem_cons.1 member with rfl | member
      · exact formulas other List.mem_cons_self
      · exact formulas other (List.mem_cons_of_mem goal (List.mem_cons_of_mem statement member))
    obtain ⟨clauses, first, second⟩ := Expr.exists_clauses_later formula skolemFree stands
    have run := ih (prover.addKnowledge ⟨clauses⟩) others
      (Expr.toCnf_later formula skolemFree stands).2
    rw [← addKnowledge_renumber] at run
    rw [prove_cons, prove_cons]
    simp only [Statement.clauses, Statement.cnfSymbols, first, second]
    exact run

end Prover

/-! ### One renumbering between two sessions -/

namespace Renumbering

/-- Numbers of a block are moved to where another block starts, all others behind its end. -/
def moveBlock (start target length : Nat) : Nat ↪ Nat where
  toFun i := if start ≤ i ∧ i < start + length then i - start + target else i + target + length
  inj' := by
    intro i j same
    dsimp only at same
    split_ifs at same <;> omega

/-- A number of the block keeps its distance from the start. -/
theorem moveBlock_add {start target length i : Nat} (inside : i < length) :
    moveBlock start target length (i + start) = i + target := by
  have block : start ≤ i + start ∧ i + start < start + length := by omega
  change (if start ≤ i + start ∧ i + start < start + length then i + start - start + target
    else i + start + target + length) = i + target
  rw [if_pos block]
  omega

/-- The second renumbering takes what the first one makes of numbers below a bound to what the third
one makes of them. -/
def Carries (bound : Nat) (ρ τ σ : Renumbering) : Prop :=
  ∀ i < bound, τ.system (ρ.system i) = σ.system i ∧ τ.skolem (ρ.skolem i) = σ.skolem i

/-- What is carried below a bound is carried below smaller ones. -/
theorem Carries.mono {low high : Nat} {ρ τ σ : Renumbering} (carries : Carries high ρ τ σ)
    (le : low ≤ high) : Carries low ρ τ σ :=
  fun i inside => carries i (inside.trans_le le)

/-- Only numbers below some bound occur: where one renumbering carries a second to a third for them,
it takes the one result to the other. -/
def Finitary {α : Type} (renumber : Renumbering → α → α) (a : α) : Prop :=
  ∃ bound, ∀ ρ τ σ, Carries bound ρ τ σ → renumber τ (renumber ρ a) = renumber σ a

/-- A list has finitely many numbers in it if its members have. -/
theorem Finitary.list {α : Type} {renumber : Renumbering → α → α} {as : List α}
    (each : ∀ a ∈ as, Finitary renumber a) : Finitary (fun ρ => List.map (renumber ρ)) as := by
  induction as with
  | nil => exact ⟨0, fun _ _ _ _ => rfl⟩
  | cons a as ih =>
    rw [List.forall_mem_cons] at each
    obtain ⟨first, same⟩ := each.1
    obtain ⟨others, sameOthers⟩ := ih each.2
    refine ⟨max first others, fun ρ τ σ carries => ?_⟩
    simp only [List.map_cons, same ρ τ σ (carries.mono (le_max_left first others)),
      sameOthers ρ τ σ (carries.mono (le_max_right first others))]

end Renumbering

open Renumbering

/-- A variable has one number. -/
theorem Variable.finitary (v : Variable) : Finitary renumber v := by
  refine ⟨v.id + 1, fun ρ τ σ carries => ?_⟩
  obtain ⟨name, id, system, universal⟩ := v
  have carried := (carries id id.lt_succ_self).1
  cases system <;> simp [renumber, carried]

/-- A Skolem function has finitely many numbers in it. -/
theorem Skolem.finitary (s : Skolem) : Finitary renumber s := by
  obtain ⟨bound, same⟩ := Finitary.list fun v (_ : v ∈ s.arguments) => v.finitary
  refine ⟨max (s.id + 1) bound, fun ρ τ σ carries => ?_⟩
  have carried := (carries s.id (by omega)).2
  simp only [renumber, carried, same ρ τ σ (carries.mono (le_max_right _ _))]

/-- A symbol has finitely many numbers in it. -/
theorem Symbol.finitary (symbol : Symbol) : Finitary renumber symbol := by
  cases symbol with
  | var v =>
    obtain ⟨bound, same⟩ := v.finitary
    exact ⟨bound, fun ρ τ σ carries => congrArg var (same ρ τ σ carries)⟩
  | skolem s =>
    obtain ⟨bound, same⟩ := s.finitary
    exact ⟨bound, fun ρ τ σ carries => congrArg skolem (same ρ τ σ carries)⟩
  | binder b =>
    obtain ⟨bound, same⟩ := Finitary.list fun v (_ : v ∈ b.bound) => v.finitary
    exact ⟨bound, fun ρ τ σ carries => congrArg (fun bound => binder { b with bound })
      (same ρ τ σ carries)⟩
  | _ => exact ⟨0, fun _ _ _ _ => rfl⟩

/-- An expression has finitely many numbers in it. -/
theorem Expr.finitary (e : Expr) : Finitary renumber e := by
  induction e using Expr.induction with
  | node head negated args ih =>
    obtain ⟨root, same⟩ := head.finitary
    obtain ⟨inside, sameArgs⟩ := Finitary.list ih
    refine ⟨max root inside, fun ρ τ σ carries => ?_⟩
    simp only [renumber_mk, same ρ τ σ (carries.mono (le_max_left root inside)),
      sameArgs ρ τ σ (carries.mono (le_max_right root inside))]

/-- A clause has finitely many numbers in it. -/
theorem Clause.finitary (clause : Clause) : Finitary renumber clause := by
  obtain ⟨bound, same⟩ := Finitary.list fun literal (_ : literal ∈ clause.literals) => literal.finitary
  exact ⟨bound, fun ρ τ σ carries => congrArg mk (same ρ τ σ carries)⟩

/-- A step of a derivation has finitely many numbers in it. -/
theorem Step.finitary (step : Step) : Finitary renumber step := by
  obtain ⟨bound, same⟩ := step.clause.finitary
  exact ⟨bound, fun ρ τ σ carries => congrArg (mk step.number · step.parents) (same ρ τ σ carries)⟩

/-- A derivation has finitely many numbers in it. -/
theorem Derivation.finitary (d : Derivation) : Finitary renumber d := by
  obtain ⟨bound, same⟩ := Finitary.list fun step (_ : step ∈ d.steps.toList) => step.finitary
  refine ⟨bound, fun ρ τ σ carries => congrArg mk (Array.ext' ?_)⟩
  simp only [renumber, Array.toList_map]
  exact same ρ τ σ carries

/-- A prover has finitely many numbers in it. -/
theorem Prover.finitary (prover : Prover) : Finitary renumber prover := by
  obtain ⟨held, same⟩ := prover.derivation.finitary
  obtain ⟨fixed, sameFixed⟩ := Finitary.list fun v (_ : v ∈ prover.hypothesis) => v.finitary
  refine ⟨max held fixed, fun ρ τ σ carries => ?_⟩
  simp only [renumber, same ρ τ σ (carries.mono (le_max_left held fixed)),
    sameFixed ρ τ σ (carries.mono (le_max_right held fixed))]

/-- What is held under later numbers can be renumbered to what is held under other later numbers. -/
theorem Prover.exists_renumber_shift (prover : Prover) (system skolem otherSystem otherSkolem : Nat) :
    ∃ ρ, (prover.renumber (.shift system skolem)).renumber ρ =
      prover.renumber (.shift otherSystem otherSkolem) := by
  obtain ⟨bound, same⟩ := prover.finitary
  refine ⟨⟨moveBlock system otherSystem bound, moveBlock skolem otherSkolem bound⟩, ?_⟩
  exact same _ _ _ fun i inside => ⟨moveBlock_add inside, moveBlock_add inside⟩

/-! ### Any two sessions -/

namespace Statement

/-- The statement was read, in whatever session. -/
def IsRead (statement : Statement) : Prop :=
  ∃ before text after, parse before text = (.ok statement, after)

end Statement

namespace Prover

variable {premises : List Statement} {goal : Statement}

/-- A new prover holds nothing to be renumbered. -/
theorem new_renumber (ρ : Renumbering) (budget : Budget) : (new budget).renumber ρ = new budget := by
  simp [renumber, new, Derivation.renumber, Derivation.empty]

/-- Statements that were read have a proof search with one outcome in all sessions, and its
derivations differ in numbers only. -/
theorem exists_prove (budget : Budget) (interrupt : Interrupt)
    (read : ∀ statement ∈ goal :: premises, statement.IsRead) :
    ∃ (outcome : Outcome) (last : Prover), ∀ session, ∃ after,
      (new budget).prove interrupt session premises goal =
        (.ok outcome, after, last.renumber (.shift session.nextSystem session.nextSkolem)) := by
  have formulas : ∀ statement ∈ goal :: premises,
      statement.formula.Formula ∧ statement.formula.SkolemFree := by
    intro statement member
    obtain ⟨before, text, after, parsed⟩ := read statement member
    exact Statement.formula_of_parse parsed
  have started (session : Session) :
      Session.Later session.nextSystem session.nextSkolem .empty session :=
    ⟨(Nat.zero_add _).symm, (Nat.zero_add _).symm⟩
  obtain ⟨outcome, _, _, last, first, _⟩ :=
    exists_prove_later interrupt (new budget) formulas (started .empty)
  refine ⟨outcome, last, fun session => ?_⟩
  obtain ⟨other, afterFirst, after, otherLast, again, run⟩ :=
    exists_prove_later interrupt (new budget) formulas (started session)
  have same := first.symm.trans again
  simp only [Prod.mk.injEq, Except.ok.injEq] at same
  obtain ⟨rfl, -, rfl⟩ := same
  rw [new_renumber] at run
  exact ⟨after, run⟩

end Prover

/-! ### Runs of problems -/

namespace Problem

/-- All premises and goals were read. -/
structure IsRead (problem : Problem) : Prop where
  /-- The premises were read. -/
  premises : ∀ statement ∈ problem.premises, statement.IsRead
  /-- The goals were read. -/
  goals : ∀ statement ∈ problem.goals, statement.IsRead

variable {problem next : Problem} {text : List Char}

/-- A statement of a problem was read, and reading it adds neither a premise nor a goal. -/
theorem isRead_of_readStatement {keyword : String} {statement : Statement}
    (read : problem.readStatement keyword text = .ok (statement, next)) :
    statement.IsRead ∧ next.premises = problem.premises ∧ next.goals = problem.goals := by
  unfold readStatement at read
  split at read
  · cases read
  · split at read
    · cases read
    · rename_i found session parsed
      injection read with same
      injection same with sameStatement sameProblem
      subst sameStatement
      subst sameProblem
      exact ⟨⟨_, _, _, parsed⟩, rfl, rfl⟩

/-- A constant adds no statement. -/
theorem IsRead.readConstant (isRead : problem.IsRead) (done : problem.readConstant text = .ok next) :
    next.IsRead := by
  have declared {name : List Char} {session : Session}
      (done : (problem.requireNew name >>= fun _ => .ok { problem with session }) = .ok next) :
      next.IsRead := by
    obtain ⟨-, -, same⟩ := bind_eq_ok_iff.1 done
    injection same with same
    exact same ▸ ⟨isRead.premises, isRead.goals⟩
  unfold Problem.readConstant at done
  split at done
  · exact declared done
  · split at done
    · cases done
    · exact declared done

/-- A directive adds only statements that were read. -/
theorem IsRead.directive {keyword : String} (isRead : problem.IsRead)
    (done : problem.directive keyword text = .ok next) : next.IsRead := by
  unfold Problem.directive at done
  split at done
  · obtain ⟨⟨statement, middle⟩, read, same⟩ := bind_eq_ok_iff.1 done
    obtain ⟨new, samePremises, sameGoals⟩ := isRead_of_readStatement read
    injection same with same
    subst same
    have before := isRead.premises
    rw [← samePremises] at before
    exact ⟨List.forall_mem_append.2 ⟨before, List.forall_mem_singleton.2 new⟩,
      sameGoals ▸ isRead.goals⟩
  · obtain ⟨⟨statement, middle⟩, read, same⟩ := bind_eq_ok_iff.1 done
    obtain ⟨new, samePremises, sameGoals⟩ := isRead_of_readStatement read
    injection same with same
    subst same
    have before := isRead.goals
    rw [← sameGoals] at before
    exact ⟨samePremises ▸ isRead.premises,
      List.forall_mem_append.2 ⟨before, List.forall_mem_singleton.2 new⟩⟩
  · exact isRead.readConstant done
  · obtain ⟨read, -, same⟩ := bind_eq_ok_iff.1 done
    injection same with same
    exact same ▸ ⟨isRead.premises, isRead.goals⟩
  · obtain ⟨read, -, same⟩ := bind_eq_ok_iff.1 done
    injection same with same
    exact same ▸ ⟨isRead.premises, isRead.goals⟩
  · split at done
    · cases done
    · injection done with same
      exact same ▸ ⟨isRead.premises, isRead.goals⟩
  · cases done

/-- Every statement of a problem was read. -/
theorem isRead_of_parse {text : String} (parsed : parse text = .ok problem) : problem.IsRead := by
  have start : IsRead {} :=
    ⟨fun _ => (absurd · List.not_mem_nil), fun _ => (absurd · List.not_mem_nil)⟩
  refine foldlM_invariant (fun before line after isRead _ done => ?_) start parsed
  unfold readLine at done
  split at done
  · injection done with same
    exact same ▸ isRead
  · split at done
    rename_i keyword rest _
    cases directed : before.directive (String.ofList keyword) rest with
    | error fault =>
      rw [directed] at done
      cases done
    | ok found =>
      rw [directed] at done
      injection done with same
      exact isRead.directive (same ▸ directed)

end Problem

namespace Report

/-- What is printed about a goal: its outcome, and the derivation behind a proof if it is asked
for. -/
def goalLines (showProof : Bool) (goal : Statement) (outcome : Outcome) (prover : Prover) :
    List String :=
  ("prove " ++ goal.render ++ ": " ++ outcome.render) ::
    if showProof then proofLines prover outcome else []

/-- The lines are those of a goal whose proof search, in some session, comes to an outcome. -/
def Tells (budget : Budget) (interrupt : Interrupt) (premises : List Statement) (showProof : Bool)
    (outcome : Statement → Outcome) (goal : Statement) (lines : List String) : Prop :=
  ∃ session after prover,
    (Prover.new budget).prove interrupt session premises goal = (.ok (outcome goal), after, prover) ∧
      lines = goalLines showProof goal (outcome goal) prover

variable {budget : Budget} {interrupt : Interrupt} {premises goals : List Statement}
  {outcome : Statement → Outcome}

/-- A goal with an outcome adds its lines and its code to the report. -/
theorem proveAll_cons {showProof : Bool} {session after : Session} {goal : Statement}
    {result : Outcome} {prover : Prover}
    (proved : (Prover.new budget).prove interrupt session premises goal = (.ok result, after, prover))
    (report : Report) :
    proveAll interrupt showProof budget premises session report (goal :: goals) =
      proveAll interrupt showProof budget premises after
        { report with
          code := max report.code (codeOf result)
          output := report.output ++ goalLines showProof goal result prover } goals := by
  rw [proveAll]
  simp only [proved, goalLines]

/-- If every goal has one outcome in all sessions, a run tells of each goal this outcome. -/
theorem exists_lines_proveAll (showProof : Bool)
    (found : ∀ goal ∈ goals, ∀ session, ∃ after prover,
      (Prover.new budget).prove interrupt session premises goal = (.ok (outcome goal), after, prover))
    (session : Session) (report : Report) :
    ∃ lines,
      List.Forall₂ (Tells budget interrupt premises showProof outcome) goals lines ∧
      proveAll interrupt showProof budget premises session report goals =
        { report with
          code := goals.foldl (fun code goal => max code (codeOf (outcome goal))) report.code
          output := report.output ++ lines.flatten } := by
  induction goals generalizing session report with
  | nil => exact ⟨[], .nil, by simp [proveAll]⟩
  | cons goal rest ih =>
    rw [List.forall_mem_cons] at found
    obtain ⟨after, prover, proved⟩ := found.1 session
    obtain ⟨lines, told, run⟩ := ih found.2 after
      { report with
        code := max report.code (codeOf (outcome goal))
        output := report.output ++ goalLines showProof goal (outcome goal) prover }
    refine ⟨_ :: lines, .cons ⟨session, after, prover, proved, rfl⟩ told, ?_⟩
    rw [proveAll_cons proved, run]
    simp

/-- Printing clauses first changes neither the code nor the errors. -/
theorem showStatement_kept (label : String) (state : Session × Report) (statement : Statement) :
    (showStatement label state statement).2.code = state.2.code ∧
      (showStatement label state statement).2.errors = state.2.errors := by
  unfold showStatement
  split
  split <;> exact ⟨rfl, rfl⟩

/-- Printing the statements changes neither the exit code nor the errors. -/
theorem showStatements_kept (problem : Problem) (report : Report) :
    (showStatements problem report).2.code = report.code ∧
      (showStatements problem report).2.errors = report.errors := by
  have all (label : String) (statements : List Statement) (state : Session × Report) :
      (statements.foldl (showStatement label) state).2.code = state.2.code ∧
        (statements.foldl (showStatement label) state).2.errors = state.2.errors := by
    induction statements generalizing state with
    | nil => exact ⟨rfl, rfl⟩
    | cons statement rest ih =>
      have first := showStatement_kept label state statement
      have others := ih (showStatement label state statement)
      exact ⟨others.1.trans first.1, others.2.trans first.2⟩
  have premises := all "axiom" problem.premises (problem.session, report)
  have goals := all "goal" problem.goals
    (problem.premises.foldl (showStatement "axiom") (problem.session, report))
  exact ⟨goals.1.trans premises.1, goals.2.trans premises.2⟩

/-- What stands above the goals depends on the problem and on whether its clauses are asked for; the
goals are proved after it, in some session. -/
theorem exists_shown_ofProblem (problem : Problem) :
    ∃ shown : Bool → List String, ∀ (interrupt : Interrupt) (options : Options) (budget : Budget),
      ∃ session, ofProblem interrupt options problem budget =
        proveAll interrupt options.showProof budget problem.premises session
          ⟨0, shown options.showClauses, []⟩ problem.goals := by
  let heading : Report :=
    { code := 0
      output := ["fol-prover 0.1.0", "", "Axioms: " ++ toString problem.premises.length,
        "Goals: " ++ toString problem.goals.length, ""]
      errors := [] }
  refine ⟨fun showClauses =>
    if showClauses then (showStatements problem heading).2.output else heading.output,
    fun interrupt options budget => ?_⟩
  cases asked : options.showClauses with
  | false => exact ⟨problem.session, by simp [ofProblem, asked, heading]⟩
  | true =>
    obtain ⟨code, errors⟩ := showStatements_kept problem heading
    have printed : (showStatements problem heading).2 =
        ⟨0, (showStatements problem heading).2.output, []⟩ := by
      rw [← show heading.code = 0 from rfl, ← show heading.errors = [] from rfl, ← code, ← errors]
    refine ⟨(showStatements problem heading).1, ?_⟩
    simp only [ofProblem, asked, if_true]
    rw [← printed]

end Report

/-- Neither the counters of a session nor what a run did before change what a prover finds. From any
two sessions, statements that were read lead to the same outcome, and one renumbering takes the
first derivation with its fixed variables to the second. So in a run of a problem every goal has an
outcome of its own: the run tells it of this goal after whichever goals and clauses come first, and
exits with the code of the worst one. -/
theorem exists_renumbering_prove_and_run :
    (∀ (budget : Budget) (interrupt : Interrupt) (premises : List Statement) (goal : Statement),
      (∀ statement ∈ goal :: premises, statement.IsRead) → ∀ first second : Session,
        ∃ (outcome : Outcome) (prover : Prover) (ρ : Renumbering) (afterFirst afterSecond : Session),
          (Prover.new budget).prove interrupt first premises goal = (.ok outcome, afterFirst, prover) ∧
          (Prover.new budget).prove interrupt second premises goal =
            (.ok outcome, afterSecond, prover.renumber ρ)) ∧
    ∀ (text : String) (problem : Problem), Problem.parse text = .ok problem →
      ∃ shown : Bool → List String, ∀ (budget : Budget) (interrupt : Interrupt),
        ∃ outcome : Statement → Outcome,
          (∀ goal ∈ problem.goals, ∀ session,
            ((Prover.new budget).prove interrupt session problem.premises goal).1 =
              .ok (outcome goal)) ∧
          ∀ options : Options, options.budget problem.settings = .ok budget →
            ∃ lines,
              List.Forall₂ (Report.Tells budget interrupt problem.premises options.showProof outcome)
                problem.goals lines ∧
              Report.run interrupt options text =
                ⟨problem.goals.foldl (fun code goal => max code (Report.codeOf (outcome goal))) 0,
                  shown options.showClauses ++ lines.flatten, []⟩ := by
  constructor
  · intro budget interrupt premises goal read first second
    obtain ⟨outcome, last, found⟩ := Prover.exists_prove budget interrupt read
    obtain ⟨afterFirst, foundFirst⟩ := found first
    obtain ⟨afterSecond, foundSecond⟩ := found second
    obtain ⟨ρ, same⟩ := last.exists_renumber_shift first.nextSystem first.nextSkolem
      second.nextSystem second.nextSkolem
    exact ⟨outcome, _, ρ, afterFirst, afterSecond, foundFirst, same ▸ foundSecond⟩
  · intro text problem parsed
    obtain ⟨shown, prints⟩ := Report.exists_shown_ofProblem problem
    refine ⟨shown, fun budget interrupt => ?_⟩
    have isRead := Problem.isRead_of_parse parsed
    have search (goal : Statement) (member : goal ∈ problem.goals) :=
      Prover.exists_prove budget interrupt
        (List.forall_mem_cons.2 ⟨isRead.goals goal member, isRead.premises⟩)
    have : Nonempty Prover := ⟨.new budget⟩
    have : Nonempty Outcome := ⟨(Prover.new budget).outcome .saturated⟩
    choose! outcome last found using search
    have everywhere (goal : Statement) (member : goal ∈ problem.goals) (session : Session) :
        ∃ after prover, (Prover.new budget).prove interrupt session problem.premises goal =
          (.ok (outcome goal), after, prover) := by
      obtain ⟨after, proved⟩ := found goal member session
      exact ⟨after, _, proved⟩
    refine ⟨outcome, fun goal member session => ?_, fun options limits => ?_⟩
    · obtain ⟨after, prover, proved⟩ := everywhere goal member session
      rw [proved]
    · obtain ⟨session, run⟩ := prints interrupt options budget
      obtain ⟨lines, told, ended⟩ := Report.exists_lines_proveAll options.showProof everywhere session
        ⟨0, shown options.showClauses, []⟩
      refine ⟨lines, told, ?_⟩
      unfold Report.run
      simp only [parsed, limits, run, ended]

/-- `P(w, w)`. -/
def selfAbove : Statement :=
  let w : Variable := ⟨"w", 4, false, false⟩
  let less : Symbol := .rel ⟨⟨"P", 2, none⟩⟩
  ⟨[.var w, .var w, less], .node less [.ofVariable w, .ofVariable w]⟩

/-- A problem file with a goal that follows and one that does not. -/
def aboveText : String :=
  "relation P(2)\naxiom FORALL x, EXISTS y, P(x, y)\nprove EXISTS z, P(w, z)\nprove P(w, w)\n"

/-- What the file says. -/
def aboveProblem : Problem where
  session := { Statement.lessSession with nextVariable := 5 }
  premises := [.unbounded]
  goals := [Prover.someAbove, selfAbove]

/-- The problem file is read. From all sessions its first goal is proved and its second one is
saturated without a proof, and a run of the file says so in its exit code. -/
theorem run_aboveText :
    Problem.parse aboveText = .ok aboveProblem ∧
      (∀ first second : Session,
        ∃ (outcome : Outcome) (prover : Prover) (ρ : Renumbering) (afterFirst afterSecond : Session),
          (Prover.new {}).prove Interrupt.never first [.unbounded] Prover.someAbove =
            (.ok outcome, afterFirst, prover) ∧
          (Prover.new {}).prove Interrupt.never second [.unbounded] Prover.someAbove =
            (.ok outcome, afterSecond, prover.renumber ρ)) ∧
      (∀ session,
        ((Prover.new {}).prove Interrupt.never session [.unbounded] Prover.someAbove).1 =
            .ok ⟨.proof 3, 1, 1, 3⟩ ∧
          ((Prover.new {}).prove Interrupt.never session [.unbounded] selfAbove).1 =
            .ok ⟨.saturated, 1, 0, 2⟩) ∧
      ∀ showClauses, (Report.run Interrupt.never { showClauses } aboveText).code = 4 := by
  have parsed : Problem.parse aboveText = .ok aboveProblem := rfl
  have known : Statement.parse Statement.lessSession "FORALL x, EXISTS y, P(x, y)" =
    (.ok .unbounded, { Statement.lessSession with nextVariable := 2 }) := rfl
  have asked : Statement.parse { Statement.lessSession with nextVariable := 2 } "EXISTS z, P(w, z)" =
    (.ok Prover.someAbove, Prover.aboveSession) := rfl
  have proved : ((Prover.new {}).prove Interrupt.never .empty [.unbounded] Prover.someAbove).1 =
      .ok ⟨.proof 3, 1, 1, 3⟩ := by
    with_unfolding_all rfl
  have refused : ((Prover.new {}).prove Interrupt.never .empty [.unbounded] selfAbove).1 =
      .ok ⟨.saturated, 1, 0, 2⟩ := by
    with_unfolding_all rfl
  obtain ⟨shown, runs⟩ := exists_renumbering_prove_and_run.2 aboveText aboveProblem parsed
  obtain ⟨outcome, found, run⟩ := runs {} Interrupt.never
  have first := found Prover.someAbove List.mem_cons_self
  have second := found selfAbove (List.mem_cons_of_mem _ List.mem_cons_self)
  have follows : outcome Prover.someAbove = ⟨.proof 3, 1, 1, 3⟩ :=
    Except.ok.inj ((first .empty).symm.trans proved)
  have fails : outcome selfAbove = ⟨.saturated, 1, 0, 2⟩ :=
    Except.ok.inj ((second .empty).symm.trans refused)
  rw [follows] at first
  rw [fails] at second
  refine ⟨parsed, exists_renumbering_prove_and_run.1 {} Interrupt.never [.unbounded] Prover.someAbove
    (List.forall_mem_cons.2 ⟨⟨_, _, _, asked⟩, List.forall_mem_singleton.2 ⟨_, _, _, known⟩⟩),
    fun session => ⟨first session, second session⟩, fun showClauses => ?_⟩
  obtain ⟨lines, -, ended⟩ := run { showClauses } rfl
  rw [ended]
  simp [aboveProblem, follows, fails, Report.codeOf]

end Refute
