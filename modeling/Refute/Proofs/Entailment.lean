import Refute.Proofs.NormalForm
import Refute.Proofs.Run

/-!
# Entailment

A proof of a goal from known statements shows that the goal is true wherever they are, if the
refutation behind it uses no other unifiers than substitutions. `Derivation.Follows` says so of a
clause: it comes from the clauses that were entered by factoring and resolution with such unifiers.

The condition is there for Skolem terms. Unification may bind one Skolem term to another, and then a
clause is derived that does not follow: from `EXISTS x, P(x)` the prover proves `FORALL y, P(y)`.
-/

namespace Refute

universe u

/-! ### What a prover is given -/

namespace Prover

/-- With a negated hypothesis its variables become fixed that are not universal. -/
theorem contains_hypothesis (p : Prover) {form : ClausalForm} {clause : Clause}
    (member : clause ∈ form.clauses) {literal : Expr} (inside : literal ∈ clause.literals)
    {v : Variable} (occurs : v ∈ literal.vars) (free : v.universal = false) :
    (p.perform (.negatedHypothesis form)).hypothesis.contains v := by
  change (form.clauses.foldl addInput (p.fixing form)).hypothesis.contains v
  rw [hypothesis_foldl_addInput]
  obtain ⟨w, listed, same⟩ := List.contains_iff_exists_mem_beq.1
    (contains_hypothesisVariables member inside occurs free)
  exact contains_foldl (fun v _ => Expr.subset_addVariable v) listed (Expr.contains_addVariable same) _

/-- The commands that take over known statements and the negation of a goal. -/
def problem (session : Session) (goal : Statement) : List Statement → List Command
  | [] =>
    match goal.negatedClauses session with
    | (.error _, _) => []
    | (.ok form, _) => [.negatedHypothesis form]
  | statement :: rest =>
    match statement.clauses session with
    | (.error _, _) => []
    | (.ok form, next) => .knowledge form :: problem next goal rest

/-- The first of the known statements is entered before the others, if it has clauses. -/
theorem prove_cons (p : Prover) (interrupt : Interrupt) (session : Session) (statement : Statement)
    (rest : List Statement) (goal : Statement) :
    p.prove interrupt session (statement :: rest) goal =
      match statement.clauses session with
      | (.error cause, next) => (.error cause, next, p)
      | (.ok form, next) => (p.addKnowledge form).prove interrupt next rest goal := by
  unfold prove
  rw [addStatements]
  rcases statement.clauses session with ⟨_ | form, next⟩ <;> rfl

/-- A proof is searched for after the commands of the problem. -/
theorem search_of_prove {p last : Prover} {interrupt : Interrupt} {session next : Session}
    {knowledge : List Statement} {goal : Statement} {outcome : Outcome}
    (ended : p.prove interrupt session knowledge goal = (.ok outcome, next, last)) :
    (p.run (problem session goal knowledge)).search interrupt = (outcome, last) := by
  induction knowledge generalizing p session with
  | nil =>
    unfold prove addStatements at ended
    unfold problem
    rcases read : goal.negatedClauses session with ⟨cause | form, after⟩
    · simp [read] at ended
    · simp only [read, Prod.mk.injEq, Except.ok.injEq] at ended
      exact Prod.ext ended.1 ended.2.2
  | cons statement rest ih =>
    rw [prove_cons] at ended
    unfold problem
    rcases read : statement.clauses session with ⟨cause | form, after⟩
    · simp [read] at ended
    · simp only [read] at ended
      exact ih ended

end Prover

/-! ### What is given is true with the right Skolem functions -/

namespace Structure

variable {D : Type u} {M : Structure D} {e : Expr} {session : Session} {ρ : String → D}

/-- In the literals of clauses variables stand alone, and Skolem functions have numbers below the
next one. -/
theorem firstOrder_and_skolems_lt (formula : e.Formula) (skolemFree : e.SkolemFree) {clause : Clause}
    (member : clause ∈ (e.toCnf session).1.conjuncts) {literal : Expr}
    (inside : literal ∈ clause.literals) :
    literal.FirstOrder ∧ literal.Everywhere fun head _ =>
      ∀ s, head = .skolem s → s.id < (e.toCnf session).2.nextSkolem := by
  obtain ⟨atom, isAtom, ⟨numbered, -⟩, rfl⟩ :=
    (Expr.conjunction_toCnf formula skolemFree session).exists_atom member inside
  have alone : atom.FirstOrder := isAtom.imp fun head count takes v same => by
    subst same
    exact takes
  refine ⟨Expr.everywhere_literal (fun _ _ => nofun) (fun s _ _ => ⟨nofun, fun _ _ _ _ => rfl⟩) alone,
    Expr.everywhere_literal (fun _ _ => nofun) (fun s _ below => ⟨below, fun _ _ => nofun⟩) numbered⟩

/-- If a formula is true, its Skolem functions can be given operations that make its clauses true,
whatever the operations of Skolem functions with later numbers are then. -/
theorem exists_skolems_of_truth (formula : e.Formula) (skolemFree : e.SkolemFree) (session : Session)
    (true : M.Truth Variable.name ρ e) (F : Nat → List D → D) :
    ∃ G : Nat → List D → D, (∀ number < session.nextSkolem, G number = F number) ∧
      ∀ H : Nat → List D → D, (∀ number < (e.toCnf session).2.nextSkolem, H number = G number) →
        ∀ clause ∈ (e.toCnf session).1.conjuncts, ∀ γ : Assignment D,
          γ.Fits (e.freeVariables session) ρ → (M.withSkolems H).SomeTrue γ.get clause.literals := by
  obtain ⟨G, same, clauses⟩ := exists_conjuncts_of_truth formula skolemFree true F
  refine ⟨G, fun number old => same number (.inl old), fun H agrees clause member γ fits => ?_⟩
  obtain ⟨literal, inside, true⟩ := clauses γ fits clause member
  have below := (firstOrder_and_skolems_lt formula skolemFree member inside).2
  refine ⟨literal, inside, ?_⟩
  rwa [value_withSkolems_congr (below.imp fun _ _ below s head => agrees s.id (below s head))
    (Expr.everywhere_of_forall fun _ _ _ _ => rfl)]

/-- The clauses of a formula without free names are true for all values of their variables. -/
theorem satisfies_of_closed {N : Structure D} (formula : e.Formula) (skolemFree : e.SkolemFree)
    (closed : e.freeNames = []) {clause : Clause} (member : clause ∈ (e.toCnf session).1.conjuncts)
    (true : ∀ γ : Assignment D, γ.Fits (e.freeVariables session) ρ → N.SomeTrue γ.get clause.literals)
    (fixed : List Variable) (α : Assignment D) : N.Satisfies fixed α clause := by
  refine ⟨fun literal inside => (firstOrder_and_skolems_lt formula skolemFree member inside).1,
    fun β _ => true β ?_⟩
  rw [Expr.freeVariables_eq_nil formula closed]
  exact fun entry member => absurd member List.not_mem_nil

/-- The clauses of a formula are true where its free variables, if they are fixed, have the values
of their names. -/
theorem satisfies_of_fits {N : Structure D} (formula : e.Formula) (skolemFree : e.SkolemFree)
    {α : Assignment D} (fits : α.Fits (e.freeVariables session) ρ) {clause : Clause}
    (member : clause ∈ (e.toCnf session).1.conjuncts)
    (true : ∀ γ : Assignment D, γ.Fits (e.freeVariables session) ρ → N.SomeTrue γ.get clause.literals)
    {fixed : List Variable} (isFixed : ∀ literal ∈ clause.literals, ∀ v ∈ literal.vars,
      v.universal = false → fixed.contains v) : N.Satisfies fixed α clause := by
  refine ⟨fun literal inside => (firstOrder_and_skolems_lt formula skolemFree member inside).1,
    fun β agrees => ?_⟩
  -- The universal variables take the values of `β`; the others have those of `α` in both.
  obtain ⟨γ, varies, taken⟩ := Assignment.exists_varies α β (e.freeSet session) session.nextSystem
    (e.apartForm session).2.next
  obtain ⟨literal, inside, holds⟩ := true γ (fits.varies varies)
  refine ⟨literal, inside, ?_⟩
  obtain ⟨atom, -, ⟨-, occurring⟩, rfl⟩ :=
    (Expr.conjunction_toCnf formula skolemFree session).exists_atom member inside
  have known := occurring.literal.leaves
  have listed : ∀ v ∈ atom.literal.vars, _ := Expr.forall_mem_collectVariables known nofun
  rwa [← N.value_congr_leaves ((known.and (Expr.contains_collectVariables atom.literal)).imp ?_)]
  rintro head count ⟨known, collected⟩ v occurs
  rcases known v occurs with isFree | ⟨fresh, -⟩
  · obtain ⟨w, inVars, same⟩ := List.contains_iff_exists_mem_beq.1 (collected v occurs [])
    have free : w ∈ e.freeSet session :=
      (listed w inVars).resolve_right fun ⟨fresh, _⟩ => fresh.new v isFree (Variable.beq_iff.1 same)
    have unmarked : w.universal = false := by
      obtain ⟨entry, member, rfl⟩ := List.mem_map.1 free
      rw [(Expr.lawful_apartForm session e).named entry member]
      rfl
    obtain ⟨f, inFixed, equal⟩ :=
      List.contains_iff_exists_mem_beq.1 (isFixed _ inside w inVars unmarked)
    have alike : v == f := BEq.trans same equal
    calc γ.get v = α.get v := varies v fun fresh => fresh.new v isFree rfl
      _ = α.get f := α.get_congr alike
      _ = β.get f := (agrees f inFixed).symm
      _ = β.get v := (β.get_congr alike).symm
  · exact taken v fresh

end Structure

/-- Where the known statements are true and the goal is not, the Skolem functions of their clauses
and the free variables of the goal can be given meanings that make all true that is given to a
prover. -/
theorem Prover.exists_satisfies_inputs {D : Type u} {M : Structure D} {ρ : String → D}
    {goal : Statement} {knowledge : List Statement}
    (formulas : ∀ statement ∈ goal :: knowledge,
      statement.formula.Formula ∧ statement.formula.SkolemFree)
    (closed : ∀ statement ∈ knowledge, statement.formula.freeNames = [])
    (true : ∀ statement ∈ knowledge, M.Truth Variable.name ρ statement.formula)
    (false : ¬ M.Truth Variable.name ρ goal.formula) (session : Session) (F : Nat → List D → D)
    (p : Prover) :
    ∃ (G : Nat → List D → D) (α : Assignment D), (∀ number < session.nextSkolem, G number = F number) ∧
      ∀ entry ∈ p.inputs (problem session goal knowledge),
        (M.withSkolems G).Satisfies entry.1 α entry.2 := by
  rw [List.forall_mem_cons] at formulas
  obtain ⟨⟨isFormula, skolemFree⟩, others⟩ := formulas
  induction knowledge generalizing session F p with
  | nil =>
    have negated := isFormula.negate
    have plain : goal.formula.negate.SkolemFree := (Expr.everywhere_signed _).2 skolemFree
    have holds := (M.truth_negate Variable.name isFormula ρ).2 false
    obtain ⟨α, fits⟩ := Assignment.exists_fits session goal.formula.negate ρ
    obtain ⟨G, same, clauses⟩ := Structure.exists_skolems_of_truth negated plain session holds F
    obtain ⟨form, read, perm⟩ :=
      ClausalForm.ofPostfix_toPostfix (Expr.conjunction_toCnf negated plain session)
    refine ⟨G, α, same, ?_⟩
    unfold problem Statement.negatedClauses
    simp only [read]
    intro entry member
    rcases List.mem_append.1 member with now | after
    · obtain ⟨clause, inForm, rfl⟩ := List.mem_map.1 now
      have inside := perm.mem_iff.1 inForm
      exact Structure.satisfies_of_fits negated plain fits inside
        (clauses G (fun _ _ => rfl) clause inside) fun literal inLiteral v =>
          p.contains_hypothesis inForm inLiteral
    · exact absurd after List.not_mem_nil
  | cons statement rest ih =>
    rw [List.forall_mem_cons] at closed true others
    obtain ⟨known, plain⟩ := others.1
    obtain ⟨G, same, clauses⟩ := Structure.exists_skolems_of_truth known plain session true.1 F
    obtain ⟨form, read, perm⟩ :=
      ClausalForm.ofPostfix_toPostfix (Expr.conjunction_toCnf known plain session)
    have later : session.nextSkolem ≤ (statement.formula.toCnf session).2.nextSkolem :=
      (Expr.apart_skolemForm known plain session).2.1
    obtain ⟨H, α, agrees, satisfied⟩ := ih closed.2 true.2
      (statement.formula.toCnf session).2 G (p.perform (.knowledge form)) others.2
    refine ⟨H, α, fun number old => ?_, ?_⟩
    · rw [agrees number (old.trans_le later), same number old]
    · unfold problem Statement.clauses Statement.cnfSymbols
      simp only [read]
      intro entry member
      rcases List.mem_append.1 member with now | after
      · obtain ⟨clause, inForm, rfl⟩ := List.mem_map.1 now
        have inside := perm.mem_iff.1 inForm
        exact Structure.satisfies_of_closed known plain closed.1 inside
          (clauses H agrees clause inside) _ α
      · exact satisfied entry after

/-! ### Refutations -/

/-- The clause follows from given ones, each entered with some variables fixed, by factoring and
resolution with unifiers that are substitutions. -/
inductive Derivation.Follows (d : Derivation) (given : List (List Variable × Clause))
    (fixed : List Variable) : Nat → Prop
  /-- A given clause is factored. -/
  | input {number : Nat} {step : Step} {early : List Variable} {clause : Clause}
      (located : d.get? number = some step) (member : (early, clause) ∈ given)
      (factors : clause.FactorsTo early step.clause) : Follows d given fixed number
  /-- Two clauses that follow are resolved, and the resolvent is factored. -/
  | resolvent {number first second : Nat} {step left right : Step} {resolvent : Clause}
      (located : d.get? number = some step) (parents : step.parents = some (first, second))
      (atFirst : d.get? first = some left) (atSecond : d.get? second = some right)
      (inFirst : Follows d given fixed first) (inSecond : Follows d given fixed second)
      (resolves : left.clause.ResolvesTo fixed right.clause resolvent)
      (factors : resolvent.FactorsTo fixed step.clause) : Follows d given fixed number

/-- A clause that follows from true ones is true. -/
theorem Derivation.Follows.satisfies {d : Derivation} {given : List (List Variable × Clause)}
    {fixed : List Variable} {number : Nat} (follows : d.Follows given fixed number) {D : Type u}
    {M : Structure D} {α : Assignment D}
    (true : ∀ entry ∈ given, entry.1 ⊆ fixed ∧ M.Satisfies entry.1 α entry.2) {step : Step}
    (located : d.get? number = some step) : M.Satisfies fixed α step.clause := by
  induction follows generalizing step with
  | input here member factors =>
    obtain rfl := Option.some.inj (here.symm.trans located)
    obtain ⟨subset, satisfied⟩ := true _ member
    exact (satisfied.factorsTo factors).mono subset
  | resolvent here _ atFirst atSecond _ _ resolves factors first second =>
    obtain rfl := Option.some.inj (here.symm.trans located)
    exact ((first atFirst).resolvesTo (second atSecond) resolves).factorsTo factors

namespace Prover

/-- If a goal is proved from statements without free names, and the empty clause follows by unifiers
that are substitutions, then the goal is true, for all values of its free names, in every structure
in which the statements are true. -/
theorem truth_of_prove (budget : Budget) (interrupt : Interrupt) (session : Session)
    {axioms : List Statement} {goal : Statement}
    (parsed : ∀ statement ∈ goal :: axioms, ∃ before text after,
      Statement.parse before text = (.ok statement, after))
    (closed : ∀ statement ∈ axioms, statement.formula.freeNames = [])
    {outcome : Outcome} {next : Session} {p : Prover}
    (ended : (new budget).prove interrupt session axioms goal = (.ok outcome, next, p))
    {number : Nat} (proved : outcome.verdict = .proof number)
    (follows : p.derivation.Follows ((new budget).inputs (problem session goal axioms)) p.hypothesis
      number)
    {D : Type u} (M : Structure D) (ρ : String → D)
    (true : ∀ statement ∈ axioms, M.Truth Variable.name ρ statement.formula) :
    M.Truth Variable.name ρ goal.formula := by
  by_contra false
  have formulas : ∀ statement ∈ goal :: axioms,
      statement.formula.Formula ∧ statement.formula.SkolemFree := by
    intro statement member
    obtain ⟨before, text, after, read⟩ := parsed statement member
    exact Statement.formula_of_parse read
  obtain ⟨G, α, -, satisfied⟩ := exists_satisfies_inputs formulas closed true false session M.skolems
    (new budget)
  have finished := ((new budget).run (problem session goal axioms)).search_finished interrupt
  rw [search_of_prove ended] at finished
  have numbered := finished.continues.derivation.numbered (numbered_run (numbered_new budget) _)
  obtain ⟨place, step, located, named, empty⟩ := finished.proof number proved
  obtain rfl : place = number := (numbered place step located).symm.trans named
  have given : ∀ entry ∈ (new budget).inputs (problem session goal axioms),
      entry.1 ⊆ p.hypothesis ∧ (M.withSkolems G).Satisfies entry.1 α entry.2 := by
    intro entry member
    rw [finished.continues.hypothesis]
    exact ⟨subset_hypothesis_of_mem_inputs member, satisfied entry member⟩
  exact (M.withSkolems G).not_satisfies_empty _ α empty (follows.satisfies given located)

/-- `EXISTS z, P(w, z)`. -/
def someAbove : Statement :=
  let w : Variable := ⟨"w", 3, false, false⟩
  let z : Variable := ⟨"z", 2, false, false⟩
  let less : Symbol := .rel ⟨⟨"P", 2, none⟩⟩
  ⟨[.var w, .var z, less, .binder ⟨.existential, [z]⟩],
    .node (.binder ⟨.existential, [z]⟩) [.node less [.ofVariable w, .ofVariable z]]⟩

/-- The literal `P(x, s(x))`, where `s` is a Skolem function. -/
def aboveLiteral : Expr :=
  let x : Variable := ⟨"x", 0, true, true⟩
  .node (.rel ⟨⟨"P", 2, none⟩⟩) [.ofVariable x, .node (.skolem ⟨0, [x]⟩) [.ofVariable x]]

/-- The literal `!P(w, z)`, where `w` is fixed. -/
def noneAboveLiteral : Expr :=
  (Expr.node (.rel ⟨⟨"P", 2, none⟩⟩)
    [.ofVariable ⟨"w", 3, true, false⟩, .ofVariable ⟨"z", 2, true, true⟩]).negate

/-- The prover that has resolved the two literals. -/
def aboveProver : Prover where
  budget := {}
  derivation :=
    ⟨#[⟨1, ⟨[aboveLiteral]⟩, none⟩, ⟨2, ⟨[noneAboveLiteral]⟩, none⟩, ⟨3, ⟨[]⟩, some (1, 2)⟩]⟩
  hypothesis := [⟨"w", 3, true, false⟩]
  rounds := 1
  generated := 1
  tally := ((Tally.empty.add "rounds" 1).add "pairs_tried" 1).add "resolvents" 1

/-- The two literals are resolved by the substitution of `w` for `x` and `s(x)` for `z`. -/
theorem aboveProver_follows :
    aboveProver.derivation.Follows
      [([], ⟨[aboveLiteral]⟩), (aboveProver.hypothesis, ⟨[noneAboveLiteral]⟩)]
      aboveProver.hypothesis 3 := by
  have resolved : Expr.resolvingUnifier aboveProver.hypothesis aboveLiteral noneAboveLiteral.negate =
    .ok ⟨[⟨.ofVariable ⟨"x", 0, true, true⟩, .ofVariable ⟨"w", 3, true, false⟩⟩,
      ⟨.ofVariable ⟨"z", 2, true, true⟩,
        .node (.skolem ⟨0, [⟨"x", 0, true, true⟩]⟩) [.ofVariable ⟨"x", 0, true, true⟩]⟩]⟩ := rfl
  have order : aboveLiteral.FirstOrder ∧ noneAboveLiteral.negate.FirstOrder := by
    simp [Expr.FirstOrder, Expr.Everywhere, Expr.EverywhereArgs, aboveLiteral, noneAboveLiteral,
      Expr.node, Expr.ofVariable, Expr.leaf, Expr.negate]
  have substitution := Expr.isSubstitution_of_unifyRestricted
    (Clause.unify_of_resolvingUnifier resolved).2 order.1 order.2 (by
      simp [Unifier.BindsVariables, Expr.isVariable, Expr.ofVariable, Expr.leaf])
  exact .resolvent rfl rfl rfl rfl (.input rfl List.mem_cons_self .refl)
    (.input rfl (List.mem_cons_of_mem _ List.mem_cons_self) .refl)
    (.on (i := 0) (j := 0) rfl rfl resolved substitution) .refl

/-- The session after both statements have been read. -/
def aboveSession : Session := { Statement.lessSession with nextVariable := 4 }

/-- The prover finds a proof that something is above, and the goal is true wherever the known
statement is. -/
theorem truth_someAbove :
    Statement.parse Statement.lessSession "FORALL x, EXISTS y, P(x, y)" =
        (.ok .unbounded, { Statement.lessSession with nextVariable := 2 }) ∧
      Statement.parse { Statement.lessSession with nextVariable := 2 } "EXISTS z, P(w, z)" =
        (.ok someAbove, aboveSession) ∧
      (new {}).prove Interrupt.never aboveSession [.unbounded] someAbove =
        (.ok ⟨.proof 3, 1, 1, 3⟩, { aboveSession with nextSystem := 4, nextSkolem := 1 },
          aboveProver) ∧
      ∀ {D : Type} (M : Structure D) (ρ : String → D),
        M.Truth Variable.name ρ Statement.unbounded.formula →
          M.Truth Variable.name ρ someAbove.formula := by
  have known : Statement.parse Statement.lessSession "FORALL x, EXISTS y, P(x, y)" =
    (.ok .unbounded, { Statement.lessSession with nextVariable := 2 }) := rfl
  have asked : Statement.parse { Statement.lessSession with nextVariable := 2 } "EXISTS z, P(w, z)" =
    (.ok someAbove, aboveSession) := rfl
  have ended : (new {}).prove Interrupt.never aboveSession [.unbounded] someAbove =
      (.ok ⟨.proof 3, 1, 1, 3⟩, { aboveSession with nextSystem := 4, nextSkolem := 1 },
        aboveProver) := by
    with_unfolding_all rfl
  have given : (new {}).inputs (problem aboveSession someAbove [.unbounded]) =
      [([], ⟨[aboveLiteral]⟩), (aboveProver.hypothesis, ⟨[noneAboveLiteral]⟩)] := by
    with_unfolding_all rfl
  refine ⟨known, asked, ended, fun M ρ true => ?_⟩
  refine truth_of_prove {} _ aboveSession ?_ ?_ ended rfl (given ▸ aboveProver_follows) M ρ
    (List.forall_mem_singleton.2 true)
  · exact List.forall_mem_cons.2 ⟨⟨_, _, _, asked⟩, List.forall_mem_singleton.2 ⟨_, _, _, known⟩⟩
  · exact List.forall_mem_singleton.2 rfl

/-- Truth values, of which `P` takes each to itself. -/
def truthValues : Structure Bool where
  inhabited := ⟨false⟩
  operation
    | .rel _ => fun
      | [b] => b
      | _ => false
    | _ => fun _ => false
  complement := not
  holds b := b = true
  operation_congr := by
    intro f g same
    cases f with
    | rel r =>
      cases g with
      | rel s => rfl
      | _ => cases same
    | _ =>
      cases g with
      | rel s => cases same
      | _ => rfl
  complement_complement := by decide
  holds_complement := by decide

/-- `P(v)` for some `v`, or for all. -/
def quantifiedStatement (quantifier : Quantifier) (v : Variable) : Statement :=
  let relation : Symbol := .rel ⟨⟨"P", 1, none⟩⟩
  ⟨[.var v, relation, .binder ⟨quantifier, [v]⟩],
    .node (.binder ⟨quantifier, [v]⟩) [.node relation [.ofVariable v]]⟩

/-- The session in which `P` takes one argument. -/
def predicateSession : Session := Session.empty.declareRelation ⟨⟨"P", 1, none⟩⟩

/-- Not every proof shows that its goal is true: from `EXISTS x, P(x)` the prover proves
`FORALL y, P(y)`, because it binds the Skolem term of the one to that of the negated other. -/
theorem not_truth_of_prove :
    let known := quantifiedStatement .existential ⟨"x", 0, false, false⟩
    let goal := quantifiedStatement .universal ⟨"y", 1, false, false⟩
    Statement.parse predicateSession "EXISTS x, P(x)" =
        (.ok known, { predicateSession with nextVariable := 1 }) ∧
      Statement.parse { predicateSession with nextVariable := 1 } "FORALL y, P(y)" =
        (.ok goal, { predicateSession with nextVariable := 2 }) ∧
      ((new {}).prove Interrupt.never { predicateSession with nextVariable := 2 } [known] goal).1 =
        .ok ⟨.proof 3, 1, 1, 3⟩ ∧
      ∀ ρ : String → Bool, truthValues.Truth Variable.name ρ known.formula ∧
        ¬ truthValues.Truth Variable.name ρ goal.formula := by
  refine ⟨rfl, rfl, by with_unfolding_all rfl, fun ρ => ⟨⟨fun _ => true, ?_⟩, fun all => ?_⟩⟩
  · simp [Expr.node, Structure.Truth, Expr.literal, Expr.literals, Expr.ofVariable, Expr.leaf,
      Structure.value_eq, Structure.atomValue, Structure.headValue, truthValues, override]
  · have wrong := all fun _ => false
    simp [Expr.node, Structure.Truth, Expr.literal, Expr.literals, Expr.ofVariable, Expr.leaf,
      Structure.value_eq, Structure.atomValue, Structure.headValue, truthValues, override] at wrong

end Prover

end Refute
