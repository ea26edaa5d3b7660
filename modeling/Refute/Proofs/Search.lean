import Refute.Proofs.Inference
import Refute.Proofs.Loop
import Refute.Prover.Search

/-!
# Searches

A search only adds clauses to the derivation it starts with, each the factored resolvent of two
clauses with smaller numbers. If it ends with a proof, the clause it names is empty. If it ends with
saturation, no two clauses have a resolvent that is empty or not covered by a clause of the
derivation.

These facts are said once of the step that takes over a resolvent and carried through the loops over
resolvents, pairs and rounds.
-/

namespace Refute

/-! ### Derivations that grow -/

namespace Derivation

/-- An entered clause stands under the next number, and the others stay where they are. -/
theorem get?_insert (d : Derivation) (clause : Clause) (parents : Option (Nat × Nat)) (number : Nat) :
    (d.insert clause parents).get? number =
      if number = d.size + 1 then some ⟨number, clause, parents⟩ else d.get? number := by
  cases number with
  | zero => rfl
  | succ index =>
    simp only [get?, insert, size, Array.getElem?_push, Nat.add_right_cancel_iff]
    split <;> simp_all

/-- The numbers of the steps go from 1 to the number of steps. -/
theorem exists_get?_iff {d : Derivation} {number : Nat} :
    (∃ step, d.get? number = some step) ↔ 0 < number ∧ number ≤ d.size := by
  cases number with
  | zero => simp [get?]
  | succ index =>
    simp only [get?, size, Nat.succ_pos, true_and, Nat.succ_le_iff]
    exact ⟨fun ⟨_, located⟩ => (Array.getElem?_eq_some_iff.1 located).1,
      fun inside => ⟨d.steps[index], Array.getElem?_eq_getElem inside⟩⟩

/-- A step is one of the steps that are searched through. -/
theorem any_iff {d : Derivation} {p : Step → Bool} :
    d.steps.any p ↔ ∃ number step, d.get? number = some step ∧ p step := by
  simp only [Array.any_eq_true]
  constructor
  · rintro ⟨index, inside, holds⟩
    exact ⟨index + 1, d.steps[index], by simp [get?, inside], holds⟩
  · rintro ⟨number, step, located, holds⟩
    cases number with
    | zero => cases located
    | succ index =>
      obtain ⟨inside, rfl⟩ := Array.getElem?_eq_some_iff.1 located
      exact ⟨index, inside, holds⟩

/-- A step with a number is one of the steps. -/
theorem mem_of_get? {d : Derivation} {number : Nat} {step : Step}
    (located : d.get? number = some step) : step ∈ d.steps := by
  cases number with
  | zero => cases located
  | succ index => exact Array.mem_of_getElem? located

/-- If no empty clause is found, every clause has literals. -/
theorem isEmpty_eq_false_of_emptyClause? {d : Derivation} (missed : d.emptyClause? = none)
    {number : Nat} {step : Step} (located : d.get? number = some step) :
    step.clause.isEmpty = false :=
  Bool.eq_false_iff.2
    (Array.find?_eq_none.1 (Option.map_eq_none_iff.1 missed) step (mem_of_get? located))

/-- Every step stands at the place that its number says. -/
def Numbered (d : Derivation) : Prop :=
  ∀ number step, d.get? number = some step → step.number = number

/-- A step that is entered is given its place as number. -/
theorem Numbered.insert {d : Derivation} (numbered : d.Numbered) (clause : Clause)
    (parents : Option (Nat × Nat)) : (d.insert clause parents).Numbered := by
  intro number step located
  rw [get?_insert] at located
  split at located
  · obtain rfl := Option.some.inj located
    rfl
  · exact numbered number step located

/-- The derivation with factored resolvents of its clauses entered after them. -/
inductive Extends (hypothesis : List Variable) (d : Derivation) : Derivation → Prop
  /-- Nothing is entered. -/
  | refl : Extends hypothesis d d
  /-- A factored resolvent is entered last. -/
  | insert {e : Derivation} {first second : Nat} {left right : Step} {resolvent : Clause}
      (before : Extends hypothesis d e) (less : first < second)
      (atFirst : e.get? first = some left) (atSecond : e.get? second = some right)
      (resolved : resolvent ∈ left.clause.resolve hypothesis right.clause) :
      Extends hypothesis d (e.insert (resolvent.factor hypothesis) (some (first, second)))

/-- Steps stay where they are. -/
theorem get?_insert_of_some {d : Derivation} {number : Nat} {step : Step}
    (located : d.get? number = some step) (clause : Clause) (parents : Option (Nat × Nat)) :
    (d.insert clause parents).get? number = some step := by
  have inside := exists_get?_iff.1 ⟨step, located⟩
  rw [get?_insert, if_neg (by omega), located]

namespace Extends

variable {hypothesis : List Variable} {d e : Derivation}

/-- Steps stay where they are. -/
theorem get? (longer : Extends hypothesis d e) {number : Nat} {step : Step}
    (located : d.get? number = some step) : e.get? number = some step := by
  induction longer with
  | refl => exact located
  | insert _ _ _ _ _ ih => exact get?_insert_of_some ih _ _

/-- Entering clauses makes a derivation longer. -/
theorem size_le (longer : Extends hypothesis d e) : d.size ≤ e.size := by
  induction longer with
  | refl => exact Nat.le_refl _
  | insert _ _ _ _ _ ih =>
    refine Nat.le_trans ih ?_
    rw [size, size, Derivation.insert, Array.size_push]
    exact Nat.le_succ _

/-- What is entered after clauses that were entered is entered after the first ones. -/
theorem trans {f : Derivation} (first : Extends hypothesis d e) (second : Extends hypothesis e f) :
    Extends hypothesis d f := by
  induction second with
  | refl => exact first
  | insert _ less atFirst atSecond resolved ih => exact ih.insert less atFirst atSecond resolved

/-- A step that was not there before is a factored resolvent of two steps with smaller numbers,
which are its parents. -/
theorem eq_or_resolvent (longer : Extends hypothesis d e) {number : Nat} {step : Step}
    (located : e.get? number = some step) :
    d.get? number = some step ∨ ∃ first second left right resolvent, first < second ∧
      second < number ∧ e.get? first = some left ∧ e.get? second = some right ∧
      resolvent ∈ left.clause.resolve hypothesis right.clause ∧
      step = ⟨number, resolvent.factor hypothesis, some (first, second)⟩ := by
  induction longer with
  | refl => exact .inl located
  | @insert e first second left right resolvent _ less atFirst atSecond resolved ih =>
    rw [get?_insert] at located
    split at located
    · have inside := exists_get?_iff.1 ⟨right, atSecond⟩
      exact .inr ⟨first, second, left, right, resolvent, less, by omega,
        get?_insert_of_some atFirst _ _, get?_insert_of_some atSecond _ _, resolved,
        (Option.some.inj located).symm⟩
    · obtain old | ⟨i, j, left, right, resolvent, less, smaller, atLeft, atRight, rest⟩ := ih located
      · exact .inl old
      · exact .inr ⟨i, j, left, right, resolvent, less, smaller, get?_insert_of_some atLeft _ _,
          get?_insert_of_some atRight _ _, rest⟩

/-- Steps that are entered are given their places as numbers. -/
theorem numbered (longer : Extends hypothesis d e) (before : d.Numbered) : e.Numbered := by
  intro number step located
  obtain old | ⟨_, _, _, _, _, _, _, _, _, _, rfl⟩ := longer.eq_or_resolvent located
  · exact before number step old
  · rfl

/-- What factored resolvents take over from their parents passes from the first clauses to all. -/
theorem invariant {Q : Clause → Prop} (longer : Extends hypothesis d e)
    (held : ∀ number step, d.get? number = some step → Q step.clause)
    (resolved : ∀ first second resolvent, Q first → Q second →
      resolvent ∈ first.resolve hypothesis second → Q (resolvent.factor hypothesis))
    {number : Nat} {step : Step} (located : e.get? number = some step) : Q step.clause := by
  induction longer generalizing number step with
  | refl => exact held number step located
  | insert _ _ atFirst atSecond member ih =>
    rw [get?_insert] at located
    split at located
    · obtain rfl := Option.some.inj located
      exact resolved _ _ _ (ih atFirst) (ih atSecond) member
    · exact ih located

end Extends

end Derivation

/-! ### The steps of a search -/

namespace Clause

/-- A clause has a literal if the list it was made from has one. -/
theorem isEmpty_ofList (literals : List Expr) :
    (ofList literals).isEmpty = literals.isEmpty := by
  have grows : ∀ (rest : List Expr) (clause : Clause), clause.isEmpty = false →
      (rest.foldl add clause).isEmpty = false := by
    intro rest
    induction rest with
    | nil => exact fun _ => id
    | cons literal rest ih =>
      intro clause held
      apply ih
      unfold add
      split
      · exact held
      · simp [isEmpty]
  cases literals with
  | nil => rfl
  | cons literal rest => exact grows rest _ rfl

/-- A clause with literals keeps some of them when it is factored. -/
theorem isEmpty_factor {clause : Clause} (held : clause.isEmpty = false)
    (hypothesis : List Variable) : (clause.factor hypothesis).isEmpty = false := by
  refine factor_invariant (P := fun reached => reached.isEmpty = false) ?_ held
  intro reached later u _ found
  -- The earlier literal of the pair stays.
  obtain ⟨i, j, first, second, less, rfl, atFirst, -, -, -⟩ := unify_of_mergeable? found
  have stays : first ∈ reached.literals.eraseIdx (0 + j) :=
    List.mem_eraseIdx_iff_getElem?.2 ⟨i, by omega, atFirst⟩
  have rest : (reached.without (0 + j)).literals.isEmpty = false := by
    change (ofList _).isEmpty = false
    rw [isEmpty_ofList]
    exact List.isEmpty_eq_false_iff_exists_mem.2 ⟨first, stays⟩
  change (ofList _).isEmpty = false
  rw [isEmpty_ofList, List.isEmpty_map, rest]

/-- Nothing can be merged in the empty clause. -/
theorem factor_of_isEmpty {clause : Clause} (empty : clause.isEmpty) (hypothesis : List Variable) :
    clause.factor hypothesis = clause := by
  obtain ⟨literals⟩ := clause
  obtain rfl : literals = [] := List.isEmpty_iff.1 empty
  rfl

end Clause

namespace Prover

/-- The prover with more clauses that were derived and other counts. -/
structure Continues (p q : Prover) : Prop where
  /-- The fixed variables stay. -/
  hypothesis : q.hypothesis = p.hypothesis
  /-- Only factored resolvents are entered. -/
  derivation : p.derivation.Extends p.hypothesis q.derivation

/-- A prover goes on from itself. -/
theorem Continues.refl (p : Prover) : p.Continues p := ⟨rfl, .refl⟩

/-- Going on can be repeated. -/
theorem Continues.trans {p q r : Prover} (first : p.Continues q) (second : q.Continues r) :
    p.Continues r :=
  ⟨second.hypothesis.trans first.hypothesis,
    first.derivation.trans (first.hypothesis ▸ second.derivation)⟩

/-- The clause is held, or one that it is a duplicate of. -/
def Covers (p : Prover) (clause : Clause) : Prop :=
  ∃ number step, p.derivation.get? number = some step ∧
    (step.clause = clause ∨ clause.isDuplicate p.hypothesis step.clause)

/-- The resolvents of two clauses have literals, and the factored ones are covered. -/
def Closed (p : Prover) (first second : Nat) : Prop :=
  ∃ left right, p.derivation.get? first = some left ∧ p.derivation.get? second = some right ∧
    ∀ resolvent ∈ left.clause.resolve p.hypothesis right.clause,
      resolvent.isEmpty = false ∧ p.Covers (resolvent.factor p.hypothesis)

/-- What is covered stays covered. -/
theorem Continues.covers {p q : Prover} (continues : p.Continues q) {clause : Clause}
    (covered : p.Covers clause) : q.Covers clause := by
  obtain ⟨number, step, located, same⟩ := covered
  exact ⟨number, step, continues.derivation.get? located, continues.hypothesis ▸ same⟩

/-- A pair that is closed stays closed. -/
theorem Continues.closed {p q : Prover} (continues : p.Continues q) {first second : Nat}
    (closed : p.Closed first second) : q.Closed first second := by
  obtain ⟨left, right, atFirst, atSecond, each⟩ := closed
  refine ⟨left, right, continues.derivation.get? atFirst, continues.derivation.get? atSecond, ?_⟩
  rw [continues.hypothesis]
  exact fun resolvent member => (each resolvent member).imp_right continues.covers

/-- How a search that starts with a prover may end. -/
structure Finished (p : Prover) (ending : Ending) : Prop where
  /-- The clauses entered are factored resolvents. -/
  continues : p.Continues ending.prover
  /-- A proof names an empty clause. -/
  proof : ∀ number, ending.verdict = .proof number →
    ∃ place step, ending.prover.derivation.get? place = some step ∧ step.number = number ∧
      step.clause.isEmpty
  /-- Saturation means that all pairs are closed. -/
  saturated : ending.verdict = .saturated → ∀ first second, 0 < first → first < second →
    second ≤ ending.prover.derivation.size → ending.prover.Closed first second

/-- What a search ends with is also what an earlier one can end with. -/
theorem Continues.finished {p q : Prover} {ending : Ending} (continues : p.Continues q)
    (finished : q.Finished ending) : p.Finished ending :=
  ⟨continues.trans finished.continues, finished.proof, finished.saturated⟩

/-- A search that is stopped has done nothing else than going on. -/
theorem Continues.stopped {p q : Prover} (continues : p.Continues q) (limit : Limit) :
    p.Finished ⟨.stopped limit, q⟩ where
  continues := continues
  proof _ same := by cases same
  saturated same := by cases same

variable {interrupt : Interrupt} {p q : Prover} {first second : Nat} {left right : Step}

/-- A resolvent that is taken over without an end to the search has literals and is covered then. -/
theorem keep_ok {resolvent : Clause} (less : first < second)
    (atFirst : p.derivation.get? first = some left) (atSecond : p.derivation.get? second = some right)
    (resolved : resolvent ∈ left.clause.resolve p.hypothesis right.clause)
    (kept : keep (first, second) p resolvent = .ok q) :
    p.Continues q ∧ resolvent.isEmpty = false ∧ q.Covers (resolvent.factor p.hypothesis) := by
  unfold keep at kept
  dsimp only at kept
  split at kept
  · cases kept
  rename_i held
  rw [Bool.not_eq_true] at held
  split at kept
  · rename_i known
    obtain ⟨number, step, located, duplicate⟩ := Derivation.any_iff.1 known
    obtain rfl := Except.ok.inj kept
    exact ⟨⟨rfl, .refl⟩, held, number, step, located, .inr duplicate⟩
  split at kept
  · cases kept
  obtain rfl := Except.ok.inj kept
  refine ⟨⟨rfl, .insert .refl less atFirst atSecond resolved⟩, held, p.derivation.size + 1,
    ⟨p.derivation.size + 1, resolvent.factor p.hypothesis, some (first, second)⟩, ?_, .inl rfl⟩
  exact (Derivation.get?_insert _ _ _ _).trans (if_pos rfl)

/-- A resolvent ends the search when it is empty or when there is no room for it. -/
theorem keep_error {resolvent : Clause} {ending : Ending} (less : first < second)
    (atFirst : p.derivation.get? first = some left) (atSecond : p.derivation.get? second = some right)
    (resolved : resolvent ∈ left.clause.resolve p.hypothesis right.clause)
    (failed : keep (first, second) p resolvent = .error ending) : p.Finished ending := by
  unfold keep at failed
  dsimp only at failed
  split at failed
  · rename_i empty
    obtain rfl := Except.error.inj failed
    refine ⟨⟨rfl, ?_⟩, fun number same => ?_, fun same => by cases same⟩
    · have entered := Derivation.Extends.insert .refl less atFirst atSecond resolved
      rwa [Clause.factor_of_isEmpty empty] at entered
    · obtain rfl := Verdict.proof.inj same
      refine ⟨p.derivation.size + 1, ⟨p.derivation.size + 1, resolvent, some (first, second)⟩,
        (Derivation.get?_insert _ _ _ _).trans (if_pos rfl), ?_, empty⟩
      exact (Array.size_push _).symm
  split at failed
  · cases failed
  split at failed
  · obtain rfl := Except.error.inj failed
    have counted : p.Continues p.countResolvent := ⟨rfl, .refl⟩
    exact counted.stopped _
  · cases failed

/-- A pair of clauses that is resolved without an end to the search is closed then. -/
theorem resolvePair_ok (less : first < second) (atFirst : p.derivation.get? first = some left)
    (atSecond : p.derivation.get? second = some right)
    (resolved : p.resolvePair interrupt first second = .ok q) :
    p.Continues q ∧ q.Closed first second := by
  unfold resolvePair at resolved
  split at resolved
  · cases resolved
  simp only [derivation_bump, hypothesis_bump, atFirst, atSecond] at resolved
  have pass : ∀ s resolvent t, p.Continues s →
      resolvent ∈ left.clause.resolve p.hypothesis right.clause →
      keep (first, second) s resolvent = .ok t →
      p.Continues t ∧ (resolvent.isEmpty = false ∧ t.Covers (resolvent.factor p.hypothesis)) ∧
        ∀ other : Clause, other.isEmpty = false ∧ s.Covers (other.factor p.hypothesis) →
          other.isEmpty = false ∧ t.Covers (other.factor p.hypothesis) := by
    intro s resolvent t continues member kept
    have step := keep_ok less (continues.derivation.get? atFirst)
      (continues.derivation.get? atSecond) (continues.hypothesis ▸ member) kept
    rw [continues.hypothesis] at step
    exact ⟨continues.trans step.1, step.2, fun _ covered => covered.imp_right step.1.covers⟩
  have counted : p.Continues (p.bump "pairs_tried") := ⟨rfl, .refl⟩
  obtain ⟨continues, each, -⟩ := foldlM_ok pass counted resolved
  refine ⟨continues, left, right, continues.derivation.get? atFirst,
    continues.derivation.get? atSecond, ?_⟩
  rw [continues.hypothesis]
  exact each

/-- How a search can end while a pair of clauses is resolved. -/
theorem resolvePair_error {ending : Ending} (less : first < second)
    (atFirst : p.derivation.get? first = some left) (atSecond : p.derivation.get? second = some right)
    (failed : p.resolvePair interrupt first second = .error ending) : p.Finished ending := by
  unfold resolvePair at failed
  split at failed
  · obtain rfl := Except.error.inj failed
    exact (Continues.refl p).stopped _
  simp only [derivation_bump, hypothesis_bump, atFirst, atSecond] at failed
  have pass : ∀ s resolvent t, p.Continues s →
      resolvent ∈ left.clause.resolve p.hypothesis right.clause →
      keep (first, second) s resolvent = .ok t → p.Continues t := by
    intro s resolvent t continues member kept
    exact continues.trans (keep_ok less (continues.derivation.get? atFirst)
      (continues.derivation.get? atSecond) (continues.hypothesis ▸ member) kept).1
  have counted : p.Continues (p.bump "pairs_tried") := ⟨rfl, .refl⟩
  obtain ⟨t, continues, resolvent, member, failed⟩ := foldlM_error pass counted failed
  exact continues.finished (keep_error less (continues.derivation.get? atFirst)
    (continues.derivation.get? atSecond) (continues.hypothesis ▸ member) failed)

/-- The numbers after one number and up to another. -/
theorem mem_numbersBetween {low high number : Nat} :
    number ∈ numbersBetween low high ↔ low < number ∧ number ≤ high := by
  simp only [numbersBetween, List.mem_range'_1]
  omega

/-- The pairs of a round: both clauses are held when it begins. -/
private theorem exists_steps_of_mem {old size : Nat} (held : size = p.derivation.size)
    (atFirst : first ∈ numbersBetween 0 size)
    (atSecond : second ∈ numbersBetween (max old first) size) (continues : p.Continues q) :
    first < second ∧ ∃ left right, q.derivation.get? first = some left ∧
      q.derivation.get? second = some right := by
  rw [mem_numbersBetween] at atFirst atSecond
  obtain ⟨left, atLeft⟩ := Derivation.exists_get?_iff.2 ⟨atFirst.1, held ▸ atFirst.2⟩
  obtain ⟨right, atRight⟩ := Derivation.exists_get?_iff.2
    ⟨Nat.lt_of_le_of_lt (Nat.zero_le _) atSecond.1, held ▸ atSecond.2⟩
  exact ⟨by omega, left, right, continues.derivation.get? atLeft, continues.derivation.get? atRight⟩

/-- After the pairs of a clause with later ones these pairs are closed. -/
private theorem pairs_ok {old size : Nat} (held : size = p.derivation.size) {s t : Prover}
    (continues : p.Continues s) (atFirst : first ∈ numbersBetween 0 size)
    (passed : (numbersBetween (max old first) size).foldlM
      (fun prover second => resolvePair interrupt prover first second) s = .ok t) :
    s.Continues t ∧ ∀ second ∈ numbersBetween (max old first) size, t.Closed first second := by
  have pass : ∀ r second t, s.Continues r → second ∈ numbersBetween (max old first) size →
      r.resolvePair interrupt first second = .ok t →
      s.Continues t ∧ t.Closed first second ∧
        ∀ other, r.Closed first other → t.Closed first other := by
    intro r second t now atSecond resolved
    obtain ⟨less, left, right, atLeft, atRight⟩ :=
      exists_steps_of_mem held atFirst atSecond (continues.trans now)
    obtain ⟨more, closed⟩ := resolvePair_ok less atLeft atRight resolved
    exact ⟨now.trans more, closed, fun _ => more.closed⟩
  obtain ⟨later, each, -⟩ := foldlM_ok pass (.refl s) passed
  exact ⟨later, each⟩

/-- After a round its pairs are closed. -/
theorem round_ok {old size : Nat} (held : size = p.derivation.size)
    (done : round interrupt old size p = .ok q) :
    p.Continues q ∧ ∀ first second, 0 < first → first < second → old < second → second ≤ size →
      q.Closed first second := by
  have pass : ∀ s first t, p.Continues s → first ∈ numbersBetween 0 size →
      (numbersBetween (max old first) size).foldlM
        (fun prover second => resolvePair interrupt prover first second) s = .ok t →
      p.Continues t ∧ (∀ second ∈ numbersBetween (max old first) size, t.Closed first second) ∧
        ∀ other, (∀ second ∈ numbersBetween (max old other) size, s.Closed other second) →
          ∀ second ∈ numbersBetween (max old other) size, t.Closed other second := by
    intro s first t continues atFirst passed
    obtain ⟨later, each⟩ := pairs_ok held continues atFirst passed
    exact ⟨continues.trans later, each, fun _ before second member =>
      later.closed (before second member)⟩
  obtain ⟨continues, each, -⟩ := foldlM_ok pass (.refl p) done
  refine ⟨continues, fun first second positive less late small => ?_⟩
  exact each first (mem_numbersBetween.2 ⟨positive, by omega⟩) second
    (mem_numbersBetween.2 ⟨by omega, small⟩)

/-- How a search can end within a round. -/
theorem round_error {old size : Nat} {ending : Ending} (held : size = p.derivation.size)
    (failed : round interrupt old size p = .error ending) : p.Finished ending := by
  have pass : ∀ s first t, p.Continues s → first ∈ numbersBetween 0 size →
      (numbersBetween (max old first) size).foldlM
        (fun prover second => resolvePair interrupt prover first second) s = .ok t →
      p.Continues t := fun s first t continues atFirst passed =>
    continues.trans (pairs_ok held continues atFirst passed).1
  obtain ⟨s, continues, first, atFirst, failed⟩ := foldlM_error pass (.refl p) failed
  have inner : ∀ r second t, p.Continues r → second ∈ numbersBetween (max old first) size →
      r.resolvePair interrupt first second = .ok t → p.Continues t := by
    intro r second t now atSecond resolved
    obtain ⟨less, left, right, atLeft, atRight⟩ := exists_steps_of_mem held atFirst atSecond now
    exact now.trans (resolvePair_ok less atLeft atRight resolved).1
  obtain ⟨t, now, second, atSecond, failed⟩ := foldlM_error inner continues failed
  obtain ⟨less, left, right, atLeft, atRight⟩ := exists_steps_of_mem held atFirst atSecond now
  exact now.finished (resolvePair_error less atLeft atRight failed)

/-- How a search can end whose first round leaves out pairs that are closed. -/
theorem searchFrom_finished {remaining old : Nat}
    (closed : ∀ first second, 0 < first → first < second → second ≤ old → p.Closed first second) :
    p.Finished (searchFrom interrupt remaining old p) := by
  induction remaining generalizing old p with
  | zero => exact (Continues.refl p).stopped _
  | succ remaining ih =>
    rw [searchFrom]
    have counted : p.Continues p.countRound := ⟨rfl, .refl⟩
    cases done : round interrupt old p.derivation.size p.countRound with
    | error ending => exact counted.finished (round_error (by rfl) done)
    | ok next =>
      obtain ⟨later, fresh⟩ := round_ok (by rfl) done
      have continues := counted.trans later
      have all : ∀ first second, 0 < first → first < second → second ≤ p.derivation.size →
          next.Closed first second := by
        intro first second positive less small
        by_cases early : second ≤ old
        · exact continues.closed (closed first second positive less early)
        · exact fresh first second positive less (by omega) small
      dsimp only
      split
      · rename_i same
        refine ⟨continues, fun _ other => (by cases other),
          fun _ first second positive less small => ?_⟩
        exact all first second positive less (same ▸ small)
      · exact continues.finished (ih all)

/-- The clause that is found empty is empty. -/
theorem isEmpty_of_emptyClause? {d : Derivation} {number : Nat}
    (found : d.emptyClause? = some number) :
    ∃ place step, d.get? place = some step ∧ step.number = number ∧ step.clause.isEmpty := by
  obtain ⟨step, located, rfl⟩ := Option.map_eq_some_iff.1 found
  obtain ⟨empty, index, inside, rfl, -⟩ := Array.find?_eq_some_iff_getElem.1 located
  exact ⟨index + 1, d.steps[index], by simp [Derivation.get?, inside], rfl, empty⟩

/-- How a search ends. -/
theorem search_finished (p : Prover) (interrupt : Interrupt) :
    p.Finished ⟨(p.search interrupt).1.verdict, (p.search interrupt).2⟩ := by
  unfold search
  split
  · rename_i number found
    refine ⟨.refl p, fun named same => ?_, fun same => by cases same⟩
    obtain rfl := Verdict.proof.inj same
    exact isEmpty_of_emptyClause? found
  · exact searchFrom_finished fun _ _ _ less small => absurd small (by omega)

/-- A search for an empty clause that ends with saturation has not found one. -/
theorem isEmpty_eq_false_of_saturated {p : Prover} {interrupt : Interrupt}
    (verdict : (p.search interrupt).1.verdict = .saturated) {number : Nat} {step : Step}
    (located : (p.search interrupt).2.derivation.get? number = some step) :
    step.clause.isEmpty = false := by
  have finished := p.search_finished interrupt
  obtain old | ⟨first, second, left, right, resolvent, less, -, atLeft, atRight, member, rfl⟩ :=
    finished.continues.derivation.eq_or_resolvent located
  · have missed : p.derivation.emptyClause? = none := by
      unfold search at verdict
      split at verdict
      · cases verdict
      · assumption
    exact Derivation.isEmpty_eq_false_of_emptyClause? missed old
  · have inside := Derivation.exists_get?_iff.1 ⟨left, atLeft⟩
    have below := Derivation.exists_get?_iff.1 ⟨right, atRight⟩
    obtain ⟨left', right', atLeft', atRight', closed⟩ :=
      finished.saturated verdict first second inside.1 less below.2
    obtain rfl : left = left' := Option.some.inj (atLeft.symm.trans atLeft')
    obtain rfl : right = right' := Option.some.inj (atRight.symm.trans atRight')
    rw [finished.continues.hypothesis] at closed
    exact Clause.isEmpty_factor (closed resolvent member).1 p.hypothesis

end Prover

end Refute
