import Mathlib.Logic.Relation
import Refute.Proofs.Justification

/-!
# Ancestors

A walk through parents lists a step and everything it depends on. What it will list is on its
stack: a step that was entered waits there until it is left, below the visits to its parents. From
one visit to the next, the steps that were entered are those that wait and those that are listed,
and a parent of one of them was entered or is still to be visited. So a walk ends with all
ancestors, whatever the parents are: shared, missing or in a cycle.

The order needs parents with smaller numbers. Then only larger numbers wait below a visit, so that a
parent that is met for the second time does not wait for its own child but is listed.
-/

open Relation (ReflTransGen)

namespace Refute

namespace Derivation

/-- The number is that of a step. -/
def Holds (d : Derivation) (number : Nat) : Prop := ∃ step, d.get? number = some step

/-- The step with the first number has the second number for a parent. -/
def DependsOn (d : Derivation) (child parent : Nat) : Prop :=
  ∃ step, d.get? child = some step ∧ parent ∈ step.parentNumbers

/-- What has a parent is a step. -/
theorem DependsOn.holds {d : Derivation} {child parent : Nat} (depends : d.DependsOn child parent) :
    d.Holds child := by
  obtain ⟨step, located, -⟩ := depends
  exact ⟨step, located⟩

/-- A number that was passed over has no step, or its step was entered. -/
theorem Holds.mem_seen {d : Derivation} {number : Nat} {seen : List Nat} (holds : d.Holds number)
    (known : d.get? number = none ∨ number ∈ seen) : number ∈ seen := by
  obtain ⟨step, located⟩ := holds
  refine known.resolve_left fun missing => ?_
  rw [missing] at located
  cases located

/-- Parents have smaller numbers than what is derived from them. -/
def Descending (d : Derivation) : Prop := ∀ child parent, d.DependsOn child parent → parent < child

/-- The numbers are those of a step and of everything it depends on, in the order of a proof. -/
structure Lists (d : Derivation) (number : Nat) (numbers : List Nat) : Prop where
  /-- No step is listed twice. -/
  once : numbers.Nodup
  /-- The steps are those that parents lead to. -/
  mem_iff : ∀ n, n ∈ numbers ↔ d.Holds n ∧ ReflTransGen d.DependsOn number n
  /-- The step itself comes last. -/
  last : d.Holds number → numbers.getLast? = some number
  /-- If parents have smaller numbers, those of a step come before it. -/
  ordered : d.Descending → ∀ before n after, numbers = before ++ n :: after →
    ∀ parent, d.DependsOn n parent → d.Holds parent → parent ∈ before

/-! ### Visits -/

/-- The number that is visited. -/
def Visit.number : Visit → Nat
  | enter number => number
  | leave number => number

/-- The steps that wait to be left. -/
def waiting : List Visit → List Nat
  | [] => []
  | .enter _ :: later => waiting later
  | .leave number :: later => number :: waiting later

/-- Steps that are to be entered do not wait to be left. -/
theorem waiting_enter_append (numbers : List Nat) (later : List Visit) :
    waiting (numbers.map .enter ++ later) = waiting later := by
  induction numbers with
  | nil => rfl
  | cons n rest ih => exact ih

/-- A step that waits is to be left. -/
theorem mem_of_mem_waiting {n : Nat} {pending : List Visit} (waits : n ∈ waiting pending) :
    .leave n ∈ pending := by
  induction pending with
  | nil => cases waits
  | cons visit later ih =>
    cases visit with
    | enter m => exact List.mem_cons_of_mem _ (ih waits)
    | leave m =>
      rcases List.mem_cons.1 waits with rfl | below
      · exact List.mem_cons_self
      · exact List.mem_cons_of_mem _ (ih below)

/-- The last visit stays the last when one in front of it is made. -/
theorem getLast?_of_enter {n number : Nat} {pending : List Visit}
    (final : (Visit.enter n :: pending).getLast? = some (.leave number)) :
    pending.getLast? = some (.leave number) := by
  rw [List.getLast?_cons] at final
  cases below : pending.getLast? with
  | none =>
    rw [below] at final
    cases final
  | some visit =>
    rw [below] at final
    exact final

namespace Walk

variable {d : Derivation} {number n : Nat} {step : Step} {walk next : Walk} {pending : List Visit}

/-! ### Runs -/

/-- Every walk comes to an end. -/
theorem acc_next? (d : Derivation) (walk : Walk) :
    Acc (fun later earlier : Walk => earlier.next? d = some later) walk := by
  have measured := (Prod.lex ⟨(· < ·), Nat.lt_wfRel.wf⟩ ⟨(· < ·), Nat.lt_wfRel.wf⟩).wf
  have onWalks :=
    InvImage.wf (fun walk : Walk => (d.unseen walk.seen, walk.pending.length)) measured
  exact (Subrelation.wf (fun moves => next?_decreases moves) onWalks).apply walk

/-- A walk ends when no visit is left. -/
theorem pending_of_next?_eq_none (done : walk.next? d = none) : walk.pending = [] := by
  unfold next? at done
  split at done
  · assumption
  · cases done
  · split at done
    · cases done
    · split at done <;> cases done

/-- What every visit keeps holds when all visits are made, and then no visit is left. -/
theorem finish_invariant {P : Walk → Prop}
    (pass : ∀ walk next, P walk → walk.next? d = some next → P next) (start : P walk) :
    P (walk.finish d) ∧ (walk.finish d).pending = [] := by
  induction walk using finish.induct d with
  | case1 walk done =>
    rw [finish, done]
    exact ⟨start, pending_of_next?_eq_none done⟩
  | case2 walk next moves ih =>
    rw [finish, moves]
    exact ih (pass walk next start moves)

/-! ### Which steps are listed -/

/-- The walk lists nothing but ancestors, and it has entered all of them or will visit them. -/
structure Gathers (d : Derivation) (number : Nat) (walk : Walk) : Prop where
  /-- Visits go to ancestors. -/
  reached : ∀ visit ∈ walk.pending, ReflTransGen d.DependsOn number visit.number
  /-- The steps that were entered are ancestors. -/
  held : ∀ n ∈ walk.seen, d.Holds n ∧ ReflTransGen d.DependsOn number n
  /-- No step was entered twice. -/
  once : walk.seen.Nodup
  /-- The steps that were entered are listed, or they wait. -/
  schedule : (walk.listed.reverse ++ waiting walk.pending).Perm walk.seen
  /-- The step and the parents of what was entered were entered too, or they will be visited. -/
  closed : ∀ n, d.Holds n → (n = number ∨ ∃ child ∈ walk.seen, d.DependsOn child n) →
    n ∈ walk.seen ∨ .enter n ∈ walk.pending
  /-- The step is the first to be entered and the last to be left. -/
  final : walk.pending = [.enter number] ∧ walk.seen = [] ∨
    walk.pending.getLast? = some (.leave number) ∨
    walk.pending = [] ∧ (d.Holds number → walk.listed.head? = some number)

/-- A walk that is about to enter its first step gathers what the step depends on. -/
theorem gathers_start (d : Derivation) (number : Nat) :
    Gathers d number { pending := [.enter number] } where
  reached := List.forall_mem_singleton.2 .refl
  held := List.forall_mem_nil _
  once := List.nodup_nil
  schedule := .refl []
  closed := by
    rintro n - (rfl | ⟨child, entered, -⟩)
    · exact .inr (List.mem_singleton_self _)
    · cases entered
  final := .inl ⟨rfl, rfl⟩

/-- Leaving a step keeps what the walk gathers. -/
theorem Gathers.leave (gathers : Gathers d number walk)
    (top : walk.pending = .leave n :: pending) :
    Gathers d number { walk with pending, listed := n :: walk.listed } := by
  obtain ⟨reached, held, once, schedule, closed, final⟩ := gathers
  rw [top] at reached schedule closed final
  refine ⟨(List.forall_mem_cons.1 reached).2, held, once, ?_, ?_, .inr ?_⟩
  · simpa [waiting] using schedule
  · intro m holds due
    exact (closed m holds due).imp_right (by simp)
  · rcases final with ⟨first, -⟩ | waits | ⟨empty, -⟩
    · cases first
    · cases pending with
      | nil => exact .inr ⟨rfl, fun _ => by simpa using waits⟩
      | cons visit rest => exact .inl (by simpa using waits)
    · cases empty

/-- Passing over a number keeps what the walk gathers. -/
theorem Gathers.pass (gathers : Gathers d number walk) (top : walk.pending = .enter n :: pending)
    (known : d.get? n = none ∨ n ∈ walk.seen) : Gathers d number { walk with pending } := by
  obtain ⟨reached, held, once, schedule, closed, final⟩ := gathers
  rw [top] at reached schedule closed final
  refine ⟨(List.forall_mem_cons.1 reached).2, held, once, schedule, ?_, .inr ?_⟩
  · intro m holds due
    rcases closed m holds due with seen | visited
    · exact .inl seen
    · rcases List.mem_cons.1 visited with same | later
      · obtain rfl := Visit.enter.inj same
        exact .inl (holds.mem_seen known)
      · exact .inr later
  · rcases final with ⟨first, unseen⟩ | waits | ⟨empty, -⟩
    · obtain ⟨same, rfl⟩ := List.cons.inj first
      obtain rfl := Visit.enter.inj same
      refine .inr ⟨rfl, fun holds => ?_⟩
      have seen := holds.mem_seen known
      rw [unseen] at seen
      cases seen
    · exact .inl (getLast?_of_enter waits)
    · cases empty

/-- Entering a step keeps what the walk gathers. -/
theorem Gathers.enter (gathers : Gathers d number walk) (top : walk.pending = .enter n :: pending)
    (located : d.get? n = some step) (new : n ∉ walk.seen) :
    Gathers d number { walk with
      pending := step.parentNumbers.map .enter ++ .leave n :: pending
      seen := n :: walk.seen } := by
  obtain ⟨reached, held, once, schedule, closed, final⟩ := gathers
  rw [top] at reached schedule closed final
  rw [List.forall_mem_cons] at reached
  refine ⟨?_, ?_, List.nodup_cons.2 ⟨new, once⟩, ?_, ?_, .inr (.inl ?_)⟩
  · refine List.forall_mem_append.2 ⟨fun visit member => ?_, List.forall_mem_cons.2 reached⟩
    obtain ⟨parent, listed, rfl⟩ := List.mem_map.1 member
    exact reached.1.tail ⟨step, located, listed⟩
  · exact List.forall_mem_cons.2 ⟨⟨⟨step, located⟩, reached.1⟩, held⟩
  · rw [waiting_enter_append]
    exact List.perm_middle.trans (schedule.cons n)
  · have early : ∀ m, d.Holds m → (m = number ∨ ∃ child ∈ walk.seen, d.DependsOn child m) →
        m ∈ n :: walk.seen ∨
          .enter m ∈ step.parentNumbers.map Visit.enter ++ .leave n :: pending := by
      intro m holds due
      rcases closed m holds due with seen | visited
      · exact .inl (List.mem_cons_of_mem _ seen)
      · rcases List.mem_cons.1 visited with same | later
        · obtain rfl := Visit.enter.inj same
          exact .inl List.mem_cons_self
        · exact .inr (List.mem_append_right _ (List.mem_cons_of_mem _ later))
    rintro m holds (rfl | ⟨child, entered, depends⟩)
    · exact early m holds (.inl rfl)
    · rcases List.mem_cons.1 entered with rfl | entered
      · obtain ⟨other, found, listed⟩ := depends
        obtain rfl := Option.some.inj (found.symm.trans located)
        exact .inr (List.mem_append_left _ (List.mem_map_of_mem listed))
      · exact early m holds (.inr ⟨child, entered, depends⟩)
  · rcases final with ⟨first, -⟩ | waits | ⟨empty, -⟩
    · obtain ⟨same, rfl⟩ := List.cons.inj first
      obtain rfl := Visit.enter.inj same
      simp
    · simp [List.getLast?_append, List.getLast?_cons, getLast?_of_enter waits]
    · cases empty

/-- One visit keeps what the walk gathers. -/
theorem Gathers.next? (gathers : Gathers d number walk) (moves : walk.next? d = some next) :
    Gathers d number next := by
  obtain ⟨n, pending, top, rfl⟩ | ⟨n, pending, top, known, rfl⟩ |
    ⟨n, step, pending, top, located, new, rfl⟩ := next?_cases moves
  · exact gathers.leave top
  · exact gathers.pass top known
  · exact gathers.enter top located new

/-! ### In which order steps are listed -/

/-- A step is left after the visits to its parents, where the numbers that are ahead were visited
before. -/
def InOrder (d : Derivation) (ahead : List Nat) : List Visit → Prop
  | [] => True
  | .enter n :: later => InOrder d (n :: ahead) later
  | .leave n :: later =>
    (∀ parent, d.DependsOn n parent → d.Holds parent → parent ∈ ahead) ∧
      InOrder d (n :: ahead) later

/-- Visits stay in order when more has been visited before. -/
theorem InOrder.mono {ahead others : List Nat} {visits : List Visit}
    (inOrder : InOrder d ahead visits) (subset : ∀ n ∈ ahead, d.Holds n → n ∈ others) :
    InOrder d others visits := by
  induction visits generalizing ahead others with
  | nil => trivial
  | cons visit later ih =>
    have further : ∀ n, ∀ m ∈ n :: ahead, d.Holds m → m ∈ n :: others := fun n =>
      List.forall_mem_cons.2 ⟨fun _ => List.mem_cons_self,
        fun m member holds => List.mem_cons_of_mem _ (subset m member holds)⟩
    cases visit with
    | enter n => exact ih inOrder (further n)
    | leave n =>
      refine ⟨fun parent depends holds => ?_, ih inOrder.2 (further n)⟩
      exact subset parent (inOrder.1 parent depends holds) holds

/-- Visits are in order if the first ones are and the others are after those. -/
theorem inOrder_append_iff {ahead : List Nat} {first second : List Visit} :
    InOrder d ahead (first ++ second) ↔
      InOrder d ahead first ∧ InOrder d ((first.map Visit.number).reverse ++ ahead) second := by
  induction first generalizing ahead with
  | nil => simp [InOrder]
  | cons visit rest ih => cases visit <;> simp [InOrder, ih, Visit.number, and_assoc]

/-- Visits that only enter are in order. -/
theorem inOrder_map_enter (ahead numbers : List Nat) : InOrder d ahead (numbers.map .enter) := by
  induction numbers generalizing ahead with
  | nil => trivial
  | cons n rest ih => exact ih (n :: ahead)

/-- The steps that are listed, and those that will be, come after their parents. -/
structure Ordered (d : Derivation) (walk : Walk) : Prop where
  /-- What is visited before a step is left has a smaller number. -/
  above : walk.pending.Pairwise fun upper lower => ∀ n, lower = .leave n → upper.number < n
  /-- Steps are left after the visits to their parents. -/
  inOrder : InOrder d [] (walk.listed.reverse.map .leave ++ walk.pending)

/-- What is listed and what is to be visited are in order together if each is. -/
theorem inOrder_listed_iff {listed : List Nat} {pending : List Visit} :
    InOrder d [] (listed.reverse.map .leave ++ pending) ↔
      InOrder d [] (listed.reverse.map .leave) ∧ InOrder d listed pending := by
  rw [inOrder_append_iff, List.map_map]
  simp [Function.comp_def, Visit.number]

/-- A walk starts in order. -/
theorem ordered_start (d : Derivation) (number : Nat) : Ordered d { pending := [.enter number] } :=
  ⟨List.pairwise_singleton _ _, trivial⟩

/-- Passing over a number keeps the order: its step is listed if there is one. -/
theorem Ordered.pass (ordered : Ordered d walk) (gathers : Gathers d number walk)
    (top : walk.pending = .enter n :: pending) (known : d.get? n = none ∨ n ∈ walk.seen) :
    Ordered d { walk with pending } := by
  obtain ⟨above, inOrder⟩ := ordered
  rw [inOrder_listed_iff, top] at inOrder
  rw [top, List.pairwise_cons] at above
  have later : InOrder d (n :: walk.listed) pending := inOrder.2
  refine ⟨above.2, inOrder_listed_iff.2 ⟨inOrder.1, later.mono ?_⟩⟩
  refine List.forall_mem_cons.2 ⟨fun holds => ?_, fun m member _ => member⟩
  -- A step that was entered is listed or waits, and below its visit only larger numbers wait.
  rcases List.mem_append.1 (gathers.schedule.mem_iff.2 (holds.mem_seen known)) with listed | waits
  · exact List.mem_reverse.1 listed
  · rw [top] at waits
    have below : Visit.leave n ∈ pending := mem_of_mem_waiting waits
    exact absurd (above.1 _ below n rfl) (Nat.lt_irrefl n)

/-- Entering a step keeps the order if its parents have smaller numbers. -/
theorem Ordered.enter (ordered : Ordered d walk) (top : walk.pending = .enter n :: pending)
    (located : d.get? n = some step) (smaller : ∀ parent ∈ step.parentNumbers, parent < n) :
    Ordered d { walk with
      pending := step.parentNumbers.map .enter ++ .leave n :: pending
      seen := n :: walk.seen } := by
  obtain ⟨above, inOrder⟩ := ordered
  rw [inOrder_listed_iff, top] at inOrder
  rw [top, List.pairwise_cons] at above
  have later : InOrder d (n :: walk.listed) pending := inOrder.2
  refine ⟨List.pairwise_append.2 ⟨?_, List.pairwise_cons.2 above, ?_⟩, inOrder_listed_iff.2
    ⟨inOrder.1, inOrder_append_iff.2 ⟨inOrder_map_enter _ _, ?_, later.mono ?_⟩⟩⟩
  · exact List.pairwise_map.2 (List.pairwise_of_forall fun _ _ _ => Visit.noConfusion)
  · intro upper visited lower member m same
    obtain ⟨parent, listed, rfl⟩ := List.mem_map.1 visited
    rcases List.mem_cons.1 member with rfl | below
    · obtain rfl := Visit.leave.inj same
      exact smaller parent listed
    · exact Nat.lt_trans (smaller parent listed) (above.1 lower below m same)
  · rintro parent ⟨other, found, listed⟩ -
    obtain rfl := Option.some.inj (found.symm.trans located)
    refine List.mem_append_left _ (List.mem_reverse.2 (List.mem_map.2 ⟨.enter parent, ?_, rfl⟩))
    exact List.mem_map_of_mem listed
  · refine List.forall_mem_cons.2 ⟨fun _ => List.mem_cons_self, fun m member _ => ?_⟩
    exact List.mem_cons_of_mem _ (List.mem_append_right _ member)

/-- Where parents have smaller numbers, one visit keeps the order. -/
theorem Ordered.next? (ordered : Ordered d walk) (descending : d.Descending)
    (gathers : Gathers d number walk) (moves : walk.next? d = some next) : Ordered d next := by
  obtain ⟨n, pending, top, rfl⟩ | ⟨n, pending, top, known, rfl⟩ |
    ⟨n, step, pending, top, located, new, rfl⟩ := next?_cases moves
  · obtain ⟨above, inOrder⟩ := ordered
    rw [top] at above inOrder
    exact ⟨above.of_cons, by simpa using inOrder⟩
  · exact ordered.pass gathers top known
  · exact ordered.enter top located fun parent listed =>
      descending n parent ⟨step, located, listed⟩

/-! ### Ends of walks -/

/-- A walk that has ended has listed all ancestors. -/
theorem Gathers.lists (gathers : Gathers d number walk) (ended : walk.pending = [])
    (ordered : d.Descending → Ordered d walk) : d.Lists number walk.listed.reverse := by
  have listed : walk.listed.reverse.Perm walk.seen := by
    simpa [ended, waiting] using gathers.schedule
  have closed : ∀ n, d.Holds n → (n = number ∨ ∃ child ∈ walk.seen, d.DependsOn child n) →
      n ∈ walk.seen := fun n holds due =>
    (gathers.closed n holds due).resolve_right (by simp [ended])
  refine ⟨listed.nodup_iff.2 gathers.once, fun n => ?_, fun holds => ?_, ?_⟩
  · rw [listed.mem_iff]
    refine ⟨gathers.held n, ?_⟩
    rintro ⟨holds, path⟩
    induction path with
    | refl => exact closed number holds (.inl rfl)
    | @tail child parent path depends ih =>
      exact closed parent holds (.inr ⟨child, ih depends.holds, depends⟩)
  · rw [List.getLast?_reverse]
    rcases gathers.final with ⟨first, -⟩ | waits | ⟨-, last⟩
    · simp [ended] at first
    · simp [ended] at waits
    · exact last holds
  · intro descending before n after same parent depends holds
    have inOrder := (ordered descending).inOrder
    rw [ended, same, List.append_nil, List.map_append, inOrder_append_iff] at inOrder
    simpa [Visit.number] using inOrder.2.1 parent depends holds

end Walk

/-- The ancestry of a step lists it and everything it depends on, in the order of a proof. -/
theorem lists_ancestry (d : Derivation) (number : Nat) : d.Lists number (d.ancestry number) := by
  have pass : ∀ walk next : Walk,
      walk.Gathers d number ∧ (d.Descending → walk.Ordered d) → walk.next? d = some next →
      next.Gathers d number ∧ (d.Descending → next.Ordered d) := fun walk next kept moves =>
    ⟨kept.1.next? moves, fun descending => (kept.2 descending).next? descending kept.1 moves⟩
  obtain ⟨⟨gathers, ordered⟩, ended⟩ := Walk.finish_invariant pass
    ⟨Walk.gathers_start d number, fun _ => Walk.ordered_start d number⟩
  exact gathers.lists ended ordered

end Derivation

/-- A prover derives clauses from clauses that it holds already. -/
theorem Prover.descending_follow (budget : Budget) (calls : List Call) :
    ((new budget).follow calls).derivation.Descending := by
  rintro child parent ⟨step, located, listed⟩
  rw [follow_eq_run] at located
  obtain held | ⟨before, command, after, -, -, justified⟩ := eq_or_justified_of_run located
  · rw [get?_new] at held
    cases held
  · cases justified with
    | input => cases listed
    | resolvent less later =>
      simp only [Step.parentNumbers, List.mem_cons, List.not_mem_nil, or_false] at listed
      omega

/-- The walk from a step ends and lists the step and its ancestors, each once and the step last.
The parents of a step come before it if they have smaller numbers, and in the derivations of provers
they have. -/
theorem Derivation.ancestry_ends_and_lists_ancestors :
    (∀ (d : Derivation) (number : Nat),
      Acc (fun later earlier : Walk => earlier.next? d = some later)
        { pending := [.enter number] } ∧
      d.Lists number (d.ancestry number)) ∧
    ∀ budget calls, ((Prover.new budget).follow calls).derivation.Descending :=
  ⟨fun d number => ⟨Walk.acc_next? d _, d.lists_ancestry number⟩, Prover.descending_follow⟩

/-- A step that depends on itself, and a parent that is missing. -/
example : Derivation.ancestry ⟨#[⟨1, ⟨[]⟩, some (2, 2)⟩, ⟨2, ⟨[]⟩, some (1, 3)⟩]⟩ 1 = [2, 1] := by cbv

end Refute
