import Refute.Clause.Basic

/-!
# Derivations

A derivation is a growing list of clauses. A clause is given a number when it is entered, and keeps
it; the numbers go from 1 up in the order in which clauses are entered, so a number is also a place.
A clause is an input or was derived from two parents, which are given by their numbers.
-/

namespace Refute

/-- A clause, its number and where it comes from. -/
structure Step where
  /-- The number that the clause was given. -/
  number : Nat
  /-- The clause. -/
  clause : Clause
  /-- The numbers of its parents, if it was derived. -/
  parents : Option (Nat × Nat)

/-- The numbers of the parents, none for an input. -/
def Step.parentNumbers (step : Step) : List Nat :=
  match step.parents with
  | none => []
  | some (left, right) => [left, right]

/-- Clauses with their numbers and parents. -/
structure Derivation where
  /-- The steps in order. -/
  steps : Array Step

namespace Derivation

/-- The derivation without steps. -/
def empty : Derivation := ⟨#[]⟩

/-- The number of steps. -/
def size (d : Derivation) : Nat := d.steps.size

/-- Enters a clause under the next number. -/
def insert (d : Derivation) (clause : Clause) (parents : Option (Nat × Nat)) : Derivation :=
  ⟨d.steps.push ⟨d.size + 1, clause, parents⟩⟩

/-- The step at the place that a number stands for. -/
def get? (d : Derivation) : Nat → Option Step
  | 0 => none
  | index + 1 => d.steps[index]?

/-- The number of the first empty clause. -/
def emptyClause? (d : Derivation) : Option Nat :=
  (d.steps.find? fun step => step.clause.isEmpty).map Step.number

/-! ### Ancestors -/

/-- What a walk through parents has still to do with a number. -/
inductive Visit where
  /-- Look at the step, and at its parents before it is left. -/
  | enter (number : Nat)
  /-- List the step. -/
  | leave (number : Nat)

/-- A walk through parents. -/
structure Walk where
  /-- The visits that are left to make, the next one first. -/
  pending : List Visit
  /-- The steps that were entered. -/
  seen : List Nat := []
  /-- The steps that were left, the last one first. -/
  listed : List Nat := []

/-- The number of steps that a walk has not entered. -/
def unseen (d : Derivation) (seen : List Nat) : Nat :=
  (List.range' 1 d.size).countP (· ∉ seen)

namespace Walk

/-- Makes one visit, if any is left. A step is entered once: its parents are visited, the left one
first, and then it is left. A number without a step is passed over. -/
def next? (d : Derivation) (walk : Walk) : Option Walk :=
  match walk.pending with
  | [] => none
  | .leave number :: pending => some { walk with pending, listed := number :: walk.listed }
  | .enter number :: pending =>
    match d.get? number with
    | none => some { walk with pending }
    | some step =>
      if number ∈ walk.seen then some { walk with pending }
      else
        some { walk with
          pending := step.parentNumbers.map .enter ++ .leave number :: pending
          seen := number :: walk.seen }

end Walk

/-- Entering a step that was not entered leaves fewer such steps. -/
theorem unseen_cons_lt {d : Derivation} {seen : List Nat} {number : Nat} {step : Step}
    (located : d.get? number = some step) (new : number ∉ seen) :
    d.unseen (number :: seen) < d.unseen seen := by
  have fewer : ∀ numbers : List Nat, number ∈ numbers →
      numbers.countP (· ∉ number :: seen) < numbers.countP (· ∉ seen) := by
    intro numbers member
    obtain ⟨before, after, rfl⟩ := List.append_of_mem member
    have mono : ∀ others : List Nat,
        others.countP (· ∉ number :: seen) ≤ others.countP (· ∉ seen) := fun others =>
      List.countP_mono_left fun other _ unseen => by simp_all
    have left := mono before
    have right := mono after
    rw [List.countP_append, List.countP_append, List.countP_cons_of_neg (by simp),
      List.countP_cons_of_pos (by simpa using new)]
    omega
  refine fewer _ (List.mem_range'_1.2 ?_)
  cases number with
  | zero => cases located
  | succ index =>
    have inside : index < d.size := (Array.getElem?_eq_some_iff.1 located).1
    omega

namespace Walk

/-- A visit lists a step that is left, passes over a number, or enters a step. -/
theorem next?_cases {d : Derivation} {walk next : Walk} (moves : walk.next? d = some next) :
    (∃ number pending, walk.pending = .leave number :: pending ∧
      next = { walk with pending, listed := number :: walk.listed }) ∨
    (∃ number pending, walk.pending = .enter number :: pending ∧
      (d.get? number = none ∨ number ∈ walk.seen) ∧ next = { walk with pending }) ∨
    ∃ number step pending, walk.pending = .enter number :: pending ∧
      d.get? number = some step ∧ number ∉ walk.seen ∧ next =
        { walk with
          pending := step.parentNumbers.map .enter ++ .leave number :: pending
          seen := number :: walk.seen } := by
  unfold next? at moves
  split at moves
  · cases moves
  · exact .inl ⟨_, _, ‹_›, (Option.some.inj moves).symm⟩
  · split at moves
    · exact .inr (.inl ⟨_, _, ‹_›, .inl ‹_›, (Option.some.inj moves).symm⟩)
    · split at moves
      · exact .inr (.inl ⟨_, _, ‹_›, .inr ‹_›, (Option.some.inj moves).symm⟩)
      · exact .inr (.inr ⟨_, _, _, ‹_›, ‹_›, ‹_›, (Option.some.inj moves).symm⟩)

/-- A visit leaves fewer steps to enter, or else fewer visits to make. -/
theorem next?_decreases {d : Derivation} {walk next : Walk} (moves : walk.next? d = some next) :
    Prod.Lex (· < ·) (· < ·) (d.unseen next.seen, next.pending.length)
      (d.unseen walk.seen, walk.pending.length) := by
  obtain ⟨number, pending, top, rfl⟩ | ⟨number, pending, top, -, rfl⟩ |
    ⟨number, step, pending, -, located, new, rfl⟩ := next?_cases moves
  · exact .right _ (top ▸ Nat.lt_succ_self _)
  · exact .right _ (top ▸ Nat.lt_succ_self _)
  · exact .left _ _ (unseen_cons_lt located new)

/-- Makes all visits. -/
def finish (d : Derivation) (walk : Walk) : Walk :=
  match _ : walk.next? d with
  | none => walk
  | some next => next.finish d
termination_by (d.unseen walk.seen, walk.pending.length)
decreasing_by exact next?_decreases ‹_›

end Walk

/-- The numbers of a step and of everything it depends on, each after those it depends on. -/
def ancestry (d : Derivation) (number : Nat) : List Nat :=
  (Walk.finish d { pending := [.enter number] }).listed.reverse

end Derivation

end Refute
