import Refute.Proofs.Justification

/-!
# The pairs of a search

A search can be said as a loop over all clauses and, for each of them, over the clauses of the
frontier, which passes over pairs that were attempted before, in whichever order. `Prover.round`
names the pairs without keeping a record: a clause is resolved with the later clauses of the
frontier. Both resolve the same pairs in the same order, and so a search is the same either way.

What has been attempted before a clause is reached is known from the numbers: the pairs of clauses
that are older than the frontier, and the pairs with an earlier clause.
-/

namespace Refute

/-! ### Pairs that were not attempted -/

/-- The pair with the smaller number first. -/
def ordered (pair : Nat × Nat) : Nat × Nat := (min pair.1 pair.2, max pair.1 pair.2)

/-- The pair is one of a clause with itself, or it was attempted in one of the two orders. -/
def isPassedOver (attempted : List (Nat × Nat)) (pair : Nat × Nat) : Bool :=
  pair.1 = pair.2 || ordered pair ∈ attempted

/-- A pair is in order, or it is put in order. -/
theorem ordered_of_lt {first second : Nat} (less : first < second) :
    ordered (first, second) = (first, second) ∧ ordered (second, first) = (first, second) := by
  simp only [ordered, Nat.min_eq_left less.le, Nat.max_eq_right less.le, Nat.min_eq_right less.le,
    Nat.max_eq_left less.le, and_self]

/-- What it takes for a pair to be passed over. -/
theorem isPassedOver_iff {attempted : List (Nat × Nat)} {pair : Nat × Nat} :
    isPassedOver attempted pair ↔ pair.1 = pair.2 ∨ ordered pair ∈ attempted := by
  rw [isPassedOver, Bool.or_eq_true, decide_eq_true_eq, decide_eq_true_eq]

/-- The pairs that are not passed over, if those that are not are recorded. -/
def untried (attempted : List (Nat × Nat)) : List (Nat × Nat) → List (Nat × Nat)
  | [] => []
  | pair :: rest =>
    if isPassedOver attempted pair then untried attempted rest
    else pair :: untried (ordered pair :: attempted) rest

/-- The record after all pairs have come up. -/
def recorded (attempted : List (Nat × Nat)) : List (Nat × Nat) → List (Nat × Nat)
  | [] => attempted
  | pair :: rest =>
    if isPassedOver attempted pair then recorded attempted rest
    else recorded (ordered pair :: attempted) rest

/-- Pairs that come up later are judged by the record that the earlier ones leave. -/
theorem untried_append (attempted first second : List (Nat × Nat)) :
    untried attempted (first ++ second) =
      untried attempted first ++ untried (recorded attempted first) second := by
  induction first generalizing attempted with
  | nil => rfl
  | cons pair rest ih =>
    simp only [List.cons_append, untried, recorded]
    split
    · exact ih attempted
    · rw [ih, List.cons_append]

/-- Pairs that come up later are added to the record that the earlier ones leave. -/
theorem recorded_append (attempted first second : List (Nat × Nat)) :
    recorded attempted (first ++ second) = recorded (recorded attempted first) second := by
  induction first generalizing attempted with
  | nil => rfl
  | cons pair rest ih =>
    simp only [List.cons_append, recorded]
    split
    · exact ih attempted
    · exact ih _

/-- What is recorded was so before, or it is a pair of two numbers that has come up. -/
theorem mem_recorded_iff {attempted pairs : List (Nat × Nat)} {entry : Nat × Nat} :
    entry ∈ recorded attempted pairs ↔
      entry ∈ attempted ∨ ∃ pair ∈ pairs, pair.1 ≠ pair.2 ∧ ordered pair = entry := by
  induction pairs generalizing attempted with
  | nil => simp [recorded]
  | cons pair rest ih =>
    simp only [recorded, List.exists_mem_cons_iff]
    split
    · rename_i passed
      rw [isPassedOver_iff] at passed
      rw [ih]
      constructor
      · exact fun known => known.imp_right .inr
      · rintro (known | ⟨different, rfl⟩ | later)
        · exact .inl known
        · exact .inl (passed.resolve_left different)
        · exact .inr later
    · rename_i fresh
      rw [isPassedOver_iff, not_or] at fresh
      rw [ih, List.mem_cons]
      constructor
      · rintro ((rfl | known) | later)
        · exact .inr (.inl ⟨fresh.1, rfl⟩)
        · exact .inl known
        · exact .inr (.inr later)
      · rintro (known | ⟨-, same⟩ | later)
        · exact .inl (.inr known)
        · exact .inl (.inl same.symm)
        · exact .inr later

/-- Pairs that are all passed over leave the record as it is. -/
theorem untried_eq_nil {attempted pairs : List (Nat × Nat)}
    (passed : ∀ pair ∈ pairs, isPassedOver attempted pair) :
    untried attempted pairs = [] ∧ recorded attempted pairs = attempted := by
  induction pairs with
  | nil => exact ⟨rfl, rfl⟩
  | cons pair rest ih =>
    rw [List.forall_mem_cons] at passed
    simp only [untried, recorded, if_pos passed.1]
    exact ih passed.2

/-- A clause is tried with all later ones if none of these pairs is recorded. -/
theorem untried_later {attempted : List (Nat × Nat)} {first : Nat} {later : List Nat}
    (distinct : later.Nodup) (after : ∀ second ∈ later, first < second)
    (fresh : ∀ second ∈ later, (first, second) ∉ attempted) :
    untried attempted (later.map (first, ·)) = later.map (first, ·) := by
  induction later generalizing attempted with
  | nil => rfl
  | cons second rest ih =>
    rw [List.nodup_cons] at distinct
    rw [List.forall_mem_cons] at after fresh
    obtain ⟨same, -⟩ := ordered_of_lt after.1
    have new : ¬ isPassedOver attempted (first, second) := by
      rw [isPassedOver_iff, same, not_or]
      exact ⟨after.1.ne, fresh.1⟩
    rw [List.map_cons, untried, if_neg new, same]
    congr 1
    refine ih distinct.2 after.2 fun other member => ?_
    rw [List.mem_cons, not_or, Prod.mk.injEq, not_and]
    exact ⟨fun _ equal => distinct.1 (equal ▸ member), fresh.2 other member⟩

/-! ### The pairs of a round -/

namespace Prover

/-- The pairs that have been attempted when a clause is reached, in a round whose frontier begins
after `old`. -/
def Tried (old size current : Nat) (attempted : List (Nat × Nat)) : Prop :=
  ∀ first second, (first, second) ∈ attempted ↔
    0 < first ∧ first < second ∧ second ≤ size ∧ (second ≤ old ∨ first < current)

/-- Numbers up to a number and those after it. -/
theorem numbersBetween_append {low middle high : Nat} (lower : low ≤ middle) (upper : middle ≤ high) :
    numbersBetween low middle ++ numbersBetween middle high = numbersBetween low high := by
  obtain ⟨count, rfl⟩ := Nat.exists_eq_add_of_le lower
  obtain ⟨more, rfl⟩ := Nat.exists_eq_add_of_le upper
  have first : low + count - low = count := by omega
  have second : low + count + more - (low + count) = more := by omega
  have both : low + count + more - low = count + more := by omega
  have next : low + count + 1 = low + 1 + count := by omega
  rw [numbersBetween, numbersBetween, numbersBetween, first, second, both, next]
  exact List.range'_append_1

/-- A number and those after it. -/
theorem numbersBetween_cons {low high : Nat} (less : low < high) :
    numbersBetween low high = (low + 1) :: numbersBetween (low + 1) high := by
  rw [← numbersBetween_append (Nat.le_succ low) less]
  simp [numbersBetween]

/-- A clause is resolved with the later clauses of the frontier. -/
theorem Tried.untried_row {old size current : Nat} {attempted : List (Nat × Nat)}
    (tried : Tried old size current attempted) (inside : current ≤ size) (begun : old ≤ size) :
    untried attempted ((numbersBetween old size).map (current, ·)) =
      (numbersBetween (max old current) size).map (current, ·) := by
  have earlier : ∀ pair ∈ (numbersBetween old (max old current)).map (current, ·),
      isPassedOver attempted pair := by
    rw [List.forall_mem_map]
    intro second member
    rw [mem_numbersBetween] at member
    rw [isPassedOver_iff]
    by_cases same : current = second
    · exact .inl same
    · right
      rw [(ordered_of_lt (show second < current by omega)).2]
      exact (tried _ _).2 (by omega)
  obtain ⟨none, unchanged⟩ := untried_eq_nil earlier
  rw [← numbersBetween_append (Nat.le_max_left old current) (Nat.max_le.2 ⟨begun, inside⟩),
    List.map_append, untried_append, none, unchanged, List.nil_append]
  refine untried_later List.nodup_range' (fun second member => ?_) (fun second member => ?_)
  · rw [mem_numbersBetween] at member
    omega
  · rw [mem_numbersBetween] at member
    rw [tried]
    omega

/-- After a clause has been attempted with the frontier the next one is reached. -/
theorem Tried.recorded_row {old size current : Nat} {attempted : List (Nat × Nat)}
    (tried : Tried old size current attempted) (positive : 0 < current) (inside : current ≤ size) :
    Tried old size (current + 1)
      (recorded attempted ((numbersBetween old size).map (current, ·))) := by
  intro first second
  rw [mem_recorded_iff, tried]
  constructor
  · rintro (known | ⟨pair, member, different, same⟩)
    · omega
    · obtain ⟨other, between, rfl⟩ := List.mem_map.1 member
      rw [mem_numbersBetween] at between
      simp only [ordered, Prod.mk.injEq] at same different
      omega
  · intro known
    by_cases before : second ≤ old ∨ first < current
    · exact .inl (by omega)
    · obtain rfl : first = current := by omega
      exact .inr ⟨(first, second), List.mem_map_of_mem (mem_numbersBetween.2 (by omega)),
        known.2.1.ne, (ordered_of_lt known.2.1).1⟩

/-- All clauses after a number with all clauses of the frontier, row by row. -/
def rows (old size start : Nat) : List (Nat × Nat) :=
  (numbersBetween start size).flatMap fun first => (numbersBetween old size).map (first, ·)

/-- The pairs of `rows` that have a later clause in the second place. -/
def laterRows (old size start : Nat) : List (Nat × Nat) :=
  (numbersBetween start size).flatMap fun first =>
    (numbersBetween (max old first) size).map (first, ·)

/-- The clauses that are left to be reached are resolved with the later clauses of the frontier. -/
theorem untried_rows {old size start : Nat} {attempted : List (Nat × Nat)}
    (tried : Tried old size (start + 1) attempted) (inside : start ≤ size) (begun : old ≤ size) :
    untried attempted (rows old size start) = laterRows old size start ∧
      Tried old size (size + 1) (recorded attempted (rows old size start)) := by
  obtain ⟨left, rfl⟩ := Nat.exists_eq_add_of_le inside
  -- By induction on the number of clauses that are left, one row at a time.
  induction left generalizing start attempted with
  | zero =>
    have none : numbersBetween start (start + 0) = [] := by simp [numbersBetween]
    rw [rows, laterRows, none]
    exact ⟨rfl, tried⟩
  | succ left ih =>
    have same : start + (left + 1) = start + 1 + left := by omega
    rw [same] at tried begun ⊢
    have reached := Nat.le_add_right (start + 1) left
    have row := tried.untried_row reached begun
    obtain ⟨others, last⟩ := ih (tried.recorded_row start.succ_pos reached) reached begun
    have split := numbersBetween_cons (show start < start + 1 + left by omega)
    rw [rows, laterRows, split, List.flatMap_cons, List.flatMap_cons, untried_append, row,
      recorded_append]
    exact ⟨congrArg _ others, last⟩

/-- After a round all pairs of its clauses have been attempted, and the next frontier begins after
them. -/
theorem Tried.next {old size next : Nat} {attempted : List (Nat × Nat)}
    (tried : Tried old size (size + 1) attempted) (longer : size ≤ next) :
    Tried size next 1 attempted := by
  intro first second
  rw [tried]
  omega

end Prover

/-! ### A search that keeps a record -/

/-- A search in progress, with the pairs that it has attempted. -/
structure Agenda where
  /-- The prover as the search has left it so far. -/
  prover : Prover
  /-- The pairs that were resolved, each with the smaller number first. -/
  attempted : List (Nat × Nat)

namespace Agenda

open Prover

variable (interrupt : Interrupt)

/-- Resolves two clauses unless they are passed over. -/
def attempt (agenda : Agenda) (first second : Nat) : Except Ending Agenda :=
  if isPassedOver agenda.attempted (first, second) then .ok agenda
  else (agenda.prover.resolvePair interrupt first second).map
    (⟨·, ordered (first, second) :: agenda.attempted⟩)

/-- Attempts every clause with every clause of the frontier. -/
def round (clauses frontier : List Nat) (agenda : Agenda) : Except Ending Agenda :=
  clauses.foldlM (fun agenda first =>
    frontier.foldlM (fun agenda second => agenda.attempt interrupt first second) agenda) agenda

/-- Searches for at most the given number of rounds. The clauses that a round adds are the frontier
of the next. -/
def searchFrom : Nat → List Nat → List Nat → Agenda → Ending
  | 0, _, _, agenda => ⟨.stopped .rounds, agenda.prover⟩
  | remaining + 1, clauses, frontier, agenda =>
    match round interrupt clauses frontier ⟨agenda.prover.countRound, agenda.attempted⟩ with
    | .error ending => ending
    | .ok next =>
      let added := (next.prover.derivation.steps.toList.map Step.number).drop
        agenda.prover.derivation.size
      if added.isEmpty then ⟨.saturated, next.prover⟩
      else searchFrom remaining (clauses ++ added) added next

/-- Searches for the empty clause from all clauses held, with nothing attempted. -/
def search (prover : Prover) : Outcome × Prover :=
  match prover.derivation.emptyClause? with
  | some number => (prover.outcome (.proof number), prover)
  | none =>
    let clauses := prover.derivation.steps.toList.map Step.number
    let ending := searchFrom interrupt (prover.budget.rounds - prover.rounds) clauses clauses
      ⟨prover, []⟩
    (ending.prover.outcome ending.verdict, ending.prover)

/-- Attempting pairs resolves those that are not passed over, and records them. -/
theorem foldlM_attempt (pairs : List (Nat × Nat)) (agenda : Agenda) :
    pairs.foldlM (fun agenda pair => agenda.attempt interrupt pair.1 pair.2) agenda =
      ((untried agenda.attempted pairs).foldlM
        (fun prover pair => resolvePair interrupt prover pair.1 pair.2) agenda.prover).map
          (⟨·, recorded agenda.attempted pairs⟩) := by
  induction pairs generalizing agenda with
  | nil => rfl
  | cons pair rest ih =>
    simp only [List.foldlM_cons, attempt, untried, recorded]
    split
    · exact ih agenda
    · rw [List.foldlM_cons]
      cases agenda.prover.resolvePair interrupt pair.1 pair.2 with
      | error ending => rfl
      | ok next => exact ih ⟨next, ordered pair :: agenda.attempted⟩

/-- The numbers that a longer derivation has after those of a shorter one. -/
theorem drop_map_number {d : Derivation} (numbered : d.Numbered) (size : Nat) :
    (d.steps.toList.map Step.number).drop size = numbersBetween size d.size := by
  rw [numbered.map_number, List.drop_range', numbersBetween]
  congr 1
  omega

/-- A round over all clauses and a frontier is the round that resolves every clause with the later
ones of the frontier, and it leaves a record for the next round. -/
theorem round_eq {old size : Nat} {attempted : List (Nat × Nat)} (prover : Prover)
    (tried : Tried old size 1 attempted) (begun : old ≤ size) :
    ∃ later, Tried old size (size + 1) later ∧
      round interrupt (numbersBetween 0 size) (numbersBetween old size) ⟨prover, attempted⟩ =
        (prover.round interrupt old size).map (⟨·, later⟩) := by
  obtain ⟨same, last⟩ := untried_rows tried size.zero_le begun
  refine ⟨_, last, ?_⟩
  rw [round, foldlM_pairs (attempt interrupt), foldlM_attempt, Prover.round,
    foldlM_pairs (resolvePair interrupt)]
  -- The rows are the pairs of both loops, with the loop over the later ones on the right.
  change Except.map _ (List.foldlM _ _ (untried attempted (rows old size 0))) = _
  rw [same]
  rfl

/-- Round by round, a search that keeps a record goes on like one that does not. -/
theorem searchFrom_eq {old : Nat} {attempted : List (Nat × Nat)} {prover : Prover} (remaining : Nat)
    (numbered : prover.derivation.Numbered)
    (tried : Tried old prover.derivation.size 1 attempted) (begun : old ≤ prover.derivation.size) :
    searchFrom interrupt remaining (numbersBetween 0 prover.derivation.size)
        (numbersBetween old prover.derivation.size) ⟨prover, attempted⟩ =
      prover.searchFrom interrupt remaining old := by
  induction remaining generalizing old attempted prover with
  | zero => rfl
  | succ remaining ih =>
    obtain ⟨later, last, same⟩ := round_eq interrupt prover.countRound tried begun
    rw [searchFrom, Prover.searchFrom, same]
    cases done : prover.countRound.round interrupt old prover.derivation.size with
    | error ending => rfl
    | ok next =>
      have continues : prover.countRound.Continues next := (round_ok (by rfl) done).1
      have longer : prover.derivation.size ≤ next.derivation.size := continues.derivation.size_le
      have after : next.derivation.Numbered := continues.derivation.numbered numbered
      have added := drop_map_number after prover.derivation.size
      simp only [Except.map, added]
      by_cases nothing : next.derivation.size = prover.derivation.size
      · rw [if_pos nothing, nothing]
        simp [numbersBetween]
      · have some : ¬ (numbersBetween prover.derivation.size next.derivation.size).isEmpty := by
          rw [numbersBetween_cons (by omega)]
          simp
        rw [if_neg nothing, if_neg some, numbersBetween_append (Nat.zero_le _) longer]
        exact ih after (last.next longer) longer

/-- A search that passes over the pairs it has attempted ends as one that resolves every clause with
the later ones of the frontier. -/
theorem search_eq {prover : Prover} (numbered : prover.derivation.Numbered) :
    search interrupt prover = prover.search interrupt := by
  have all : prover.derivation.steps.toList.map Step.number =
      numbersBetween 0 prover.derivation.size := numbered.map_number
  have nothing : Tried 0 prover.derivation.size 1 [] := by
    intro first second
    simp only [List.not_mem_nil, false_iff]
    omega
  have rounds := searchFrom_eq interrupt (prover.budget.rounds - prover.rounds) numbered nothing
    (Nat.zero_le _)
  unfold search Prover.search
  cases prover.derivation.emptyClause? with
  | some number => rfl
  | none => simp only [all, rounds]

/-- Whatever a prover has been asked before, its next search resolves the pairs that a loop over all
clauses and the frontier finds not attempted. -/
theorem search_follow (budget : Budget) (calls : List Call) :
    search interrupt ((new budget).follow calls) = ((new budget).follow calls).search interrupt :=
  search_eq interrupt (numbered_follow budget calls)

end Agenda

end Refute
