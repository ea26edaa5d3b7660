import Mathlib.Logic.Basic

/-!
# Loops

Readers and searches are loops over lists that stop at the first failure. A loop that does not fail
keeps what its passes keep, and one that fails does so in one of its passes. Other loops cut a list
at the first member of a kind, or they collect: what is in their list stays in it.
-/

namespace Refute

section Loops

variable {σ ε α β : Type} {f : σ → α → Except ε σ} {P : σ → Prop}

/-- A sequence succeeds when its parts do. -/
theorem bind_eq_ok_iff {first : Except ε α} {next : α → Except ε β} {result : β} :
    (first >>= next) = .ok result ↔ ∃ value, first = .ok value ∧ next value = .ok result := by
  cases first <;> simp [Bind.bind, Except.bind]

/-- A loop over two lists is a loop over the first and then one over the second. -/
theorem foldlM_append_of_ok {as : List α} {s t : σ} (first : as.foldlM f s = .ok t) (bs : List α) :
    (as ++ bs).foldlM f s = bs.foldlM f t := by
  rw [List.foldlM_append, first]
  rfl

/-- What every pass establishes and the later ones keep holds after a loop that does not fail. -/
theorem foldlM_ok {C : α → σ → Prop} {as : List α} {s t : σ}
    (pass : ∀ s a t, P s → a ∈ as → f s a = .ok t → P t ∧ C a t ∧ ∀ b, C b s → C b t)
    (start : P s) (run : as.foldlM f s = .ok t) :
    P t ∧ (∀ a ∈ as, C a t) ∧ ∀ b, C b s → C b t := by
  induction as generalizing s with
  | nil =>
    obtain rfl := Except.ok.inj run
    exact ⟨start, fun _ member => absurd member List.not_mem_nil, fun _ => id⟩
  | cons a as ih =>
    rw [List.foldlM_cons, bind_eq_ok_iff] at run
    obtain ⟨next, first, others⟩ := run
    obtain ⟨holds, done, kept⟩ := pass s a next start List.mem_cons_self first
    obtain ⟨last, rest, later⟩ :=
      ih (fun s b t now member => pass s b t now (List.mem_cons_of_mem a member)) holds others
    refine ⟨last, fun b member => ?_, fun b before => later b (kept b before)⟩
    rcases List.mem_cons.1 member with rfl | member
    · exact later b done
    · exact rest b member

/-- What every pass keeps holds after a loop that does not fail. -/
theorem foldlM_invariant {as : List α} {s t : σ}
    (pass : ∀ s a t, P s → a ∈ as → f s a = .ok t → P t) (start : P s)
    (run : as.foldlM f s = .ok t) : P t :=
  (foldlM_ok (C := fun _ _ => True)
    (fun s a t holds member done => ⟨pass s a t holds member done, trivial, fun _ => id⟩) start run).1

/-- A loop fails in one of its passes. -/
theorem foldlM_error {as : List α} {s : σ} {e : ε}
    (pass : ∀ s a t, P s → a ∈ as → f s a = .ok t → P t)
    (start : P s) (run : as.foldlM f s = .error e) : ∃ t, P t ∧ ∃ a ∈ as, f t a = .error e := by
  induction as generalizing s with
  | nil => cases run
  | cons a as ih =>
    rw [List.foldlM_cons] at run
    cases first : f s a with
    | error cause =>
      simp only [first, Bind.bind, Except.bind, Except.error.injEq] at run
      exact ⟨s, start, a, List.mem_cons_self, run ▸ first⟩
    | ok next =>
      simp only [first, Bind.bind, Except.bind] at run
      obtain ⟨t, holds, b, member, failed⟩ :=
        ih (fun s b t now member => pass s b t now (List.mem_cons_of_mem a member))
          (pass s a next start List.mem_cons_self first) run
      exact ⟨t, holds, b, List.mem_cons_of_mem a member, failed⟩

/-- What holds at the start of a loop and after every pass, one that fails included, holds after the
loop. -/
theorem foldlM_either {R : Except ε σ → Prop} {as : List α}
    (pass : ∀ s, ∀ a ∈ as, R (.ok s) → R (f s a)) {s : σ} (start : R (.ok s)) :
    R (as.foldlM f s) := by
  induction as generalizing s with
  | nil => exact start
  | cons a as ih =>
    have first := pass s a List.mem_cons_self start
    rw [List.foldlM_cons]
    cases done : f s a with
    | error cause =>
      rw [done] at first
      exact first
    | ok next =>
      rw [done] at first
      exact ih (fun s b member => pass s b (List.mem_cons_of_mem a member)) first

/-- A loop of loops is one loop over the pairs, in the order in which they come up. -/
theorem foldlM_pairs (g : σ → α → β → Except ε σ) (as : List α) (bs : α → List β) (s : σ) :
    as.foldlM (fun s a => (bs a).foldlM (fun s b => g s a b) s) s =
      (as.flatMap fun a => (bs a).map (a, ·)).foldlM (fun s pair => g s pair.1 pair.2) s := by
  induction as generalizing s with
  | nil => rfl
  | cons a as ih =>
    rw [List.flatMap_cons, List.foldlM_append, List.foldlM_cons, List.foldlM_map]
    exact bind_congr ih

end Loops

/-! ### Cutting lists -/

/-- What passes is taken and the rest is left, if the rest starts with something that fails. -/
theorem takeWhile_append_of_stop {α : Type} {p : α → Bool} {part rest : List α}
    (passes : ∀ a ∈ part, p a = true) (stops : ∀ a ∈ rest.head?, p a = false) :
    (part ++ rest).takeWhile p = part ∧ (part ++ rest).dropWhile p = rest := by
  rw [List.takeWhile_append_of_pos passes, List.dropWhile_append_of_pos passes]
  cases rest with
  | nil => simp
  | cons a rest =>
    have stop : p a = false := stops a rfl
    simp [stop]

/-! ### Loops that collect -/

/-- What every step of a fold keeps is there in the end. -/
theorem subset_foldl {α β : Type} {f : List α → β → List α} {bs : List β}
    (keeps : ∀ b ∈ bs, ∀ found, found ⊆ f found b) (found : List α) : found ⊆ bs.foldl f found := by
  induction bs generalizing found with
  | nil => exact List.Subset.refl found
  | cons b rest ih =>
    rw [List.forall_mem_cons] at keeps
    exact List.Subset.trans (keeps.1 found) (ih keeps.2 (f found b))

/-- What one step of a fold brings in, and the others keep, is there in the end. -/
theorem contains_foldl {α β : Type} [BEq α] {f : List α → β → List α} {bs : List β}
    (keeps : ∀ b ∈ bs, ∀ found, found ⊆ f found b) {b : β} (member : b ∈ bs) {a : α}
    (brings : ∀ found, (f found b).contains a) (found : List α) :
    (bs.foldl f found).contains a := by
  induction bs generalizing found with
  | nil => exact absurd member List.not_mem_nil
  | cons first rest ih =>
    rw [List.forall_mem_cons] at keeps
    rcases List.mem_cons.1 member with rfl | later
    · obtain ⟨other, inside, same⟩ := List.contains_iff_exists_mem_beq.1 (brings found)
      exact List.contains_iff_exists_mem_beq.2
        ⟨other, subset_foldl keeps.2 _ inside, same⟩
    · exact ih keeps.2 later (f found first)

end Refute
