import Refute.Proofs.Identity

/-!
# Clauses as sets

A clause is kept as a list without repeats, and what the list contains decides everything else about
the clause. Two clauses are equal exactly if they contain the same expressions, and a merged clause
contains what one of the two contains; so merging obeys the laws of a union. Because no two literals
of a clause are equal, clauses that are equal are also equally long.

All this needs expressions that are equal to themselves, which those with a NaN are not.
-/

namespace Refute

/-- Things of which no two are equal are not more than the things of a list that contains them. -/
theorem length_le_of_contains {α : Type} [BEq α] [PartialEquivBEq α] {as bs : List α}
    (distinct : as.Pairwise fun a b => (a == b) = false) (held : ∀ a ∈ as, bs.contains a) :
    as.length ≤ bs.length := by
  induction as generalizing bs with
  | nil => exact Nat.zero_le _
  | cons a as ih =>
    obtain ⟨apart, distinct⟩ := List.pairwise_cons.1 distinct
    obtain ⟨b, member, same⟩ := List.contains_iff_exists_mem_beq.1 (held a List.mem_cons_self)
    -- What contains `a` gives way, and it contains none of the others.
    have fewer : (bs.eraseP (a == ·)).length + 1 = bs.length := by
      have removed := List.length_eraseP_of_mem (p := (a == ·)) member same
      have nonempty := List.length_pos_of_mem member
      omega
    have others : as.length ≤ (bs.eraseP (a == ·)).length := by
      refine ih distinct fun c later => ?_
      obtain ⟨d, inside, equal⟩ :=
        List.contains_iff_exists_mem_beq.1 (held c (List.mem_cons_of_mem a later))
      have stays : ¬ (a == d) = true := by
        intro taken
        have collides : (a == c) = true := BEq.trans taken (BEq.symm equal)
        rw [apart c later] at collides
        cases collides
      exact List.contains_iff_exists_mem_beq.2 ⟨d, (List.mem_eraseP_of_neg stays).2 inside, equal⟩
    rw [List.length_cons]
    omega

namespace Clause

/-! ### Repeats -/

/-- No two literals are equal. -/
def NoRepeats (clause : Clause) : Prop :=
  clause.literals.Pairwise fun a b => (a == b) = false

variable {clause other third : Clause} {literal : Expr} {literals : List Expr}

/-- Adding a literal repeats none. -/
theorem NoRepeats.add (noRepeats : clause.NoRepeats) (literal : Expr) :
    (clause.add literal).NoRepeats := by
  unfold Clause.add
  split
  · exact noRepeats
  · rename_i absent
    refine List.pairwise_append.2 ⟨noRepeats, List.pairwise_singleton _ _, fun a member b last => ?_⟩
    obtain rfl := List.mem_singleton.1 last
    refine Bool.eq_false_iff.2 fun same => absent ?_
    exact List.contains_iff_exists_mem_beq.2 ⟨a, member, BEq.symm same⟩

/-- Adding literals repeats none. -/
theorem NoRepeats.foldl_add (noRepeats : clause.NoRepeats) (literals : List Expr) :
    (literals.foldl Clause.add clause).NoRepeats := by
  induction literals generalizing clause with
  | nil => exact noRepeats
  | cons literal rest ih => exact ih (noRepeats.add literal)

/-- A clause made of a list has no repeats. -/
theorem noRepeats_ofList (literals : List Expr) : (ofList literals).NoRepeats :=
  NoRepeats.foldl_add List.Pairwise.nil literals

/-- A clause without repeats is not longer than one that contains its literals. -/
theorem NoRepeats.length_le (noRepeats : clause.NoRepeats) (subset : clause.subset other) :
    clause.length ≤ other.length :=
  length_le_of_contains noRepeats (List.all_eq_true.1 subset)

/-! ### Contents -/

/-- No literal has a NaN. -/
def NaNFree (clause : Clause) : Prop :=
  clause.Everywhere fun head _ => head.isNaN = false

/-- A clause contains its own literals. -/
theorem NaNFree.contains (numbers : clause.NaNFree) (member : literal ∈ clause.literals) :
    clause.contains literal :=
  contains_of_mem member (numbers literal member)

/-- A merged clause contains what one of the two contains. -/
theorem contains_merge {sought : Expr} :
    (clause.merge other).contains sought ↔ clause.contains sought ∨ other.contains sought :=
  contains_foldl_add

/-- The clause contains no more than the other one. -/
theorem subset_iff (numbers : clause.NaNFree) :
    clause.subset other ↔ ∀ sought, clause.contains sought → other.contains sought := by
  constructor
  · intro subset sought held
    obtain ⟨literal, member, same⟩ := List.contains_iff_exists_mem_beq.1 held
    exact contains_of_beq same (List.all_eq_true.1 subset literal member)
  · intro holds
    exact List.all_eq_true.2 fun literal member => holds literal (numbers.contains member)

/-- Clauses are equal when they contain the same expressions. -/
theorem beq_iff_contains (numbers : clause.NaNFree) (others : other.NaNFree) :
    clause == other ↔ ∀ sought, clause.contains sought ↔ other.contains sought := by
  change (clause.subset other && other.subset clause) = true ↔ _
  rw [Bool.and_eq_true, subset_iff numbers, subset_iff others]
  exact ⟨fun both sought => ⟨both.1 sought, both.2 sought⟩,
    fun same => ⟨fun sought => (same sought).1, fun sought => (same sought).2⟩⟩

/-! ### Clauses that are built -/

/-- The clauses that the operations make of expressions without NaN. -/
inductive Built : Clause → Prop
  | empty : Built empty
  | singleton {literal : Expr} (number : literal.NaNFree) : Built (singleton literal)
  | ofList {literals : List Expr} (numbers : ∀ literal ∈ literals, literal.NaNFree) :
      Built (ofList literals)
  | add {clause : Clause} {literal : Expr} (built : Built clause) (number : literal.NaNFree) :
      Built (clause.add literal)
  | merge {clause other : Clause} (built : Built clause) (others : Built other) :
      Built (clause.merge other)
  | without {clause : Clause} (built : Built clause) (index : Nat) : Built (clause.without index)

/-- No NaN occurs in a clause that is built. -/
theorem Built.nanFree (built : clause.Built) : clause.NaNFree := by
  induction built with
  | empty => exact List.forall_mem_nil _
  | singleton number => exact List.forall_mem_singleton.2 number
  | ofList numbers => exact fun literal member => numbers literal (mem_of_mem_ofList member)
  | @add clause added _ number ih =>
    intro literal member
    have member : literal ∈ ([added].foldl Clause.add clause).literals := member
    rcases mem_of_mem_foldl_add member with old | new
    · exact ih literal old
    · exact List.mem_singleton.1 new ▸ number
  | merge _ _ first second => exact Everywhere.merge first second
  | without _ index ih => exact Everywhere.without ih index

/-- A clause that is built has no repeats. -/
theorem Built.noRepeats (built : clause.Built) : clause.NoRepeats := by
  induction built with
  | empty => exact List.Pairwise.nil
  | singleton => exact List.pairwise_singleton _ _
  | ofList => exact noRepeats_ofList _
  | add _ _ ih => exact ih.add _
  | merge _ _ ih => exact ih.foldl_add _
  | without => exact noRepeats_ofList _

/-- Clauses that are built are equal exactly if they contain the same expressions. -/
theorem Built.beq_iff (built : clause.Built) (others : other.Built) :
    clause == other ↔ ∀ sought, clause.contains sought ↔ other.contains sought :=
  beq_iff_contains built.nanFree others.nanFree

/-- Equal clauses are equally long. -/
theorem Built.length_eq (built : clause.Built) (others : other.Built) (same : clause == other) :
    clause.length = other.length := by
  obtain ⟨left, right⟩ := Bool.and_eq_true_iff.1 same
  exact Nat.le_antisymm (built.noRepeats.length_le left) (others.noRepeats.length_le right)

/-- Lists with the same members make equal clauses, whatever the order and the repeats. -/
theorem ofList_beq_ofList {others : List Expr} (numbers : ∀ literal ∈ literals, literal.NaNFree)
    (same : ∀ literal, literal ∈ literals ↔ literal ∈ others) : ofList literals == ofList others := by
  have again : ∀ literal ∈ others, literal.NaNFree :=
    fun literal member => numbers literal ((same literal).2 member)
  refine (Built.beq_iff (.ofList numbers) (.ofList again)).2 fun sought => ?_
  simp only [contains_ofList, List.contains_iff_exists_mem_beq, same]

/-- Clauses that are built have no repeats. Up to equality, which is an equivalence and keeps their
lengths, they are the sets of the literals they are made from, and merging makes a semilattice of
them. -/
theorem built_semilattice :
    (∀ clause : Clause, clause.Built → clause.NoRepeats) ∧
    Equivalence (fun clause other : { clause : Clause // clause.Built } => clause.1 == other.1) ∧
    (∀ clause other : Clause, clause.Built → other.Built → clause == other →
      clause.length = other.length) ∧
    (∀ literals others : List Expr, (∀ literal ∈ literals, literal.NaNFree) →
      (∀ literal, literal ∈ literals ↔ literal ∈ others) → ofList literals == ofList others) ∧
    (∀ a b c : Clause, a.Built → b.Built → c.Built →
      (a.merge b).merge c == a.merge (b.merge c)) ∧
    (∀ a b : Clause, a.Built → b.Built → a.merge b == b.merge a) ∧
    (∀ a : Clause, a.Built → a.merge a == a) ∧
    (∀ a a' b b' : Clause, a.Built → a'.Built → b.Built → b'.Built → a == a' → b == b' →
      a.merge b == a'.merge b') := by
  refine ⟨fun _ => Built.noRepeats, ⟨?_, ?_, ?_⟩, fun _ _ => Built.length_eq,
    fun _ _ => ofList_beq_ofList, ?_, ?_, ?_, ?_⟩
  · rintro ⟨a, ha⟩
    exact (ha.beq_iff ha).2 fun _ => Iff.rfl
  · rintro ⟨a, ha⟩ ⟨b, hb⟩ same
    exact (hb.beq_iff ha).2 fun sought => ((ha.beq_iff hb).1 same sought).symm
  · rintro ⟨a, ha⟩ ⟨b, hb⟩ ⟨c, hc⟩ first second
    exact (ha.beq_iff hc).2 fun sought =>
      ((ha.beq_iff hb).1 first sought).trans ((hb.beq_iff hc).1 second sought)
  · intro a b c ha hb hc
    refine (((ha.merge hb).merge hc).beq_iff (ha.merge (hb.merge hc))).2 fun sought => ?_
    simp only [contains_merge, or_assoc]
  · intro a b ha hb
    refine ((ha.merge hb).beq_iff (hb.merge ha)).2 fun sought => ?_
    simp only [contains_merge, or_comm]
  · intro a ha
    refine ((ha.merge ha).beq_iff ha).2 fun sought => ?_
    simp only [contains_merge, or_self]
  · intro a a' b b' ha ha' hb hb' first second
    refine ((ha.merge hb).beq_iff (ha'.merge hb')).2 fun sought => ?_
    rw [contains_merge, contains_merge, (ha.beq_iff ha').1 first sought,
      (hb.beq_iff hb').1 second sought]

/-- Two clauses that are built of the same literals in another order are equal and equally long. -/
theorem built_semilattice_reordered :
    let a : Expr := .leaf (.const ⟨"a", .text "a"⟩)
    let b : Expr := .leaf (.const ⟨"b", .integer 1⟩)
    let first := ofList [a, b, a]
    let second := (singleton b).add a
    first.Built ∧ second.Built ∧ first == second ∧ first.length = second.length ∧
      first.merge second == second.merge first := by
  intro a b first second
  have letter : a.NaNFree := by
    simp [a, Expr.NaNFree, Expr.leaf, Expr.Everywhere, Expr.EverywhereArgs, Symbol.isNaN, Value.isNaN]
  have number : b.NaNFree := by
    simp [b, Expr.NaNFree, Expr.leaf, Expr.Everywhere, Expr.EverywhereArgs, Symbol.isNaN, Value.isNaN]
  have listed : first.Built := .ofList (by simp [letter, number])
  have added : second.Built := .add (.singleton number) letter
  have same : first == second := rfl
  obtain ⟨-, -, lengths, -, -, commutes, -⟩ := built_semilattice
  exact ⟨listed, added, same, lengths _ _ listed added same, commutes _ _ listed added⟩

end Clause

end Refute
