import Mathlib.Algebra.Order.Ring.Nat
import Mathlib.Data.Finset.Card
import Mathlib.Tactic.Linarith
import Mathlib.Tactic.Ring
import Refute.Proofs.Halting
import Refute.Proofs.Substitution

/-!
# Most general unifiers

Unification of terms without Skolem functions always ends, and it ends with a unifier exactly when
some substitution makes the terms equal apart from their signs. The unifier is then most general:
every such substitution solves it, so it does not tell a term from its instance under the unifier.

Both follow from one statement about a run within a number of moves. Between two bindings every move
brings the two terms closer to their images, and a binding leaves one variable less to be bound. No
term met on the way is larger than the larger of the two terms, which bounds the way to an image by
the number of bindings.
-/

namespace Refute

/-! ### Terms with given variables -/

/-- The symbol may occur with this many arguments: a variable is one of the given ones and stands
alone, and there is neither a Skolem function nor a NaN. -/
structure Symbol.Admitted (names : Finset (Nat × Bool)) (head : Symbol) (count : Nat) : Prop where
  /-- Variables stand alone. -/
  alone : ∀ v, head = .var v → count = 0
  /-- Variables are given ones. -/
  given : ∀ v, head = .var v → v.identity ∈ names
  /-- There is no Skolem function. -/
  plain : ∀ s, head ≠ .skolem s
  /-- There is no NaN. -/
  number : head.isNaN = false

namespace Expr

/-- Admitted symbols only occur in the term. -/
def Admitted (names : Finset (Nat × Bool)) (e : Expr) : Prop := e.Everywhere (Symbol.Admitted names)

variable {names more : Finset (Nat × Bool)} {e : Expr}

/-- What is admitted stays so when more variables are. -/
theorem Admitted.mono (admitted : e.Admitted names) (subset : names ⊆ more) : e.Admitted more :=
  Everywhere.imp (fun _ _ known =>
    ⟨known.alone, fun v same => subset (known.given v same), known.plain, known.number⟩) admitted

/-- Variables stand alone in what is admitted. -/
theorem Admitted.firstOrder (admitted : e.Admitted names) : e.FirstOrder :=
  Everywhere.imp (fun _ _ known => known.alone) admitted

/-- No NaN occurs in what is admitted. -/
theorem Admitted.naNFree (admitted : e.Admitted names) : e.NaNFree :=
  Everywhere.imp (fun _ _ known => known.number) admitted

/-- An unknown that is admitted is a variable that stands alone. -/
theorem Admitted.exists_variable (admitted : e.Admitted names) (isUnknown : e.isUnknown) :
    ∃ v, e.head = .var v ∧ e.args = [] ∧ v.identity ∈ names := by
  have root := (everywhere_iff.1 admitted).1
  unfold Expr.isUnknown at isUnknown
  cases head : e.head with
  | var v =>
    have count := root.alone v head
    exact ⟨v, rfl, List.length_eq_zero_iff.1 count, root.given v head⟩
  | skolem s => exact absurd head (root.plain s)
  | _ => simp [head] at isUnknown

/-- Terms that are admitted and no unknowns are headed by no variable. -/
theorem isVariable_of_isUnknown (known : e.isUnknown = false) : e.isVariable = false := by
  unfold isUnknown at known
  unfold isVariable
  cases head : e.head <;> simp_all

/-- The variables of a term can be listed. -/
theorem exists_admitted (firstOrder : e.FirstOrder) (skolemFree : e.SkolemFree) (number : e.NaNFree) :
    ∃ names, e.Admitted names := by
  induction e using Expr.induction with
  | node head negated args ih =>
    obtain ⟨alone, order⟩ := everywhere_iff.1 firstOrder
    obtain ⟨plain, plains⟩ := everywhere_iff.1 skolemFree
    obtain ⟨root, numbers⟩ := everywhere_iff.1 number
    have arguments : ∃ names : Finset (Nat × Bool), ∀ arg ∈ args, arg.Admitted names := by
      clear alone plain root firstOrder skolemFree number
      dsimp only at order plains numbers
      induction args with
      | nil => exact ⟨∅, List.forall_mem_nil _⟩
      | cons arg args rest =>
        rw [List.forall_mem_cons] at ih order plains numbers
        obtain ⟨first, inFirst⟩ := ih.1 order.1 plains.1 numbers.1
        obtain ⟨others, inOthers⟩ := rest ih.2 order.2 plains.2 numbers.2
        refine ⟨first ∪ others, List.forall_mem_cons.2 ⟨?_, fun other member => ?_⟩⟩
        · exact inFirst.mono Finset.subset_union_left
        · exact (inOthers other member).mono Finset.subset_union_right
    by_cases named : ∃ v, head = .var v
    · obtain ⟨v, rfl⟩ := named
      obtain rfl : args = [] := List.length_eq_zero_iff.1 (alone v rfl)
      refine ⟨{v.identity}, everywhere_iff.2 ⟨⟨fun _ _ => rfl, ?_, plain, root⟩,
        List.forall_mem_nil _⟩⟩
      intro w same
      obtain rfl := Symbol.var.inj same
      exact Finset.mem_singleton_self _
    · obtain ⟨names, inside⟩ := arguments
      refine ⟨names, everywhere_iff.2 ⟨⟨alone, ?_, plain, root⟩, inside⟩⟩
      exact fun v same => absurd ⟨v, same⟩ named

end Expr

namespace Unifier

variable {names : Finset (Nat × Bool)} {largest : Nat} {u v w : Unifier}

/-! ### What a comparison finds out -/

/-- Terms that clash differ in their symbols or in the numbers of their arguments. -/
theorem clash_of_move {left right : Expr} {cause : UnifyError}
    (chosen : u.move left right = .clash cause) :
    cause ≠ .endless ∧ ((left.head == right.head) = false ∨ left.args.length ≠ right.args.length) := by
  unfold move moveUnknown at chosen
  grind [bne]

/-- A term is bound to another one that is not equal to it and not bound either. -/
theorem free_of_move_bind {left right unknown term : Expr}
    (chosen : u.move left right = .bind unknown term) :
    left.sameAtom right = false ∧ (term.isUnknown → u.lookup? term = none) := by
  unfold move moveUnknown at chosen
  grind

/-! ### Unifiers on the way -/

/-- The number of given variables that are not bound. -/
def unbound (names : Finset (Nat × Bool)) (u : Unifier) : Nat :=
  (names.filter fun identity =>
    (u.lookup? (.ofVariable ⟨"", identity.1, identity.2, false⟩)).isNone).card

/-- What holds of a unifier while terms of at most the given size are unified. -/
structure Partial (names : Finset (Nat × Bool)) (largest : Nat) (u : Unifier) : Prop where
  /-- Variables are bound, each once, and bindings can be followed. -/
  solved : u.Solved
  /-- Only admitted symbols occur. -/
  admitted : u.Everywhere (Symbol.Admitted names)
  /-- The replacements are small. -/
  small : ∀ binding ∈ u.bindings, binding.replacement.size ≤ largest
  /-- There are no more bindings than variables. -/
  few : u.bindings.length + u.unbound names ≤ names.card

/-- The empty unifier is on the way. -/
theorem partial_empty (names : Finset (Nat × Bool)) (largest : Nat) : empty.Partial names largest where
  solved := solved_empty
  admitted := nofun
  small := nofun
  few := by
    have filtered : empty.unbound names ≤ names.card := Finset.card_filter_le _ _
    simpa [empty] using filtered

/-- Replacements that are found are small and admitted. -/
theorem Partial.replacement (current : u.Partial names largest) {term bound : Expr}
    (located : u.lookup? term = some bound) : bound.Admitted names ∧ bound.size ≤ largest := by
  obtain ⟨binding, member, -, rfl⟩ := exists_of_lookup? located
  exact ⟨(current.admitted binding member).2, current.small binding member⟩

/-- Binding a variable leaves one less that is not bound. -/
theorem unbound_bind_lt {x : Variable} {unknown : Expr} (head : unknown.head = .var x)
    (alone : unknown.args = []) (given : x.identity ∈ names) (free : u.lookup? unknown = none)
    (term : Expr) : (u.bind unknown term).unbound names < u.unbound names := by
  have same : unknown.sameAtom (.ofVariable ⟨"", x.identity.1, x.identity.2, false⟩) := by
    refine Expr.sameAtom_iff.2 ⟨?_, ?_⟩
    · rw [head]
      exact Variable.beq_iff.2 rfl
    · rw [alone]
      exact .nil
  have old : u.lookup? (.ofVariable ⟨"", x.identity.1, x.identity.2, false⟩) = none :=
    (u.lookup?_congr same).symm.trans free
  refine Finset.card_lt_card (Finset.ssubset_iff_of_subset ?_ |>.2 ⟨x.identity, ?_, ?_⟩)
  · intro identity member
    rw [Finset.mem_filter] at member ⊢
    refine ⟨member.1, ?_⟩
    have still := member.2
    rw [lookup?_bind, Option.isNone_iff_eq_none, Option.or_eq_none_iff] at still
    rw [still.1, Option.isNone_none]
  · rw [Finset.mem_filter, old]
    exact ⟨given, rfl⟩
  · rw [Finset.mem_filter, lookup?_bind, old, if_pos same]
    simp

/-- Binding a variable that does not occur in the image of its replacement keeps all of it. -/
theorem Partial.bind (current : u.Partial names largest) {unknown term image : Expr}
    (inUnknown : unknown.Admitted names) (inTerm : term.Admitted names) (small : term.size ≤ largest)
    (isUnknown : unknown.isUnknown) (free : u.lookup? unknown = none)
    (found : u.HasImage term image) (absent : unknown.atomOccursIn image = false) :
    (u.bind unknown term).Partial names largest := by
  obtain ⟨x, head, alone, given⟩ := inUnknown.exists_variable isUnknown
  have positive : unknown.positive = .ofVariable x := by
    rw [Expr.positive, Expr.ofVariable, Expr.leaf, head, alone]
  have bound : u.bind unknown term = u.bind (.ofVariable x) term := by
    rw [← positive]
    rfl
  refine ⟨?_, current.admitted.bind inUnknown inTerm, ?_, ?_⟩
  · rw [bound]
    refine current.solved.bind (positive ▸ free) found ?_
    rw [← positive, atomOccursIn_positive, absent]
  · intro binding member
    rcases List.mem_append.1 member with old | added
    · exact current.small binding old
    · obtain rfl := List.mem_singleton.1 added
      obtain ⟨_, _, _⟩ := term
      exact small
  · have less := unbound_bind_lt head alone given free term
    have before := current.few
    have longer : (u.bind unknown term).bindings.length = u.bindings.length + 1 := by
      simp [Unifier.bind]
    omega

/-- The way from a small term to its image is bounded by the number of bindings. -/
theorem Partial.exists_image (current : u.Partial names largest) {term : Expr}
    (small : term.size ≤ largest) :
    ∃ image, u.applyWithin ((u.bindings.length + 1) * largest) term = some image := by
  have total : ∀ (bindings : List Binding) (start : Nat),
      (∀ binding ∈ bindings, binding.replacement.size ≤ largest) →
      bindings.foldl (fun total binding => total + binding.replacement.size) start ≤
        start + bindings.length * largest := by
    intro bindings
    induction bindings with
    | nil => simp
    | cons binding rest ih =>
      intro start bounds
      rw [List.forall_mem_cons] at bounds
      have others := ih (start + binding.replacement.size) bounds.2
      have here := bounds.1
      rw [List.foldl_cons, List.length_cons, Nat.succ_mul]
      omega
  have bound : u.reach term ≤ (u.bindings.length + 1) * largest := by
    have all := total u.bindings term.size current.small
    rw [Nat.succ_mul]
    unfold reach
    omega
  obtain ⟨image, found⟩ := current.solved.total term
  exact ⟨image, applyWithin_mono bound (image?_eq_some_iff.2 found)⟩

/-! ### What a run comes to -/

/-- A run that extends a unifier ends with one whose solutions are those solutions of the first
which have a property, or it fails, not for want of moves, because there is no such solution. -/
def Decides (names : Finset (Nat × Bool)) (largest : Nat) (u : Unifier)
    (holds : Substitution → Prop) : Except Failure Unifier → Prop
  | .ok v => v.Partial names largest ∧ (v = u ∨ u.bindings.length < v.bindings.length) ∧
      ∀ θ, v.SolvedBy θ ↔ u.SolvedBy θ ∧ holds θ
  | .error failure => failure.cause ≠ .endless ∧ ∀ θ, u.SolvedBy θ → ¬ holds θ

variable {p q : Substitution → Prop} {result : Except Failure Unifier}

/-- A run that decides has come to its end. -/
theorem Decides.ended (decides : Decides names largest u p result) : Ended result := by
  cases result with
  | ok v => exact ended_ok v
  | error failure => exact ended_error decides.1

/-- Properties that agree on the solutions are decided alike. -/
theorem Decides.congr (decides : Decides names largest u p result)
    (same : ∀ θ, u.SolvedBy θ → (p θ ↔ q θ)) : Decides names largest u q result := by
  cases result with
  | ok v =>
    obtain ⟨current, longer, iff⟩ := decides
    refine ⟨current, longer, fun θ => (iff θ).trans ?_⟩
    exact and_congr_right fun solution => same θ solution
  | error failure =>
    exact ⟨decides.1, fun θ solution holds => decides.2 θ solution ((same θ solution).2 holds)⟩

/-- Runs one after the other decide the conjunction of what they decide. -/
theorem Decides.bind (first : Decides names largest u p result)
    {next : Unifier → Except Failure Unifier}
    (second : ∀ v, v.Partial names largest → (v = u ∨ u.bindings.length < v.bindings.length) →
      Decides names largest v q (next v)) :
    Decides names largest u (fun θ => p θ ∧ q θ) (result >>= next) := by
  cases result with
  | error failure => exact ⟨first.1, fun θ solution both => first.2 θ solution both.1⟩
  | ok v =>
    obtain ⟨current, longer, iff⟩ := first
    have after := second v current longer
    change Decides names largest u _ (next v)
    cases last : next v with
    | error failure =>
      rw [last] at after
      refine ⟨after.1, fun θ solution both => ?_⟩
      exact after.2 θ ((iff θ).2 ⟨solution, both.1⟩) both.2
    | ok w =>
      rw [last] at after
      obtain ⟨final, longest, iff'⟩ := after
      refine ⟨final, ?_, fun θ => ?_⟩
      · rcases longest with rfl | more
        · exact longer
        · rcases longer with rfl | already
          · exact .inr more
          · exact .inr (already.trans more)
      · rw [iff' θ, iff θ, and_assoc]

/-- Binding an unknown decides whether it can be made equal to the term. -/
theorem decides_bindUnknown (current : u.Partial names largest) {unknown term : Expr}
    (inUnknown : unknown.Admitted names) (inTerm : term.Admitted names) (small : term.size ≤ largest)
    (isUnknown : unknown.isUnknown) (free : u.lookup? unknown = none)
    (other : unknown.sameAtom term = false) (alsoFree : term.isUnknown → u.lookup? term = none) :
    Decides names largest u (fun θ => θ.Unifies unknown term) (u.bindUnknown unknown term) := by
  obtain ⟨image, found⟩ := current.solved.total term
  unfold bindUnknown
  rw [image?_eq_some_iff.2 found]
  dsimp only
  split
  · -- The unknown occurs inside the image, so its instances are smaller than those of the term.
    rename_i occurs
    refine ⟨nofun, fun θ solution unifies => ?_⟩
    have order : image.FirstOrder :=
      found.everywhere (fun binding member =>
        Expr.Admitted.firstOrder (current.admitted binding member).2) inTerm.firstOrder
    have different : unknown.sameAtom image = false := by
      obtain ⟨x, head, alone, -⟩ := inUnknown.exists_variable isUnknown
      by_cases unbound : term.isUnknown
      · obtain ⟨y, -, stands, -⟩ := inTerm.exists_variable unbound
        have itself : image = { term with args := [] } :=
          found.unique (.free (alsoFree unbound) (by rw [stands]; exact .nil))
        rw [itself, ← stands]
        exact other
      · have named : term.isVariable = false :=
          Expr.isVariable_of_isUnknown (Bool.not_eq_true _ ▸ unbound)
        have located := current.solved.lookup?_eq_none named
        have instances := current.solved.total.apply_free located
        have root : image.head = term.head := by
          rw [found.unique (current.solved.total.hasImage term), instances]
        cases same : unknown.sameAtom image with
        | false => rfl
        | true =>
          have heads := (Expr.sameAtom_iff.1 same).1
          rw [head, root] at heads
          obtain ⟨termHead, _, _⟩ := term
          cases Symbol.beq_iff_alike.1 heads with
          | var => cases named
    have strict := (θ.size_subst_le order occurs).2 different
    have equal := (solution.coincides current.solved.positive found).size_eq
    have sizes := Expr.AtomCoincides.size_eq unifies
    omega
  · rename_i absent
    have absent : unknown.atomOccursIn image = false := Bool.not_eq_true _ ▸ absent
    refine ⟨current.bind inUnknown inTerm small isUnknown free found absent, .inr ?_, fun θ =>
      solvedBy_bind⟩
    simp [Unifier.bind]

/-- Unifying arguments in turn decides whether all of them can be made equal at once. -/
theorem decides_foldlM {moves : Nat} {as bs : List Expr} (current : u.Partial names largest)
    (lengths : as.length = bs.length)
    (each : ∀ a ∈ as, ∀ b ∈ bs, ∀ v, v.Partial names largest →
      (v = u ∨ u.bindings.length < v.bindings.length) →
      Decides names largest v (fun θ => θ.Unifies a b) (unifyWithin moves v a b)) :
    Decides names largest u
      (fun θ => List.Forall₂ (fun a b => (a.subst θ).Coincides (b.subst θ)) as bs)
      ((as.zip bs).foldlM (fun u (pair : Expr × Expr) =>
        if pair.1.negated != pair.2.negated then .error ⟨.symbolClash pair.1 pair.2, u⟩
        else unifyWithin moves u pair.1 pair.2) u) := by
  induction as generalizing bs u with
  | nil =>
    obtain rfl := List.length_eq_zero_iff.1 lengths.symm
    exact ⟨current, .inl rfl, fun θ => by simp⟩
  | cons a as ih =>
    cases bs with
    | nil => cases lengths
    | cons b bs =>
      have head := each a List.mem_cons_self b List.mem_cons_self u current (.inl rfl)
      rw [List.zip_cons_cons, List.foldlM_cons]
      dsimp only
      have first : Decides names largest u (fun θ => (a.subst θ).Coincides (b.subst θ))
          (if (a.negated != b.negated) = true then .error ⟨.symbolClash a b, u⟩
          else unifyWithin moves u a b) := by
        split
        · rename_i signs
          refine ⟨nofun, fun θ _ same => ?_⟩
          have equal := (Expr.coincides_iff.1 same).1
          rw [θ.negated_subst, θ.negated_subst] at equal
          simp [equal] at signs
        · rename_i signs
          have equal : a.negated = b.negated := by simpa using signs
          exact head.congr fun θ _ => ⟨fun unifies => unifies.coincides equal,
            fun same => (Expr.coincides_iff.1 same).2⟩
      refine (first.bind (q := fun θ => List.Forall₂ (fun a b =>
        (a.subst θ).Coincides (b.subst θ)) as bs) fun v reached longer => ?_).congr fun θ _ => by
        rw [List.forall₂_cons]
      refine ih reached (by simpa using lengths) fun c inAs d inBs w later longest => ?_
      refine each c (List.mem_cons_of_mem a inAs) d (List.mem_cons_of_mem b inBs) w later ?_
      rcases longest with rfl | more
      · exact longer
      · rcases longer with rfl | already
        · exact .inr more
        · exact .inr (already.trans more)

/-! ### The number of moves -/

/-- The moves that may be made up to a number of bindings. -/
def allowance (largest count : Nat) : Nat := largest * ((count + 1) * (count + 2))

/-- One more binding allows two more moves for each place that can be met. -/
theorem allowance_succ (largest count : Nat) :
    allowance largest (count + 1) = allowance largest count + 2 * ((count + 1 + 1) * largest) := by
  unfold allowance
  ring

/-- More bindings allow more moves. -/
theorem allowance_mono (largest : Nat) {low high : Nat} (le : low ≤ high) :
    allowance largest low ≤ allowance largest high :=
  Nat.mul_le_mul_left _ (Nat.mul_le_mul (by omega) (by omega))

/-- More bindings allow for the way to two images. -/
theorem allowance_lt (largest : Nat) {low high : Nat} (lt : low < high) :
    allowance largest low + 2 * ((high + 1) * largest) ≤ allowance largest high := by
  obtain ⟨count, rfl⟩ : ∃ count, high = count + 1 := ⟨high - 1, by omega⟩
  rw [allowance_succ]
  have less := allowance_mono largest (show low ≤ count by omega)
  omega

/-- Arguments of a small admitted term are small and admitted. -/
theorem admitted_and_size_of_mem {term arg : Expr} (admitted : term.Admitted names)
    (small : term.size ≤ largest) (member : arg ∈ term.args) :
    arg.Admitted names ∧ arg.size ≤ largest := by
  refine ⟨(Expr.everywhere_iff.1 admitted).2 arg member, ?_⟩
  obtain ⟨head, negated, args⟩ := term
  have part := List.single_le_sum (l := args.map Expr.size) (by simp) arg.size
    (List.mem_map_of_mem member)
  rw [Expr.size, Expr.sizeArgs_eq_sum] at small
  omega

/-- A move that binds decides whether the terms can be made equal. -/
theorem decides_of_bind {left right unknown term : Expr} (current : u.Partial names largest)
    (inLeft : left.Admitted names) (inRight : right.Admitted names) (smallLeft : left.size ≤ largest)
    (smallRight : right.size ≤ largest) (chosen : u.move left right = .bind unknown term) :
    Decides names largest u (fun θ => θ.Unifies left right) (u.bindUnknown unknown term) := by
  obtain ⟨isUnknown, free, sides⟩ := bind_of_move chosen
  obtain ⟨other, alsoFree⟩ := free_of_move_bind chosen
  rcases sides with ⟨rfl, rfl⟩ | ⟨rfl, rfl⟩
  · exact decides_bindUnknown current inLeft inRight smallRight isUnknown free other alsoFree
  · have turned : right.sameAtom left = false := by
      cases same : right.sameAtom left with
      | false => rfl
      | true => rw [Expr.sameAtom_symm same] at other; cases other
    exact (decides_bindUnknown current inRight inLeft smallLeft isUnknown free turned
      alsoFree).congr fun θ _ => ⟨.symm, .symm⟩

/-- Terms that clash cannot be made equal. -/
theorem decides_of_clash {left right : Expr} {cause : UnifyError} (inLeft : left.Admitted names)
    (chosen : u.move left right = .clash cause) :
    Decides names largest u (fun θ => θ.Unifies left right) (.error ⟨cause, u⟩) := by
  obtain ⟨noLeft, noRight⟩ := isUnknown_eq_false_of_move (.inr ⟨cause, chosen⟩)
  obtain ⟨notEndless, differ⟩ := clash_of_move chosen
  refine ⟨notEndless, fun θ _ unifies => ?_⟩
  obtain ⟨heads, arguments⟩ := (θ.unifies_applications (Expr.isVariable_of_isUnknown noLeft)
    (Expr.isVariable_of_isUnknown noRight)).1 unifies
  rcases differ with differ | differ
  · rw [heads.beq (Expr.everywhere_iff.1 inLeft).1.number] at differ
    cases differ
  · exact differ arguments.length_eq

/-- With enough moves a run decides whether the terms can be made equal apart from their signs. -/
theorem decides_unifyWithin {moves m n : Nat} {left right leftImage rightImage : Expr}
    (current : u.Partial names largest) (inLeft : left.Admitted names)
    (inRight : right.Admitted names) (smallLeft : left.size ≤ largest)
    (smallRight : right.size ≤ largest) (toLeft : u.applyWithin m left = some leftImage)
    (toRight : u.applyWithin n right = some rightImage)
    (enough : allowance largest names.card + m + n < moves + allowance largest u.bindings.length) :
    Decides names largest u (fun θ => θ.Unifies left right) (unifyWithin moves u left right) := by
  induction moves generalizing u m n left right leftImage rightImage with
  | zero =>
    have few := current.few
    have less := allowance_mono largest (show u.bindings.length ≤ names.card by omega)
    omega
  | succ moves ih =>
    rw [unifyWithin]
    cases chosen : u.move left right with
    | agree =>
      have same := sameAtom_of_move chosen
      exact ⟨current, .inl rfl, fun θ => ⟨fun solution => ⟨solution, θ.unifies_of_sameAtom same⟩,
        And.left⟩⟩
    | follow first second =>
      obtain ⟨old, kept, bound, located, sides, order⟩ := follow_of_move chosen
      obtain ⟨inBound, smallBound⟩ := current.replacement located
      dsimp only
      rcases sides with ⟨rfl, rfl⟩ | ⟨rfl, rfl⟩
      · obtain ⟨rest, inner, rfl, within⟩ := exists_image_of_lookup? toLeft located
        rcases order with ⟨rfl, rfl⟩ | ⟨rfl, rfl⟩
        · refine (ih current inBound inRight smallBound smallRight within toRight (by omega)).congr ?_
          exact fun θ solution => ⟨(solution.unifies located).trans,
            (solution.unifies located).symm.trans⟩
        · refine (ih current inRight inBound smallRight smallBound toRight within (by omega)).congr ?_
          exact fun θ solution => ⟨fun h => (solution.unifies located).trans h.symm,
            fun h => h.symm.trans (solution.unifies located)⟩
      · obtain ⟨rest, inner, rfl, within⟩ := exists_image_of_lookup? toRight located
        rcases order with ⟨rfl, rfl⟩ | ⟨rfl, rfl⟩
        · refine (ih current inBound inLeft smallBound smallLeft within toLeft (by omega)).congr ?_
          exact fun θ solution => ⟨fun h => h.symm.trans (solution.unifies located).symm,
            fun h => (solution.unifies located).symm.trans h.symm⟩
        · refine (ih current inLeft inBound smallLeft smallBound toLeft within (by omega)).congr ?_
          exact fun θ solution => ⟨fun h => h.trans (solution.unifies located).symm,
            fun h => h.trans (solution.unifies located)⟩
    | bind unknown term => exact decides_of_bind current inLeft inRight smallLeft smallRight chosen
    | clash cause => exact decides_of_clash inLeft chosen
    | descend =>
      obtain ⟨noLeft, noRight⟩ := isUnknown_eq_false_of_move (.inl chosen)
      have leftVariable := Expr.isVariable_of_isUnknown noLeft
      have rightVariable := Expr.isVariable_of_isUnknown noRight
      obtain ⟨heads, lengths⟩ := descend_of_move chosen
      obtain ⟨i, rfl, insideLeft⟩ := exists_image_of_mem toLeft
        (current.solved.lookup?_eq_none leftVariable)
      obtain ⟨j, rfl, insideRight⟩ := exists_image_of_mem toRight
        (current.solved.lookup?_eq_none rightVariable)
      dsimp only
      refine (decides_foldlM current lengths fun a inAs b inBs v reached longer => ?_).congr fun θ _ =>
        ⟨fun arguments => (θ.unifies_applications leftVariable rightVariable).2 ⟨.inl heads, arguments⟩,
          fun unifies => ((θ.unifies_applications leftVariable rightVariable).1 unifies).2⟩
      obtain ⟨inA, smallA⟩ := admitted_and_size_of_mem inLeft smallLeft inAs
      obtain ⟨inB, smallB⟩ := admitted_and_size_of_mem inRight smallRight inBs
      rcases longer with rfl | more
      · obtain ⟨imageA, toA⟩ := insideLeft a inAs
        obtain ⟨imageB, toB⟩ := insideRight b inBs
        exact ih reached inA inB smallA smallB toA toB (by omega)
      · -- A variable was bound since, which allows for the whole way to the images.
        obtain ⟨imageA, toA⟩ := reached.exists_image smallA
        obtain ⟨imageB, toB⟩ := reached.exists_image smallB
        have allowed := allowance_lt largest more
        exact ih reached inA inB smallA smallB toA toB (by omega)

/-- Unification of terms without Skolem functions and NaN decides whether a substitution makes them
equal apart from their signs. -/
theorem exists_decides_unify {left right : Expr}
    (plain : ∀ e ∈ [left, right], e.FirstOrder ∧ e.SkolemFree ∧ e.NaNFree) :
    ∃ names largest, left.Admitted names ∧ right.Admitted names ∧
      Decides names largest empty (fun θ => θ.Unifies left right) (empty.unify left right) := by
  simp only [List.forall_mem_cons] at plain
  obtain ⟨⟨leftOrder, leftPlain, leftNumber⟩, ⟨rightOrder, rightPlain, rightNumber⟩, -⟩ := plain
  obtain ⟨first, inFirst⟩ := Expr.exists_admitted leftOrder leftPlain leftNumber
  obtain ⟨second, inSecond⟩ := Expr.exists_admitted rightOrder rightPlain rightNumber
  have inLeft : left.Admitted (first ∪ second) := inFirst.mono Finset.subset_union_left
  have inRight : right.Admitted (first ∪ second) := inSecond.mono Finset.subset_union_right
  refine ⟨first ∪ second, max left.size right.size, inLeft, inRight, ?_⟩
  have start := partial_empty (first ∪ second) (max left.size right.size)
  obtain ⟨leftImage, toLeft⟩ := start.exists_image (Nat.le_max_left left.size right.size)
  obtain ⟨rightImage, toRight⟩ := start.exists_image (Nat.le_max_right left.size right.size)
  -- So many moves need not be the number that unification is given, but no run that ends is given up.
  have decides := decides_unifyWithin start inLeft inRight (Nat.le_max_left _ _)
    (Nat.le_max_right _ _) toLeft toRight (Nat.lt_add_right _ (Nat.lt_succ_self _))
  rwa [unify_eq_of_ended decides.ended]

/-! ### The unifier as a substitution -/

/-- The substitution that a unifier gives takes a term to its instance. -/
theorem Solved.coincides_toSubstitution (solved : u.Solved) {term : Expr}
    (firstOrder : term.FirstOrder) :
    (term.subst (u.toSubstitution solved)).Coincides (u.apply term) := by
  induction term using Expr.induction with
  | node head negated args ih =>
    obtain ⟨alone, inside⟩ := Expr.everywhere_iff.1 firstOrder
    by_cases named : ∃ v, head = .var v
    · obtain ⟨v, rfl⟩ := named
      obtain rfl : args = [] := List.length_eq_zero_iff.1 (alone v rfl)
      rw [Substitution.subst_variable]
      have same : (Expr.ofVariable ⟨"", v.id, v.system, false⟩).sameAtom ⟨.var v, negated, []⟩ :=
        Expr.sameAtom_iff.2 ⟨Variable.beq_iff.2 rfl, .nil⟩
      change Expr.Coincides { u.apply (.ofVariable ⟨"", v.id, v.system, false⟩) with negated } _
      have sign : (u.apply ⟨.var v, negated, []⟩).negated = negated :=
        HasImage.negated_eq solved.positive (solved.total.hasImage _)
      refine Expr.coincides_iff.2 ⟨sign.symm, ?_⟩
      cases located : u.lookup? ⟨.var v, negated, []⟩ with
      | some bound =>
        rw [solved.total.apply_bound located,
          solved.total.apply_bound ((u.lookup?_congr same).trans located)]
        exact .refl _
      | none =>
        rw [solved.total.apply_free located,
          solved.total.apply_free ((u.lookup?_congr same).trans located)]
        exact ⟨.inl (Variable.beq_iff.2 rfl), .nil⟩
    · have other : Expr.isVariable ⟨head, negated, args⟩ = false := by
        cases head with
        | var v => exact absurd ⟨v, rfl⟩ named
        | _ => rfl
      rw [Substitution.subst_application _ other,
        solved.total.apply_free (solved.lookup?_eq_none other)]
      refine Expr.coincides_iff.2 ⟨rfl, .refl _, ?_⟩
      simp only [List.forall₂_map_left_iff, List.forall₂_map_right_iff]
      exact List.forall₂_same.2 fun arg member => ih arg member (inside arg member)

/-- The substitution that a unifier gives solves it. -/
theorem Solved.solvedBy_toSubstitution (solved : u.Solved)
    (firstOrder : ∀ binding ∈ u.bindings, binding.replacement.FirstOrder) :
    u.SolvedBy (u.toSubstitution solved) := by
  intro binding member
  obtain ⟨v, same⟩ := solved.unknown binding member
  have located := solved.located binding member
  have alone : binding.unknown.FirstOrder := by
    rw [same]
    exact Expr.everywhere_iff.2 ⟨fun _ _ => rfl, nofun⟩
  have left := solved.coincides_toSubstitution alone
  have right := solved.coincides_toSubstitution (firstOrder binding member)
  rw [solved.total.apply_bound located] at left
  have atoms : Expr.AtomCoincides { u.apply binding.replacement with
      negated := (u.apply binding.replacement).negated != binding.unknown.negated }
      (binding.replacement.subst (u.toSubstitution solved)) :=
    (Expr.coincides_iff.1 right.symm).2
  exact (Expr.coincides_iff.1 left).2.trans atoms

/-- Terms are unified if some substitution unifies them. -/
theorem exists_unify_of_unifies {left right : Expr} {θ : Substitution}
    (plain : ∀ e ∈ [left, right], e.FirstOrder ∧ e.SkolemFree ∧ e.NaNFree)
    (unifies : θ.Unifies left right) : ∃ u, left.unify right = .ok u := by
  obtain ⟨names, largest, -, -, decides⟩ := exists_decides_unify plain
  unfold Expr.unify
  cases run : empty.unify left right with
  | ok u => exact ⟨u, rfl⟩
  | error failure =>
    rw [run] at decides
    exact absurd unifies (decides.2 θ (List.forall_mem_nil _))

/-- The unifier of two terms is solved by the substitutions that unify them. -/
theorem solved_and_solvedBy_iff_of_unify {left right : Expr}
    (plain : ∀ e ∈ [left, right], e.FirstOrder ∧ e.SkolemFree ∧ e.NaNFree)
    (unified : left.unify right = .ok u) :
    u.Solved ∧ (∀ binding ∈ u.bindings, binding.replacement.FirstOrder) ∧
      ∀ θ : Substitution, u.SolvedBy θ ↔ θ.Unifies left right := by
  obtain ⟨names, largest, -, -, decides⟩ := exists_decides_unify plain
  unfold Expr.unify at unified
  cases run : empty.unify left right with
  | error failure => simp [run, Except.mapError] at unified
  | ok v =>
    rw [run] at unified decides
    obtain rfl := Except.ok.inj unified
    obtain ⟨current, -, solutions⟩ := decides
    refine ⟨current.solved, fun binding member => ?_, fun θ => ?_⟩
    · exact Expr.Admitted.firstOrder (current.admitted binding member).2
    · exact (solutions θ).trans ⟨And.right, fun unifies => ⟨List.forall_mem_nil _, unifies⟩⟩

end Unifier

/-- Unification of terms without Skolem functions and NaN always ends, and it ends with a unifier
exactly when some substitution makes the terms equal apart from their signs. Under the unifier every
term has an instance, which does not change a second time; the instances of the two terms are equal
apart from their signs; and no substitution that makes the terms equal tells a term from its
instance. -/
theorem Expr.unify_mostGeneral {left right : Expr}
    (plain : ∀ e ∈ [left, right], e.FirstOrder ∧ e.SkolemFree ∧ e.NaNFree) :
    left.unify right ≠ .error .endless ∧
    ((∃ u, left.unify right = .ok u) ↔
      ∃ θ : Substitution, (left.subst θ).sameAtom (right.subst θ)) ∧
    ∀ u, left.unify right = .ok u →
      (∀ term, u.image? term = some (u.apply term)) ∧
      (∀ term, u.apply (u.apply term) = u.apply term) ∧
      (u.apply left).sameAtom (u.apply right) ∧
      ∀ θ : Substitution, (left.subst θ).sameAtom (right.subst θ) →
        ∀ term, ((u.apply term).subst θ).Coincides (term.subst θ) := by
  obtain ⟨names, largest, inLeft, inRight, decides⟩ := Unifier.exists_decides_unify plain
  have every : ∀ θ : Substitution, Unifier.empty.SolvedBy θ := fun θ => nofun
  unfold Expr.unify
  cases run : Unifier.empty.unify left right with
  | error failure =>
    rw [run] at decides
    obtain ⟨notEndless, none⟩ := decides
    refine ⟨fun same => notEndless (Except.error.inj same), ⟨?_, ?_⟩, nofun⟩
    · rintro ⟨u, found⟩
      cases found
    · rintro ⟨θ, equal⟩
      exact absurd (Expr.atomCoincides_of_sameAtom equal) (none θ (every θ))
  | ok u =>
    rw [run] at decides
    obtain ⟨current, -, solutions⟩ := decides
    have solved := current.solved
    have order : ∀ binding ∈ u.bindings, binding.replacement.FirstOrder := fun binding member =>
      Expr.Admitted.firstOrder (current.admitted binding member).2
    have number : (u.apply left).NaNFree := Unifier.everywhere_apply (fun binding member =>
      Expr.Admitted.naNFree (current.admitted binding member).2) inLeft.naNFree
    -- The unifier, read as a substitution, is one of its own solutions.
    have unifies := ((solutions _).1 (solved.solvedBy_toSubstitution order)).2
    have atLeft := (Expr.coincides_iff.1 (solved.coincides_toSubstitution inLeft.firstOrder)).2
    have atRight := (Expr.coincides_iff.1 (solved.coincides_toSubstitution inRight.firstOrder)).2
    have equal : (u.apply left).sameAtom (u.apply right) :=
      ((atLeft.symm.trans unifies).trans atRight).sameAtom number
    have back := atLeft.symm.sameAtom number
    have forth := (atLeft.symm.trans unifies).sameAtom number
    refine ⟨nofun, ⟨fun _ => ⟨_, Expr.sameAtom_trans (Expr.sameAtom_symm back) forth⟩,
      fun _ => ⟨u, rfl⟩⟩, fun v same => ?_⟩
    obtain rfl := Except.ok.inj same
    refine ⟨fun term => Unifier.image?_eq_some_iff.2 (solved.total.hasImage term),
      solved.apply_apply, equal, fun θ same term => ?_⟩
    have solution := (solutions θ).2 ⟨every θ, Expr.atomCoincides_of_sameAtom same⟩
    exact solution.coincides solved.positive (solved.total.hasImage term)

/-- The term `f(v)`. -/
def Expr.shifted (v : Variable) : Expr := .node (.fn ⟨"f", 1, none⟩) [.ofVariable v]

/-- The literals `P(x, f(y))` and `!P(f(z), x)` are unified by `f(z)` for `x` and `y` for `z`, in
that order, so the binding of `x` is followed by that of `z`. -/
theorem Expr.unify_mostGeneral_shifted :
    let x : Variable := ⟨"x", 0, true, true⟩
    let y : Variable := ⟨"y", 1, true, true⟩
    let z : Variable := ⟨"z", 2, true, true⟩
    let left : Expr := ⟨.rel ⟨⟨"P", 2, none⟩⟩, false, [.ofVariable x, shifted y]⟩
    let right : Expr := ⟨.rel ⟨⟨"P", 2, none⟩⟩, true, [shifted z, .ofVariable x]⟩
    let u : Unifier := ⟨[⟨.ofVariable x, shifted z⟩, ⟨.ofVariable z, .ofVariable y⟩]⟩
    (∀ e ∈ [left, right], e.FirstOrder ∧ e.SkolemFree ∧ e.NaNFree) ∧ left.unify right = .ok u ∧
      u.apply (.ofVariable x) = shifted y ∧
      ∀ θ : Substitution, (left.subst θ).sameAtom (right.subst θ) →
        ((shifted y).subst θ).Coincides (θ x) := by
  intro x y z left right u
  have plain : ∀ e ∈ [left, right], e.FirstOrder ∧ e.SkolemFree ∧ e.NaNFree := by
    simp [left, right, FirstOrder, SkolemFree, NaNFree, Everywhere, EverywhereArgs, shifted,
      Expr.node, ofVariable, leaf, Symbol.isNaN]
  have unified : left.unify right = .ok u := rfl
  obtain ⟨-, -, -, mostGeneral⟩ := (unify_mostGeneral plain).2.2 u unified
  refine ⟨plain, unified, rfl, fun θ same => ?_⟩
  have instances := mostGeneral θ same (.ofVariable x)
  rwa [subst_ofVariable] at instances

end Refute
