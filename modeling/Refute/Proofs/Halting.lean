import Mathlib.Data.List.Perm.Subperm
import Mathlib.Data.List.ProdSigma
import Refute.Proofs.Unification

/-!
# Unification that ends

Moves can go in circles when Skolem terms are bound, and `Unifier.moveBound` is a number of nested
moves after which unification gives up. It never gives up too early: if any number of nested moves
is enough for two terms, so is the bound, whatever was bound before.

Two comparisons go on in the same way if the terms are the same apart from their signs and the same
terms are bound, to the same replacements. All terms that come up stand in the two terms and in the
bindings that there were; unification binds no others and never undoes a binding, so which of them
are bound is known from how many are not. Of the comparisons nested in one another in a run that
ends, no two agree in that number and in both terms.
-/

namespace Refute

namespace Expr

/-! ### Places -/

mutual

/-- The expression and everything inside it, without signs. -/
def parts : Expr → List Expr
  | ⟨head, _, args⟩ => ⟨head, false, args⟩ :: partsArgs args

/-- Everything inside arguments, without signs. -/
def partsArgs : List Expr → List Expr
  | [] => []
  | a :: as => parts a ++ partsArgs as

end

/-- The parts of arguments are the parts of each of them. -/
theorem partsArgs_eq_flatMap (args : List Expr) : partsArgs args = args.flatMap parts := by
  induction args with
  | nil => rfl
  | cons a as ih => simp [partsArgs, ih]

/-- An expression has as many parts as symbols. -/
theorem length_parts (e : Expr) : e.parts.length = e.size := by
  induction e using Expr.induction with
  | node head negated args ih =>
    rw [parts, List.length_cons, partsArgs_eq_flatMap, List.length_flatMap, List.map_congr_left ih,
      size, sizeArgs_eq_sum]

/-- An expression is a part of itself. -/
theorem positive_mem_parts (e : Expr) : e.positive ∈ e.parts := by
  obtain ⟨head, negated, args⟩ := e
  rw [parts]
  exact List.mem_cons_self

/-- The arguments of a part are parts. -/
theorem positive_mem_parts_of_mem {e part arg : Expr} (inside : part ∈ e.parts)
    (member : arg ∈ part.args) : arg.positive ∈ e.parts := by
  induction e using Expr.induction with
  | node head negated args ih =>
    rw [parts, partsArgs_eq_flatMap, List.mem_cons] at inside ⊢
    rcases inside with rfl | inside
    · exact .inr (List.mem_flatMap.2 ⟨arg, member, arg.positive_mem_parts⟩)
    · obtain ⟨other, among, inside⟩ := List.mem_flatMap.1 inside
      exact .inr (List.mem_flatMap.2 ⟨other, among, ih other among inside⟩)

/-- Expressions that are the same without their signs differ in their signs only. -/
theorem eq_signed {e f : Expr} (same : e.positive = f.positive) :
    f = { e with negated := f.negated } := by
  obtain ⟨head, negated, args⟩ := e
  obtain ⟨head', negated', args'⟩ := f
  simp only [positive, Expr.mk.injEq, true_and] at same
  simp [same]

end Expr

namespace Unifier

/-- The terms that stand in two terms and in the bindings. -/
def placed (u : Unifier) (left right : Expr) : List Expr :=
  left.parts ++ right.parts ++
    u.bindings.flatMap fun binding => binding.unknown.parts ++ binding.replacement.parts

/-- There are as many of them as places. -/
theorem length_placed (u : Unifier) (left right : Expr) :
    (u.placed left right).length = u.places left right := by
  have total : ∀ (bindings : List Binding) (start : Nat),
      bindings.foldl (fun total binding =>
          total + binding.unknown.size + binding.replacement.size) start =
        start + (bindings.flatMap fun binding =>
          binding.unknown.parts ++ binding.replacement.parts).length := by
    intro bindings
    induction bindings with
    | nil => exact fun start => rfl
    | cons binding rest ih =>
      intro start
      rw [List.foldl_cons, ih, List.flatMap_cons, List.length_append, List.length_append,
        Expr.length_parts, Expr.length_parts]
      omega
  rw [placed, places, total, List.length_append, List.length_append, Expr.length_parts,
    Expr.length_parts]

/-- Among the terms are their arguments, without signs. -/
def Closed (terms : List Expr) : Prop :=
  ∀ term ∈ terms, ∀ arg ∈ term.args, arg.positive ∈ terms

/-- What stands in terms and bindings is closed. -/
theorem closed_placed (u : Unifier) (left right : Expr) : Closed (u.placed left right) := by
  intro term inside arg member
  simp only [placed, List.mem_append, List.mem_flatMap] at inside ⊢
  rcases inside with (inLeft | inRight) | ⟨binding, among, inUnknown | inReplacement⟩
  · exact .inl (.inl (Expr.positive_mem_parts_of_mem inLeft member))
  · exact .inl (.inr (Expr.positive_mem_parts_of_mem inRight member))
  · exact .inr ⟨binding, among, .inl (Expr.positive_mem_parts_of_mem inUnknown member)⟩
  · exact .inr ⟨binding, among, .inr (Expr.positive_mem_parts_of_mem inReplacement member)⟩

/-! ### Runs that end -/

/-- The run has not been given up. -/
def Ended (result : Except Failure Unifier) : Prop :=
  ∀ failure, result = .error failure → failure.cause ≠ .endless

/-- Unifies two arguments within a number of nested moves, if their signs agree. -/
def unifyPair (moves : Nat) (u : Unifier) (pair : Expr × Expr) : Except Failure Unifier :=
  if pair.1.negated != pair.2.negated then .error ⟨.symbolClash pair.1 pair.2, u⟩
  else unifyWithin moves u pair.1 pair.2

/-- What one more nested move allows. -/
theorem unifyWithin_succ (moves : Nat) (u : Unifier) (left right : Expr) :
    unifyWithin (moves + 1) u left right =
      match u.move left right with
      | .agree => .ok u
      | .follow left right => unifyWithin moves u left right
      | .bind unknown term => u.bindUnknown unknown term
      | .clash cause => .error ⟨cause, u⟩
      | .descend => (left.args.zip right.args).foldlM (unifyPair moves) u := rfl

/-- A unifier is a result. -/
theorem ended_ok (u : Unifier) : Ended (.ok u) := fun _ same => by cases same

/-- An error is a result unless it says that the run was given up. -/
theorem ended_error {failure : Failure} (other : failure.cause ≠ .endless) :
    Ended (.error failure) := by
  intro reached same
  obtain rfl := Except.error.inj same
  exact other

/-- What is given up at first is given up as a whole. -/
theorem Ended.of_bind {first : Except Failure Unifier}
    {next : Unifier → Except Failure Unifier} (ended : Ended (first >>= next)) : Ended first := by
  cases first with
  | ok u => exact ended_ok u
  | error failure => exact ended

/-- If a way to unify two arguments does what another does wherever that one ends, it also does so
with all arguments. -/
theorem foldlM_eq_of_ended {f g : Unifier → Expr × Expr → Except Failure Unifier}
    (agrees : ∀ u pair, Ended (f u pair) → g u pair = f u pair) {pairs : List (Expr × Expr)}
    {u : Unifier} (ended : Ended (pairs.foldlM f u)) : pairs.foldlM g u = pairs.foldlM f u := by
  induction pairs generalizing u with
  | nil => rfl
  | cons pair rest ih =>
    rw [List.foldlM_cons] at ended ⊢
    rw [List.foldlM_cons, agrees u pair ended.of_bind]
    cases first : f u pair with
    | error failure => rfl
    | ok next =>
      rw [first] at ended
      exact ih ended

/-- A run that ends takes no notice of one more nested move. -/
theorem Ended.succ {moves : Nat} {u : Unifier} {left right : Expr}
    (ended : Ended (unifyWithin moves u left right)) :
    unifyWithin (moves + 1) u left right = unifyWithin moves u left right := by
  induction moves generalizing u left right with
  | zero => exact absurd rfl (ended _ rfl)
  | succ moves ih =>
    have agrees : ∀ u pair, Ended (unifyPair moves u pair) →
        unifyPair (moves + 1) u pair = unifyPair moves u pair := by
      intro u pair ended
      unfold unifyPair at ended ⊢
      split
      · rfl
      · rename_i signs
        rw [if_neg signs] at ended
        exact ih ended
    rw [unifyWithin_succ] at ended
    rw [unifyWithin_succ, unifyWithin_succ]
    cases chosen : u.move left right with
    | follow first second =>
      rw [chosen] at ended
      exact ih ended
    | descend =>
      rw [chosen] at ended
      exact foldlM_eq_of_ended agrees ended
    | _ => rfl

/-- A run that ends takes no notice of more nested moves. -/
theorem Ended.mono {moves more : Nat} {u : Unifier} {left right : Expr} (le : moves ≤ more)
    (ended : Ended (unifyWithin moves u left right)) :
    unifyWithin more u left right = unifyWithin moves u left right := by
  induction le with
  | refl => rfl
  | step _ ih =>
    rw [← ih] at ended
    rw [ended.succ, ih]

/-! ### Comparisons that go on in the same way -/

/-- Of the terms the same are bound, to the same replacements, which are among them. -/
structure Alike (terms : List Expr) (u v : Unifier) : Prop where
  /-- The same terms are bound, to the same replacements. -/
  agree : ∀ term, term.positive ∈ terms → u.lookup? term = v.lookup? term
  /-- What they are bound to is among them. -/
  inside : ∀ term bound, term.positive ∈ terms → u.lookup? term = some bound →
    bound.positive ∈ terms

variable {terms : List Expr} {u v : Unifier} {left right : Expr}

/-- Bindings of the terms that agree can be exchanged. -/
theorem Alike.symm (alike : Alike terms u v) : Alike terms v u where
  agree term among := (alike.agree term among).symm
  inside term bound among located :=
    alike.inside term bound among ((alike.agree term among).trans located)

/-- Bindings agree with themselves on all terms that stand in them. -/
theorem alike_placed (u : Unifier) (left right : Expr) : Alike (u.placed left right) u u where
  agree _ _ := rfl
  inside term bound _ located := by
    obtain ⟨binding, among, -, rfl⟩ := exists_of_lookup? located
    refine List.mem_append_right _ (List.mem_flatMap.2 ⟨binding, among, ?_⟩)
    exact List.mem_append_right _ binding.replacement.positive_mem_parts

/-- Bindings that agree still do so when the same binding is added, whatever the signs. -/
theorem Alike.bind (alike : Alike terms u v) {unknown unknown' term term' : Expr}
    (sameUnknown : unknown.positive = unknown'.positive) (sameTerm : term.positive = term'.positive)
    (among : term.positive ∈ terms) : Alike terms (u.bind unknown term) (v.bind unknown' term') where
  agree other inside := by
    have tests : unknown'.sameAtom other = unknown.sameAtom other := by
      rw [Expr.eq_signed sameUnknown]
      rfl
    rw [lookup?_bind, lookup?_bind, alike.agree other inside, sameTerm, tests]
  inside other bound inside located := by
    rw [lookup?_bind] at located
    cases before : u.lookup? other with
    | some old =>
      rw [before] at located
      obtain rfl := Option.some.inj located
      exact alike.inside other old inside before
    | none =>
      rw [before, Option.none_or] at located
      split at located
      · obtain rfl := Option.some.inj located
        exact among
      · cases located

/-- Terms have the same image under bindings that agree. -/
theorem Alike.hasImage (alike : Alike terms u v) (closed : Closed terms) {term image : Expr}
    (reached : u.HasImage term image) (among : term.positive ∈ terms) : v.HasImage term image := by
  induction reached using HasImage.induction with
  | bound term replacement found located _ ih =>
    have again := (alike.agree term among).symm.trans located
    exact .bound again (ih (alike.inside term replacement among located))
  | free term args located _ ih =>
    refine .free ((alike.agree term among).symm.trans located) (List.forall₂_iff_get.2 ?_)
    obtain ⟨lengths, each⟩ := List.forall₂_iff_get.1 ih
    refine ⟨lengths, fun index first second => ?_⟩
    obtain ⟨-, image⟩ := each index first second
    exact image (closed _ among _ (List.get_mem term.args ⟨index, first⟩))

/-- The runs end both or not at all, and with bindings that agree if with any. -/
def Parallel (terms : List Expr) : Except Failure Unifier → Except Failure Unifier → Prop
  | .ok u, .ok v => Alike terms u v
  | .error first, .error second => first.cause = .endless ↔ second.cause = .endless
  | _, _ => False

/-- Of two runs that go in parallel one ends exactly if the other does. -/
theorem Parallel.ended_iff {first second : Except Failure Unifier}
    (parallel : Parallel terms first second) : Ended first ↔ Ended second := by
  cases first with
  | ok u =>
    cases second with
    | ok v => exact iff_of_true (ended_ok u) (ended_ok v)
    | error failure => exact parallel.elim
  | error failure =>
    cases second with
    | ok v => exact parallel.elim
    | error other =>
      have ends (failure : Failure) : Ended (.error failure) ↔ failure.cause ≠ .endless :=
        ⟨fun ended => ended failure rfl, ended_error⟩
      rw [ends, ends]
      exact not_congr parallel

/-- Failures for reasons of the terms go in parallel. -/
theorem parallel_error {first second : Failure} (ended : first.cause ≠ .endless)
    (endedToo : second.cause ≠ .endless) : Parallel terms (.error first) (.error second) :=
  iff_of_false ended endedToo

/-- Under bindings that agree the same unknowns can be bound. -/
theorem Alike.bindUnknown (alike : Alike terms u v) (closed : Closed terms)
    {unknown unknown' term term' : Expr} (sameUnknown : unknown.positive = unknown'.positive)
    (sameTerm : term.positive = term'.positive) (among : term.positive ∈ terms) :
    Parallel terms (u.bindUnknown unknown term) (v.bindUnknown unknown' term') := by
  unfold Unifier.bindUnknown
  cases found : u.image? term with
  | none =>
    have none : v.image? term' = none := by
      refine Option.eq_none_iff_forall_ne_some.2 fun image other => ?_
      obtain ⟨sign, back⟩ := (image?_eq_some_iff.1 other).signed term.negated
      rw [← Expr.eq_signed sameTerm.symm] at back
      have reached := image?_eq_some_iff.2 (alike.symm.hasImage closed back among)
      rw [found] at reached
      cases reached
    rw [none]
    exact Iff.rfl
  | some image =>
    have reached := alike.hasImage closed (image?_eq_some_iff.1 found) among
    obtain ⟨sign, signed⟩ := reached.signed term'.negated
    rw [← Expr.eq_signed sameTerm] at signed
    rw [image?_eq_some_iff.2 signed]
    have occurs : unknown'.atomOccursIn { image with negated := sign } =
        unknown.atomOccursIn image := by
      rw [← atomOccursIn_positive unknown', ← sameUnknown, atomOccursIn_positive]
      obtain ⟨head, negated, args⟩ := image
      rw [Expr.atomOccursIn, Expr.atomOccursIn]
      rfl
    dsimp only
    rw [occurs]
    split
    · exact parallel_error (by simp) (by simp)
    · exact alike.bind sameUnknown sameTerm among

/-- The moves are of one kind and about the same terms apart from the signs, and these are among the
terms. -/
inductive Move.Alike (terms : List Expr) : Move → Move → Prop
  /-- The terms agree. -/
  | agree : Alike terms .agree .agree
  /-- The same terms are to be unified instead. -/
  | follow {left right left' right' : Expr} (inLeft : left.positive ∈ terms)
      (inRight : right.positive ∈ terms) (sameLeft : left.positive = left'.positive)
      (sameRight : right.positive = right'.positive) :
      Alike terms (.follow left right) (.follow left' right')
  /-- The same binding is to be made. -/
  | bind {unknown term unknown' term' : Expr} (inTerm : term.positive ∈ terms)
      (sameUnknown : unknown.positive = unknown'.positive)
      (sameTerm : term.positive = term'.positive) :
      Alike terms (.bind unknown term) (.bind unknown' term')
  /-- The terms do not unify. -/
  | clash {cause cause' : UnifyError} (ended : cause ≠ .endless) (endedToo : cause' ≠ .endless) :
      Alike terms (.clash cause) (.clash cause')
  /-- The arguments are to be unified. -/
  | descend : Alike terms .descend .descend

/-- An unknown and a term call for the same move under bindings that agree, whatever the signs. -/
theorem Alike.moveUnknown (alike : Alike terms u v) {unknown unknown' term term' : Expr}
    (inUnknown : unknown.positive ∈ terms) (inTerm : term.positive ∈ terms)
    (sameUnknown : unknown.positive = unknown'.positive) (sameTerm : term.positive = term'.positive) :
    (u.moveUnknown unknown term).Alike terms (v.moveUnknown unknown' term') := by
  have atUnknown : v.lookup? unknown' = u.lookup? unknown := by
    rw [alike.agree unknown inUnknown, Expr.eq_signed sameUnknown]
    rfl
  have atTerm : v.lookup? term' = u.lookup? term := by
    rw [alike.agree term inTerm, Expr.eq_signed sameTerm]
    rfl
  have kinds : term'.isUnknown = term.isUnknown := by
    rw [Expr.eq_signed sameTerm]
    rfl
  unfold Unifier.moveUnknown
  rw [atUnknown, atTerm, kinds]
  cases first : u.lookup? unknown with
  | some bound => exact .follow (alike.inside unknown bound inUnknown first) inTerm rfl sameTerm
  | none =>
    dsimp only
    split
    · cases second : u.lookup? term with
      | some bound => exact .follow inUnknown (alike.inside term bound inTerm second) sameUnknown rfl
      | none => exact .bind inTerm sameUnknown sameTerm
    · exact .bind inTerm sameUnknown sameTerm

/-- Two terms call for the same move under bindings that agree, whatever the signs. -/
theorem Alike.move (alike : Alike terms u v) {left' right' : Expr}
    (inLeft : left.positive ∈ terms) (inRight : right.positive ∈ terms)
    (sameLeft : left.positive = left'.positive) (sameRight : right.positive = right'.positive) :
    (u.move left right).Alike terms (v.move left' right') := by
  have forward := alike.moveUnknown inLeft inRight sameLeft sameRight
  have backward := alike.moveUnknown inRight inLeft sameRight sameLeft
  rw [Expr.eq_signed sameLeft, Expr.eq_signed sameRight] at forward backward ⊢
  generalize left'.negated = signLeft at *
  generalize right'.negated = signRight at *
  have same : { left with negated := signLeft }.sameAtom { right with negated := signRight } =
    left.sameAtom right := rfl
  have isVariable : { left with negated := signLeft }.isVariable = left.isVariable := rfl
  have isVariableToo : { right with negated := signRight }.isVariable = right.isVariable := rfl
  have isUnknown : { left with negated := signLeft }.isUnknown = left.isUnknown := rfl
  have isUnknownToo : { right with negated := signRight }.isUnknown = right.isUnknown := rfl
  unfold Unifier.move
  rw [same, isVariable, isVariableToo, isUnknown, isUnknownToo]
  dsimp only
  split_ifs
  · exact .agree
  · exact backward
  · exact forward
  · exact backward
  · exact .clash (by simp) (by simp)
  · exact .clash (by simp) (by simp)
  · exact .descend

/-- Arguments go in parallel if each pair does. -/
theorem parallel_foldlM {f g : Unifier → Expr × Expr → Except Failure Unifier}
    {pairs : List (Expr × Expr)}
    (each : ∀ u v pair, pair ∈ pairs → Alike terms u v → Parallel terms (f u pair) (g v pair))
    (alike : Alike terms u v) : Parallel terms (pairs.foldlM f u) (pairs.foldlM g v) := by
  induction pairs generalizing u v with
  | nil => exact alike
  | cons pair rest ih =>
    have first := each u v pair List.mem_cons_self alike
    have others := fun u v other member => each u v other (List.mem_cons_of_mem pair member)
    rw [List.foldlM_cons, List.foldlM_cons]
    cases atFirst : f u pair with
    | ok next =>
      cases atSecond : g v pair with
      | ok other =>
        rw [atFirst, atSecond] at first
        exact ih others first
      | error failure =>
        rw [atFirst, atSecond] at first
        exact first.elim
    | error failure =>
      cases atSecond : g v pair with
      | ok other =>
        rw [atFirst, atSecond] at first
        exact first.elim
      | error other =>
        rw [atFirst, atSecond] at first
        exact first

/-- Under bindings that agree, unification of the same terms goes in parallel, whatever the
signs. -/
theorem Alike.unifyWithin (alike : Alike terms u v) (closed : Closed terms) {left' right' : Expr}
    (inLeft : left.positive ∈ terms) (inRight : right.positive ∈ terms)
    (sameLeft : left.positive = left'.positive) (sameRight : right.positive = right'.positive)
    (moves : Nat) :
    Parallel terms (unifyWithin moves u left right) (unifyWithin moves v left' right') := by
  induction moves generalizing u v left right left' right' with
  | zero => exact Iff.rfl
  | succ moves ih =>
    have chosen := alike.move inLeft inRight sameLeft sameRight
    rw [unifyWithin_succ, unifyWithin_succ]
    generalize u.move left right = first at chosen
    generalize v.move left' right' = second at chosen
    cases chosen with
    | agree => exact alike
    | follow inFirst inSecond sameFirst sameSecond =>
      exact ih alike inFirst inSecond sameFirst sameSecond
    | bind inTerm sameUnknown sameTerm => exact alike.bindUnknown closed sameUnknown sameTerm inTerm
    | clash ended endedToo => exact parallel_error ended endedToo
    | descend =>
      have leftArgs : left'.args = left.args := by rw [Expr.eq_signed sameLeft]
      have rightArgs : right'.args = right.args := by rw [Expr.eq_signed sameRight]
      dsimp only
      rw [leftArgs, rightArgs]
      refine parallel_foldlM (fun u v pair member alike => ?_) alike
      unfold unifyPair
      split
      · exact parallel_error (by simp) (by simp)
      · exact ih alike (closed _ inLeft _ (List.of_mem_zip member).1)
          (closed _ inRight _ (List.of_mem_zip member).2) rfl rfl

/-- Unification adds bindings after those that there are. -/
theorem bindings_prefix_of_unifyWithin {moves : Nat}
    (unified : unifyWithin moves u left right = .ok v) : u.bindings <+: v.bindings := by
  refine unifyWithin_induction (fun u _ _ v => u.bindings <+: v.bindings)
    (fun u _ _ v => u.bindings <+: v.bindings) ?agree ?swap ?follow ?bind ?descend ?nil ?cons unified
  case agree => exact fun u _ _ _ => List.prefix_refl _
  case swap => exact fun _ _ _ _ longer => longer
  case follow => exact fun _ _ _ _ _ _ longer => longer
  case bind => exact fun u left right _ _ _ _ _ => List.prefix_append _ _
  case descend => exact fun _ _ _ _ _ _ _ longer => longer
  case nil => exact fun u => List.prefix_refl _
  case cons => exact fun _ _ _ _ _ _ _ _ first rest => first.trans rest

/-! ### Nested comparisons -/

/-- Two terms that are compared, and what is bound by then. -/
structure Comparison where
  /-- The bindings. -/
  unifier : Unifier
  /-- The left term. -/
  left : Expr
  /-- The right term. -/
  right : Expr

namespace Comparison

/-- What the comparison comes to within a number of nested moves. -/
def run (comparison : Comparison) (moves : Nat) : Except Failure Unifier :=
  unifyWithin moves comparison.unifier comparison.left comparison.right

/-- Both terms and what they can lead to are among the terms. -/
structure Inside (terms : List Expr) (comparison : Comparison) : Prop where
  /-- What terms are bound to is among them. -/
  bound : Alike terms comparison.unifier comparison.unifier
  /-- The left term is one of them. -/
  left : comparison.left.positive ∈ terms
  /-- The right term is one of them. -/
  right : comparison.right.positive ∈ terms

/-- The comparison takes one nested move more than the number, and no fewer. -/
def Needs (comparison : Comparison) (moves : Nat) : Prop :=
  Ended (comparison.run (moves + 1)) ∧ ¬ Ended (comparison.run moves)

/-- A comparison that ends takes some number of nested moves. -/
theorem exists_needs {comparison : Comparison} {moves : Nat} (ended : Ended (comparison.run moves)) :
    ∃ fewer < moves, comparison.Needs fewer := by
  induction moves with
  | zero => exact absurd rfl (ended _ rfl)
  | succ moves ih =>
    by_cases before : Ended (comparison.run moves)
    · obtain ⟨fewer, less, needs⟩ := ih before
      exact ⟨fewer, less.trans (Nat.lt_succ_self moves), needs⟩
    · exact ⟨moves, Nat.lt_succ_self moves, ended, before⟩

/-- A comparison that takes a number of nested moves takes no larger one. -/
theorem Needs.not_lt {comparison : Comparison} {fewer moves : Nat} (few : comparison.Needs fewer)
    (many : comparison.Needs moves) : ¬ fewer < moves := by
  intro less
  have same : comparison.run moves = comparison.run (fewer + 1) := few.1.mono less
  exact many.2 (same ▸ few.1)

/-- If arguments take a number of nested moves, one of the pairs does, when its turn comes. -/
theorem exists_needs_of_foldlM {pairs : List (Expr × Expr)} {moves : Nat} {u : Unifier}
    (closed : Closed terms) (bound : Alike terms u u)
    (inside : ∀ pair ∈ pairs, pair.1.positive ∈ terms ∧ pair.2.positive ∈ terms)
    (ended : Ended (pairs.foldlM (unifyPair (moves + 1)) u))
    (goesOn : ¬ Ended (pairs.foldlM (unifyPair moves) u)) :
    ∃ next : Comparison, next.Needs moves ∧ next.Inside terms ∧
      u.bindings <+: next.unifier.bindings := by
  induction pairs generalizing u with
  | nil => exact absurd (ended_ok u) goesOn
  | cons pair rest ih =>
    rw [List.forall_mem_cons] at inside
    rw [List.foldlM_cons] at ended goesOn
    by_cases signs : pair.1.negated != pair.2.negated
    · simp only [unifyPair, if_pos signs] at goesOn
      exact absurd (@ended_error ⟨.symbolClash pair.1 pair.2, u⟩ (by simp)) goesOn
    · have pass : ∀ moves, unifyPair moves u pair = unifyWithin moves u pair.1 pair.2 :=
        fun moves => if_neg signs
      rw [pass] at ended goesOn
      by_cases first : Ended (unifyWithin moves u pair.1 pair.2)
      · rw [first.succ] at ended
        have parallel := bound.unifyWithin closed inside.1.1 inside.1.2 rfl rfl moves
        cases result : unifyWithin moves u pair.1 pair.2 with
        | error failure =>
          rw [result] at goesOn first
          exact absurd first goesOn
        | ok middle =>
          rw [result] at ended goesOn parallel
          obtain ⟨next, needs, within, longer⟩ := ih parallel inside.2 ended goesOn
          exact ⟨next, needs, within, (bindings_prefix_of_unifyWithin result).trans longer⟩
      · exact ⟨⟨u, pair.1, pair.2⟩, ⟨ended.of_bind, first⟩, ⟨bound, inside.1.1, inside.1.2⟩,
          List.prefix_refl _⟩

/-- A comparison that takes more than one nested move has one nested in it that takes one fewer. -/
theorem Needs.exists_nested {comparison : Comparison} {moves : Nat} (closed : Closed terms)
    (inside : comparison.Inside terms) (needs : comparison.Needs (moves + 1)) :
    ∃ next : Comparison, next.Needs moves ∧ next.Inside terms ∧
      comparison.unifier.bindings <+: next.unifier.bindings := by
  obtain ⟨u, left, right⟩ := comparison
  obtain ⟨ended, goesOn⟩ := needs
  have chosen := inside.bound.move inside.left inside.right rfl rfl
  unfold run at ended goesOn
  rw [unifyWithin_succ] at ended goesOn
  dsimp only at ended goesOn chosen
  generalize u.move left right = move at ended goesOn chosen
  cases chosen with
  | agree => exact absurd ended goesOn
  | @follow first second _ _ inFirst inSecond =>
    exact ⟨⟨u, first, second⟩, ⟨ended, goesOn⟩, ⟨inside.bound, inFirst, inSecond⟩, List.prefix_refl _⟩
  | bind => exact absurd ended goesOn
  | clash => exact absurd ended goesOn
  | descend =>
    refine exists_needs_of_foldlM closed inside.bound (fun pair member => ?_) ended goesOn
    obtain ⟨inLeft, inRight⟩ := List.of_mem_zip member
    exact ⟨closed _ inside.left _ inLeft, closed _ inside.right _ inRight⟩

/-! ### The bound -/

/-- The terms that are not bound yet. -/
def unbound (terms : List Expr) (u : Unifier) : List Expr :=
  terms.filter fun term => (u.lookup? term).isNone

/-- How far a comparison has come: the number of terms that are not bound yet, and both terms. -/
def stage (terms : List Expr) (comparison : Comparison) : Nat × Expr × Expr :=
  ((unbound terms comparison.unifier).length, comparison.left.positive, comparison.right.positive)

/-- All stages that there are. -/
def stages (terms : List Expr) : List (Nat × Expr × Expr) :=
  List.range (terms.length + 1) ×ˢ terms ×ˢ terms

/-- There is one for each number of terms and pair of terms. -/
theorem length_stages (terms : List Expr) :
    (stages terms).length = (terms.length + 1) * (terms.length * terms.length) := by
  rw [stages, List.length_product, List.length_product, List.length_range]

/-- A comparison of the terms is at one of the stages. -/
theorem Inside.stage_mem {comparison : Comparison} (inside : comparison.Inside terms) :
    comparison.stage terms ∈ stages terms := by
  refine List.mem_product.2 ⟨List.mem_range.2 ?_, List.mem_product.2 ⟨inside.left, inside.right⟩⟩
  exact Nat.lt_succ_of_le (List.length_filter_le _ terms)

/-- If bindings were added and no more terms are bound, the same terms are bound as before. -/
theorem alike_of_unbound {u v : Unifier} (bound : Alike terms u u)
    (longer : u.bindings <+: v.bindings)
    (same : (unbound terms u).length = (unbound terms v).length) : Alike terms u v := by
  have free : ∀ term, (v.lookup? term).isNone → (u.lookup? term).isNone := by
    intro term unbound
    cases before : u.lookup? term with
    | none => rfl
    | some replacement =>
      rw [lookup?_mono longer before] at unbound
      cases unbound
  have fewer : (unbound terms v).Sublist (unbound terms u) := List.monotone_filter_right terms free
  have equal := fewer.eq_of_length same.symm
  refine ⟨fun term among => ?_, bound.inside⟩
  cases before : u.lookup? term with
  | some replacement => exact (lookup?_mono longer before).symm
  | none =>
    have remains : term.positive ∈ unbound terms v :=
      equal ▸ List.mem_filter.2 ⟨among, Option.isNone_iff_eq_none.2 before⟩
    exact (Option.isNone_iff_eq_none.1 (List.mem_filter.1 remains).2).symm

/-- Comparisons nested in one another take different numbers of nested moves, so they are at
different stages. -/
theorem stage_ne {outer inner : Comparison} {moves fewer : Nat} (closed : Closed terms)
    (inside : outer.Inside terms) (longer : outer.unifier.bindings <+: inner.unifier.bindings)
    (many : outer.Needs moves) (few : inner.Needs fewer) (less : fewer < moves) :
    outer.stage terms ≠ inner.stage terms := by
  intro same
  simp only [stage, Prod.mk.injEq] at same
  obtain ⟨unbound, sameLeft, sameRight⟩ := same
  have alike := alike_of_unbound inside.bound longer unbound
  have ends : ∀ moves, Ended (outer.run moves) ↔ Ended (inner.run moves) := fun moves =>
    (alike.unifyWithin closed inside.left inside.right sameLeft sameRight moves).ended_iff
  have outerFew : outer.Needs fewer := ⟨(ends _).2 few.1, fun ended => few.2 ((ends _).1 ended)⟩
  exact outerFew.not_lt many less

/-- The stages of the comparisons that a comparison is nested in, which take more nested moves. -/
structure Trail (terms : List Expr) (comparison : Comparison) (moves : Nat)
    (passed : List (Nat × Expr × Expr)) : Prop where
  /-- No stage comes up twice. -/
  distinct : passed.Nodup
  /-- They are stages of the terms. -/
  known : passed ⊆ stages terms
  /-- Each is that of an outer comparison. -/
  outer : ∀ stage ∈ passed, ∃ (before : Comparison) (more : Nat), moves < more ∧
    before.Needs more ∧ before.Inside terms ∧
    before.unifier.bindings <+: comparison.unifier.bindings ∧ stage = before.stage terms

/-- The stage of a comparison is none of those of the comparisons it is nested in. -/
theorem Trail.extend {comparison : Comparison} {moves : Nat} {passed : List (Nat × Expr × Expr)}
    (trail : Trail terms comparison moves passed) (closed : Closed terms)
    (inside : comparison.Inside terms) (needs : comparison.Needs moves) :
    (comparison.stage terms :: passed).Nodup ∧ comparison.stage terms :: passed ⊆ stages terms := by
  refine ⟨List.nodup_cons.2 ⟨fun repeated => ?_, trail.distinct⟩,
    List.cons_subset.2 ⟨inside.stage_mem, trail.known⟩⟩
  obtain ⟨before, more, less, many, within, longer, same⟩ := trail.outer _ repeated
  exact stage_ne closed within longer many needs less same.symm

/-- A comparison and those it is nested in pass no more stages than there are. -/
theorem Needs.length_add_lt (closed : Closed terms) {comparison : Comparison} {moves : Nat}
    (inside : comparison.Inside terms) (needs : comparison.Needs moves)
    {passed : List (Nat × Expr × Expr)} (trail : Trail terms comparison moves passed) :
    passed.length + moves < (stages terms).length := by
  obtain ⟨distinct, known⟩ := trail.extend closed inside needs
  induction moves generalizing comparison passed with
  | zero => exact (distinct.subperm known).length_le
  | succ moves ih =>
    obtain ⟨next, fewer, within, longer⟩ := needs.exists_nested closed inside
    have nested : Trail terms next moves (comparison.stage terms :: passed) := by
      refine ⟨distinct, known, List.forall_mem_cons.2 ⟨?_, fun stage member => ?_⟩⟩
      · exact ⟨comparison, moves + 1, Nat.lt_succ_self moves, needs, inside, longer, rfl⟩
      · obtain ⟨before, more, less, many, outside, earlier, same⟩ := trail.outer stage member
        exact ⟨before, more, Nat.lt_of_succ_lt less, many, outside, earlier.trans longer, same⟩
    obtain ⟨distinctNext, knownNext⟩ := nested.extend closed within fewer
    have rest := ih within fewer nested distinctNext knownNext
    rw [List.length_cons] at rest
    omega

end Comparison

/-- Unification gives up no run that ends: if some number of nested moves is enough, so is the
bound, and the result is the same. -/
theorem unify_eq_of_ended {moves : Nat} (ended : Ended (unifyWithin moves u left right)) :
    u.unify left right = unifyWithin moves u left right := by
  obtain ⟨fewer, less, needs⟩ : ∃ fewer < moves, Comparison.Needs ⟨u, left, right⟩ fewer :=
    Comparison.exists_needs ended
  have inside : Comparison.Inside (u.placed left right) ⟨u, left, right⟩ :=
    ⟨alike_placed u left right,
      List.mem_append_left _ (List.mem_append_left _ left.positive_mem_parts),
      List.mem_append_left _ (List.mem_append_right _ right.positive_mem_parts)⟩
  have few := needs.length_add_lt (closed_placed u left right) inside
    ⟨List.nodup_nil, List.nil_subset _, List.forall_mem_nil _⟩
  rw [Comparison.length_stages, length_placed, List.length_nil, Nat.zero_add] at few
  have bounded : fewer + 1 ≤ u.moveBound left right := by
    unfold moveBound
    dsimp only
    omega
  calc u.unify left right = unifyWithin (fewer + 1) u left right := needs.1.mono bounded
    _ = unifyWithin moves u left right := (needs.1.mono less).symm

/-- Unification is given up exactly if no number of nested moves is enough. -/
theorem not_ended_unify_iff (u : Unifier) (left right : Expr) :
    ¬ Ended (u.unify left right) ↔ ∀ moves, ¬ Ended (unifyWithin moves u left right) := by
  constructor
  · intro givenUp moves ended
    exact givenUp (unify_eq_of_ended ended ▸ ended)
  · exact fun goesOn => goesOn _

end Unifier

end Refute
