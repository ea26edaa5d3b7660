import Mathlib.Algebra.Order.BigOperators.Group.List
import Mathlib.Algebra.Order.Ring.Nat
import Mathlib.Data.Nat.Find
import Refute.Proofs.Identity
import Refute.Unifier.Basic

/-!
# Images under unifiers

A term has an image under a unifier if following the bindings from it comes to an end. `HasImage`
says so without a bound on the number of steps, and `Unifier.image?` finds the image whenever there
is one: no replacement is entered a second time on the way from a term to the end, so the sizes of
the term and of all replacements bound the way.
-/

namespace Refute

/-- Results of a list exist when those of its members do. -/
theorem mapM_eq_some_iff {α β : Type} {f : α → Option β} {as : List α} {bs : List β} :
    as.mapM f = some bs ↔ List.Forall₂ (fun a b => f a = some b) as bs := by
  induction as generalizing bs with
  | nil => cases bs <;> simp
  | cons a as ih =>
    rw [List.mapM_cons]
    cases bs with
    | nil => cases f a <;> cases as.mapM f <;> simp
    | cons b bs =>
      rw [List.forall₂_cons, ← ih]
      cases f a <;> cases as.mapM f <;> simp

/-- The size of arguments is the sum of their sizes. -/
theorem Expr.sizeArgs_eq_sum (args : List Expr) : sizeArgs args = (args.map size).sum := by
  induction args with
  | nil => rfl
  | cons a as ih => simp [sizeArgs, ih]

namespace Unifier

/-! ### Bindings -/

/-- A replacement that is found belongs to a binding of the term. -/
theorem exists_of_lookup? {u : Unifier} {term replacement : Expr}
    (found : u.lookup? term = some replacement) :
    ∃ binding ∈ u.bindings, binding.unknown.sameAtom term ∧ binding.replacement = replacement := by
  obtain ⟨binding, located, rfl⟩ := Option.map_eq_some_iff.1 found
  have matched := List.find?_some located
  exact ⟨binding, List.mem_of_find?_eq_some located, matched, rfl⟩

/-- Terms that are equal apart from the sign have the same replacement. -/
theorem lookup?_congr (u : Unifier) {s t : Expr} (h : s.sameAtom t) : u.lookup? s = u.lookup? t := by
  have tests : (fun binding : Binding => binding.unknown.sameAtom s) =
      fun binding => binding.unknown.sameAtom t := by
    funext binding
    apply Bool.eq_iff_iff.2
    exact ⟨fun k => Expr.sameAtom_trans k h, fun k => Expr.sameAtom_trans k (Expr.sameAtom_symm h)⟩
  simp only [lookup?, tests]

/-- A new binding is found where no earlier one is. -/
theorem lookup?_bind (u : Unifier) (unknown replacement term : Expr) :
    (u.bind unknown replacement).lookup? term =
      (u.lookup? term).or (if unknown.sameAtom term then some replacement.positive else none) := by
  have sign : unknown.positive.sameAtom term = unknown.sameAtom term := rfl
  simp only [lookup?, bind, List.find?_append, Option.map_or, List.find?_singleton, sign]
  split <;> rfl

/-- What is found bound stays bound when bindings are added. -/
theorem lookup?_mono {u v : Unifier} (longer : u.bindings <+: v.bindings)
    {term replacement : Expr} (located : u.lookup? term = some replacement) :
    v.lookup? term = some replacement := by
  obtain ⟨added, extended⟩ := longer
  obtain ⟨binding, found, rfl⟩ := Option.map_eq_some_iff.1 located
  rw [lookup?, ← extended, List.find?_append, found]
  rfl

/-! ### Images -/

/-- What a step of following bindings comes to. -/
theorem applyWithin_succ_iff {u : Unifier} {steps : Nat} {term image : Expr} :
    u.applyWithin (steps + 1) term = some image ↔
      (∃ replacement found, u.lookup? term = some replacement ∧
        u.applyWithin steps replacement = some found ∧
        image = { found with negated := found.negated != term.negated }) ∨
      (u.lookup? term = none ∧ ∃ args,
        List.Forall₂ (fun arg found => u.applyWithin steps arg = some found) term.args args ∧
        image = { term with args }) := by
  rw [applyWithin]
  cases u.lookup? term with
  | some replacement =>
    simp only [Option.map_eq_some_iff, Option.some.injEq, reduceCtorEq, false_and, or_false]
    exact ⟨fun ⟨found, within, same⟩ => ⟨_, found, rfl, within, same.symm⟩,
      fun ⟨_, found, rfl, within, same⟩ => ⟨found, within, same.symm⟩⟩
  | none =>
    simp only [Option.map_eq_some_iff, mapM_eq_some_iff, reduceCtorEq, false_and, exists_false,
      false_or, true_and]
    exact ⟨fun ⟨args, within, same⟩ => ⟨args, within, same.symm⟩,
      fun ⟨args, within, same⟩ => ⟨args, within, same.symm⟩⟩

/-- More steps find the same image. -/
theorem applyWithin_mono {u : Unifier} {n m : Nat} {term image : Expr} (le : n ≤ m)
    (found : u.applyWithin n term = some image) : u.applyWithin m term = some image := by
  induction n generalizing m term image with
  | zero => simp [applyWithin] at found
  | succ n ih =>
    obtain ⟨m, rfl⟩ : ∃ k, m = k + 1 := ⟨m - 1, by omega⟩
    rw [applyWithin_succ_iff] at found ⊢
    refine found.imp ?_ (.imp_right ?_)
    · rintro ⟨replacement, inner, located, within, rfl⟩
      exact ⟨replacement, inner, located, ih (by omega) within, rfl⟩
    · rintro ⟨args, within, rfl⟩
      exact ⟨args, within.imp fun _ _ => ih (by omega), rfl⟩

/-- Following the bindings from the term ends with the image. -/
def HasImage (u : Unifier) (term image : Expr) : Prop := ∃ steps, u.applyWithin steps term = some image

/-- A term has one image. -/
theorem HasImage.unique {u : Unifier} {term first second : Expr} (h : u.HasImage term first)
    (k : u.HasImage term second) : first = second := by
  obtain ⟨n, left⟩ := h
  obtain ⟨m, right⟩ := k
  have left := applyWithin_mono (Nat.le_max_left n m) left
  have right := applyWithin_mono (Nat.le_max_right n m) right
  exact Option.some.inj (left.symm.trans right)

/-- A bound term has the image of its replacement, with its own sign. -/
theorem HasImage.bound {u : Unifier} {term replacement found : Expr}
    (located : u.lookup? term = some replacement) (image : u.HasImage replacement found) :
    u.HasImage term { found with negated := found.negated != term.negated } := by
  obtain ⟨n, within⟩ := image
  exact ⟨n + 1, applyWithin_succ_iff.2 (.inl ⟨replacement, found, located, within, rfl⟩)⟩

/-- The image of a bound term comes from that of its replacement. -/
theorem HasImage.exists_of_bound {u : Unifier} {term replacement image : Expr}
    (h : u.HasImage term image) (located : u.lookup? term = some replacement) :
    ∃ found, u.HasImage replacement found ∧
      image = { found with negated := found.negated != term.negated } := by
  obtain ⟨n, within⟩ := h
  cases n with
  | zero => simp [applyWithin] at within
  | succ n =>
    obtain ⟨bound, found, same, inner, rfl⟩ | ⟨free, -⟩ := applyWithin_succ_iff.1 within
    · obtain rfl := Option.some.inj (located.symm.trans same)
      exact ⟨found, ⟨n, inner⟩, rfl⟩
    · rw [located] at free
      cases free

/-- A number of steps that is enough for each member of a list is enough for all of them. -/
private theorem exists_steps {u : Unifier} {args images : List Expr}
    (each : List.Forall₂ u.HasImage args images) :
    ∃ steps, List.Forall₂ (fun arg image => u.applyWithin steps arg = some image) args images := by
  induction each with
  | nil => exact ⟨0, .nil⟩
  | cons first _ rest =>
    obtain ⟨n, first⟩ := first
    obtain ⟨m, rest⟩ := rest
    exact ⟨max n m, .cons (applyWithin_mono (Nat.le_max_left n m) first)
      (rest.imp fun _ _ => applyWithin_mono (Nat.le_max_right n m))⟩

/-- A term that is not bound has the image that its arguments give. -/
theorem HasImage.free {u : Unifier} {term : Expr} {args : List Expr}
    (located : u.lookup? term = none) (images : List.Forall₂ u.HasImage term.args args) :
    u.HasImage term { term with args } := by
  obtain ⟨n, within⟩ := exists_steps images
  exact ⟨n + 1, applyWithin_succ_iff.2 (.inr ⟨located, args, within, rfl⟩)⟩

/-- The sign of the image changes with that of the term. -/
theorem HasImage.signed {u : Unifier} {term image : Expr} (h : u.HasImage term image)
    (negated : Bool) : ∃ sign, u.HasImage { term with negated } { image with negated := sign } := by
  obtain ⟨n, within⟩ := h
  cases n with
  | zero => simp [applyWithin] at within
  | succ n =>
    obtain ⟨replacement, found, located, inner, rfl⟩ | ⟨located, args, inner, rfl⟩ :=
      applyWithin_succ_iff.1 within
    · have again : u.lookup? { term with negated } = some replacement := located
      exact ⟨found.negated != negated, .bound again ⟨n, inner⟩⟩
    · have again : u.lookup? { term with negated } = none := located
      exact ⟨negated, .free again (inner.imp fun _ _ each => ⟨n, each⟩)⟩

/-- Following a binding takes one step on the way to the image. -/
theorem exists_image_of_lookup? {u : Unifier} {steps : Nat} {term bound image : Expr}
    (found : u.applyWithin steps term = some image) (located : u.lookup? term = some bound) :
    ∃ rest inner, steps = rest + 1 ∧ u.applyWithin rest bound = some inner := by
  cases steps with
  | zero => cases found
  | succ rest =>
    obtain ⟨replacement, inner, same, within, -⟩ | ⟨free, -⟩ := applyWithin_succ_iff.1 found
    · obtain rfl := Option.some.inj (located.symm.trans same)
      exact ⟨rest, inner, rfl, within⟩
    · rw [located] at free
      cases free

/-- Going down to the arguments of a term that is not bound takes one step for each of them. -/
theorem exists_image_of_mem {u : Unifier} {steps : Nat} {term image : Expr}
    (found : u.applyWithin steps term = some image) (located : u.lookup? term = none) :
    ∃ rest, steps = rest + 1 ∧
      ∀ arg ∈ term.args, ∃ inner, u.applyWithin rest arg = some inner := by
  cases steps with
  | zero => cases found
  | succ rest =>
    obtain ⟨replacement, inner, same, -, -⟩ | ⟨-, args, each, -⟩ := applyWithin_succ_iff.1 found
    · rw [located] at same
      cases same
    · refine ⟨rest, rfl, fun arg member => ?_⟩
      obtain ⟨inner, -, reached⟩ := exists_of_forall₂ each member
      exact ⟨inner, reached⟩

/-- What passes from replacements and arguments to terms holds of all terms with images. -/
@[elab_as_elim]
theorem HasImage.induction {u : Unifier}
    {motive : (term image : Expr) → u.HasImage term image → Prop}
    (bound : ∀ term replacement found (located : u.lookup? term = some replacement)
      (image : u.HasImage replacement found), motive replacement found image →
      motive term { found with negated := found.negated != term.negated } (.bound located image))
    (free : ∀ term args (located : u.lookup? term = none)
      (images : List.Forall₂ u.HasImage term.args args),
      List.Forall₂ (fun arg image => ∃ h, motive arg image h) term.args args →
      motive term { term with args } (.free located images))
    {term image : Expr} (h : u.HasImage term image) : motive term image h := by
  obtain ⟨n, within⟩ := h
  induction n generalizing term image with
  | zero => simp [applyWithin] at within
  | succ n ih =>
    obtain ⟨replacement, found, located, inner, rfl⟩ | ⟨located, args, inner, rfl⟩ :=
      applyWithin_succ_iff.1 within
    · exact bound _ _ _ located ⟨n, inner⟩ (ih inner)
    · exact free _ _ located (inner.imp fun _ _ each => ⟨n, each⟩)
        (inner.imp fun _ _ each => ⟨⟨n, each⟩, ih each⟩)

/-! ### The bound on the number of steps -/

/-- The sizes of the replacements whose images are reached within a number of steps. -/
def settledSize (u : Unifier) (steps : Nat) : Nat :=
  (u.bindings.map fun binding =>
    if (u.applyWithin steps binding.replacement).isSome then binding.replacement.size else 0).sum

/-- A sum is larger by what one of its members is larger by. -/
private theorem sum_map_add_le {α : Type} {f g : α → Nat} {gap : Nat} {a : α} {as : List α}
    (each : ∀ b ∈ as, f b ≤ g b) (member : a ∈ as) (larger : f a + gap ≤ g a) :
    (as.map f).sum + gap ≤ (as.map g).sum := by
  induction as with
  | nil => exact absurd member List.not_mem_nil
  | cons b as ih =>
    have first := each b List.mem_cons_self
    have others := fun c (inside : c ∈ as) => each c (List.mem_cons_of_mem b inside)
    simp only [List.map_cons, List.sum_cons]
    rcases List.mem_cons.1 member with rfl | inside
    · have rest := List.sum_le_sum others
      omega
    · have rest := ih others inside
      omega

/-- What is settled stays settled, replacement by replacement. -/
private theorem settled_le {u : Unifier} {n m : Nat} (le : n ≤ m) (binding : Binding) :
    (if (u.applyWithin n binding.replacement).isSome then binding.replacement.size else 0) ≤
      if (u.applyWithin m binding.replacement).isSome then binding.replacement.size else 0 := by
  split
  · rename_i settled
    obtain ⟨image, found⟩ := Option.isSome_iff_exists.1 settled
    simp [applyWithin_mono le found]
  · exact Nat.zero_le _

/-- No more replacements are settled than there are. -/
theorem settledSize_le_reach (u : Unifier) (steps : Nat) (term : Expr) :
    term.size + u.settledSize steps ≤ u.reach term := by
  have total : ∀ (bindings : List Binding) (start : Nat),
      bindings.foldl (fun total binding => total + binding.replacement.size) start =
        start + (bindings.map (·.replacement.size)).sum := by
    intro bindings
    induction bindings with
    | nil => simp
    | cons binding rest ih =>
      intro start
      simp only [List.foldl_cons, ih, List.map_cons, List.sum_cons]
      omega
  rw [reach, total]
  apply Nat.add_le_add_left
  apply List.sum_le_sum
  intro binding _
  split <;> omega

/-- An image is found within the size of the term and of the replacements that were settled before
it: a replacement is not entered again before it is settled, since it would never be. -/
theorem applyWithin_settledSize {u : Unifier} {steps : Nat} {term image : Expr}
    (found : u.applyWithin (steps + 1) term = some image) :
    u.applyWithin (term.size + u.settledSize steps) term = some image := by
  induction steps using Nat.strong_induction_on generalizing term image with
  | _ steps ih =>
    have positive := term.size_pos
    obtain ⟨replacement, inner, located, within, rfl⟩ | ⟨located, args, within, rfl⟩ :=
      applyWithin_succ_iff.1 found
    · -- The least number of steps that settles the replacement leaves it out of the sum before.
      obtain ⟨binding, member, -, rfl⟩ := exists_of_lookup? located
      have settles : ∃ n, (u.applyWithin n binding.replacement).isSome := ⟨steps, by simp [within]⟩
      have least := Nat.find_spec settles
      have unsettled := fun {k} => Nat.find_min settles (m := k)
      have small : Nat.find settles ≤ steps := Nat.find_min' settles (by simp [within])
      obtain ⟨k, same⟩ : ∃ k, Nat.find settles = k + 1 := by
        cases zero : Nat.find settles with
        | zero => simp [zero, applyWithin] at least
        | succ k => exact ⟨k, rfl⟩
      rw [same] at least small unsettled
      obtain ⟨other, again⟩ := Option.isSome_iff_exists.1 least
      obtain rfl : other = inner := HasImage.unique ⟨_, again⟩ ⟨_, within⟩
      have bounded := ih k (by omega) again
      have larger : u.settledSize k + binding.replacement.size ≤ u.settledSize steps := by
        apply sum_map_add_le (fun b _ => settled_le (by omega) b) member
        simp [unsettled (Nat.lt_succ_self k), within]
      obtain ⟨size, reached⟩ : ∃ size, term.size + u.settledSize steps = size + 1 :=
        ⟨term.size + u.settledSize steps - 1, by omega⟩
      rw [reached, applyWithin_succ_iff]
      exact .inl ⟨_, other, located, applyWithin_mono (by omega) bounded, rfl⟩
    · obtain ⟨size, reached⟩ : ∃ size, term.size + u.settledSize steps = size + 1 :=
        ⟨term.size + u.settledSize steps - 1, by omega⟩
      rw [reached, applyWithin_succ_iff]
      refine .inr ⟨located, args, ?_, rfl⟩
      have sizes : ∀ arg ∈ term.args, arg.size + 1 ≤ term.size := by
        intro arg member
        obtain ⟨head, negated, arguments⟩ := term
        have := List.single_le_sum (l := arguments.map Expr.size) (by simp) arg.size
          (List.mem_map_of_mem member)
        simp only [Expr.size, Expr.sizeArgs_eq_sum]
        omega
      refine List.forall₂_iff_get.2 ⟨within.length_eq, fun i hi hj => ?_⟩
      have each := List.forall₂_iff_get.1 within |>.2 i hi hj
      cases steps with
      | zero => simp [applyWithin] at each
      | succ steps =>
        have bounded := ih steps (by omega) each
        have smaller := sizes _ (List.get_mem term.args ⟨i, hi⟩)
        have fewer : u.settledSize steps ≤ u.settledSize (steps + 1) :=
          List.sum_le_sum fun b _ => settled_le (by omega) b
        exact applyWithin_mono (by omega) bounded

/-- The image of a term is found whenever it has one. -/
theorem image?_eq_some_iff {u : Unifier} {term image : Expr} :
    u.image? term = some image ↔ u.HasImage term image := by
  refine ⟨fun found => ⟨_, found⟩, fun ⟨steps, found⟩ => ?_⟩
  cases steps with
  | zero => simp [applyWithin] at found
  | succ steps =>
    exact applyWithin_mono (u.settledSize_le_reach steps term) (applyWithin_settledSize found)

/-! ### Unifiers under which every term has an image -/

/-- What holds everywhere in a term and in all replacements holds everywhere in the image. -/
theorem HasImage.everywhere {u : Unifier} {p : Symbol → Nat → Prop} {term image : Expr}
    (h : u.HasImage term image)
    (replacements : ∀ binding ∈ u.bindings, binding.replacement.Everywhere p)
    (inTerm : term.Everywhere p) : image.Everywhere p := by
  induction h using HasImage.induction with
  | bound term replacement found located _ ih =>
    obtain ⟨binding, member, -, rfl⟩ := exists_of_lookup? located
    exact (Expr.everywhere_signed _).2 (ih (replacements binding member))
  | free term args _ images ih =>
    rw [Expr.everywhere_iff] at inTerm ⊢
    refine ⟨images.length_eq ▸ inTerm.1, fun image member => ?_⟩
    obtain ⟨i, hi, rfl⟩ := List.mem_iff_getElem.1 member
    obtain ⟨-, follows⟩ := (List.forall₂_iff_get.1 ih).2 i (images.length_eq ▸ hi) hi
    exact follows (inTerm.2 _ (List.get_mem _ _))

/-- What holds everywhere in a term and in all replacements holds everywhere in the instance. -/
theorem everywhere_apply {u : Unifier} {p : Symbol → Nat → Prop} {term : Expr}
    (replacements : ∀ binding ∈ u.bindings, binding.replacement.Everywhere p)
    (inTerm : term.Everywhere p) : (u.apply term).Everywhere p := by
  unfold apply
  cases found : u.image? term with
  | none => exact inTerm
  | some image => exact (image?_eq_some_iff.1 found).everywhere replacements inTerm

/-- Every term has an image. -/
def Total (u : Unifier) : Prop := ∀ term, ∃ image, u.HasImage term image

/-- Arguments have images if each of them has one. -/
theorem exists_images {u : Unifier} {args : List Expr}
    (each : ∀ arg ∈ args, ∃ image, u.HasImage arg image) :
    ∃ images, List.Forall₂ u.HasImage args images := by
  induction args with
  | nil => exact ⟨[], .nil⟩
  | cons arg args ih =>
    obtain ⟨image, first⟩ := each arg List.mem_cons_self
    obtain ⟨images, others⟩ := ih fun a member => each a (List.mem_cons_of_mem arg member)
    exact ⟨image :: images, .cons first others⟩

/-- Every term has an image if every replacement has one. -/
theorem total_of_replacements {u : Unifier}
    (replacements : ∀ binding ∈ u.bindings, ∃ image, u.HasImage binding.replacement image) :
    u.Total := by
  intro term
  induction term using Expr.induction with
  | node head negated args ih =>
    cases located : u.lookup? ⟨head, negated, args⟩ with
    | some replacement =>
      obtain ⟨binding, member, -, rfl⟩ := exists_of_lookup? located
      obtain ⟨image, found⟩ := replacements binding member
      exact ⟨_, .bound located found⟩
    | none =>
      obtain ⟨images, each⟩ := exists_images ih
      exact ⟨_, .free located each⟩

/-- Under a total unifier the instance of a term is its image. -/
theorem Total.hasImage {u : Unifier} (total : u.Total) (term : Expr) :
    u.HasImage term (u.apply term) := by
  obtain ⟨image, found⟩ := total term
  rwa [apply, image?_eq_some_iff.2 found]

/-- The instance of a bound term is that of its replacement, with the sign of the term. -/
theorem Total.apply_bound {u : Unifier} (total : u.Total) {term replacement : Expr}
    (located : u.lookup? term = some replacement) :
    u.apply term =
      { u.apply replacement with negated := (u.apply replacement).negated != term.negated } :=
  (total.hasImage term).unique (.bound located (total.hasImage replacement))

/-- The instance of a term that is not bound has the instances of the arguments. -/
theorem Total.apply_free {u : Unifier} (total : u.Total) {term : Expr}
    (located : u.lookup? term = none) :
    u.apply term = { term with args := term.args.map u.apply } := by
  refine (total.hasImage term).unique (.free located ?_)
  rw [List.forall₂_map_right_iff]
  exact List.forall₂_same.2 fun arg _ => total.hasImage arg

/-! ### Binding an unknown -/

/-- No instance of a term that binding the unknown would replace stands in the image. -/
def Avoids (u : Unifier) (unknown image : Expr) : Prop :=
  ∀ other found, unknown.sameAtom other → u.lookup? other = none → u.HasImage other found →
    ¬ image.Includes found

/-- An image that avoids an unknown stays the image when the unknown is bound. -/
theorem HasImage.bind {u : Unifier} {term image unknown replacement : Expr}
    (h : u.HasImage term image) (avoids : u.Avoids unknown image) :
    (u.bind unknown replacement).HasImage term image := by
  induction h using HasImage.induction with
  | bound term bound found located _ ih =>
    have kept : (u.bind unknown replacement).lookup? term = some bound := by
      rw [lookup?_bind, located, Option.some_or]
    refine .bound kept (ih fun other met same free image within => ?_)
    exact avoids other met same free image ((Expr.includes_signed _).2 within)
  | free term args located images ih =>
    have outside : unknown.sameAtom term = false := by
      -- The term would be replaced, and its image stands in itself.
      cases same : unknown.sameAtom term with
      | false => rfl
      | true => exact absurd (Expr.includes_self _) (avoids term _ same located (.free located images))
    have kept : (u.bind unknown replacement).lookup? term = none := by
      rw [lookup?_bind, located, outside]
      rfl
    refine .free kept (List.forall₂_iff_get.2 ⟨images.length_eq, fun i hi hj => ?_⟩)
    obtain ⟨-, follows⟩ := (List.forall₂_iff_get.1 ih).2 i hi hj
    refine follows fun other met same free image within => ?_
    exact avoids other met same free image (within.of_mem (List.get_mem args ⟨i, hj⟩))

/-- A total unifier stays total when an unknown is bound that the image of its replacement
avoids. -/
theorem Total.bind {u : Unifier} (total : u.Total) {unknown replacement image : Expr}
    (found : u.HasImage replacement image) (avoids : u.Avoids unknown image) :
    (u.bind unknown replacement).Total := by
  obtain ⟨sign, settled⟩ := found.signed false
  have new : (u.bind unknown replacement).HasImage replacement.positive _ :=
    settled.bind fun other met same free reached within =>
      avoids other met same free reached ((Expr.includes_signed sign).1 within)
  intro term
  obtain ⟨before, h⟩ := total term
  induction h using HasImage.induction with
  | bound term bound found located _ ih =>
    obtain ⟨after, image⟩ := ih
    have kept : (u.bind unknown replacement).lookup? term = some bound := by
      rw [lookup?_bind, located, Option.some_or]
    exact ⟨_, .bound kept image⟩
  | free term args located images ih =>
    cases same : unknown.sameAtom term with
    | true =>
      have added : (u.bind unknown replacement).lookup? term = some replacement.positive := by
        rw [lookup?_bind, located, same]
        rfl
      exact ⟨_, .bound added new⟩
    | false =>
      have kept : (u.bind unknown replacement).lookup? term = none := by
        rw [lookup?_bind, located, same]
        rfl
      obtain ⟨after, each⟩ := exists_images fun arg member => by
        obtain ⟨image, -, -, after⟩ := exists_of_forall₂ ih member
        exact after
      exact ⟨_, .free kept each⟩

/-- A term of which no part is bound is its own image. -/
theorem hasImage_self {u : Unifier} {term : Expr}
    (free : ∀ part : Expr, part.PartOf term → u.lookup? part = none) : u.HasImage term term := by
  induction term using Expr.induction with
  | node head negated args ih =>
    refine .free (free _ (.refl _)) (List.forall₂_same.2 fun arg member => ?_)
    exact ih arg member fun part within => free part (.inside member within)

/-- An unknown that does not occur in an image is avoided by it if nothing in the arguments of the
unknown is bound: the instances of the unknown are then equal to it apart from the sign. -/
theorem avoids_of_args_free {u : Unifier} {unknown image : Expr}
    (free : ∀ arg ∈ unknown.args, ∀ part : Expr, part.PartOf arg → u.lookup? part = none)
    (absent : unknown.atomOccursIn image = false) : u.Avoids unknown image := by
  rintro other found same located reached ⟨inner, within, equal⟩
  have itself : found = other := by
    refine reached.unique (hasImage_self fun part inside => ?_)
    cases inside with
    | refl => exact located
    | inside member inside =>
      obtain ⟨arg, there, equal⟩ := Expr.exists_arg_beq (Expr.sameAtom_symm same) member
      obtain ⟨counterpart, within, equal⟩ := inside.exists_beq equal
      rw [u.lookup?_congr (Expr.beq_iff.1 equal).2]
      exact free arg there counterpart within
  have matched : inner.sameAtom unknown := by
    have atoms : inner.positive.sameAtom unknown := by
      rw [equal, itself]
      exact Expr.sameAtom_symm same
    exact atoms
  rw [Expr.atomOccursIn_iff.2 ⟨inner, within, matched⟩] at absent
  cases absent

end Unifier

end Refute
