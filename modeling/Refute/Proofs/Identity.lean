import Mathlib.Data.List.Forall2
import Refute.Clause.Basic

/-!
# Identity

Equality of values, symbols and expressions is symmetric and transitive. It is not reflexive: a NaN
differs from itself, and so does every expression in which a NaN occurs. Nothing else does.

A property of symbols and of the numbers of their arguments holds `Everywhere` in an expression if
it holds at its root and everywhere in its arguments. A part of an expression is the expression
itself or a part of one of its arguments.
-/

namespace Refute

open Float.Model (UnpackedFloat)

/-! ### Values -/

/-- What equality of floats compares: a NaN has nothing to compare, and there is one zero. -/
def unpackedIdentity? : UnpackedFloat → Option UnpackedFloat
  | .notANumber => none
  | .zero _ => some (.zero .positive)
  | other => some other

/-- Two values are the same when something equals both. -/
theorem exists_common_iff {α : Type} (a b : α) :
    (∃ c, some a = some c ∧ some b = some c) ↔ a = b := by
  constructor
  · rintro ⟨c, left, right⟩
    exact Option.some.inj (left.trans right.symm)
  · rintro rfl
    exact ⟨a, rfl, rfl⟩

/-- Comparison finds floats equal when they have an identity in common. -/
theorem unpacked_compare_iff (a b : UnpackedFloat) :
    a.compare b = some .eq ↔
      ∃ identity, unpackedIdentity? a = some identity ∧ unpackedIdentity? b = some identity := by
  -- Identities of different kinds are apart, and the comparison gives another answer.
  have apart {c d : UnpackedFloat} (differ : c ≠ d) {found : Option Ordering}
      (other : found ≠ some .eq) :
      found = some .eq ↔ ∃ identity, some c = some identity ∧ some d = some identity := by
    rw [exists_common_iff]
    exact iff_of_false other differ
  have unanswered {c : Option UnpackedFloat} : (none : Option Ordering) = some .eq ↔
      ∃ identity, c = some identity ∧ (none : Option UnpackedFloat) = some identity := by
    simp
  cases a with
  | notANumber =>
    refine iff_of_false (fun same => by cases same) ?_
    rintro ⟨_, same, _⟩
    cases same
  | infinity s =>
    cases b with
    | notANumber => exact unanswered
    | infinity t =>
      refine Iff.trans ?_ (exists_common_iff _ _).symm
      cases s <;> cases t
      · exact iff_of_true rfl rfl
      · exact iff_of_false (fun same => by cases same) fun same => by cases same
      · exact iff_of_false (fun same => by cases same) fun same => by cases same
      · exact iff_of_true rfl rfl
    | _ => cases s <;> exact apart (fun same => by cases same) fun same => by cases same
  | zero s =>
    cases b with
    | notANumber => exact unanswered
    | zero t => exact iff_of_true rfl ⟨_, rfl, rfl⟩
    | infinity t => cases t <;> exact apart (fun same => by cases same) fun same => by cases same
    | finite t m e positive =>
      cases t <;> exact apart (fun same => by cases same) fun same => by cases same
  | finite s m e positive =>
    cases b with
    | notANumber => exact unanswered
    | infinity t => cases t <;> exact apart (fun same => by cases same) fun same => by cases same
    | zero t => cases s <;> exact apart (fun same => by cases same) fun same => by cases same
    | finite t n f large =>
      have ordered : (compare e f).then (compare m n) = .eq ↔ e = f ∧ m = n := by
        simp [Ordering.then_eq_eq]
      refine Iff.trans ?_ (exists_common_iff _ _).symm
      rw [UnpackedFloat.finite.injEq]
      cases s <;> cases t
      · change some ((compare e f).then (compare m n)).swap = some .eq ↔ _
        simp [ordered, and_comm]
      · exact iff_of_false (fun same => by cases same) fun same => by cases same.1
      · exact iff_of_false (fun same => by cases same) fun same => by cases same.1
      · change some ((compare e f).then (compare m n)) = some .eq ↔ _
        simp [ordered, and_comm]

/-- Floats are equal when they have an identity in common. -/
theorem float_beq_iff {x y : Float} :
    x == y ↔ ∃ identity, unpackedIdentity? x.toModel.unpack = some identity ∧
      unpackedIdentity? y.toModel.unpack = some identity := by
  rw [← unpacked_compare_iff]
  change (x.toModel.unpack.compare y.toModel.unpack == some .eq) = true ↔ _
  exact beq_iff_eq

/-- Only a NaN lacks an identity. -/
theorem float_beq_self {x : Float} (number : x.isNaN = false) : x == x := by
  rw [float_beq_iff]
  change x.toModel.unpack.isNaN = false at number
  cases unpacked : x.toModel.unpack with
  | notANumber =>
    rw [unpacked] at number
    cases number
  | _ => exact ⟨_, rfl, rfl⟩

/-- Equality of floats is symmetric and transitive. -/
instance partialEquivBEqFloat : PartialEquivBEq Float where
  symm h := by
    obtain ⟨identity, left, right⟩ := float_beq_iff.1 h
    exact float_beq_iff.2 ⟨identity, right, left⟩
  trans h k := by
    obtain ⟨identity, left, middle⟩ := float_beq_iff.1 h
    obtain ⟨other, again, right⟩ := float_beq_iff.1 k
    obtain rfl : identity = other := Option.some.inj (middle.symm.trans again)
    exact float_beq_iff.2 ⟨identity, left, right⟩

namespace Value

/-- Values are equal when they have the same kind and equal payloads. -/
theorem beq_eq (v w : Value) : (v == w) =
    match v, w with
    | .bool a, .bool b => a == b
    | .integer a, .integer b => a == b
    | .float a, .float b => a == b
    | .text a, .text b => a == b
    | _, _ => false := by
  cases v <;> cases w <;> rfl

/-- The value is a NaN. -/
def isNaN : Value → Bool
  | float number => number.isNaN
  | _ => false

/-- Equality of values is symmetric and transitive. -/
instance : PartialEquivBEq Value where
  symm {v w} h := by
    rw [beq_eq] at h ⊢
    cases v <;> cases w <;> first | exact BEq.symm h | exact h
  trans {v w x} h k := by
    rw [beq_eq] at h k ⊢
    cases v <;> cases w <;> cases x <;> first | exact BEq.trans h k | cases h | cases k

/-- A value that is no NaN is equal to itself. -/
theorem beq_self {v : Value} (number : v.isNaN = false) : v == v := by
  rw [beq_eq]
  cases v with
  | float x => exact float_beq_self number
  | _ => exact BEq.rfl

end Value

/-! ### Symbols -/

namespace Variable

/-- What makes a variable the one it is: its number and the space of the number. -/
def identity (v : Variable) : Nat × Bool := (v.id, v.system)

/-- Variables are equal when their identities are. -/
theorem beq_iff {v w : Variable} : v == w ↔ v.identity = w.identity := by
  change (v.id == w.id && v.system == w.system) = true ↔ _
  simp [identity]

/-- Equality of variables is an equivalence. -/
instance : EquivBEq Variable := equivBEq_of_iff_apply_eq identity fun _ _ => beq_iff

end Variable

/-- Equality of constants is symmetric and transitive. -/
instance : PartialEquivBEq Constant where
  symm {c d} h := by
    obtain ⟨names, values⟩ := Bool.and_eq_true_iff.1 h
    exact Bool.and_eq_true_iff.2 ⟨BEq.symm names, BEq.symm values⟩
  trans {c d e} h k := by
    obtain ⟨names, values⟩ := Bool.and_eq_true_iff.1 h
    obtain ⟨names', values'⟩ := Bool.and_eq_true_iff.1 k
    exact Bool.and_eq_true_iff.2 ⟨BEq.trans names names', BEq.trans values values'⟩

/-- Functions are equal when name and arity are. -/
instance : EquivBEq Function :=
  equivBEq_of_iff_apply_eq (fun f => (f.name, f.arity)) fun f g => by
    change (f.name == g.name && f.arity == g.arity) = true ↔ _
    simp

/-- Relations are equal when their functions are. -/
instance : EquivBEq Relation where
  rfl {r} := (BEq.rfl : r.function == r.function)
  symm {r s} h := BEq.symm (α := Function) (a := r.function) (b := s.function) h
  trans {r s t} h k :=
    BEq.trans (α := Function) (a := r.function) (b := s.function) (c := t.function) h k

/-- Skolem functions are equal when their numbers are. -/
theorem Skolem.beq_iff {s t : Skolem} : s == t ↔ s.id = t.id := by
  change (s.id == t.id) = true ↔ _
  simp

/-- Equality of Skolem functions is an equivalence. -/
instance : EquivBEq Skolem := equivBEq_of_iff_apply_eq Skolem.id fun _ _ => Skolem.beq_iff

/-- Binders are equal when quantifiers and the identities of the variables are. -/
instance : EquivBEq Binder :=
  equivBEq_of_iff_apply_eq (fun b => (b.quantifier, b.bound.map Variable.identity)) fun b c => by
    change (b.quantifier == c.quantifier && b.bound == c.bound) = true ↔ _
    simp only [Bool.and_eq_true, beq_iff_eq, Prod.mk.injEq, and_congr_right_iff]
    intro _
    generalize b.bound = vs
    generalize c.bound = ws
    induction vs generalizing ws with
    | nil => cases ws <;> simp
    | cons v vs ih =>
      cases ws with
      | nil => simp
      | cons w ws => simp [Variable.beq_iff, ih]

namespace Symbol

/-- Symbols of one kind with equal payloads. -/
inductive Alike : Symbol → Symbol → Prop
  | var {v w : Variable} (same : v == w) : Alike (.var v) (.var w)
  | const {c d : Constant} (same : c == d) : Alike (.const c) (.const d)
  | fn {f g : Function} (same : f == g) : Alike (.fn f) (.fn g)
  | rel {r s : Relation} (same : r == s) : Alike (.rel r) (.rel s)
  | op (o : Operator) : Alike (.op o) (.op o)
  | quantifier (q : Quantifier) : Alike (.quantifier q) (.quantifier q)
  | binder {b c : Binder} (same : b == c) : Alike (.binder b) (.binder c)
  | skolem {s t : Skolem} (same : s == t) : Alike (.skolem s) (.skolem t)
  | leftParen : Alike .leftParen .leftParen
  | rightParen : Alike .rightParen .rightParen
  | comma : Alike .comma .comma
  | suchThat : Alike .suchThat .suchThat

/-- Symbols are equal exactly if they are alike. -/
theorem beq_iff_alike {f g : Symbol} : f == g ↔ Alike f g := by
  constructor
  · intro h
    change same f g = true at h
    unfold same at h
    split at h
    · exact .var h
    · exact .const h
    · exact .fn h
    · exact .rel h
    · obtain rfl := eq_of_beq h
      exact .op _
    · obtain rfl := eq_of_beq h
      exact .quantifier _
    · exact .binder h
    · exact .skolem h
    · exact .leftParen
    · exact .rightParen
    · exact .comma
    · exact .suchThat
    · cases h
  · intro alike
    cases alike with
    | op o => exact (BEq.rfl : o == o)
    | quantifier q => exact (BEq.rfl : q == q)
    | leftParen | rightParen | comma | suchThat => rfl
    | _ same => exact same

/-- The symbol is a constant whose value is a NaN. -/
def isNaN : Symbol → Bool
  | const c => c.value.isNaN
  | _ => false

/-- Equality of symbols is symmetric and transitive. -/
instance : PartialEquivBEq Symbol where
  symm {f g} h := by
    rw [beq_iff_alike] at h ⊢
    cases h with
    | var same => exact .var (BEq.symm same)
    | const same => exact .const (BEq.symm same)
    | fn same => exact .fn (BEq.symm same)
    | rel same => exact .rel (BEq.symm same)
    | binder same => exact .binder (BEq.symm same)
    | skolem same => exact .skolem (BEq.symm same)
    | _ => constructor
  trans {f g k} h h' := by
    rw [beq_iff_alike] at h h' ⊢
    cases h with
    | var same => cases h' with | var other => exact .var (BEq.trans same other)
    | const same => cases h' with | const other => exact .const (BEq.trans same other)
    | fn same => cases h' with | fn other => exact .fn (BEq.trans same other)
    | rel same => cases h' with | rel other => exact .rel (BEq.trans same other)
    | binder same => cases h' with | binder other => exact .binder (BEq.trans same other)
    | skolem same => cases h' with | skolem other => exact .skolem (BEq.trans same other)
    | _ => exact h'

/-- A symbol that is no NaN is equal to itself. -/
theorem beq_self {f : Symbol} (number : f.isNaN = false) : f == f := by
  rw [beq_iff_alike]
  cases f with
  | var v => exact .var BEq.rfl
  | const c => exact .const (Bool.and_eq_true_iff.2 ⟨BEq.rfl, Value.beq_self number⟩)
  | fn f => exact .fn BEq.rfl
  | rel r => exact .rel BEq.rfl
  | binder b => exact .binder BEq.rfl
  | skolem s => exact .skolem BEq.rfl
  | _ => constructor

end Symbol

/-! ### Expressions -/

/-- A member of the first of two lists that are related place by place is related to one of the
second. -/
theorem exists_of_forall₂ {α β : Type} {R : α → β → Prop} {as : List α} {bs : List β}
    (related : List.Forall₂ R as bs) {a : α} (member : a ∈ as) : ∃ b ∈ bs, R a b := by
  obtain ⟨i, inside, rfl⟩ := List.mem_iff_getElem.1 member
  have there : i < bs.length := related.length_eq ▸ inside
  exact ⟨_, List.get_mem bs ⟨i, there⟩, (List.forall₂_iff_get.1 related).2 i inside there⟩

namespace Expr

/-- Argument lists are equal when they are equal argument by argument. -/
theorem sameArgs_iff {as bs : List Expr} : sameArgs as bs ↔ List.Forall₂ (· == ·) as bs := by
  induction as generalizing bs with
  | nil => cases bs <;> simp [sameArgs]
  | cons a as ih =>
    cases bs with
    | nil => simp [sameArgs]
    | cons b bs =>
      simp only [sameArgs, Bool.and_eq_true, List.forall₂_cons, ih]
      rfl

/-- Expressions are equal apart from the sign when symbols and arguments are equal. -/
theorem sameAtom_iff {e f : Expr} :
    e.sameAtom f ↔ e.head == f.head ∧ List.Forall₂ (· == ·) e.args f.args := by
  simp [sameAtom, sameArgs_iff]

/-- Expressions are equal when their signs are and they are equal apart from the sign. -/
theorem beq_iff {e f : Expr} : e == f ↔ e.negated = f.negated ∧ e.sameAtom f := by
  obtain ⟨g, n, as⟩ := e
  obtain ⟨h, m, bs⟩ := f
  change same _ _ = true ↔ _
  simp only [same, sameAtom, Bool.and_eq_true, beq_iff_eq]
  grind

/-- Equality of expressions is symmetric. -/
private theorem beq_symm {e f : Expr} (h : e == f) : f == e := by
  induction e using Expr.induction generalizing f with
  | node head negated args ih =>
    obtain ⟨signs, heads, arguments⟩ := beq_iff.1 h |>.imp_right sameAtom_iff.1
    refine beq_iff.2 ⟨signs.symm, sameAtom_iff.2 ⟨BEq.symm heads, ?_⟩⟩
    clear h signs heads
    obtain ⟨_, _, bs⟩ := f
    dsimp only at arguments ⊢
    induction arguments with
    | nil => exact .nil
    | cons first _ rest =>
      exact .cons (ih _ List.mem_cons_self first)
        (rest fun arg member => ih arg (List.mem_cons_of_mem _ member))

/-- Equality of expressions is transitive. -/
private theorem beq_trans {e f g : Expr} (h : e == f) (k : f == g) : e == g := by
  induction e using Expr.induction generalizing f g with
  | node head negated args ih =>
    obtain ⟨signs, heads, arguments⟩ := beq_iff.1 h |>.imp_right sameAtom_iff.1
    obtain ⟨signs', heads', arguments'⟩ := beq_iff.1 k |>.imp_right sameAtom_iff.1
    refine beq_iff.2 ⟨signs.trans signs', sameAtom_iff.2 ⟨BEq.trans heads heads', ?_⟩⟩
    clear h k signs heads signs' heads'
    obtain ⟨_, _, bs⟩ := f
    obtain ⟨_, _, cs⟩ := g
    dsimp only at arguments arguments' ⊢
    induction arguments generalizing cs with
    | nil => cases arguments'; exact .nil
    | cons first _ rest =>
      obtain _ | ⟨second, others⟩ := arguments'
      exact .cons (ih _ List.mem_cons_self first second)
        (rest (fun arg member => ih arg (List.mem_cons_of_mem _ member)) _ others)

/-- Equality of expressions is symmetric and transitive. -/
instance : PartialEquivBEq Expr where
  symm := beq_symm
  trans := beq_trans

/-- Equality apart from the sign is symmetric. -/
theorem sameAtom_symm {e f : Expr} (h : e.sameAtom f) : f.sameAtom e := by
  have signed : e.positive == f.positive := beq_iff.2 ⟨rfl, h⟩
  exact (beq_iff.1 (BEq.symm signed)).2

/-- Equality apart from the sign is transitive. -/
theorem sameAtom_trans {e f g : Expr} (h : e.sameAtom f) (k : f.sameAtom g) : e.sameAtom g := by
  have left : e.positive == f.positive := beq_iff.2 ⟨rfl, h⟩
  have right : f.positive == g.positive := beq_iff.2 ⟨rfl, k⟩
  exact (beq_iff.1 (BEq.trans left right)).2

/-! ### What holds everywhere in an expression -/

mutual

/-- A property of symbols with their numbers of arguments, at the root and everywhere below it. -/
def Everywhere (p : Symbol → Nat → Prop) : Expr → Prop
  | ⟨head, _, args⟩ => p head args.length ∧ EverywhereArgs p args

/-- A property of symbols with their numbers of arguments, everywhere in a list of arguments. -/
def EverywhereArgs (p : Symbol → Nat → Prop) : List Expr → Prop
  | [] => True
  | a :: as => Everywhere p a ∧ EverywhereArgs p as

end

/-- A property holds everywhere in arguments when it does so in each of them. -/
theorem everywhereArgs_iff {p : Symbol → Nat → Prop} {args : List Expr} :
    EverywhereArgs p args ↔ ∀ arg ∈ args, Everywhere p arg := by
  induction args with
  | nil => simp [EverywhereArgs]
  | cons a as ih => simp [EverywhereArgs, ih]

/-- A property holds everywhere when it holds at the root and everywhere in each argument. -/
theorem everywhere_iff {p : Symbol → Nat → Prop} {e : Expr} :
    Everywhere p e ↔ p e.head e.args.length ∧ ∀ arg ∈ e.args, Everywhere p arg := by
  obtain ⟨head, negated, args⟩ := e
  simp [Everywhere, everywhereArgs_iff]

/-- The sign does not matter for what holds everywhere. -/
theorem everywhere_signed {p : Symbol → Nat → Prop} {e : Expr} (negated : Bool) :
    Everywhere p { e with negated } ↔ Everywhere p e := by
  rw [everywhere_iff, everywhere_iff]

/-- What follows from a property at every symbol follows everywhere. -/
theorem Everywhere.imp {p q : Symbol → Nat → Prop} {e : Expr}
    (follows : ∀ head count, p head count → q head count) (holds : Everywhere p e) :
    Everywhere q e := by
  induction e using Expr.induction with
  | node head negated args ih =>
    rw [everywhere_iff] at holds ⊢
    exact ⟨follows _ _ holds.1, fun arg member => ih arg member (holds.2 arg member)⟩

/-- Two properties that hold everywhere hold together everywhere. -/
theorem Everywhere.and {p q : Symbol → Nat → Prop} {e : Expr} (first : Everywhere p e)
    (second : Everywhere q e) : Everywhere (fun head count => p head count ∧ q head count) e := by
  induction e using Expr.induction with
  | node head negated args ih =>
    rw [everywhere_iff] at first second ⊢
    exact ⟨⟨first.1, second.1⟩,
      fun arg member => ih arg member (first.2 arg member) (second.2 arg member)⟩

/-- What holds of all symbols holds everywhere. -/
theorem everywhere_of_forall {p : Symbol → Nat → Prop} {e : Expr} (holds : ∀ head count, p head count) :
    Everywhere p e := by
  induction e using Expr.induction with
  | node head negated args ih => exact everywhere_iff.2 ⟨holds _ _, ih⟩

/-- No Skolem function occurs. -/
def SkolemFree (e : Expr) : Prop := e.Everywhere fun head _ => ∀ s, head ≠ .skolem s

/-- Variables stand alone: none of them is applied to arguments. -/
def FirstOrder (e : Expr) : Prop := e.Everywhere fun head count => ∀ v, head = .var v → count = 0

/-- Neither a variable nor a Skolem function occurs. -/
def Ground (e : Expr) : Prop :=
  e.Everywhere fun head _ => (∀ v, head ≠ .var v) ∧ ∀ s, head ≠ .skolem s

/-- No constant is a NaN. -/
def NaNFree (e : Expr) : Prop := e.Everywhere fun head _ => head.isNaN = false

/-- An expression without NaN is equal to itself. -/
theorem beq_self {e : Expr} (number : e.NaNFree) : e == e := by
  induction e using Expr.induction with
  | node head negated args ih =>
    obtain ⟨root, inside⟩ := everywhere_iff.1 number
    refine beq_iff.2 ⟨rfl, sameAtom_iff.2 ⟨Symbol.beq_self root, ?_⟩⟩
    exact List.forall₂_same.2 fun arg member => ih arg member (inside arg member)

/-! ### Parts of an expression -/

/-- The first expression is the second one or stands inside it. -/
inductive PartOf : Expr → Expr → Prop
  | refl (e : Expr) : PartOf e e
  | inside {part arg whole : Expr} (member : arg ∈ whole.args) (within : PartOf part arg) :
      PartOf part whole

/-- Expressions that are equal apart from the sign have equal arguments. -/
theorem exists_arg_beq {e f arg : Expr} (same : e.sameAtom f) (member : arg ∈ e.args) :
    ∃ other ∈ f.args, arg == other :=
  exists_of_forall₂ (sameAtom_iff.1 same).2 member

/-- Equal expressions have equal parts. -/
theorem PartOf.exists_beq {part whole other : Expr} (within : part.PartOf whole)
    (same : whole == other) : ∃ counterpart : Expr, counterpart.PartOf other ∧ part == counterpart := by
  induction within generalizing other with
  | refl => exact ⟨other, .refl other, same⟩
  | inside member _ ih =>
    obtain ⟨arg, inside, equal⟩ := exists_arg_beq (beq_iff.1 same).2 member
    obtain ⟨counterpart, within, found⟩ := ih equal
    exact ⟨counterpart, .inside inside within, found⟩

/-- An expression occurs apart from its sign where a part is equal to it apart from the sign. -/
theorem atomOccursIn_iff {sought whole : Expr} :
    sought.atomOccursIn whole ↔ ∃ part : Expr, part.PartOf whole ∧ part.sameAtom sought := by
  constructor
  · intro occurs
    induction whole using Expr.induction with
    | node head negated args ih =>
      simp only [atomOccursIn, atomOccursInArgs_eq_any, Bool.or_eq_true, List.any_eq_true] at occurs
      rcases occurs with same | ⟨arg, member, within⟩
      · exact ⟨_, .refl _, same⟩
      · obtain ⟨part, inner, same⟩ := ih arg member within
        exact ⟨part, .inside member inner, same⟩
  · rintro ⟨part, within, same⟩
    induction within with
    | refl =>
      obtain ⟨head, negated, args⟩ := part
      simp [atomOccursIn, same]
    | @inside arg whole member _ ih =>
      obtain ⟨head, negated, args⟩ := whole
      simp only [atomOccursIn, atomOccursInArgs_eq_any, Bool.or_eq_true, List.any_eq_true]
      exact .inr ⟨arg, member, ih⟩

/-- The second expression, whatever its sign, stands somewhere in the first. -/
def Includes (whole part : Expr) : Prop :=
  ∃ inner : Expr, inner.PartOf whole ∧ inner.positive = part.positive

/-- An expression includes itself. -/
theorem includes_self (e : Expr) : e.Includes e := ⟨e, .refl e, rfl⟩

/-- What an argument includes the whole expression includes. -/
theorem Includes.of_mem {whole part arg : Expr} (within : arg.Includes part)
    (member : arg ∈ whole.args) : whole.Includes part := by
  obtain ⟨inner, inside, same⟩ := within
  exact ⟨inner, .inside member inside, same⟩

/-- The sign does not matter for what stands in an expression. -/
theorem includes_signed {whole part : Expr} (negated : Bool) :
    Includes { whole with negated } part ↔ whole.Includes part := by
  have changed : ∀ {e f : Expr}, e.positive = f.positive → e.Includes part → f.Includes part := by
    rintro e f equal ⟨inner, within, same⟩
    cases within with
    | refl => exact ⟨f, .refl f, equal.symm.trans same⟩
    | @inside arg _ member within =>
      have arguments : e.positive.args = f.positive.args := by rw [equal]
      have there : arg ∈ f.args := arguments ▸ member
      exact ⟨inner, .inside there within, same⟩
  exact ⟨changed rfl, changed rfl⟩

end Expr

/-! ### Literals of clauses -/

namespace Clause

/-- The literals of a clause that literals are added to are its own and those added. -/
theorem mem_of_mem_foldl_add {literal : Expr} {literals : List Expr} {clause : Clause}
    (member : literal ∈ (literals.foldl add clause).literals) :
    literal ∈ clause.literals ∨ literal ∈ literals := by
  induction literals generalizing clause with
  | nil => exact .inl member
  | cons first rest ih =>
    rcases ih member with old | later
    · unfold add at old
      split at old
      · exact .inl old
      · rcases List.mem_append.1 old with old | added
        · exact .inl old
        · exact .inr (List.mem_cons.2 (.inl (List.mem_singleton.1 added)))
    · exact .inr (List.mem_cons_of_mem first later)

/-- A clause has no other literals than the list it was made from. -/
theorem mem_of_mem_ofList {literal : Expr} {literals : List Expr}
    (member : literal ∈ (ofList literals).literals) : literal ∈ literals :=
  (mem_of_mem_foldl_add member).resolve_left List.not_mem_nil

/-- A list contains its literals unless they have a NaN. -/
theorem contains_of_mem {literals : List Expr} {literal : Expr} (member : literal ∈ literals)
    (number : literal.NaNFree) : literals.contains literal :=
  List.contains_iff_exists_mem_beq.2 ⟨literal, member, Expr.beq_self number⟩

/-- A clause contains what is equal to something that it contains. -/
theorem contains_of_beq {clause : Clause} {e f : Expr} (same : e == f) (held : clause.contains f) :
    clause.contains e := by
  obtain ⟨literal, member, equal⟩ := List.contains_iff_exists_mem_beq.1 held
  exact List.contains_iff_exists_mem_beq.2 ⟨literal, member, BEq.trans same equal⟩

/-- A clause contains what it contained before a literal was added, and the literal. -/
theorem contains_add {clause : Clause} {literal sought : Expr} :
    (clause.add literal).contains sought ↔ clause.contains sought ∨ sought == literal := by
  unfold add
  split
  · rename_i present
    exact ⟨.inl, fun held => held.elim id fun same => contains_of_beq same present⟩
  · simp [contains, List.contains_iff_exists_mem_beq]

/-- A clause that literals are added to contains what it contained before, and the literals. -/
theorem contains_foldl_add {literals : List Expr} {clause : Clause} {sought : Expr} :
    (literals.foldl add clause).contains sought ↔
      clause.contains sought ∨ literals.contains sought := by
  induction literals generalizing clause with
  | nil => simp
  | cons literal rest ih => rw [List.foldl_cons, ih, contains_add, List.contains_cons,
      Bool.or_eq_true, or_assoc]

/-- A clause contains what the list contains that it was made from. -/
theorem contains_ofList {literals : List Expr} {sought : Expr} :
    (ofList literals).contains sought ↔ literals.contains sought := by
  rw [ofList, contains_foldl_add]
  simp [contains, empty]

/-- A property of symbols with their numbers of arguments, everywhere in all literals. -/
def Everywhere (p : Symbol → Nat → Prop) (clause : Clause) : Prop :=
  ∀ literal ∈ clause.literals, literal.Everywhere p

/-- What holds everywhere in a clause holds everywhere in a part of it. -/
theorem Everywhere.without {p : Symbol → Nat → Prop} {clause : Clause} (holds : clause.Everywhere p)
    (index : Nat) : (clause.without index).Everywhere p :=
  fun literal member => holds literal (List.mem_of_mem_eraseIdx (mem_of_mem_ofList member))

/-- What holds everywhere in two clauses holds everywhere in their disjunction. -/
theorem Everywhere.merge {p : Symbol → Nat → Prop} {first second : Clause}
    (inFirst : first.Everywhere p) (inSecond : second.Everywhere p) :
    (first.merge second).Everywhere p :=
  fun literal member => (mem_of_mem_foldl_add member).elim (inFirst literal) (inSecond literal)

end Clause

end Refute
