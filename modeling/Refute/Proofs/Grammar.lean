import Mathlib.Data.List.Induction
import Refute.Proofs.Formula

/-!
# The infix grammar

A phrase is a sequence of infix symbols that is one expression. Negation stands before its operand
and binds most tightly; comparisons, conjunction, disjunction, implication and equivalence follow in
this order, and all of them associate to the left. A quantifier stands before its body, which goes
on to the end of the group around it, so nothing but the end of that group follows a phrase that
ends with such a body. Parentheses may stand around every phrase.

In a sentence operands and operators alternate. `Turn` says which of them is due, from one symbol to
the next and without a stack, so it neither pairs parentheses nor counts arguments.
-/

namespace Refute

/-! ### Phrases -/

/-- How tightly an operator with two operands binds. -/
inductive Operator.Binds : Operator → Nat → Prop
  | biconditional : Binds .biconditional 0
  | implication : Binds .implication 1
  | disjunction : Binds .or 2
  | conjunction : Binds .and 3
  | equation : Binds .equals 4
  | inequation : Binds .notEquals 4

/-- An operator binds at the level of its precedence, and at most at the fourth. -/
theorem Operator.Binds.precedence {operator : Operator} {level : Nat} (binds : operator.Binds level) :
    operator.precedence = level ∧ level ≤ 4 := by
  cases binds <;> decide

/-- Some things in a row, with commas between them. -/
inductive Separated {α : Type} (R : List Symbol → α → Prop) : List Symbol → List α → Prop
  | one {symbols : List Symbol} {a : α} (only : R symbols a) : Separated R symbols [a]
  | more {before after : List Symbol} {as : List α} {a : α} (others : Separated R before as)
      (last : R after a) : Separated R (before ++ .comma :: after) (as ++ [a])

/-- What may stand between the variables of a quantifier and its body. -/
inductive Mark : List Symbol → Prop
  | nothing : Mark []
  | comma : Mark [.comma]
  | suchThat : Mark [.suchThat]

/-- Variables with commas between them. -/
def listing (first : Variable) (others : List Variable) : List Symbol :=
  .var first :: others.flatMap fun v => [.comma, .var v]

/-- What stands before the body of a quantifier. -/
inductive Heading : List Symbol → Binder → Prop
  | single (quantifier : Quantifier) (v : Variable) {mark : List Symbol} (between : Mark mark) :
      Heading (.quantifier quantifier :: .var v :: mark) ⟨quantifier, [v]⟩
  | listed (quantifier : Quantifier) (first : Variable) (others : List Variable)
      {mark : List Symbol} (between : Mark mark) :
      Heading (.quantifier quantifier :: .leftParen :: (listing first others ++ .rightParen :: mark))
        ⟨quantifier, first :: others⟩
  /-- A quantifier and its variables may already be one symbol. -/
  | read (binder : Binder) : Heading [.binder binder] binder

/-- The symbols are the expression, which holds together at the level: no operator that binds less
tightly stands outside parentheses. An unclosed phrase ends with the body of a quantifier that no
parenthesis ends. -/
inductive Phrase : Nat → Bool → List Symbol → Expr → Prop
  | operand {symbol : Symbol} (stands : symbol.isOperand) : Phrase 5 false [symbol] (.leaf symbol)
  | bare {owner : Symbol} (arity : owner.arity? = some 0) : Phrase 5 false [owner] (.leaf owner)
  | empty {owner : Symbol} (arity : owner.arity? = some 0) :
      Phrase 5 false [owner, .leftParen, .rightParen] (.leaf owner)
  | call {owner : Symbol} {symbols : List Symbol} {args : List Expr}
      (arity : owner.arity? = some args.length)
      (arguments : Separated (fun symbols e => Phrase 0 false symbols e) symbols args)
      (atomic : ∀ arg ∈ args, arg.isAtomic) :
      Phrase 5 false (owner :: .leftParen :: (symbols ++ [.rightParen])) (.node owner args)
  | group {unclosed : Bool} {symbols : List Symbol} {e : Expr} (inner : Phrase 0 unclosed symbols e) :
      Phrase 5 false (.leftParen :: (symbols ++ [.rightParen])) e
  | negation {unclosed : Bool} {symbols : List Symbol} {e : Expr}
      (operand : Phrase 5 unclosed symbols e) : Phrase 5 unclosed (.op .not :: symbols) e.negate
  | quantified {unclosed : Bool} {front symbols : List Symbol} {binder : Binder} {e : Expr}
      (heading : Heading front binder) (body : Phrase 0 unclosed symbols e) :
      Phrase 5 true (front ++ symbols) (.node (.binder binder) [e])
  | joined {operator : Operator} {level : Nat} {unclosed : Bool} {before after : List Symbol}
      {l r : Expr} (binds : operator.Binds level) (left : Phrase level false before l)
      (right : Phrase (level + 1) unclosed after r)
      (atomic : operator.isComparison → l.isAtomic ∧ r.isAtomic) :
      Phrase level unclosed (before ++ .op operator :: after) (.binary operator l r)
  | loosened {level : Nat} {unclosed : Bool} {symbols : List Symbol} {e : Expr}
      (inner : Phrase (level + 1) unclosed symbols e) : Phrase level unclosed symbols e

/-- The symbols are the expression. -/
def Sentence (symbols : List Symbol) (e : Expr) : Prop :=
  ∃ unclosed, Phrase 0 unclosed symbols e

/-! ### Lists -/

namespace Separated

variable {α : Type} {R S : List Symbol → α → Prop} {symbols : List Symbol} {as : List α}

/-- Things in a row are things of another kind if each of them is. -/
theorem imp (separated : Separated R symbols as)
    (follows : ∀ symbols, ∀ a ∈ as, R symbols a → S symbols a) : Separated S symbols as := by
  induction separated with
  | one only => exact .one (follows _ _ (List.mem_singleton_self _) only)
  | more others last ih =>
    exact .more (ih fun symbols a member => follows symbols a (List.mem_append_left _ member))
      (follows _ _ (List.mem_append_right _ (List.mem_singleton_self _)) last)

/-- What holds of a comma and of all symbols of the things listed holds of all symbols of the
list. -/
theorem forall_mem {p : Symbol → Prop} (separated : Separated R symbols as) (comma : p .comma)
    (inside : ∀ symbols a, R symbols a → ∀ symbol ∈ symbols, p symbol) :
    ∀ symbol ∈ symbols, p symbol := by
  induction separated with
  | one only => exact inside _ _ only
  | more others last ih =>
    simp only [List.forall_mem_append, List.forall_mem_cons]
    exact ⟨ih, comma, inside _ _ last⟩

/-- Whatever can be written one by one can be listed. -/
theorem exists_of_forall (nonempty : as ≠ []) (each : ∀ a ∈ as, ∃ symbols, R symbols a) :
    ∃ symbols, Separated R symbols as := by
  induction as using List.reverseRecOn with
  | nil => exact absurd rfl nonempty
  | append_singleton others a ih =>
    obtain ⟨last, written⟩ := each a (List.mem_append_right others (List.mem_singleton_self a))
    by_cases alone : others = []
    · subst alone
      exact ⟨last, .one written⟩
    · obtain ⟨before, listed⟩ := ih alone fun a member => each a (List.mem_append_left _ member)
      exact ⟨before ++ .comma :: last, .more listed written⟩

end Separated

namespace Phrase

/-- A property that passes to every phrase from those inside it holds of all phrases. -/
@[elab_as_elim]
theorem induction
    {motive : (level : Nat) → (unclosed : Bool) → (symbols : List Symbol) → (e : Expr) →
      Phrase level unclosed symbols e → Prop}
    (operand : ∀ {symbol : Symbol} (stands : symbol.isOperand), motive 5 false _ _ (.operand stands))
    (bare : ∀ {owner : Symbol} (arity : owner.arity? = some 0), motive 5 false _ _ (.bare arity))
    (empty : ∀ {owner : Symbol} (arity : owner.arity? = some 0), motive 5 false _ _ (.empty arity))
    (call : ∀ {owner : Symbol} {symbols : List Symbol} {args : List Expr}
      (arity : owner.arity? = some args.length)
      (arguments : Separated (fun symbols e => Phrase 0 false symbols e) symbols args)
      (atomic : ∀ arg ∈ args, arg.isAtomic),
      Separated (fun symbols e => ∃ phrase, motive 0 false symbols e phrase) symbols args →
        motive 5 false _ _ (.call arity arguments atomic))
    (group : ∀ {unclosed symbols e} (inner : Phrase 0 unclosed symbols e),
      motive 0 unclosed symbols e inner → motive 5 false _ _ (.group inner))
    (negation : ∀ {unclosed symbols e} (operand : Phrase 5 unclosed symbols e),
      motive 5 unclosed symbols e operand → motive 5 unclosed _ _ (.negation operand))
    (quantified : ∀ {unclosed front symbols binder e} (heading : Heading front binder)
      (body : Phrase 0 unclosed symbols e),
      motive 0 unclosed symbols e body → motive 5 true _ _ (.quantified heading body))
    (joined : ∀ {operator : Operator} {level unclosed before after} {l r : Expr}
      (binds : operator.Binds level)
      (left : Phrase level false before l) (right : Phrase (level + 1) unclosed after r)
      (atomic : operator.isComparison → l.isAtomic ∧ r.isAtomic),
      motive level false before l left → motive (level + 1) unclosed after r right →
        motive level unclosed _ _ (.joined binds left right atomic))
    (loosened : ∀ {level unclosed symbols e} (inner : Phrase (level + 1) unclosed symbols e),
      motive (level + 1) unclosed symbols e inner → motive level unclosed _ _ (.loosened inner))
    {level : Nat} {unclosed : Bool} {symbols : List Symbol} {e : Expr}
    (phrase : Phrase level unclosed symbols e) : motive level unclosed symbols e phrase :=
  @Phrase.rec motive
    (fun symbols args _ =>
      Separated (fun symbols e => ∃ phrase, motive 0 false symbols e phrase) symbols args)
    operand bare empty call group negation quantified joined loosened
    (fun only holds => .one ⟨only, holds⟩)
    (fun _ last others holds => .more others ⟨last, holds⟩) _ _ _ _ phrase

variable {level : Nat} {unclosed : Bool} {symbols : List Symbol} {e : Expr}

/-- What holds together at a level holds together at every looser one. -/
theorem loosen (phrase : Phrase level unclosed symbols e) {looser : Nat} (le : looser ≤ level) :
    Phrase looser unclosed symbols e := by
  induction level with
  | zero => exact Nat.le_zero.1 le ▸ phrase
  | succ level ih =>
    by_cases same : looser = level + 1
    · exact same ▸ phrase
    · exact ih phrase.loosened (by omega)

/-- A phrase without connective or quantifier at the root of its expression is closed. -/
theorem closed_of_isAtomic (phrase : Phrase level unclosed symbols e) (atomic : e.isAtomic) :
    Phrase level false symbols e := by
  induction phrase using Phrase.induction with
  | operand stands => exact .operand stands
  | bare arity => exact .bare arity
  | empty arity => exact .empty arity
  | call arity arguments each => exact .call arity arguments each
  | group inner => exact .group inner
  | negation operand ih => exact .negation (ih atomic)
  | quantified heading body => cases atomic
  | @joined operator _ _ _ _ _ _ binds left right sides ihLeft ihRight =>
    have comparison : operator.isComparison := by cases binds <;> first | rfl | cases atomic
    exact .joined binds left (ihRight (sides comparison).2) sides
  | loosened inner ih => exact .loosened (ih atomic)

end Phrase

/-! ### Every formula can be written -/

/-- No quantifier and its variables are one symbol. -/
def Spelled (symbols : List Symbol) : Prop := ∀ symbol ∈ symbols, symbol.isBinder = false

/-- The empty sequence of symbols is spelled out. -/
@[simp]
theorem spelled_nil : Spelled [] := List.forall_mem_nil _

/-- Symbols are spelled out if the first one and the others are. -/
@[simp]
theorem spelled_cons {symbol : Symbol} {symbols : List Symbol} :
    Spelled (symbol :: symbols) ↔ symbol.isBinder = false ∧ Spelled symbols :=
  List.forall_mem_cons

/-- Symbols are spelled out if both parts are. -/
@[simp]
theorem spelled_append {before after : List Symbol} :
    Spelled (before ++ after) ↔ Spelled before ∧ Spelled after :=
  List.forall_mem_append

namespace Expr

/-- Some phrase that can stand everywhere is the expression. -/
def Written (e : Expr) : Prop := ∃ symbols, Phrase 5 false symbols e ∧ Spelled symbols

/-- An atom may be an argument. -/
theorem IsAtom.isAtomic {e : Expr} (isAtom : e.IsAtom) : e.isAtomic := by
  obtain ⟨head, negated, args⟩ := e
  have takes : head.Takes args.length := (everywhere_iff.1 isAtom).1
  cases head with
  | op operator => cases operator <;> first | rfl | exact takes.elim
  | binder b => exact takes.elim
  | _ => rfl

/-- What can be written can be written with a negation. -/
theorem Written.signed {head : Symbol} {args : List Expr} (written : (node head args).Written)
    (negated : Bool) : Written ⟨head, negated, args⟩ := by
  cases negated with
  | false => exact written
  | true =>
    obtain ⟨symbols, phrase, spelled⟩ := written
    exact ⟨.op .not :: symbols, .negation phrase, spelled_cons.2 ⟨rfl, spelled⟩⟩

/-- Two expressions that can be written can be joined by an operator, in parentheses. -/
theorem Written.joined {operator : Operator} {level : Nat} {l r : Expr}
    (binds : operator.Binds level) (left : l.Written) (right : r.Written)
    (atomic : operator.isComparison → l.isAtomic ∧ r.isAtomic) : (binary operator l r).Written := by
  obtain ⟨before, leftPhrase, leftSpelled⟩ := left
  obtain ⟨after, rightPhrase, rightSpelled⟩ := right
  have bounded : level + 1 ≤ 5 := by cases binds <;> decide
  have phrase := Phrase.joined binds (leftPhrase.loosen (by omega)) (rightPhrase.loosen bounded) atomic
  refine ⟨_, .group (phrase.loosen (Nat.zero_le level)), ?_⟩
  simp [leftSpelled, rightSpelled, Symbol.isBinder]

/-- Variables with commas between them are spelled out. -/
theorem spelled_listing (first : Variable) (others : List Variable) :
    Spelled (listing first others) := by
  intro symbol member
  simp only [listing, List.mem_cons, List.mem_flatMap, List.not_mem_nil, or_false] at member
  obtain rfl | ⟨v, -, rfl | rfl⟩ := member <;> rfl

/-- An expression that can be written can be quantified, in parentheses. -/
theorem Written.quantified {binder : Binder} {body : Expr} (named : binder.bound ≠ [])
    (written : body.Written) : (node (.binder binder) [body]).Written := by
  obtain ⟨quantifier, bound⟩ := binder
  obtain ⟨symbols, phrase, spelled⟩ := written
  obtain ⟨first, others, rfl⟩ := List.exists_cons_of_ne_nil named
  refine ⟨_, .group ((Phrase.quantified (.listed quantifier first others .nothing)
    (phrase.loosen (Nat.zero_le 5))).loosen (Nat.zero_le 5)), ?_⟩
  simp [spelled, spelled_listing, Symbol.isBinder]

/-- A function or relation is written in front of its arguments, or alone. -/
theorem Written.application {owner : Symbol} {args : List Expr}
    (arity : owner.arity? = some args.length) (written : ∀ arg ∈ args, arg.Written)
    (atomic : ∀ arg ∈ args, arg.isAtomic) : (node owner args).Written := by
  have plain : owner.isBinder = false := by cases owner <;> first | rfl | cases arity
  by_cases alone : args = []
  · subst alone
    exact ⟨[owner], .bare arity, by simp [plain]⟩
  · obtain ⟨symbols, listed⟩ := Separated.exists_of_forall alone written
    refine ⟨_, .call arity (listed.imp fun _ _ _ each => each.1.loosen (Nat.zero_le 5)) atomic, ?_⟩
    have inside : Spelled symbols := listed.forall_mem rfl fun _ _ each => each.2
    have parentheses : Spelled [.leftParen] ∧ Spelled [.rightParen] := by simp [Symbol.isBinder]
    simp_all

/-- Every atom can be written. -/
theorem IsAtom.written {e : Expr} (isAtom : e.IsAtom) : e.Written := by
  induction e using Expr.induction with
  | node head negated args ih =>
    obtain ⟨takes, atoms⟩ := everywhere_iff.1 isAtom
    have written : ∀ arg ∈ args, arg.Written := fun arg member => ih arg member (atoms arg member)
    have atomic : ∀ arg ∈ args, arg.isAtomic := fun arg member => IsAtom.isAtomic (atoms arg member)
    have operand : head.isOperand → args.length = 0 → (node head args).Written := by
      intro stands none
      obtain rfl := List.length_eq_zero_iff.1 none
      have plain : head.isBinder = false := by cases head <;> first | rfl | cases stands
      exact ⟨[head], .operand stands, by simp [plain]⟩
    have comparison : ∀ {operator : Operator}, operator.Binds 4 → head = .op operator →
        args.length = 2 → (node head args).Written := by
      intro operator binds same two
      obtain ⟨l, r, rfl⟩ := List.length_eq_two.1 two
      simp only [List.forall_mem_cons] at written atomic
      exact same ▸ .joined binds written.1 written.2.1 fun _ => ⟨atomic.1, atomic.2.1⟩
    refine Written.signed ?_ negated
    cases head with
    | var v => exact operand rfl takes
    | const c => exact operand rfl takes
    | skolem s => exact operand rfl takes
    | fn f => exact .application (congrArg some takes.symm) written atomic
    | rel r => exact .application (congrArg some takes.symm) written atomic
    | op operator =>
      cases operator with
      | equals => exact comparison .equation rfl takes
      | notEquals => exact comparison .inequation rfl takes
      | _ => exact takes.elim
    | _ => exact takes.elim

/-- Every formula whose quantifiers bind something can be written. -/
theorem Formula.written {e : Expr} (formula : e.Formula)
    (named : e.Everywhere fun head _ => ∀ binder, head = .binder binder → binder.bound ≠ []) :
    e.Written := by
  induction formula with
  | atom isAtom => exact isAtom.written
  | @connective operator negated a b joins left right ihLeft ihRight =>
    obtain ⟨-, inside⟩ := everywhere_iff.1 named
    simp only [List.forall_mem_cons] at inside
    have connected : ∃ level, operator.Binds level ∧ operator.isComparison = false := by
      cases operator with
      | and => exact ⟨3, .conjunction, rfl⟩
      | or => exact ⟨2, .disjunction, rfl⟩
      | implication => exact ⟨1, .implication, rfl⟩
      | biconditional => exact ⟨0, .biconditional, rfl⟩
      | _ => cases joins
    obtain ⟨level, binds, notComparison⟩ := connected
    refine Written.signed (.joined binds (ihLeft inside.1) (ihRight inside.2.1) ?_) negated
    intro comparison
    exact absurd comparison (by simp [notComparison])
  | @quantified binder negated body inner ih =>
    obtain ⟨root, inside⟩ := everywhere_iff.1 named
    have written := ih (inside body (List.mem_singleton_self body))
    exact Written.signed (.quantified (root binder rfl) written) negated

end Expr

/-! ### Alternation -/

/-- What is due next in a sequence of infix symbols. -/
inductive Turn where
  /-- An operand. -/
  | operand
  /-- The first argument of a function or relation, or the end of its empty argument list. -/
  | argument
  /-- An operator, a comma, a closing parenthesis or the end. -/
  | operator
  /-- An argument list, or what may follow an operand. -/
  | call
  /-- The variables of a quantifier. -/
  | header
  /-- The next variable in the list of a quantifier. -/
  | listed
  /-- A comma or the end of the list of a quantifier. -/
  | delimiter
  /-- The body of a quantifier, perhaps with a mark before it. -/
  | body

namespace Turn

/-- What is due after a symbol that begins an operand. -/
def opening : Symbol → Option Turn
  | .var _ => some operator
  | .const _ => some operator
  | .skolem _ => some operator
  | .fn _ => some call
  | .rel _ => some call
  | .leftParen => some operand
  | .op .not => some operand
  | .binder _ => some operand
  | .quantifier _ => some header
  | _ => none

/-- What is due after a symbol that follows an operand. -/
def following : Symbol → Option Turn
  | .op .not => none
  | .op _ => some operand
  | .comma => some operand
  | .rightParen => some operator
  | _ => none

/-- What is due after the next symbol, if that symbol was due. -/
def next : Turn → Symbol → Option Turn
  | operand, symbol => opening symbol
  | argument, .rightParen => some operator
  | argument, symbol => opening symbol
  | operator, symbol => following symbol
  | call, .leftParen => some argument
  | call, symbol => following symbol
  | header, .var _ => some body
  | header, .leftParen => some listed
  | listed, .var _ => some delimiter
  | delimiter, .comma => some listed
  | delimiter, .rightParen => some body
  | body, .comma => some operand
  | body, .suchThat => some operand
  | body, symbol => opening symbol
  | _, _ => none

/-- An operand may begin. -/
def isOpening : Turn → Bool
  | operand => true
  | argument => true
  | body => true
  | _ => false

/-- An operand may have ended. -/
def isFollowing : Turn → Bool
  | operator => true
  | call => true
  | _ => false

/-- A symbol that begins an operand is due wherever an operand may begin. -/
theorem next_of_isOpening {turn due : Turn} {symbol : Symbol} (begins : turn.isOpening)
    (opens : opening symbol = some due) : turn.next symbol = some due := by
  cases turn <;> cases begins <;> cases symbol <;> first | exact opens | cases opens

/-- A symbol that follows an operand is due wherever one may have ended. -/
theorem next_of_isFollowing {turn due : Turn} {symbol : Symbol} (ended : turn.isFollowing)
    (follows : following symbol = some due) : turn.next symbol = some due := by
  cases turn <;> cases ended <;> cases symbol <;> first | exact follows | cases follows

end Turn

/-- Operands and operators alternate: every operator with two operands stands between operands,
every negation and every quantifier with its variables stands before an operand, and no two operands
stand side by side. -/
def Alternating (symbols : List Symbol) : Prop :=
  ∃ turn, symbols.foldlM Turn.next .operand = some turn ∧ turn.isFollowing


namespace Turn

/-- What the symbols of a phrase do to the turn: an operand was due and is there. -/
def Passes (symbols : List Symbol) : Prop :=
  ∀ turn : Turn, turn.isOpening → ∃ due : Turn, symbols.foldlM next turn = some due ∧ due.isFollowing

/-- The turn goes on after the first symbol of an operand. -/
theorem foldlM_next_of_opening {turn due : Turn} {symbol : Symbol} (begins : turn.isOpening)
    (opens : opening symbol = some due) (symbols : List Symbol) :
    (symbol :: symbols).foldlM next turn = symbols.foldlM next due := by
  rw [List.foldlM_cons, next_of_isOpening begins opens]
  rfl

/-- The turn goes on after a symbol that follows an operand. -/
theorem foldlM_next_of_following {turn middle due : Turn} {before : List Symbol} {symbol : Symbol}
    (run : before.foldlM next turn = some middle) (ended : middle.isFollowing)
    (follows : following symbol = some due) (after : List Symbol) :
    (before ++ symbol :: after).foldlM next turn = after.foldlM next due := by
  rw [List.foldlM_append, run]
  change (symbol :: after).foldlM next middle = _
  rw [List.foldlM_cons, next_of_isFollowing ended follows]
  rfl

/-- A symbol that begins an operand and leaves one due may stand before an operand. -/
theorem Passes.cons {symbol : Symbol} {symbols : List Symbol} {due : Turn}
    (opens : opening symbol = some due) (begins : due.isOpening) (passes : Passes symbols) :
    Passes (symbol :: symbols) := by
  intro turn start
  rw [foldlM_next_of_opening start opens]
  exact passes due begins

/-- After an operand comes a symbol that may follow it, and then another operand. -/
theorem Passes.append {symbol : Symbol} {before after : List Symbol} (left : Passes before)
    (follows : following symbol = some .operand) (right : Passes after) :
    Passes (before ++ symbol :: after) := by
  intro turn start
  obtain ⟨middle, run, ended⟩ := left turn start
  rw [foldlM_next_of_following run ended follows]
  exact right .operand rfl

/-- After a phrase in parentheses an operator is due. -/
theorem Passes.close {symbols : List Symbol} (passes : Passes symbols) {turn : Turn}
    (start : turn.isOpening) : (symbols ++ [Symbol.rightParen]).foldlM next turn = some .operator := by
  obtain ⟨due, run, ended⟩ := passes turn start
  exact foldlM_next_of_following run ended rfl []

/-- The body of a quantifier may stand behind a comma, behind a colon or behind nothing. -/
theorem foldlM_next_mark {mark symbols : List Symbol} (between : Mark mark) (passes : Passes symbols) :
    ∃ due : Turn, (mark ++ symbols).foldlM next .body = some due ∧ due.isFollowing := by
  cases between with
  | nothing => exact passes .body rfl
  | comma => exact passes .operand rfl
  | suchThat => exact passes .operand rfl

/-- Further variables of a quantifier leave its delimiter due. -/
theorem foldlM_next_listing (others : List Variable) (rest : List Symbol) :
    ((others.flatMap fun v => [Symbol.comma, .var v]) ++ rest).foldlM next .delimiter =
      rest.foldlM next .delimiter := by
  induction others with
  | nil => rfl
  | cons v others ih => exact ih

/-- A quantifier with its variables may stand before an operand. -/
theorem Passes.quantified {front symbols : List Symbol} {binder : Binder}
    (heading : Heading front binder) (passes : Passes symbols) : Passes (front ++ symbols) := by
  intro turn start
  cases heading with
  | read b => exact passes.cons rfl rfl turn start
  | single quantifier v between =>
    rw [List.cons_append, foldlM_next_of_opening start rfl]
    exact foldlM_next_mark between passes
  | listed quantifier first others between =>
    rw [List.cons_append, foldlM_next_of_opening start rfl]
    obtain ⟨due, run, ended⟩ := foldlM_next_mark between passes
    refine ⟨due, ?_, ended⟩
    simp only [List.cons_append, List.append_assoc, listing]
    exact (foldlM_next_listing others _).trans run

/-- Operands with commas between them are one operand to the turn. -/
theorem Passes.separated {symbols : List Symbol} {args : List Expr}
    (listed : Separated (fun symbols _ => Passes symbols) symbols args) : Passes symbols := by
  induction listed with
  | one only => exact only
  | more others last ih => exact ih.append rfl last

end Turn

/-- In a phrase operands and operators alternate. -/
theorem Phrase.passes {level : Nat} {unclosed : Bool} {symbols : List Symbol} {e : Expr}
    (phrase : Phrase level unclosed symbols e) : Turn.Passes symbols := by
  have application : ∀ {owner : Symbol} {count : Nat}, owner.arity? = some count →
      Turn.opening owner = some .call := by
    intro owner count arity
    cases owner <;> first | rfl | cases arity
  induction phrase using Phrase.induction with
  | @operand symbol stands =>
    intro turn start
    have opens : Turn.opening symbol = some .operator := by
      cases symbol <;> first | rfl | cases stands
    exact ⟨.operator, Turn.foldlM_next_of_opening start opens [], rfl⟩
  | bare arity =>
    intro turn start
    exact ⟨.call, Turn.foldlM_next_of_opening start (application arity) [], rfl⟩
  | empty arity =>
    intro turn start
    exact ⟨.operator, Turn.foldlM_next_of_opening start (application arity) _, rfl⟩
  | call arity arguments atomic ih =>
    intro turn start
    have inside : Turn.Passes _ := .separated (ih.imp fun _ _ _ each => each.2)
    rw [Turn.foldlM_next_of_opening start (application arity)]
    refine ⟨.operator, ?_, rfl⟩
    change List.foldlM Turn.next .argument _ = _
    exact inside.close rfl
  | group inner ih =>
    intro turn start
    rw [Turn.foldlM_next_of_opening start rfl]
    exact ⟨.operator, ih.close rfl, rfl⟩
  | negation operand ih => exact ih.cons rfl rfl
  | quantified heading body ih => exact ih.quantified heading
  | joined binds left right atomic ihLeft ihRight =>
    exact ihLeft.append (by cases binds <;> rfl) ihRight
  | loosened inner ih => exact ih

/-- In a sentence operands and operators alternate. -/
theorem Sentence.alternating {symbols : List Symbol} {e : Expr} (sentence : Sentence symbols e) :
    Alternating symbols := by
  obtain ⟨unclosed, phrase⟩ := sentence
  exact phrase.passes .operand rfl

end Refute
