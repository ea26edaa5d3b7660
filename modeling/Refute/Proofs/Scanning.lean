import Mathlib.Data.List.Nodup
import Refute.Proofs.Reading

/-!
# Names in a text

A text is read token by token: a name is resolved where it stands, and then headers, scopes and
groups move on. `Lexer.Resolves` lists what a name may be taken for, and `Lexer.Reads` says which
tokens lead the reader from one state to another, so what a run does can be said without the text.

Numbers of variables only grow, and the free variables of a text keep their names: each name has one
of them, introduced when the name is first met outside of all scopes that bind it.
-/

namespace Refute

/-- The symbol is neither a variable nor a quantifier with its variables. -/
def Symbol.isFixed : Symbol → Bool
  | .var _ => false
  | .binder _ => false
  | _ => true

/-- The lexicon spells neither variables nor quantifiers with their variables. -/
def Lexicon.isFixed (lexicon : Lexicon) : Bool :=
  lexicon.marks.all (·.2.isFixed) && lexicon.words.all (·.2.isFixed)

/-- The standard lexicon spells no variable and no quantifier with its variables. -/
theorem Lexicon.isFixed_standard : standard.isFixed := by decide

/-- A declared name stands for neither a variable nor a quantifier. -/
theorem Session.isFixed_of_lookup? {session : Session} {name : String} {symbol : Symbol}
    (found : session.lookup? name = some symbol) : symbol.isFixed := by
  unfold lookup? at found
  split at found <;> cases found <;> rfl

namespace Lexer

/-! ### Tokens -/

/-- What a lexeme is taken for where it stands, and the state after that. -/
inductive Resolves (lexer : Lexer) : Symbol → Lexer → Prop
  /-- A mark, a literal, a reserved word or a declared name. -/
  | fixed {symbol : Symbol} (isFixed : symbol.isFixed) : Resolves lexer symbol lexer
  /-- A name in a header. -/
  | introduced (name : String) (inside : lexer.header ≠ .closed) :
      Resolves lexer (.var (lexer.introduce name).1) (lexer.introduce name).2
  /-- A name that a quantifier binds. -/
  | bound {name : String} {v : Variable} (outside : lexer.header = .closed)
      (found : lexer.session.binding? name = some v) : Resolves lexer (.var v) lexer
  /-- A free name that was met before. -/
  | met {name : String} {v : Variable} (outside : lexer.header = .closed)
      (unbound : lexer.session.binding? name = none) (known : lexer.free? name = some v) :
      Resolves lexer (.var v) lexer
  /-- A free name that is met for the first time. -/
  | new {name : String} (outside : lexer.header = .closed)
      (unbound : lexer.session.binding? name = none) (unknown : lexer.free? name = none) :
      Resolves lexer (.var (lexer.introduceFree name).1) (lexer.introduceFree name).2

/-- One token leads from a state to the next. -/
def Takes (lexer : Lexer) (symbol : Symbol) (next : Lexer) : Prop :=
  ∃ resolved, lexer.Resolves symbol resolved ∧ resolved.accept symbol = .ok next

/-- The tokens lead from a state to another, one after the other. -/
inductive Reads : Lexer → List Symbol → Lexer → Prop
  | done {lexer : Lexer} : Reads lexer [] lexer
  | token {lexer next last : Lexer} {symbol : Symbol} {symbols : List Symbol}
      (takes : lexer.Takes symbol next) (rest : Reads next symbols last) :
      Reads lexer (symbol :: symbols) last

variable {lexicon : Lexicon} {lexer resolved next last : Lexer} {symbol : Symbol}
variable {symbols before after : List Symbol}

/-- Tokens are read one after the other. -/
theorem reads_cons_iff :
    lexer.Reads (symbol :: symbols) last ↔ ∃ next, lexer.Takes symbol next ∧ next.Reads symbols last := by
  constructor
  · rintro (_ | ⟨takes, rest⟩)
    exact ⟨_, takes, rest⟩
  · rintro ⟨next, takes, rest⟩
    exact .token takes rest

/-- Two sequences of tokens are read one after the other. -/
theorem reads_append_iff :
    lexer.Reads (before ++ after) last ↔ ∃ next, lexer.Reads before next ∧ next.Reads after last := by
  induction before generalizing lexer with
  | nil =>
    constructor
    · exact fun rest => ⟨lexer, .done, rest⟩
    · rintro ⟨_, ⟨⟩, rest⟩
      exact rest
  | cons symbol symbols ih =>
    rw [List.cons_append, reads_cons_iff]
    constructor
    · rintro ⟨between, takes, rest⟩
      obtain ⟨next, first, second⟩ := ih.1 rest
      exact ⟨next, .token takes first, second⟩
    · rintro ⟨next, first, second⟩
      obtain ⟨between, takes, rest⟩ := reads_cons_iff.1 first
      exact ⟨between, takes, ih.2 ⟨next, rest, second⟩⟩

/-- A single token is read as it is taken. -/
theorem reads_singleton_iff : lexer.Reads [symbol] last ↔ lexer.Takes symbol last := by
  constructor
  · rintro (_ | ⟨takes, ⟨⟩⟩)
    exact takes
  · exact fun takes => .token takes .done

/-- Whatever a name is resolved to, it may be taken for. -/
theorem resolves_of_resolve (fixed : lexicon.isFixed) {name : String} {rest : List Char}
    (done : lexer.resolve lexicon name rest = .ok (symbol, next)) : lexer.Resolves symbol next := by
  have words := List.all_eq_true.1 (Bool.and_eq_true_iff.1 fixed).2
  unfold resolve at done
  split at done
  · rename_i found
    obtain ⟨entry, listed, rfl⟩ := Option.map_eq_some_iff.1 found
    obtain ⟨rfl, rfl⟩ := Prod.mk.inj (Except.ok.inj done)
    exact .fixed (words entry (List.mem_of_find?_eq_some listed))
  split at done
  · rename_i inside
    obtain ⟨rfl, rfl⟩ := Prod.mk.inj (Except.ok.inj done)
    exact .introduced name (bne_iff_ne.1 inside)
  rename_i inside
  have outside : lexer.header = .closed := by simpa using inside
  split at done
  · rename_i found
    obtain ⟨rfl, rfl⟩ := Prod.mk.inj (Except.ok.inj done)
    unfold known? at found
    split at found
    · obtain rfl := Option.some.inj found
      exact .bound outside ‹_›
    · obtain rfl := Option.some.inj found
      exact .fixed (Session.isFixed_of_lookup? ‹_›)
    · obtain ⟨v, known, rfl⟩ := Option.map_eq_some_iff.1 found
      exact .met outside ‹_› known
  · rename_i found
    split at done
    · cases done
    · obtain ⟨rfl, rfl⟩ := Prod.mk.inj (Except.ok.inj done)
      unfold known? at found
      split at found
      · cases found
      · cases found
      · exact .new outside ‹_› (Option.map_eq_none_iff.1 found)

/-- Whatever the symbol of a lexeme is, the lexeme may be taken for it. -/
theorem resolves_of_read (fixed : lexicon.isFixed) {offset : Nat} {c : Char} {rest : List Char}
    {reading : Lexeme.Reading} (read : Lexeme.read lexicon offset c rest = .ok reading)
    (named : lexer.symbolOf lexicon reading.rest reading.lexeme = .ok (symbol, resolved)) :
    lexer.Resolves symbol resolved := by
  have marks := List.all_eq_true.1 (Bool.and_eq_true_iff.1 fixed).1
  obtain ⟨name, word⟩ | ⟨constant, literal⟩ | ⟨mark, listed, spelled⟩ := Lexeme.read_ok read
  · rw [word] at named
    exact resolves_of_resolve fixed named
  · rw [literal] at named
    obtain ⟨rfl, rfl⟩ := Prod.mk.inj (Except.ok.inj named)
    exact .fixed rfl
  · rw [spelled] at named
    obtain ⟨rfl, rfl⟩ := Prod.mk.inj (Except.ok.inj named)
    exact .fixed (marks mark listed)

/-- A step takes one token, or it stops before a token or at one that is not acceptable. -/
theorem step_cases (fixed : lexicon.isFixed) {offset : Nat} {c : Char} {rest : List Char}
    {result : Except ParseError (List Char × List Char)}
    (stepped : lexer.step lexicon offset c rest = (result, next)) :
    (∃ remaining symbol, result = .ok remaining ∧ lexer.Takes symbol next) ∨
    (∃ cause, result = .error cause ∧ next = lexer) ∨
    ∃ cause symbol, result = .error cause ∧ lexer.Resolves symbol next ∧
      next.accept symbol = .error cause := by
  unfold step at stepped
  split at stepped
  · obtain ⟨rfl, rfl⟩ := Prod.mk.inj stepped
    exact .inr (.inl ⟨_, rfl, rfl⟩)
  · rename_i reading read
    split at stepped
    · obtain ⟨rfl, rfl⟩ := Prod.mk.inj stepped
      exact .inr (.inl ⟨_, rfl, rfl⟩)
    · rename_i symbol resolved named
      have resolves := resolves_of_read fixed read named
      split at stepped
      · rename_i refused
        obtain ⟨rfl, rfl⟩ := Prod.mk.inj stepped
        exact .inr (.inr ⟨_, symbol, rfl, resolves, refused⟩)
      · rename_i accepted
        obtain ⟨rfl, rfl⟩ := Prod.mk.inj stepped
        exact .inl ⟨_, symbol, rfl, resolved, resolves, accepted⟩

/-- A step that succeeds takes one token. -/
theorem takes_of_step (fixed : lexicon.isFixed) {offset : Nat} {c : Char} {rest : List Char}
    {remaining : List Char × List Char}
    (stepped : lexer.step lexicon offset c rest = (.ok remaining, next)) :
    ∃ symbol, lexer.Takes symbol next := by
  obtain ⟨_, symbol, -, takes⟩ | ⟨_, failed, -⟩ | ⟨_, _, failed, -⟩ := step_cases fixed stepped
  · exact ⟨symbol, takes⟩
  · cases failed
  · cases failed

/-- A token that is taken is added to those taken before. -/
theorem Takes.tokens (takes : lexer.Takes symbol next) : next.tokens = symbol :: lexer.tokens := by
  obtain ⟨resolved, resolves, accepted⟩ := takes
  have kept : resolved.tokens = lexer.tokens := by cases resolves <;> rfl
  obtain ⟨moved, advanced, same⟩ := bind_eq_ok_iff.1 accepted
  obtain rfl := Except.ok.inj same
  rw [← kept, ← (kept_of_advance advanced).1]

/-- A text that is read leads the reader through its tokens. -/
theorem reads_of_scan (fixed : lexicon.isFixed) {fuel offset : Nat} {text : List Char}
    (scanned : scan lexicon fuel lexer offset text = (.ok (), last)) :
    ∃ symbols, lexer.Reads symbols last ∧ last.tokens = symbols.reverse ++ lexer.tokens := by
  induction fuel generalizing lexer offset text with
  | zero =>
    cases text with
    | nil => exact ⟨[], (Prod.mk.inj scanned).2 ▸ .done, (Prod.mk.inj scanned).2 ▸ rfl⟩
    | cons c rest => cases scanned
  | succ fuel ih =>
    cases text with
    | nil => exact ⟨[], (Prod.mk.inj scanned).2 ▸ .done, (Prod.mk.inj scanned).2 ▸ rfl⟩
    | cons c rest =>
      unfold scan at scanned
      split at scanned
      · exact ih scanned
      · split at scanned
        · cases scanned
        · rename_i stepped
          obtain ⟨symbol, takes⟩ := takes_of_step fixed stepped
          obtain ⟨symbols, reads, tokens⟩ := ih scanned
          refine ⟨symbol :: symbols, .token takes reads, ?_⟩
          rw [tokens, takes.tokens]
          simp

end Lexer

/-- A text that is read without an error leads the reader through its tokens. -/
theorem Session.reads_of_tokenize {session : Session} {text : String} {tokens : List Symbol}
    (tokenized : (session.tokenize text).1 = .ok tokens) :
    ∃ last, Lexer.Reads { session } tokens last := by
  unfold tokenize tokenizeWith at tokenized
  rcases scanned : Lexer.scan Lexicon.standard (text.toList.length + 3) { session } 0 text.toList with
    ⟨result, last⟩
  simp only [scanned] at tokenized
  cases result with
  | error cause => cases tokenized
  | ok done =>
    obtain rfl := Except.ok.inj tokenized
    obtain ⟨symbols, reads, same⟩ := Lexer.reads_of_scan Lexicon.isFixed_standard scanned
    rw [same]
    exact ⟨last, by simpa using reads⟩

namespace Lexer

variable {lexer resolved next last : Lexer} {symbol : Symbol} {symbols : List Symbol}

/-! ### Free variables -/

/-- Every name has one free variable at most, which carries the name and has a number below the next
one. -/
structure Lawful (lexer : Lexer) : Prop where
  /-- A free variable carries the name it stands for. -/
  named : ∀ entry ∈ lexer.free, entry.2.name = entry.1
  /-- The next number is new. -/
  below : ∀ entry ∈ lexer.free, entry.2.id < lexer.session.nextVariable
  /-- Later variables have larger numbers. -/
  ordered : lexer.free.Pairwise fun late early => early.2.id < late.2.id
  /-- No name has two free variables. -/
  distinct : (lexer.free.map Prod.fst).Nodup

/-- What was introduced before stays, and what comes later has later numbers. -/
structure Grows (lexer next : Lexer) : Prop where
  /-- Numbers are not given twice. -/
  le : lexer.session.nextVariable ≤ next.session.nextVariable
  /-- Free variables stay. -/
  subset : lexer.free ⊆ next.free
  /-- Free variables are old, or they have new numbers. -/
  new : ∀ entry ∈ next.free, entry ∈ lexer.free ∨ lexer.session.nextVariable ≤ entry.2.id

/-- A state keeps what it has introduced. -/
theorem Grows.refl (lexer : Lexer) : lexer.Grows lexer :=
  ⟨Nat.le_refl _, List.Subset.refl _, fun _ => .inl⟩

/-- What two runs keep one after the other stays over both. -/
theorem Grows.trans (first : lexer.Grows next) (second : next.Grows last) : lexer.Grows last where
  le := Nat.le_trans first.le second.le
  subset := List.Subset.trans first.subset second.subset
  new entry member := by
    rcases second.new entry member with old | late
    · exact first.new entry old
    · exact .inr (Nat.le_trans first.le late)

/-- Two entries of one name are one entry. -/
theorem Lawful.eq_of_name_eq (lawful : lexer.Lawful) {v w : Variable}
    (first : (v.name, v) ∈ lexer.free) (second : (w.name, w) ∈ lexer.free) (same : v.name = w.name) :
    v = w :=
  (Prod.mk.inj (List.inj_on_of_nodup_map lawful.distinct first second same)).2

/-- Resolving a name keeps what was introduced before. -/
theorem Resolves.grows (resolves : lexer.Resolves symbol resolved) : lexer.Grows resolved := by
  cases resolves with
  | introduced name inside => exact ⟨Nat.le_succ _, List.Subset.refl _, fun _ => .inl⟩
  | new outside unbound unknown =>
    exact ⟨Nat.le_succ _, List.subset_cons_self _ _,
      List.forall_mem_cons.2 ⟨.inr (Nat.le_refl _), fun _ => .inl⟩⟩
  | _ => exact .refl lexer

/-- Resolving a name gives no name a second free variable. -/
theorem Resolves.lawful (resolves : lexer.Resolves symbol resolved) (lawful : lexer.Lawful) :
    resolved.Lawful := by
  cases resolves with
  | introduced name inside =>
    exact ⟨lawful.named, fun entry member => Nat.lt_succ_of_lt (lawful.below entry member),
      lawful.ordered, lawful.distinct⟩
  | @new name outside unbound unknown =>
    refine ⟨List.forall_mem_cons.2 ⟨rfl, lawful.named⟩,
      List.forall_mem_cons.2 ⟨Nat.lt_succ_self _, fun entry member => ?_⟩,
      List.pairwise_cons.2 ⟨lawful.below, lawful.ordered⟩,
      List.nodup_cons.2 ⟨fun member => ?_, lawful.distinct⟩⟩
    · exact Nat.lt_succ_of_lt (lawful.below entry member)
    · obtain ⟨entry, listed, same⟩ := List.mem_map.1 member
      have missed := List.find?_eq_none.1 (Option.map_eq_none_iff.1 unknown) entry listed
      exact missed (beq_iff_eq.2 same)
  | _ => exact lawful

/-- Taking a token keeps what was introduced before, and gives no name a second free variable. -/
theorem Takes.grows (takes : lexer.Takes symbol next) :
    lexer.Grows next ∧ (lexer.Lawful → next.Lawful) := by
  obtain ⟨resolved, resolves, accepted⟩ := takes
  obtain ⟨moved, advanced, same⟩ := bind_eq_ok_iff.1 accepted
  obtain rfl := Except.ok.inj same
  obtain ⟨-, free, session⟩ := kept_of_advance advanced
  have number : moved.session.nextVariable = resolved.session.nextVariable := by rw [session]
  constructor
  · obtain ⟨le, subset, new⟩ := resolves.grows
    exact ⟨number ▸ le, free ▸ subset, free ▸ new⟩
  · intro lawful
    obtain ⟨named, below, ordered, distinct⟩ := resolves.lawful lawful
    exact ⟨free ▸ named, by rw [free, number]; exact below, free ▸ ordered, free ▸ distinct⟩

/-- Reading keeps what was introduced. -/
theorem Reads.grows (reads : lexer.Reads symbols last) :
    lexer.Grows last ∧ (lexer.Lawful → last.Lawful) := by
  induction reads with
  | done => exact ⟨.refl _, id⟩
  | token takes rest ih => exact ⟨takes.grows.1.trans ih.1, ih.2 ∘ takes.grows.2⟩

end Lexer

end Refute
