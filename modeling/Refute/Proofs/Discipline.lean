import Refute.Proofs.Existential
import Refute.Proofs.Independence

/-!
# Numbers across a session

A session may read texts and convert statements in any order. What one conversion returns shares no
number of a variable and no number of a Skolem function with what another one returns, because every
conversion takes its numbers from counters that only grow and that reading leaves alone. Within one
conversion a number stands for one thing: variables with the same number are marked alike, and
Skolem functions with the same number have the same arguments, which are the variables of the
universal quantifiers around the existential quantifier that the function stands for.
-/

namespace Refute

/-! ### What occurs in a normal form -/

namespace Expr

variable {e : Expr} {session : Session}

/-- The symbol brings in free variables and universal ones of the formula only, and if it is a
Skolem function, it stands for an existential variable of the formula. -/
structure Occurring (session : Session) (e : Expr) (symbol : Symbol) : Prop where
  /-- Variables are free, or they belong to a universal quantifier. -/
  mentioned : ∀ v ∈ symbol.mentions,
    v ∈ e.freeSet session ∨ v ∈ (e.apartForm session).1.boundVariables ∧ v.universal
  /-- Skolem functions stand for existential variables. -/
  skolems : ∀ s, symbol = .skolem s → ∃ v, (v, s) ∈ e.skolemTable session

/-- Symbols that are neither variables nor Skolem functions may occur in every normal form. -/
theorem occurring_plain {symbol : Symbol} (notVariable : ∀ v, symbol ≠ .var v)
    (notSkolem : ∀ s, symbol ≠ .skolem s) : e.Occurring session symbol where
  mentioned v member := by
    rw [Symbol.mentions_eq_nil notVariable notSkolem] at member
    cases member
  skolems s same := absurd same (notSkolem s)

/-- What holds of the symbols that take the place of variables, and of all symbols that stay, holds
everywhere in a formula without its quantifiers. -/
theorem Apart.matrix_unquantified {kinds : Set Quantifier} {free scope : Set Variable}
    {low high : Nat} (apart : Apart kinds free scope low high e) (skolemFree : e.SkolemFree)
    {replacements : List (Variable × Skolem)} {q : Symbol → Prop}
    (plain : ∀ head : Symbol, (∀ v, head ≠ .var v) → (∀ s, head ≠ .skolem s) → q head)
    (replaced : ∀ v, v ∈ scope ∨ v ∈ free ∨ v ∈ e.boundVariables →
      q (Skolem.replacement replacements v)) :
    (e.unquantified.mapLeaves (Skolem.replacement replacements)).Matrix fun atom =>
      atom.Everywhere fun head _ => q head := by
  induction apart with
  | literal isAtom le closed =>
    rw [isAtom.quantifierFree.2.2]
    refine .literal (isAtom.replace replacements) (everywhere_mapLeaves isAtom ?_ ?_)
    · exact skolemFree.imp fun head _ other notVariable => plain head notVariable other
    · exact closed.imp fun _ _ inside v occurs => replaced v ((inside v occurs).imp_right .inl)
  | junction either _ _ left right =>
    obtain ⟨-, inside⟩ := everywhere_iff.1 skolemFree
    obtain ⟨first, second⟩ := List.forall_mem_cons.1 inside
    rw [boundVariables_binary] at replaced
    rw [unquantified_binary, mapLeaves_binary]
    refine .junction either (left first fun v known => ?_)
      (right (List.forall_mem_singleton.1 second) fun v known => ?_)
    · exact replaced v (known.imp_right fun rest => rest.imp_right (List.mem_append_left _))
    · exact replaced v (known.imp_right fun rest => rest.imp_right (List.mem_append_right _))
  | quantified _ _ _ _ _ inner =>
    obtain ⟨-, inside⟩ := everywhere_iff.1 skolemFree
    rw [boundVariables_quantified] at replaced
    rw [unquantified_quantified]
    refine inner (List.forall_mem_singleton.1 inside) fun v known => replaced v ?_
    rcases known with (outer | own) | isFree | inBody
    · exact .inl outer
    · exact .inr (.inr (List.mem_append_left _ own))
    · exact .inr (.inl isFree)
    · exact .inr (.inr (List.mem_append_right _ inBody))

/-- What takes the place of a variable of the formula occurs in its normal form. -/
theorem occurring_replacement (formula : e.Formula) (skolemFree : e.SkolemFree) (session : Session)
    {v : Variable} (known : v ∈ e.freeSet session ∨ v ∈ (e.apartForm session).1.boundVariables) :
    e.Occurring session (Skolem.replacement (e.skolemTable session) v) := by
  have apart := apart_apartForm formula skolemFree session
  obtain ⟨placed, stays⟩ := replacement_skolemTable formula skolemFree session v
  have asVariable : v ∈ e.freeSet session ∨ v ∈ (e.apartForm session).1.boundVariables ∧ v.universal →
      e.Occurring session (Skolem.replacement (e.skolemTable session) v) := by
    intro kept
    rw [stays kept]
    exact ⟨fun w named => List.mem_singleton.1 named ▸ kept, nofun⟩
  rcases known with isFree | bound
  · exact asVariable (.inl isFree)
  cases marked : v.universal with
  | true => exact asVariable (.inr ⟨bound, marked⟩)
  | false =>
    obtain ⟨⟨w, around⟩, listed, rfl⟩ :=
      List.mem_map.1 ((apart.mem_existentials_iff []).2 ⟨bound, marked⟩)
    obtain ⟨place, located⟩ := List.mem_iff_getElem?.1 listed
    rw [placed place around located]
    refine ⟨fun u argument => ?_, fun s same => ?_⟩
    · exact .inr ((apart.universal_of_mem_existentials listed argument).resolve_left
        List.not_mem_nil)
    · obtain rfl := Symbol.skolem.inj same
      exact ⟨w, Skolem.mem_assign_iff.2 ⟨place, located, rfl⟩⟩

/-- The atoms of a normal form are made of symbols that occur in it. -/
theorem conjunction_occurring (formula : e.Formula) (skolemFree : e.SkolemFree) (session : Session) :
    (e.toCnf session).1.Conjunction fun atom =>
      atom.Everywhere fun head _ => e.Occurring session head := by
  rw [(toCnf_eq_distribute formula skolemFree session).1]
  refine ((apart_apartForm formula skolemFree session).matrix_unquantified
    (skolemFree_apartForm formula skolemFree session) (fun _ => occurring_plain)
    fun v known => ?_).distribute
  exact occurring_replacement formula skolemFree session
    (known.resolve_left (Set.notMem_empty v))

/-- What holds of all symbols of the atoms and of the connectives holds everywhere in a conjunction.
-/
theorem Conjunction.everywhere {q : Symbol → Prop}
    (conjunction : e.Conjunction fun atom => atom.Everywhere fun head _ => q head)
    (connective : ∀ operator, q (.op operator)) : e.Everywhere fun head _ => q head := by
  have joined : ∀ {operator : Operator} {a b : Expr}, (a.Everywhere fun head _ => q head) →
      (b.Everywhere fun head _ => q head) →
      (binary operator a b).Everywhere fun head _ => q head := fun left right =>
    everywhere_iff.2 ⟨connective _, List.forall_mem_cons.2 ⟨left, List.forall_mem_singleton.2 right⟩⟩
  have inDisjunction : ∀ {e : Expr}, (e.Disjunction fun atom => atom.Everywhere fun head _ => q head) →
      e.Everywhere fun head _ => q head := by
    intro e disjunction
    induction disjunction with
    | literal _ holds => exact holds
    | or _ _ left right => exact joined left right
  induction conjunction with
  | clause disjunction => exact inDisjunction disjunction
  | and _ _ left right => exact joined left right

/-- The symbols of an expression in suffix order are those that occur in it, and the sign. -/
theorem forall_mem_toPostfix {q : Symbol → Prop} (holds : e.Everywhere fun head _ => q head)
    (sign : q (.op .not)) : ∀ symbol ∈ e.toPostfix, q symbol := by
  induction e using Expr.induction with
  | node head negated args ih =>
    obtain ⟨root, inside⟩ := everywhere_iff.1 holds
    rw [toPostfix, toPostfixArgs_eq_flatMap]
    intro symbol member
    rcases List.mem_append.1 member with within | last
    · obtain ⟨arg, listed, here⟩ := List.mem_flatMap.1 within
      exact ih arg listed (inside arg listed) symbol here
    · rcases List.mem_cons.1 last with rfl | signed
      · exact root
      · cases negated with
        | true => exact List.mem_singleton.1 signed ▸ sign
        | false => cases signed

end Expr

/-- The symbols of all literals, each literal in suffix order. -/
def ClausalForm.symbols (form : ClausalForm) : List Symbol :=
  form.clauses.flatMap fun clause => clause.literals.flatMap Expr.toPostfix

/-- The normal form in suffix order is made of symbols that occur in it. -/
theorem Expr.occurring_of_mem_toPostfix {e : Expr} (formula : e.Formula) (skolemFree : e.SkolemFree)
    (session : Session) :
    ∀ symbol ∈ (e.toCnf session).1.toPostfix, e.Occurring session symbol :=
  forall_mem_toPostfix ((conjunction_occurring formula skolemFree session).everywhere
    fun _ => occurring_plain nofun nofun) (occurring_plain nofun nofun)

/-- Clauses are read off the normal form, and they are made of symbols that occur in it. -/
theorem Expr.exists_form_occurring {e : Expr} (formula : e.Formula) (skolemFree : e.SkolemFree)
    (session : Session) :
    ∃ form, ClausalForm.ofPostfix (e.toCnf session).1.toPostfix = .ok form ∧
      ∀ symbol ∈ form.symbols, e.Occurring session symbol := by
  have conjunction := conjunction_occurring formula skolemFree session
  obtain ⟨form, read, perm⟩ := ClausalForm.ofPostfix_toPostfix conjunction
  refine ⟨form, read, fun symbol member => ?_⟩
  obtain ⟨clause, inForm, within⟩ := List.mem_flatMap.1 member
  obtain ⟨literal, inClause, here⟩ := List.mem_flatMap.1 within
  obtain ⟨atom, -, holds, rfl⟩ := conjunction.exists_atom (perm.mem_iff.1 inForm) inClause
  refine forall_mem_toPostfix (everywhere_literal ?_ ?_ holds) (occurring_plain nofun nofun) symbol here
  · exact fun _ _ => occurring_plain nofun nofun
  · intro s _ occurs
    refine ⟨occurs, fun v argument => ⟨fun w named => ?_, nofun⟩⟩
    exact occurs.mentioned w (List.mem_singleton.1 named ▸ argument)

/-! ### Reading takes no numbers -/

/-- The numbers of the next variable and the next Skolem function of a conversion. -/
def Session.numbers (session : Session) : Nat × Nat := (session.nextSystem, session.nextSkolem)

namespace Lexer

/-- Unbinding names takes no numbers. -/
theorem numbers_release (session : Session) (names : List String) :
    (release session names).numbers = session.numbers := by
  rw [release_eq]
  rfl

variable {lexicon : Lexicon} {lexer next : Lexer} {symbol : Symbol}

/-- Finding the symbol of a lexeme takes no numbers of conversions. -/
theorem numbers_symbolOf {lexeme : Lexeme} {rest : List Char}
    (resolved : lexer.symbolOf lexicon rest lexeme = .ok (symbol, next)) :
    next.session.numbers = lexer.session.numbers := by
  cases lexeme with
  | symbol meaning =>
    obtain ⟨-, rfl⟩ := Prod.mk.inj (Except.ok.inj resolved)
    rfl
  | word name =>
    change lexer.resolve lexicon name rest = _ at resolved
    unfold resolve at resolved
    split at resolved
    · obtain ⟨-, rfl⟩ := Prod.mk.inj (Except.ok.inj resolved)
      rfl
    split at resolved
    · obtain ⟨-, rfl⟩ := Prod.mk.inj (Except.ok.inj resolved)
      rfl
    split at resolved
    · obtain ⟨-, rfl⟩ := Prod.mk.inj (Except.ok.inj resolved)
      rfl
    split at resolved
    · cases resolved
    · obtain ⟨-, rfl⟩ := Prod.mk.inj (Except.ok.inj resolved)
      rfl

/-- Accepting a symbol takes no numbers of conversions. -/
theorem numbers_accept (accepted : lexer.accept symbol = .ok next) :
    next.session.numbers = lexer.session.numbers := by
  obtain ⟨moved, advanced, same⟩ := bind_eq_ok_iff.1 accepted
  obtain rfl := Except.ok.inj same
  change moved.session.numbers = _
  rw [(kept_of_advance advanced).2.2]
  rfl

/-- A step takes no numbers, whether or not it succeeds. -/
theorem numbers_step (lexicon : Lexicon) (lexer : Lexer) (offset : Nat) (c : Char) (rest : List Char) :
    (lexer.step lexicon offset c rest).2.session.numbers = lexer.session.numbers := by
  unfold step
  split
  · rfl
  split
  · rfl
  rename_i resolved
  split
  · exact numbers_symbolOf resolved
  · exact (numbers_accept ‹_›).trans (numbers_symbolOf resolved)

/-- Scanning a text takes no numbers of conversions. -/
theorem numbers_scan (fuel : Nat) (lexer : Lexer) (offset : Nat) (text : List Char) :
    (scan lexicon fuel lexer offset text).2.session.numbers = lexer.session.numbers := by
  induction fuel generalizing lexer offset text with
  | zero => cases text <;> rfl
  | succ fuel ih =>
    cases text with
    | nil => rfl
    | cons c rest =>
      unfold scan
      split
      · exact ih _ _ _
      · have stepped := numbers_step lexicon lexer offset c rest
        split
        · rename_i failed
          exact (congrArg (·.2.session.numbers) failed) ▸ stepped
        · rename_i done
          exact (ih _ _ _).trans ((congrArg (·.2.session.numbers) done) ▸ stepped)

end Lexer

/-- Reading a statement takes no numbers of conversions, whether or not it succeeds. -/
theorem Statement.numbers_parse (session : Session) (text : String) :
    (parse session text).2.numbers = session.numbers := by
  change (Session.tokenizeWith _ session text).2.numbers = _
  unfold Session.tokenizeWith
  dsimp only
  rw [Lexer.close, Lexer.numbers_release, Lexer.numbers_release]
  exact Lexer.numbers_scan _ _ _ _

/-! ### One conversion -/

namespace Expr

variable {e : Expr} {session : Session} {symbol : Symbol}

/-- Variables that occur in a normal form have numbers that the conversion took. -/
theorem Occurring.number_of_mentions (occurs : e.Occurring session symbol) (formula : e.Formula)
    {v : Variable} (member : v ∈ symbol.mentions) :
    v.system ∧ session.nextSystem ≤ v.id ∧ v.id < (e.toCnf session).2.nextSystem := by
  rcases occurs.mentioned v member with isFree | ⟨bound, -⟩
  · obtain ⟨entry, listed, rfl⟩ := List.mem_map.1 isFree
    have lawful := lawful_apartForm session e
    have system : entry.2.system = true := by
      rw [lawful.named entry listed]
      rfl
    have taken := (grows_rename [] { next := session.nextSystem } (nnf false e)).new entry listed
    exact ⟨system, taken.resolve_left List.not_mem_nil, lawful.below entry listed⟩
  · obtain ⟨ascending, systems⟩ := boundVariables_apartForm formula session
    exact ⟨systems v bound, ascending.range v bound⟩

/-- Skolem functions that occur in a normal form have numbers that the conversion took. -/
theorem Occurring.number_of_skolem {s : Skolem} (occurs : e.Occurring session (.skolem s))
    (formula : e.Formula) (skolemFree : e.SkolemFree) :
    session.nextSkolem ≤ s.id ∧ s.id < (e.toCnf session).2.nextSkolem := by
  obtain ⟨v, listed⟩ := occurs.skolems s rfl
  obtain ⟨place, located, number⟩ := Skolem.mem_assign_iff.1 listed
  obtain ⟨inside, -⟩ := List.getElem?_eq_some_iff.1 located
  rw [(toCnf_eq_distribute formula skolemFree session).2]
  omega

/-- Variables with the same number are marked alike. -/
theorem universal_eq_of_occurring {first second : Symbol} (formula : e.Formula)
    (skolemFree : e.SkolemFree) (inFirst : e.Occurring session first)
    (inSecond : e.Occurring session second) {v w : Variable} (atFirst : v ∈ first.mentions)
    (atSecond : w ∈ second.mentions) (same : v.id = w.id) : v.universal = w.universal := by
  have apart := apart_apartForm formula skolemFree session
  have identities : v.identity = w.identity := by
    refine Prod.ext same ?_
    change v.system = w.system
    rw [(inFirst.number_of_mentions formula atFirst).1,
      (inSecond.number_of_mentions formula atSecond).1]
  have unmarked : ∀ u ∈ e.freeSet session, u.universal = false := by
    intro u isFree
    obtain ⟨entry, listed, rfl⟩ := List.mem_map.1 isFree
    rw [(lawful_apartForm session e).named entry listed]
    rfl
  rcases inFirst.mentioned v atFirst with isFree | ⟨bound, marked⟩ <;>
    rcases inSecond.mentioned w atSecond with isFreeToo | ⟨boundToo, markedToo⟩
  · rw [unmarked v isFree, unmarked w isFreeToo]
  · exact absurd identities ((apart.fresh_of_mem boundToo).new v isFree)
  · exact absurd identities.symm ((apart.fresh_of_mem bound).new w isFreeToo)
  · rw [marked, markedToo]

/-- Skolem functions with the same number have the same arguments. -/
theorem arguments_eq_of_occurring {s t : Skolem} (inFirst : e.Occurring session (.skolem s))
    (inSecond : e.Occurring session (.skolem t)) (same : s.id = t.id) :
    s.arguments = t.arguments := by
  obtain ⟨v, listed⟩ := inFirst.skolems s rfl
  obtain ⟨w, listedToo⟩ := inSecond.skolems t rfl
  obtain ⟨place, located, number⟩ := Skolem.mem_assign_iff.1 listed
  obtain ⟨other, atOther, numberToo⟩ := Skolem.mem_assign_iff.1 listedToo
  obtain rfl : place = other := by omega
  exact (Prod.mk.inj (Option.some.inj (located.symm.trans atOther))).2

end Expr

/-- A conversion of a formula in a session. -/
structure Conversion where
  /-- The session before the conversion. -/
  session : Session
  /-- The formula that was converted. -/
  formula : Expr
  /-- The symbols of what the conversion returned, or why it returned nothing. -/
  output : Except ClauseError (List Symbol)

namespace Conversion

/-- The symbols of what the conversion returned. -/
def symbols (conversion : Conversion) : List Symbol :=
  match conversion.output with
  | .ok symbols => symbols
  | .error _ => []

/-- The variables that occur in what the conversion returned, under Skolem functions too. -/
def mentions (conversion : Conversion) : List Variable := conversion.symbols.flatMap Symbol.mentions

/-- The formula with its variables apart, in negation normal form. -/
def standardized (conversion : Conversion) : Expr :=
  (conversion.formula.eliminateConnectives.standardize conversion.session).1

/-- The existential variables with their Skolem functions: numbered in order, each with the
variables of the universal quantifiers around it for arguments. -/
def skolems (conversion : Conversion) : List (Variable × Skolem) :=
  Skolem.assign conversion.session.nextSkolem (conversion.standardized.existentials [])

/-- Within the result of a conversion a number stands for one thing. -/
structure Disciplined (conversion : Conversion) : Prop where
  /-- There is a result. -/
  succeeds : conversion.output = .ok conversion.symbols
  /-- All variables have been renamed. -/
  system : ∀ v ∈ conversion.mentions, v.system
  /-- Variables with the same number are marked alike. -/
  flags : ∀ v ∈ conversion.mentions, ∀ w ∈ conversion.mentions, v.id = w.id →
    v.universal = w.universal
  /-- Skolem functions with the same number have the same arguments. -/
  arguments : ∀ s t, .skolem s ∈ conversion.symbols → .skolem t ∈ conversion.symbols →
    s.id = t.id → s.arguments = t.arguments
  /-- Every Skolem function was made for an existential variable. -/
  made : ∀ s, .skolem s ∈ conversion.symbols → ∃ v, (v, s) ∈ conversion.skolems
  /-- The Skolem functions stand where their variables stood. -/
  placed : (conversion.formula.toCnf conversion.session).1 =
    (conversion.standardized.unquantified.mapLeaves
      (Skolem.replacement conversion.skolems)).distribute

/-- Two conversions share no numbers. -/
structure Separate (first second : Conversion) : Prop where
  /-- They share no number of a variable. -/
  mentions : ∀ v ∈ first.mentions, ∀ w ∈ second.mentions, v.id ≠ w.id
  /-- They share no number of a Skolem function. -/
  skolems : ∀ s t, .skolem s ∈ first.symbols → .skolem t ∈ second.symbols → s.id ≠ t.id

/-- The numbers that occur in the result lie between those of two sessions. -/
structure Between (conversion : Conversion) (before after : Session) : Prop where
  /-- The numbers of variables do. -/
  mentions : ∀ v ∈ conversion.mentions, before.nextSystem ≤ v.id ∧ v.id < after.nextSystem
  /-- The numbers of Skolem functions do. -/
  skolems : ∀ s, .skolem s ∈ conversion.symbols →
    before.nextSkolem ≤ s.id ∧ s.id < after.nextSkolem

/-- Conversions that take numbers one after the other share none. -/
theorem Between.separate {first second : Conversion} {before middle later after : Session}
    (between : first.Between before middle) (le : middle.numbers ≤ later.numbers)
    (betweenToo : second.Between later after) : first.Separate second where
  mentions v inFirst w inSecond := by
    have := (between.mentions v inFirst).2
    have : middle.nextSystem ≤ later.nextSystem := le.1
    have := (betweenToo.mentions w inSecond).1
    omega
  skolems s t inFirst inSecond := by
    have := (between.skolems s inFirst).2
    have : middle.nextSkolem ≤ later.nextSkolem := le.2
    have := (betweenToo.skolems t inSecond).1
    omega

/-- A conversion whose result is made of symbols that occur in the normal form. -/
structure Lawful (conversion : Conversion) : Prop where
  /-- What was converted is a formula. -/
  formula : conversion.formula.Formula
  /-- It holds no Skolem functions. -/
  skolemFree : conversion.formula.SkolemFree
  /-- There is a result. -/
  succeeds : conversion.output = .ok conversion.symbols
  /-- Its symbols occur in the normal form. -/
  occurring : ∀ symbol ∈ conversion.symbols,
    conversion.formula.Occurring conversion.session symbol

variable {conversion : Conversion}

/-- Within the result of a lawful conversion a number stands for one thing. -/
theorem Lawful.disciplined (lawful : conversion.Lawful) : conversion.Disciplined where
  succeeds := lawful.succeeds
  system v member := by
    obtain ⟨symbol, listed, mentioned⟩ := List.mem_flatMap.1 member
    exact ((lawful.occurring symbol listed).number_of_mentions lawful.formula mentioned).1
  flags v inFirst w inSecond := by
    obtain ⟨first, listed, mentioned⟩ := List.mem_flatMap.1 inFirst
    obtain ⟨second, listedToo, mentionedToo⟩ := List.mem_flatMap.1 inSecond
    exact Expr.universal_eq_of_occurring lawful.formula lawful.skolemFree
      (lawful.occurring first listed) (lawful.occurring second listedToo) mentioned mentionedToo
  arguments s t inFirst inSecond :=
    Expr.arguments_eq_of_occurring (lawful.occurring _ inFirst) (lawful.occurring _ inSecond)
  made s listed := (lawful.occurring _ listed).skolems s rfl
  placed := (Expr.toCnf_eq_distribute lawful.formula lawful.skolemFree conversion.session).1

/-- The numbers of a result are those that the counters passed during the conversion. -/
theorem Lawful.between (lawful : conversion.Lawful) :
    conversion.Between conversion.session (conversion.formula.toCnf conversion.session).2 where
  mentions v member := by
    obtain ⟨symbol, listed, mentioned⟩ := List.mem_flatMap.1 member
    exact ((lawful.occurring symbol listed).number_of_mentions lawful.formula mentioned).2
  skolems s listed :=
    (lawful.occurring _ listed).number_of_skolem lawful.formula lawful.skolemFree

end Conversion

/-! ### Many conversions -/

/-- What a session can be asked to do. -/
inductive Request where
  /-- To read a text. -/
  | read (text : String)
  /-- To give the clauses of a statement. -/
  | clauses (statement : Statement)
  /-- To give the clauses of the negation of a statement. -/
  | negatedClauses (statement : Statement)
  /-- To give the normal form of a statement in suffix order. -/
  | symbols (statement : Statement)

namespace Request

/-- The statement of a conversion was read from a text, in this session or another one. -/
def IsRead : Request → Prop
  | read _ => True
  | clauses statement => statement.IsRead
  | negatedClauses statement => statement.IsRead
  | symbols statement => statement.IsRead

/-- Does what is asked: the conversion that is made, if any, and the session after it. -/
def answer (session : Session) : Request → Option Conversion × Session
  | read text => (none, (Statement.parse session text).2)
  | clauses statement =>
    let (result, next) := statement.clauses session
    (some ⟨session, statement.formula, result.map ClausalForm.symbols⟩, next)
  | negatedClauses statement =>
    let (result, next) := statement.negatedClauses session
    (some ⟨session, statement.formula.negate, result.map ClausalForm.symbols⟩, next)
  | symbols statement =>
    let (result, next) := statement.cnfSymbols session
    (some ⟨session, statement.formula, .ok result⟩, next)

/-- A text that is read takes no numbers, and a conversion takes those of its normal form. -/
theorem answer_cases {request : Request} (isRead : request.IsRead) (session : Session) :
    ((request.answer session).1 = none ∧ (request.answer session).2.numbers = session.numbers) ∨
    ∃ conversion, (request.answer session).1 = some conversion ∧ conversion.Lawful ∧
      conversion.session = session ∧
      (request.answer session).2 = (conversion.formula.toCnf session).2 := by
  have converted : ∀ {e : Expr}, e.Formula → e.SkolemFree →
      Conversion.Lawful ⟨session, e, (ClausalForm.ofPostfix (e.toCnf session).1.toPostfix).map
        ClausalForm.symbols⟩ := by
    intro e formula skolemFree
    obtain ⟨form, read, occurring⟩ := Expr.exists_form_occurring formula skolemFree session
    rw [read]
    exact ⟨formula, skolemFree, rfl, occurring⟩
  cases request with
  | read text => exact .inl ⟨rfl, Statement.numbers_parse session text⟩
  | clauses statement =>
    obtain ⟨before, text, after, parsed⟩ := isRead
    obtain ⟨formula, skolemFree⟩ := Statement.formula_of_parse parsed
    exact .inr ⟨_, rfl, converted formula skolemFree, rfl, rfl⟩
  | negatedClauses statement =>
    obtain ⟨before, text, after, parsed⟩ := isRead
    obtain ⟨formula, skolemFree⟩ := Statement.formula_of_parse parsed
    exact .inr ⟨_, rfl, converted formula.negate ((Expr.everywhere_signed _).2 skolemFree), rfl, rfl⟩
  | symbols statement =>
    obtain ⟨before, text, after, parsed⟩ := isRead
    obtain ⟨formula, skolemFree⟩ := Statement.formula_of_parse parsed
    refine .inr ⟨_, rfl, ⟨formula, skolemFree, rfl, ?_⟩, rfl, rfl⟩
    exact Expr.occurring_of_mem_toPostfix formula skolemFree session

end Request

namespace Session

/-- The conversions that are made when a session does what it is asked, one after the other. -/
def conversions (session : Session) : List Request → List Conversion
  | [] => []
  | request :: rest =>
    let (conversion, next) := request.answer session
    conversion.toList ++ next.conversions rest

/-- The conversions of a first request come before those of the others. -/
theorem conversions_cons (session : Session) (request : Request) (rest : List Request) :
    session.conversions (request :: rest) =
      (request.answer session).1.toList ++ (request.answer session).2.conversions rest := rfl

/-- A formula takes numbers from the counters and gives none back. -/
theorem numbers_le_toCnf {e : Expr} (formula : e.Formula) (skolemFree : e.SkolemFree)
    (session : Session) : session.numbers ≤ (e.toCnf session).2.numbers := by
  refine Prod.mk_le_mk.2 ⟨(Expr.grows_rename [] { next := session.nextSystem } _).le, ?_⟩
  rw [(Expr.toCnf_eq_distribute formula skolemFree session).2]
  exact Nat.le_add_right _ _

/-- No request sets the counters of a session back. -/
theorem numbers_le_answer {request : Request} (isRead : request.IsRead) (session : Session) :
    session.numbers ≤ (request.answer session).2.numbers := by
  obtain ⟨-, same⟩ | ⟨conversion, -, lawful, -, after⟩ := Request.answer_cases isRead session
  · rw [same]
  · rw [after]
    exact numbers_le_toCnf lawful.formula lawful.skolemFree session

/-- Every conversion that is made is lawful and takes numbers that were not taken before. -/
theorem lawful_of_mem_conversions {session : Session} {requests : List Request}
    (read : ∀ request ∈ requests, request.IsRead) {conversion : Conversion}
    (member : conversion ∈ session.conversions requests) :
    conversion.Lawful ∧ session.numbers ≤ conversion.session.numbers := by
  induction requests generalizing session with
  | nil => cases member
  | cons request rest ih =>
    rw [List.forall_mem_cons] at read
    rw [conversions_cons, List.mem_append] at member
    rcases member with now | later
    · obtain ⟨none, -⟩ | ⟨made, answered, lawful, same, -⟩ := Request.answer_cases read.1 session
      · rw [none] at now
        cases now
      · rw [answered] at now
        obtain rfl := List.mem_singleton.1 now
        exact ⟨lawful, le_of_eq (congrArg numbers same.symm)⟩
    · obtain ⟨lawful, le⟩ := ih read.2 later
      exact ⟨lawful, (numbers_le_answer read.1 session).trans le⟩

/-- Whatever texts a session reads and whatever statements that were read it converts: no two
conversions share a number of a variable or of a Skolem function, and within each of them a number
stands for one thing. -/
theorem conversions_separate_and_disciplined (session : Session) {requests : List Request}
    (read : ∀ request ∈ requests, request.IsRead) :
    (session.conversions requests).Pairwise Conversion.Separate ∧
      ∀ conversion ∈ session.conversions requests, conversion.Disciplined := by
  refine ⟨?_, fun conversion member => (lawful_of_mem_conversions read member).1.disciplined⟩
  induction requests generalizing session with
  | nil => exact .nil
  | cons request rest ih =>
    rw [List.forall_mem_cons] at read
    rw [conversions_cons]
    obtain ⟨none, -⟩ | ⟨made, answered, lawful, same, after⟩ := Request.answer_cases read.1 session
    · rw [none]
      exact ih _ read.2
    · rw [answered]
      refine List.pairwise_cons.2 ⟨fun later member => ?_, ih _ read.2⟩
      -- What comes later takes numbers from the counters that this conversion has left.
      obtain ⟨lawfulToo, le⟩ := lawful_of_mem_conversions read.2 member
      rw [after, ← same] at le
      exact lawful.between.separate le lawfulToo.between

/-- `FORALL x, x <=> EXISTS y, y`, whose normal form holds the inner quantifier twice. -/
def balanced : Statement :=
  let x : Variable := ⟨"x", 0, false, false⟩
  let y : Variable := ⟨"y", 1, false, false⟩
  ⟨[.var x, .var y, .binder ⟨.existential, [y]⟩, .op .biconditional, .binder ⟨.universal, [x]⟩],
    .node (.binder ⟨.universal, [x]⟩) [.binary .biconditional (.ofVariable x)
      (.node (.binder ⟨.existential, [y]⟩) [.ofVariable y])]⟩

/-- The conversions of one statement, with a text read between them, share no numbers. -/
theorem conversions_balanced :
    let requests : List Request :=
      [.clauses balanced, .read "FORALL z, z", .negatedClauses balanced, .symbols balanced]
    Statement.parse empty "FORALL x, x <=> EXISTS y, y" =
        (.ok balanced, { empty with nextVariable := 2 }) ∧
      (empty.conversions requests).map (fun conversion => conversion.mentions.map Variable.id) =
        [[0, 0, 0, 2, 0], [4, 4], [6, 6, 8, 6]] ∧
      (empty.conversions requests).Pairwise Conversion.Separate ∧
      ∀ conversion ∈ empty.conversions requests, conversion.Disciplined := by
  intro requests
  have parsed : Statement.parse empty "FORALL x, x <=> EXISTS y, y" =
    (.ok balanced, { empty with nextVariable := 2 }) := rfl
  have isRead : balanced.IsRead := ⟨_, _, _, parsed⟩
  have read : ∀ request ∈ requests, request.IsRead := by
    simp only [requests, List.forall_mem_cons]
    exact ⟨isRead, trivial, isRead, isRead, List.forall_mem_nil _⟩
  exact ⟨parsed, by decide +kernel, conversions_separate_and_disciplined empty read⟩

end Session

end Refute
