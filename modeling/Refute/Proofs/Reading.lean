import Refute.Proofs.Formula
import Refute.Proofs.Loop
import Refute.Statement

/-!
# Statements are formulas

What is read from a text is a formula: connectives have two operands, quantifiers one body,
functions and relations as many arguments as they take and none of them a formula, and no Skolem
function occurs. The symbols of a text have no Skolem function among them, bringing them into suffix
order adds none, and from then on every expression that is built is a formula.
-/

namespace Refute

namespace Symbol

/-- The symbol is no Skolem function. -/
def IsPlain (symbol : Symbol) : Prop := ∀ s, symbol ≠ .skolem s

/-- The test for symbols that are no Skolem functions. -/
def isPlain : Symbol → Bool
  | .skolem _ => false
  | _ => true

/-- The test finds exactly the symbols that are no Skolem functions. -/
theorem isPlain_iff {symbol : Symbol} : symbol.isPlain ↔ symbol.IsPlain := by
  cases symbol <;> simp [isPlain, IsPlain]

end Symbol

/-! ### Suffix order -/

/-- What waits has no Skolem function for an owner. -/
def Pending.IsPlain : Pending → Prop
  | .call owner _ _ => owner.IsPlain
  | _ => True

/-- What is awaited has no Skolem function for an owner. -/
def Awaited.IsPlain : Awaited → Prop
  | .arguments owner => owner.IsPlain
  | _ => True

namespace Infix

/-- No Skolem function was read. -/
structure IsPlain (state : Infix) : Prop where
  /-- None went out. -/
  output : ∀ symbol ∈ state.output, symbol.IsPlain
  /-- None waits. -/
  pending : ∀ entry ∈ state.pending, entry.IsPlain
  /-- None is awaited. -/
  awaited : state.awaited.IsPlain

variable {state next : Infix} {symbol : Symbol}

/-- Sending out what waits brings in no Skolem function. -/
theorem IsPlain.flushWhile (plain : state.IsPlain) (test : Pending → Bool) :
    (state.flushWhile test).IsPlain where
  output := by
    intro symbol member
    rcases List.mem_append.1 member with old | sent
    · exact plain.output symbol old
    · obtain ⟨entry, -, same⟩ := List.mem_filterMap.1 sent
      cases entry with
      | operator o => obtain rfl := Option.some.inj same; exact nofun
      | scope b => obtain rfl := Option.some.inj same; exact nofun
      | _ => cases same
  pending entry member := plain.pending entry ((List.dropWhile_suffix test).mem member)
  awaited := plain.awaited

/-- A symbol that goes out and is no Skolem function brings in none. -/
theorem IsPlain.emit (plain : state.IsPlain) (isPlain : symbol.IsPlain) :
    (state.emit symbol).IsPlain where
  output := by
    intro other member
    rcases List.mem_append.1 member with old | sent
    · exact plain.output other old
    · exact List.mem_singleton.1 sent ▸ isPlain
  pending := plain.pending
  awaited := plain.awaited

/-- An entry that waits and has no Skolem function brings in none. -/
theorem IsPlain.suspend (plain : state.IsPlain) {entry : Pending} (isPlain : entry.IsPlain) :
    (state.suspend entry).IsPlain where
  output := plain.output
  pending := List.forall_mem_cons.2 ⟨isPlain, plain.pending⟩
  awaited := plain.awaited

/-- Awaiting something without a Skolem function brings in none. -/
theorem IsPlain.await (plain : state.IsPlain) {awaited : Awaited} (isPlain : awaited.IsPlain) :
    { state with awaited }.IsPlain :=
  ⟨plain.output, plain.pending, isPlain⟩

/-- Entries without Skolem functions may take the place of those that wait. -/
theorem IsPlain.replace (plain : state.IsPlain) {pending : List Pending}
    (isPlain : ∀ entry ∈ pending, entry.IsPlain) : { state with pending }.IsPlain :=
  ⟨plain.output, isPlain, plain.awaited⟩

/-- Sending out an application brings in no Skolem function. -/
theorem IsPlain.emitApplied (plain : state.IsPlain) (isPlain : symbol.IsPlain) {found : Nat}
    (emitted : state.emitApplied symbol found = .ok next) : next.IsPlain := by
  unfold Infix.emitApplied at emitted
  dsimp only at emitted
  split at emitted
  · exact Except.ok.inj emitted ▸ plain.emit isPlain
  · cases emitted

/-- A comma brings in no Skolem function. -/
theorem IsPlain.readComma (plain : state.IsPlain) (read : state.readComma = .ok next) :
    next.IsPlain := by
  have flushed := plain.flushWhile fun entry => !entry.isOpen
  unfold Infix.readComma at read
  dsimp only at read
  split at read
  · rename_i owner commas empty rest waiting
    have inside := flushed.pending
    rw [show (state.flushWhile fun entry => !entry.isOpen).pending = _ from waiting] at inside
    rw [List.forall_mem_cons] at inside
    split at read
    · cases read
    · obtain rfl := Except.ok.inj read
      exact flushed.replace (List.forall_mem_cons.2 ⟨inside.1, inside.2⟩)
  · cases read

/-- A closing parenthesis brings in no Skolem function. -/
theorem IsPlain.readClose (plain : state.IsPlain) (read : state.readClose = .ok next) :
    next.IsPlain := by
  have flushed := plain.flushWhile fun entry => !entry.isOpen
  unfold Infix.readClose at read
  dsimp only at read
  split at read
  · rename_i empty rest waiting
    have inside := flushed.pending
    rw [show (state.flushWhile fun entry => !entry.isOpen).pending = _ from waiting] at inside
    rw [List.forall_mem_cons] at inside
    split at read
    · cases read
    · obtain rfl := Except.ok.inj read
      exact flushed.replace inside.2
  · rename_i owner commas empty rest waiting
    have inside := flushed.pending
    rw [show (state.flushWhile fun entry => !entry.isOpen).pending = _ from waiting] at inside
    rw [List.forall_mem_cons] at inside
    split at read
    · cases read
    · exact (flushed.replace inside.2).emitApplied inside.1 read
  · cases read

/-- A symbol that begins or joins operands brings in no Skolem function. -/
theorem IsPlain.readContent (plain : state.IsPlain) (isPlain : symbol.IsPlain)
    (read : state.readContent symbol = .ok next) : next.IsPlain := by
  unfold Infix.readContent at read
  split at read
  · exact Except.ok.inj read ▸ plain.emit isPlain
  · exact Except.ok.inj read ▸ plain.emit isPlain
  · exact Except.ok.inj read ▸ plain.emit isPlain
  · exact Except.ok.inj read ▸ plain.await isPlain
  · exact Except.ok.inj read ▸ plain.await isPlain
  · exact Except.ok.inj read ▸ plain.suspend trivial
  · exact Except.ok.inj read ▸ plain.suspend trivial
  · exact Except.ok.inj read ▸ (plain.flushWhile _).suspend trivial
  · exact Except.ok.inj read ▸ plain.await trivial
  · exact Except.ok.inj read ▸ plain.suspend trivial
  · cases read

/-- That a group is no longer empty brings in no Skolem function. -/
theorem fill_isPlain {pending : List Pending} (plain : ∀ entry ∈ pending, entry.IsPlain) :
    ∀ entry ∈ Pending.fill pending, entry.IsPlain := by
  induction pending with
  | nil => exact plain
  | cons first rest ih =>
    rw [List.forall_mem_cons] at plain
    cases first with
    | group empty => exact List.forall_mem_cons.2 ⟨trivial, plain.2⟩
    | call owner commas empty => exact List.forall_mem_cons.2 ⟨plain.1, plain.2⟩
    | operator o => exact List.forall_mem_cons.2 ⟨trivial, ih plain.2⟩
    | scope b => exact List.forall_mem_cons.2 ⟨trivial, ih plain.2⟩

/-- A symbol that is read when nothing is awaited brings in no Skolem function. -/
theorem IsPlain.readFree (plain : state.IsPlain) (isPlain : symbol.IsPlain)
    (read : state.readFree symbol = .ok next) : next.IsPlain := by
  unfold Infix.readFree at read
  split at read
  · exact plain.readComma read
  · exact plain.readClose read
  · exact (plain.replace (fill_isPlain plain.pending)).readContent isPlain read

/-- A quantifier with its variables brings in no Skolem function. -/
theorem IsPlain.openScope (plain : state.IsPlain) (quantifier : Quantifier) (bound : List Variable) :
    (state.openScope quantifier bound).IsPlain :=
  (plain.suspend (show Pending.IsPlain (.scope ⟨quantifier, bound⟩) from trivial)).await trivial

/-- Reading a symbol that is no Skolem function brings none in. -/
theorem IsPlain.step (plain : state.IsPlain) (isPlain : symbol.IsPlain)
    (read : state.step symbol = .ok next) : next.IsPlain := by
  have free : { state with awaited := .nothing }.IsPlain := plain.await trivial
  unfold Infix.step at read
  dsimp only at read
  split at read
  · exact free.readFree isPlain read
  · rename_i owner waiting
    have owned : (Awaited.arguments owner).IsPlain := waiting ▸ plain.awaited
    exact Except.ok.inj read ▸ free.suspend owned
  · rename_i owner waiting _
    have owned : (Awaited.arguments owner).IsPlain := waiting ▸ plain.awaited
    cases applied : Infix.emitApplied { state with awaited := .nothing } owner 0 with
    | error cause => simp [applied, Bind.bind, Except.bind] at read
    | ok between =>
      simp only [applied, Bind.bind, Except.bind] at read
      exact (free.emitApplied owned applied).readFree isPlain read
  · exact Except.ok.inj read ▸ free.openScope _ _
  · exact Except.ok.inj read ▸ plain.await trivial
  · cases read
  · exact Except.ok.inj read ▸ plain.await trivial
  · cases read
  · exact Except.ok.inj read ▸ plain.await trivial
  · exact Except.ok.inj read ▸ free.openScope _ _
  · cases read
  · exact Except.ok.inj read ▸ free
  · exact Except.ok.inj read ▸ free
  · exact free.readFree isPlain read

/-- Suffix order has no Skolem functions that infix order has not. -/
theorem isPlain_of_toPostfix {symbols output : List Symbol}
    (isPlain : ∀ symbol ∈ symbols, symbol.IsPlain) (converted : toPostfix symbols = .ok output) :
    ∀ symbol ∈ output, symbol.IsPlain := by
  have settled : ∀ {state next : Infix}, state.IsPlain → state.settle = .ok next →
      next.IsPlain := by
    intro state next plain done
    unfold settle at done
    split at done
    · exact Except.ok.inj done ▸ plain
    · exact Except.ok.inj done ▸ plain
    · rename_i owner waiting
      have owned : (Awaited.arguments owner).IsPlain := waiting ▸ plain.awaited
      exact plain.emitApplied owned done
    all_goals cases done
  have start : (({} : Infix)).IsPlain :=
    ⟨fun _ member => absurd member List.not_mem_nil, fun _ member => absurd member List.not_mem_nil,
      trivial⟩
  unfold toPostfix at converted
  obtain ⟨last, run, finished⟩ := bind_eq_ok_iff.1 converted
  have plain : last.IsPlain := foldlM_invariant
    (fun _ _ _ plain member done => plain.step (isPlain _ member) done) start run
  unfold finish at finished
  obtain ⟨complete, done, checked⟩ := bind_eq_ok_iff.1 finished
  dsimp only at checked
  split at checked
  · exact Except.ok.inj checked ▸ ((settled plain done).flushWhile _).output
  · cases checked

end Infix

/-! ### Expressions -/

namespace Expr

variable {stack next : List Expr} {symbol : Symbol}

/-- A formula without connective or quantifier at its root is an atom. -/
theorem Formula.isAtom {e : Expr} (formula : e.Formula) (atomic : e.isAtomic) : e.IsAtom := by
  cases formula with
  | atom isAtom => exact isAtom
  | connective joins => simp [isAtomic, isConnective, Symbol.isConnective, joins] at atomic
  | quantified => simp [isAtomic, isConnective, Symbol.isConnective, Symbol.isBinder] at atomic

/-- The negation of a formula is one. -/
theorem Formula.negate {e : Expr} (formula : e.Formula) : e.negate.Formula := by
  cases formula with
  | atom isAtom => exact .atom ((everywhere_signed _).2 isAtom)
  | connective joins left right => exact .connective joins left right
  | quantified inner => exact .quantified inner

/-- Arguments come off the top of the stack, as many as are asked for. -/
theorem popArgs_ok {count : Nat} {args rest : List Expr}
    (popped : popArgs count symbol stack = .ok (args, rest)) :
    stack = args.reverse ++ rest ∧ args.length = count := by
  unfold popArgs at popped
  split at popped
  · cases popped
  · rename_i enough
    obtain ⟨rfl, rfl⟩ := Prod.mk.inj (Except.ok.inj popped)
    rw [List.reverse_reverse, List.take_append_drop, List.length_reverse, List.length_take]
    exact ⟨rfl, by omega⟩

/-- A symbol is applied to what it takes off the stack, which has to be atomic where that is asked
for. -/
theorem pushNode_ok {count : Nat} {atomic : Bool}
    (pushed : pushNode symbol count atomic stack = .ok next) :
    ∃ args rest, stack = args.reverse ++ rest ∧ next = node symbol args :: rest ∧
      args.length = count ∧ (atomic → ∀ e ∈ args, e.isAtomic) := by
  unfold pushNode at pushed
  obtain ⟨⟨args, rest⟩, popped, checked⟩ := bind_eq_ok_iff.1 pushed
  obtain ⟨taken, length⟩ := popArgs_ok popped
  cases atomic with
  | false => exact ⟨args, rest, taken, (Except.ok.inj checked).symm, length, nofun⟩
  | true =>
    obtain ⟨_, accepted, pushed⟩ := bind_eq_ok_iff.1 checked
    refine ⟨args, rest, taken, (Except.ok.inj pushed).symm, length, fun _ => ?_⟩
    unfold requireAtomic at accepted
    split at accepted
    · exact List.all_eq_true.1 ‹_›
    · cases accepted

/-- What a symbol may be applied to. -/
inductive Applies : Symbol → List Expr → Prop
  /-- Atoms only, as many as it takes. -/
  | atom {symbol : Symbol} {args : List Expr} (takes : symbol.Takes args.length)
      (atomic : ∀ e ∈ args, e.isAtomic) : Applies symbol args
  /-- The operands of a connective. -/
  | connective {operator : Operator} {a b : Expr} (joins : operator.isConnective) :
      Applies (.op operator) [a, b]
  /-- The body of a quantifier. -/
  | quantifier {binder : Binder} {body : Expr} : Applies (.binder binder) [body]

/-- One symbol turns the sign of the last result around, or it is applied to the last results. -/
theorem pushSymbol_ok (pushed : pushSymbol stack symbol = .ok next) :
    (symbol = .op .not ∧ ∃ last rest, stack = last :: rest ∧ next = last.negate :: rest) ∨
      ∃ args rest, stack = args.reverse ++ rest ∧ next = node symbol args :: rest ∧
        Applies symbol args := by
  have operand : symbol.Takes 0 → next = leaf symbol :: stack →
      ∃ args rest, stack = args.reverse ++ rest ∧ next = node symbol args :: rest ∧
        Applies symbol args := fun takes same => ⟨[], stack, rfl, same, .atom takes nofun⟩
  have application : ∀ {count}, symbol.Takes count → pushNode symbol count true stack = .ok next →
      ∃ args rest, stack = args.reverse ++ rest ∧ next = node symbol args :: rest ∧
        Applies symbol args := by
    intro count takes pushed
    obtain ⟨args, rest, taken, same, rfl, atomic⟩ := pushNode_ok pushed
    exact ⟨args, rest, taken, same, .atom takes (atomic rfl)⟩
  cases symbol with
  | var v => exact .inr (operand rfl (Except.ok.inj pushed).symm)
  | const c => exact .inr (operand rfl (Except.ok.inj pushed).symm)
  | skolem s => exact .inr (operand rfl (Except.ok.inj pushed).symm)
  | fn f => exact .inr (application rfl pushed)
  | rel r => exact .inr (application rfl pushed)
  | op operator =>
    have joined : operator.isConnective → pushNode (.op operator) 2 false stack = .ok next →
        ∃ args rest, stack = args.reverse ++ rest ∧ next = node (.op operator) args :: rest ∧
          Applies (.op operator) args := by
      intro joins pushed
      obtain ⟨args, rest, taken, same, length, -⟩ := pushNode_ok pushed
      obtain ⟨a, b, rfl⟩ := List.length_eq_two.1 length
      exact ⟨[a, b], rest, taken, same, .connective joins⟩
    cases operator with
    | not =>
      cases stack with
      | nil => cases pushed
      | cons last rest => exact .inl ⟨rfl, last, rest, rfl, (Except.ok.inj pushed).symm⟩
    | equals => exact .inr (application rfl pushed)
    | notEquals => exact .inr (application rfl pushed)
    | _ => exact .inr (joined rfl pushed)
  | binder b =>
    obtain ⟨args, rest, taken, same, length, -⟩ := pushNode_ok pushed
    obtain ⟨body, rfl⟩ := List.length_eq_one_iff.1 length
    exact .inr ⟨[body], rest, taken, same, .quantifier⟩
  | _ => cases pushed

/-- A property of expressions that negation and permitted applications keep holds of what is built.
-/
theorem ofPostfix_induction {p : Expr → Prop} {symbols : List Symbol} {e : Expr}
    (negate : ∀ e, p e → p e.negate)
    (apply : ∀ symbol ∈ symbols, ∀ args, Applies symbol args → (∀ arg ∈ args, p arg) →
      p (node symbol args)) (read : ofPostfix symbols = .ok e) : p e := by
  unfold ofPostfix at read
  obtain ⟨stack, run, checked⟩ := bind_eq_ok_iff.1 read
  have pass : ∀ (stack : List Expr) symbol next, (∀ e ∈ stack, p e) → symbol ∈ symbols →
      pushSymbol stack symbol = .ok next → ∀ e ∈ next, p e := by
    intro stack symbol next all member pushed
    obtain ⟨-, last, rest, rfl, rfl⟩ | ⟨args, rest, rfl, rfl, applies⟩ := pushSymbol_ok pushed
    · rw [List.forall_mem_cons] at all ⊢
      exact ⟨negate last all.1, all.2⟩
    · rw [List.forall_mem_append] at all
      exact List.forall_mem_cons.2 ⟨apply symbol member args applies fun arg inside =>
        all.1 arg (List.mem_reverse.2 inside), all.2⟩
  have all : ∀ e ∈ stack, p e :=
    foldlM_invariant (P := fun stack => ∀ e ∈ stack, p e) pass
      (fun _ member => absurd member List.not_mem_nil) run
  split at checked
  · cases checked
  · exact Except.ok.inj checked ▸ all _ (List.mem_singleton_self _)
  · cases checked

/-- What symbols in suffix order build is a formula. -/
theorem formula_of_ofPostfix {symbols : List Symbol} {e : Expr} (read : ofPostfix symbols = .ok e) :
    e.Formula := by
  refine ofPostfix_induction (fun _ => Formula.negate) (fun symbol _ args applies formulas => ?_) read
  cases applies with
  | atom takes atomic =>
    exact .atom (everywhere_iff.2 ⟨takes, fun arg member =>
      (formulas arg member).isAtom (atomic arg member)⟩)
  | connective joins =>
    simp only [List.forall_mem_cons] at formulas
    exact .connective joins formulas.1 formulas.2.1
  | quantifier => exact .quantified (formulas _ (List.mem_singleton_self _))

/-- What is built holds a Skolem function only if the symbols do. -/
theorem skolemFree_of_ofPostfix {symbols : List Symbol} {e : Expr}
    (isPlain : ∀ symbol ∈ symbols, symbol.IsPlain) (read : ofPostfix symbols = .ok e) :
    e.SkolemFree :=
  ofPostfix_induction (fun _ => (everywhere_signed _).2)
    (fun symbol member _ _ inside => everywhere_iff.2 ⟨isPlain symbol member, inside⟩) read

end Expr

/-! ### Tokens -/

namespace Lexicon

/-- The lexicon spells no Skolem function. -/
def isPlain (lexicon : Lexicon) : Bool :=
  lexicon.marks.all (·.2.isPlain) && lexicon.words.all (·.2.isPlain)

/-- The standard lexicon spells no Skolem function. -/
theorem isPlain_standard : standard.isPlain := by decide

variable {lexicon : Lexicon}

/-- No mark of a plain lexicon is a Skolem function. -/
theorem isPlain_of_mem_marks (plain : lexicon.isPlain) {mark : Spelling}
    (listed : mark ∈ lexicon.marks) : mark.2.IsPlain := by
  have marks := List.all_eq_true.1 (Bool.and_eq_true_iff.1 plain).1
  exact Symbol.isPlain_iff.1 (marks mark listed)

/-- No word of a plain lexicon is a Skolem function. -/
theorem isPlain_of_word? (plain : lexicon.isPlain) {word : String} {symbol : Symbol}
    (found : lexicon.word? word = some symbol) : symbol.IsPlain := by
  have words := List.all_eq_true.1 (Bool.and_eq_true_iff.1 plain).2
  obtain ⟨entry, listed, rfl⟩ := Option.map_eq_some_iff.1 found
  exact Symbol.isPlain_iff.1 (words entry (List.mem_of_find?_eq_some listed))

end Lexicon

/-- A lexeme that is a symbol already is no Skolem function. -/
def Lexeme.IsPlain : Lexeme → Prop
  | .word _ => True
  | .symbol meaning => meaning.IsPlain

/-- A lexeme is a word, a literal or a mark of the lexicon. -/
theorem Lexeme.read_ok {lexicon : Lexicon} {offset : Nat} {c : Char} {rest : List Char}
    {reading : Reading} (done : read lexicon offset c rest = .ok reading) :
    (∃ name, reading.lexeme = .word name) ∨ (∃ constant, reading.lexeme = .symbol (.const constant)) ∨
      ∃ mark ∈ lexicon.marks, reading.lexeme = .symbol mark.2 := by
  unfold read at done
  split at done
  · obtain rfl := Except.ok.inj done
    exact .inl ⟨_, rfl⟩
  · split at done
    · unfold readNumber at done
      dsimp only at done
      split at done
      · cases done
      · obtain rfl := Except.ok.inj done
        exact .inr (.inl ⟨_, rfl⟩)
    · split at done
      · unfold readQuoted at done
        dsimp only at done
        split at done
        · cases done
        · obtain rfl := Except.ok.inj done
          exact .inr (.inl ⟨_, rfl⟩)
      · split at done
        · rename_i found
          obtain rfl := Except.ok.inj done
          exact .inr (.inr ⟨_, List.mem_of_find?_eq_some found, rfl⟩)
        · cases done

/-- No lexeme that is read with a plain lexicon is a Skolem function. -/
theorem Lexeme.isPlain_of_read {lexicon : Lexicon} (plain : lexicon.isPlain) {offset : Nat} {c : Char}
    {rest : List Char} {reading : Reading} (done : read lexicon offset c rest = .ok reading) :
    reading.lexeme.IsPlain := by
  obtain ⟨name, word⟩ | ⟨constant, literal⟩ | ⟨mark, listed, spelled⟩ := read_ok done
  · rw [word]
    exact trivial
  · rw [literal]
    exact nofun
  · rw [spelled]
    exact Lexicon.isPlain_of_mem_marks plain listed

/-- Declared names stand for constants, functions and relations. -/
theorem Session.isPlain_of_lookup? {session : Session} {name : String} {symbol : Symbol}
    (found : session.lookup? name = some symbol) : symbol.IsPlain := by
  unfold lookup? at found
  split at found <;> cases found <;> exact nofun

namespace Lexer

variable {lexicon : Lexicon} {lexer next : Lexer}

/-- No name stands for a Skolem function. -/
theorem isPlain_of_known? {name : String} {symbol : Symbol}
    (found : lexer.known? name = some symbol) : symbol.IsPlain := by
  unfold known? at found
  split at found
  · obtain rfl := Option.some.inj found
    exact nofun
  · obtain rfl := Option.some.inj found
    exact Session.isPlain_of_lookup? ‹_›
  · obtain ⟨v, -, rfl⟩ := Option.map_eq_some_iff.1 found
    exact nofun

/-- Resolving a word keeps the tokens and gives no Skolem function. -/
theorem resolve_ok (plain : lexicon.isPlain) {name : String} {rest : List Char} {symbol : Symbol}
    (resolved : lexer.resolve lexicon name rest = .ok (symbol, next)) :
    symbol.IsPlain ∧ next.tokens = lexer.tokens := by
  unfold resolve at resolved
  split at resolved
  · obtain ⟨rfl, rfl⟩ := Prod.mk.inj (Except.ok.inj resolved)
    exact ⟨Lexicon.isPlain_of_word? plain ‹_›, rfl⟩
  · split at resolved
    · obtain ⟨rfl, rfl⟩ := Prod.mk.inj (Except.ok.inj resolved)
      exact ⟨nofun, rfl⟩
    · split at resolved
      · obtain ⟨rfl, rfl⟩ := Prod.mk.inj (Except.ok.inj resolved)
        exact ⟨isPlain_of_known? ‹_›, rfl⟩
      · split at resolved
        · cases resolved
        · obtain ⟨rfl, rfl⟩ := Prod.mk.inj (Except.ok.inj resolved)
          exact ⟨nofun, rfl⟩

/-- The symbol of a lexeme is no Skolem function, and finding it takes no token. -/
theorem symbolOf_ok (plain : lexicon.isPlain) {lexeme : Lexeme} (isPlain : lexeme.IsPlain)
    {rest : List Char} {symbol : Symbol}
    (resolved : lexer.symbolOf lexicon rest lexeme = .ok (symbol, next)) :
    symbol.IsPlain ∧ next.tokens = lexer.tokens := by
  cases lexeme with
  | word name => exact resolve_ok plain resolved
  | symbol meaning =>
    obtain ⟨rfl, rfl⟩ := Prod.mk.inj (Except.ok.inj resolved)
    exact ⟨isPlain, rfl⟩

/-- Dropping bindings leaves everything else in the session as it is. -/
theorem release_eq (session : Session) (names : List String) :
    release session names = { session with bindings := (release session names).bindings } := by
  induction names generalizing session with
  | nil => rfl
  | cons name rest ih => exact ih _

/-- Headers, scopes and groups touch neither the tokens nor the free variables, and in the session
they release names. -/
theorem released_of_advance {symbol : Symbol} (advanced : lexer.advance symbol = .ok next) :
    next.tokens = lexer.tokens ∧ next.free = lexer.free ∧
      ∃ names, next.session = release lexer.session names := by
  have entered : ∀ (lexer : Lexer) symbol, (lexer.enter symbol).tokens = lexer.tokens ∧
      (lexer.enter symbol).free = lexer.free ∧
        ∃ names, (lexer.enter symbol).session = release lexer.session names := by
    intro lexer symbol
    cases symbol with
    | rightParen => exact ⟨rfl, rfl, _, rfl⟩
    | _ => exact ⟨rfl, rfl, [], rfl⟩
  unfold advance at advanced
  split at advanced
  · exact Except.ok.inj advanced ▸ entered _ _
  · split at advanced
    · exact Except.ok.inj advanced ▸ ⟨rfl, rfl, [], rfl⟩
    · exact Except.ok.inj advanced ▸ ⟨rfl, rfl, [], rfl⟩
    · exact Except.ok.inj advanced ▸ entered _ _
  · split at advanced
    · exact Except.ok.inj advanced ▸ ⟨rfl, rfl, [], rfl⟩
    · exact Except.ok.inj advanced ▸ ⟨rfl, rfl, [], rfl⟩
    · exact Except.ok.inj advanced ▸ ⟨rfl, rfl, [], rfl⟩
    · cases advanced

/-- Headers, scopes and groups change nothing in the session but the bindings. -/
theorem kept_of_advance {symbol : Symbol} (advanced : lexer.advance symbol = .ok next) :
    next.tokens = lexer.tokens ∧ next.free = lexer.free ∧
      next.session = { lexer.session with bindings := next.session.bindings } := by
  obtain ⟨tokens, free, names, released⟩ := released_of_advance advanced
  refine ⟨tokens, free, ?_⟩
  rw [released]
  exact release_eq _ _

/-- A step that succeeds adds one token, which is no Skolem function. -/
theorem step_ok (plain : lexicon.isPlain) {offset : Nat} {c : Char} {rest : List Char}
    {remaining : List Char × List Char}
    (stepped : lexer.step lexicon offset c rest = (.ok remaining, next)) :
    ∃ symbol, symbol.IsPlain ∧ next.tokens = symbol :: lexer.tokens := by
  unfold step at stepped
  split at stepped
  · cases stepped
  · rename_i reading read
    split at stepped
    · cases stepped
    · rename_i symbol resolved named
      obtain ⟨isPlain, same⟩ := symbolOf_ok plain (Lexeme.isPlain_of_read plain read) named
      split at stepped
      · cases stepped
      · rename_i accepted taken
        obtain ⟨advanced, moved, rest⟩ := bind_eq_ok_iff.1 taken
        obtain ⟨-, rfl⟩ := Prod.mk.inj stepped
        obtain rfl := Except.ok.inj rest
        exact ⟨symbol, isPlain, by rw [← same, ← (kept_of_advance moved).1]⟩

/-- A text that is read has no Skolem function among its tokens. -/
theorem isPlain_of_scan (plain : lexicon.isPlain) {fuel offset : Nat} {text : List Char}
    (tokens : ∀ symbol ∈ lexer.tokens, symbol.IsPlain)
    (scanned : scan lexicon fuel lexer offset text = (.ok (), next)) :
    ∀ symbol ∈ next.tokens, symbol.IsPlain := by
  induction fuel generalizing lexer offset text with
  | zero =>
    cases text with
    | nil => exact (Prod.mk.inj scanned).2 ▸ tokens
    | cons c rest => cases scanned
  | succ fuel ih =>
    cases text with
    | nil => exact (Prod.mk.inj scanned).2 ▸ tokens
    | cons c rest =>
      unfold scan at scanned
      split at scanned
      · exact ih tokens scanned
      · split at scanned
        · cases scanned
        · rename_i stepped
          obtain ⟨symbol, isPlain, added⟩ := step_ok plain stepped
          refine ih ?_ scanned
          rw [added]
          exact List.forall_mem_cons.2 ⟨isPlain, tokens⟩

end Lexer

/-- The symbols of a text have no Skolem function among them. -/
theorem Session.isPlain_of_tokenize {session next : Session} {text : String} {symbols : List Symbol}
    (tokenized : session.tokenize text = (.ok symbols, next)) :
    ∀ symbol ∈ symbols, symbol.IsPlain := by
  unfold tokenize tokenizeWith at tokenized
  rcases scanned : Lexer.scan Lexicon.standard (text.toList.length + 3) { session } 0 text.toList with
    ⟨result, lexer⟩
  simp only [scanned] at tokenized
  cases result with
  | error cause => cases tokenized
  | ok done =>
    obtain ⟨same, -⟩ := Prod.mk.inj tokenized
    obtain rfl := Except.ok.inj same
    intro symbol member
    exact Lexer.isPlain_of_scan Lexicon.isPlain_standard
      (fun _ member => absurd member List.not_mem_nil) scanned symbol (List.mem_reverse.1 member)

/-! ### Statements -/

/-- What a text is read as is a formula without Skolem functions. -/
theorem Statement.formula_of_parse {session next : Session} {text : String} {statement : Statement}
    (parsed : parse session text = (.ok statement, next)) :
    statement.formula.Formula ∧ statement.formula.SkolemFree := by
  unfold parse at parsed
  rcases tokenized : session.tokenize text with ⟨tokens, last⟩
  rw [tokenized] at parsed
  obtain ⟨read, -⟩ := Prod.mk.inj parsed
  obtain ⟨infixed, rfl, built⟩ := bind_eq_ok_iff.1 read
  obtain ⟨symbols, converted, assembled⟩ := bind_eq_ok_iff.1 built
  obtain ⟨formula, made, same⟩ := bind_eq_ok_iff.1 assembled
  obtain rfl := Except.ok.inj same
  have isPlain := Infix.isPlain_of_toPostfix (Session.isPlain_of_tokenize tokenized) converted
  exact ⟨Expr.formula_of_ofPostfix made, Expr.skolemFree_of_ofPostfix isPlain made⟩

end Refute
