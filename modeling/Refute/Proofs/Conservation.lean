import Mathlib.Data.List.TakeWhile
import Refute.Proofs.Alternation

/-!
# Nothing is lost on the way to suffix order

What a sequence of infix symbols holds besides its punctuation comes out in suffix order once each,
whether or not the sequence is a sentence: a quantifier comes out as one symbol with the variables
of its heading, and operands keep their order.

A symbol is out, it waits, or it is still to be read. One step of the reader moves symbols from one
of these places to another, and together they stay what they were. What the rest of the sequence
still holds depends on what the reader awaits, because a heading may be half read.
-/

namespace Refute

namespace Symbol

/-- An operator. -/
def isOperator : Symbol → Bool
  | op _ => true
  | _ => false

/-- A quantifier, with its variables or without. -/
def isQuantifying : Symbol → Bool
  | quantifier _ => true
  | binder _ => true
  | _ => false

/-- Operands, functions, relations and operators, which come out as they are. -/
def isContent (symbol : Symbol) : Bool :=
  symbol.isOperand || symbol.isApplication || symbol.isOperator

/-- Parentheses and commas, which do not come out. -/
def isPunctuation : Symbol → Bool
  | leftParen => true
  | rightParen => true
  | comma => true
  | _ => false

/-- Punctuation does not come out. -/
theorem not_isContent {symbol : Symbol} (leaves : symbol.isPunctuation) :
    ¬ symbol.isContent = true := by
  cases symbol <;> first | exact Bool.false_ne_true | cases leaves

end Symbol

/-- What a sequence of infix symbols holds besides its punctuation, in order. A quantifier is one
symbol with the variables of its heading. -/
inductive Contents : List Symbol → List Symbol → Prop
  | nil : Contents [] []
  | content {symbol : Symbol} {symbols contents : List Symbol} (stays : symbol.isContent)
      (others : Contents symbols contents) : Contents (symbol :: symbols) (symbol :: contents)
  | punctuation {symbol : Symbol} {symbols contents : List Symbol} (leaves : symbol.isPunctuation)
      (others : Contents symbols contents) : Contents (symbol :: symbols) contents
  | heading {front symbols contents : List Symbol} {binder : Binder} (heading : Heading front binder)
      (others : Contents symbols contents) : Contents (front ++ symbols) (.binder binder :: contents)

/-! ### Headings -/

/-- Between the variables of a quantifier and its body stands a comma or a colon at most. -/
theorem Mark.forall_mem {mark : List Symbol} (between : Mark mark) :
    ∀ symbol ∈ mark, symbol = .comma ∨ symbol = .suchThat := by
  cases between <;> simp

/-- Besides the quantifier, a heading holds variables and marks only. -/
theorem Heading.exists_cons {front : List Symbol} {binder : Binder} (heading : Heading front binder) :
    ∃ first others, front = first :: others ∧ first.isQuantifying ∧ ∀ symbol ∈ others,
      symbol.isApplication = false ∧ symbol.isOperator = false ∧ symbol.isQuantifying = false := by
  have marks : ∀ mark, Mark mark → ∀ symbol ∈ mark,
      symbol.isApplication = false ∧ symbol.isOperator = false ∧ symbol.isQuantifying = false := by
    intro mark between symbol member
    rcases between.forall_mem symbol member with rfl | rfl <;> exact ⟨rfl, rfl, rfl⟩
  cases heading with
  | single quantifier v between =>
    exact ⟨_, _, rfl, rfl, List.forall_mem_cons.2 ⟨⟨rfl, rfl, rfl⟩, marks _ between⟩⟩
  | listed quantifier v others between =>
    refine ⟨_, _, rfl, rfl, List.forall_mem_cons.2 ⟨⟨rfl, rfl, rfl⟩,
      List.forall_mem_append.2 ⟨List.forall_mem_cons.2 ⟨⟨rfl, rfl, rfl⟩, ?_⟩,
        List.forall_mem_cons.2 ⟨⟨rfl, rfl, rfl⟩, marks _ between⟩⟩⟩⟩
    intro symbol member
    obtain ⟨w, -, written⟩ := List.mem_flatMap.1 member
    rcases List.mem_cons.1 written with rfl | written
    · exact ⟨rfl, rfl, rfl⟩
    · exact List.mem_singleton.1 written ▸ ⟨rfl, rfl, rfl⟩
  | read binder => exact ⟨_, _, rfl, rfl, List.forall_mem_nil _⟩

namespace Contents

variable {symbols contents others : List Symbol}

/-! ### What contents are -/

/-- Punctuation and bare quantifiers are no contents. -/
theorem forall_mem (holds : Contents symbols contents) :
    ∀ symbol ∈ contents, symbol.isContent ∨ symbol.isBinder := by
  induction holds with
  | nil => exact List.forall_mem_nil _
  | content stays _ ih => exact List.forall_mem_cons.2 ⟨.inl stays, ih⟩
  | punctuation _ _ ih => exact ih
  | heading _ _ ih => exact List.forall_mem_cons.2 ⟨.inr rfl, ih⟩

/-- Operators, functions and relations are contents wherever they stand. -/
theorem filter_eq (holds : Contents symbols contents) {kind : Symbol → Bool}
    (applied : ∀ symbol, kind symbol → symbol.isApplication ∨ symbol.isOperator) :
    contents.filter kind = symbols.filter kind := by
  have none : ∀ symbol, symbol.isApplication = false → symbol.isOperator = false →
      ¬ kind symbol = true := by
    intro symbol application operator passes
    rcases applied symbol passes with found | found
    · rw [application] at found
      cases found
    · rw [operator] at found
      cases found
  induction holds with
  | nil => rfl
  | @content symbol _ _ stays _ ih => rw [List.filter_cons, List.filter_cons, ih]
  | @punctuation symbol _ _ leaves _ ih =>
    have skipped : ¬ kind symbol = true := by
      cases symbol <;> first | exact none _ rfl rfl | cases leaves
    rw [ih, List.filter_cons_of_neg skipped]
  | heading heading _ ih =>
    obtain ⟨first, others, rfl, quantifies, marks⟩ := heading.exists_cons
    have skipped : ¬ kind first = true := by
      cases first <;> first | exact none _ rfl rfl | cases quantifies
    have dropped : others.filter kind = [] :=
      List.filter_eq_nil_iff.2 fun symbol member =>
        none symbol (marks symbol member).1 (marks symbol member).2.1
    rw [List.filter_cons_of_neg (none _ rfl rfl), ih, List.cons_append,
      List.filter_cons_of_neg skipped, List.filter_append, dropped, List.nil_append]

/-- Every quantifier makes one symbol. -/
theorem countP_isBinder (holds : Contents symbols contents) :
    contents.countP Symbol.isBinder = symbols.countP Symbol.isQuantifying := by
  induction holds with
  | nil => rfl
  | @content symbol _ _ stays _ ih =>
    have plain : symbol.isBinder = false ∧ symbol.isQuantifying = false := by
      cases symbol <;> first | exact ⟨rfl, rfl⟩ | cases stays
    simp [plain, ih]
  | @punctuation symbol _ _ leaves _ ih =>
    have plain : symbol.isQuantifying = false := by
      cases symbol <;> first | rfl | cases leaves
    simp [plain, ih]
  | heading heading _ ih =>
    obtain ⟨first, others, rfl, quantifies, marks⟩ := heading.exists_cons
    have once : others.countP Symbol.isQuantifying = 0 :=
      List.countP_eq_zero.2 fun symbol member => by simp [(marks symbol member).2.2]
    rw [List.countP_cons_of_pos rfl, ih, List.cons_append, List.countP_cons_of_pos quantifies,
      List.countP_append, once, Nat.zero_add]

/-! ### Contents are determined -/

/-- Punctuation in front holds nothing. -/
theorem of_punctuation {symbol : Symbol} (leaves : symbol.isPunctuation)
    (holds : Contents (symbol :: symbols) contents) : Contents symbols contents := by
  generalize same : symbol :: symbols = whole at holds
  cases holds with
  | nil => cases same
  | content stays others =>
    cases same
    exact absurd stays (Symbol.not_isContent leaves)
  | punctuation _ others =>
    cases same
    exact others
  | heading heading others =>
    cases heading <;> (cases same; cases leaves)

/-- A colon outside of a heading has no contents. -/
theorem not_suchThat : ¬ Contents (.suchThat :: symbols) contents := by
  intro holds
  generalize same : Symbol.suchThat :: symbols = whole at holds
  cases holds with
  | nil => cases same
  | content stays others => cases same; cases stays
  | punctuation leaves others => cases same; cases leaves
  | heading heading others => cases heading <;> cases same

/-- Contents do not depend on whether a mark counts to a heading. -/
theorem of_marks {mark mark' symbols' : List Symbol} (between : Mark mark) (between' : Mark mark')
    (same : mark ++ symbols = mark' ++ symbols') (holds : Contents symbols contents)
    (holds' : Contents symbols' others) : Contents symbols others := by
  cases between with
  | nothing =>
    cases between' with
    | nothing =>
      obtain rfl : symbols = symbols' := same
      exact holds'
    | comma =>
      obtain rfl : symbols = .comma :: symbols' := same
      exact .punctuation rfl holds'
    | suchThat =>
      obtain rfl : symbols = .suchThat :: symbols' := same
      exact absurd holds not_suchThat
  | comma =>
    cases between' with
    | nothing =>
      obtain rfl : .comma :: symbols = symbols' := same
      exact holds'.of_punctuation rfl
    | comma =>
      obtain rfl : symbols = symbols' := (List.cons.inj same).2
      exact holds'
    | suchThat => cases (List.cons.inj same).1
  | suchThat =>
    cases between' with
    | nothing =>
      obtain rfl : .suchThat :: symbols = symbols' := same
      exact absurd holds' not_suchThat
    | comma => cases (List.cons.inj same).1
    | suchThat =>
      obtain rfl : symbols = symbols' := (List.cons.inj same).2
      exact holds'

/-- The variables of a quantifier are determined by its heading, and so is what comes after it. -/
theorem flatMap_comma_inj {others others' : List Variable} {symbols symbols' : List Symbol}
    (same : (others.flatMap fun v => [.comma, .var v]) ++ Symbol.rightParen :: symbols =
      (others'.flatMap fun v => [.comma, .var v]) ++ .rightParen :: symbols') :
    others = others' ∧ symbols = symbols' := by
  induction others generalizing others' with
  | nil =>
    cases others' with
    | nil => exact ⟨rfl, (List.cons.inj same).2⟩
    | cons v others' => cases (List.cons.inj same).1
  | cons v others ih =>
    cases others' with
    | nil => cases (List.cons.inj same).1
    | cons w others' =>
      obtain ⟨first, rest⟩ := List.cons.inj (List.cons.inj same).2
      obtain rfl := Symbol.var.inj first
      obtain ⟨rfl, tail⟩ := ih rest
      exact ⟨rfl, tail⟩

/-- A heading ends where its list or its variable does, up to a mark. -/
theorem of_headings {front front' symbols' : List Symbol} {binder binder' : Binder}
    (heading : Heading front binder) (heading' : Heading front' binder')
    (same : front ++ symbols = front' ++ symbols') (holds : Contents symbols contents)
    (holds' : Contents symbols' others) : binder = binder' ∧ Contents symbols others := by
  cases heading with
  | single quantifier v between =>
    cases heading' with
    | single quantifier' v' between' =>
      obtain ⟨first, rest⟩ := List.cons.inj same
      obtain ⟨second, tail⟩ := List.cons.inj rest
      cases first
      cases second
      exact ⟨rfl, of_marks between between' tail holds holds'⟩
    | listed => cases (List.cons.inj (List.cons.inj same).2).1
    | read => cases (List.cons.inj same).1
  | listed quantifier v more between =>
    cases heading' with
    | single => cases (List.cons.inj (List.cons.inj same).2).1
    | listed quantifier' v' more' between' =>
      simp only [listing, List.cons_append, List.append_assoc] at same
      obtain ⟨first, rest⟩ := List.cons.inj same
      obtain ⟨second, listed⟩ := List.cons.inj (List.cons.inj rest).2
      obtain ⟨rfl, tail⟩ := flatMap_comma_inj listed
      cases first
      cases second
      exact ⟨rfl, of_marks between between' tail holds holds'⟩
    | read => cases (List.cons.inj same).1
  | read binder =>
    cases heading' with
    | read binder' =>
      obtain ⟨first, rfl⟩ := List.cons.inj same
      cases first
      exact ⟨rfl, holds'⟩
    | _ => cases (List.cons.inj same).1

/-- A sequence of symbols has one list of contents. -/
theorem unique (holds : Contents symbols contents) (again : Contents symbols others) :
    others = contents := by
  induction holds generalizing others with
  | nil =>
    generalize same : [] = whole at again
    cases again with
    | nil => rfl
    | heading heading => cases heading <;> cases same
    | _ => cases same
  | @content symbol rest _ stays _ ih =>
    generalize same : symbol :: rest = whole at again
    cases again with
    | nil => cases same
    | content _ holds =>
      cases same
      rw [ih holds]
    | punctuation leaves =>
      cases same
      exact absurd stays (Symbol.not_isContent leaves)
    | heading heading =>
      cases heading <;> (cases same; cases stays)
  | punctuation leaves _ ih => exact ih (again.of_punctuation leaves)
  | @heading front rest _ binder heading holds ih =>
    generalize same : front ++ rest = whole at again
    cases again with
    | nil => cases heading <;> cases same
    | content stays => cases heading <;> (cases same; cases stays)
    | punctuation leaves => cases heading <;> (cases same; cases leaves)
    | heading heading' holds' =>
      obtain ⟨rfl, found⟩ := of_headings heading heading' same holds holds'
      rw [ih found]

end Contents

/-! ### Where symbols are -/

namespace Pending

/-- The symbol that an entry of the stack keeps back. -/
def kept? : Pending → Option Symbol
  | operator o => some (.op o)
  | scope b => some (.binder b)
  | group _ => none
  | call owner _ _ => some owner

/-- An entry that no parenthesis has to close keeps back the symbol that it sends out. -/
theorem kept?_eq_symbol? {entry : Pending} (inner : entry.isOpen = false) :
    entry.kept? = entry.symbol? := by
  cases entry <;> first | rfl | cases inner

/-- That a group is no longer empty changes nothing about what waits. -/
theorem filterMap_kept?_fill (pending : List Pending) :
    (fill pending).filterMap kept? = pending.filterMap kept? := by
  induction pending with
  | nil => rfl
  | cons entry others ih =>
    cases entry with
    | operator o => exact congrArg (Symbol.op o :: ·) ih
    | scope b => exact congrArg (Symbol.binder b :: ·) ih
    | _ => rfl

end Pending

/-- The function or relation that waits for its arguments. -/
def Awaited.kept? : Awaited → Option Symbol
  | arguments owner => some owner
  | _ => none

/-- What the rest of the symbols holds for a reader that awaits something. -/
def Awaited.Holds : Awaited → List Symbol → List Symbol → Prop
  | nothing, rest, contents => Contents rest contents
  | arguments _, rest, contents => Contents rest contents
  | header q, rest, contents => Contents (.quantifier q :: rest) contents
  | listed q found, rest, contents =>
    ∃ v more mark after others, rest = listing v more ++ .rightParen :: (mark ++ after) ∧ Mark mark ∧
      contents = .binder ⟨q, found ++ v :: more⟩ :: others ∧ Contents after others
  | delimiter q found, rest, contents =>
    ∃ more mark after others,
      rest = (more.flatMap fun v => [.comma, .var v]) ++ .rightParen :: (mark ++ after) ∧ Mark mark ∧
      contents = .binder ⟨q, found ++ more⟩ :: others ∧ Contents after others
  | body, rest, contents => ∃ mark after, rest = mark ++ after ∧ Mark mark ∧ Contents after contents

/-- The same symbols, and the operands among them in the same order. -/
structure Rearranges (before after : List Symbol) : Prop where
  perm : before.Perm after
  operands : before.filter Symbol.isOperand = after.filter Symbol.isOperand

/-- Symbols in their own order are a rearrangement. -/
theorem Rearranges.refl (symbols : List Symbol) : Rearranges symbols symbols :=
  ⟨.refl _, rfl⟩

/-- A rearrangement of a rearrangement is one. -/
theorem Rearranges.trans {before between after : List Symbol} (first : Rearranges before between)
    (second : Rearranges between after) : Rearranges before after :=
  ⟨first.perm.trans second.perm, first.operands.trans second.operands⟩

/-- A symbol moves in front of those that wait. -/
theorem rearranges_front {waiting : List Symbol}
    (none : ∀ symbol ∈ waiting, symbol.isOperand = false) (output : List Symbol) (symbol : Symbol)
    (contents : List Symbol) :
    Rearranges (output ++ waiting ++ symbol :: contents) (output ++ symbol :: waiting ++ contents) where
  perm := by
    rw [List.append_assoc, List.append_assoc]
    exact List.perm_middle.append_left output
  operands := by
    have waits : waiting.filter Symbol.isOperand = [] :=
      List.filter_eq_nil_iff.2 fun symbol member => by simp [none symbol member]
    simp [List.filter_cons, waits]

namespace Infix

/-- The symbols that wait. -/
def waiting (state : Infix) : List Symbol :=
  state.awaited.kept?.toList ++ state.pending.filterMap Pending.kept?

/-- The symbols that are out and those that wait. -/
def holdings (state : Infix) : List Symbol :=
  state.output ++ state.waiting

/-- No operand waits. -/
def Proper (state : Infix) : Prop :=
  ∀ symbol ∈ state.waiting, symbol.isOperand = false

/-- Having read the symbols, the reader holds what it held and what they brought. -/
structure Keeps (state : Infix) (symbols : List Symbol) (next : Infix) : Prop where
  proper : next.Proper
  holds : ∀ {rest others : List Symbol}, next.awaited.Holds rest others →
    ∃ contents, state.awaited.Holds (symbols ++ rest) contents ∧
      Rearranges (state.holdings ++ contents) (next.holdings ++ others)

variable {state between next : Infix} {symbol : Symbol} {symbols later output waits : List Symbol}
variable {pending : List Pending}

/-- Before it reads anything, the reader holds what it holds. -/
theorem Keeps.refl (proper : state.Proper) : state.Keeps [] state :=
  ⟨proper, fun {_ others} held => ⟨others, held, .refl _⟩⟩

/-- A reader that keeps everything over two runs keeps it over both together. -/
theorem Keeps.trans (first : state.Keeps symbols between) (second : between.Keeps later next) :
    state.Keeps (symbols ++ later) next where
  proper := second.proper
  holds held := by
    obtain ⟨middle, heldMiddle, moved⟩ := second.holds held
    obtain ⟨contents, heldFirst, movedFirst⟩ := first.holds heldMiddle
    exact ⟨contents, by rwa [List.append_assoc], movedFirst.trans moved⟩

/-- Symbols that bring nothing leave everything where it is. -/
theorem Keeps.nothing (proper : next.Proper) (same : next.holdings = state.holdings)
    (brings : ∀ {rest others}, next.awaited.Holds rest others →
      state.awaited.Holds (symbols ++ rest) others) : state.Keeps symbols next :=
  ⟨proper, fun {_ others} held => ⟨others, brings held, by rw [same]; exact .refl _⟩⟩

/-- Symbols that bring one symbol put it in front of those that wait. -/
theorem Keeps.one (none : ∀ symbol ∈ waits, symbol.isOperand = false) (proper : next.Proper)
    (before : state.holdings = output ++ waits) (after : next.holdings = output ++ symbol :: waits)
    (brings : ∀ {rest others}, next.awaited.Holds rest others →
      state.awaited.Holds (symbols ++ rest) (symbol :: others)) : state.Keeps symbols next :=
  ⟨proper, fun {_ others} held => ⟨symbol :: others, brings held, by
    rw [before, after]
    exact rearranges_front none output symbol others⟩⟩

/-! ### One step -/

/-- When nothing is awaited, what waits lies on the stack. -/
theorem waiting_free (output : List Symbol) (pending : List Pending) :
    waiting ⟨output, pending, .nothing⟩ = pending.filterMap Pending.kept? := rfl

/-- What is sent out of a stack was waiting, in this order. -/
theorem holdings_flushWhile {p : Pending → Bool} (inner : ∀ entry, p entry → entry.isOpen = false)
    (output : List Symbol) (pending : List Pending) :
    output ++ pending.filterMap Pending.kept? =
      output ++ (pending.takeWhile p).filterMap Pending.symbol? ++
        (pending.dropWhile p).filterMap Pending.kept? := by
  have sent : (pending.takeWhile p).filterMap Pending.kept? =
      (pending.takeWhile p).filterMap Pending.symbol? :=
    List.filterMap_congr fun entry member =>
      Pending.kept?_eq_symbol? (inner entry (List.mem_takeWhile_imp member))
  rw [← sent, List.append_assoc, ← List.filterMap_append, List.takeWhile_append_dropWhile]

/-- No operand waits after entries have left the stack. -/
theorem forall_mem_dropWhile {p : Pending → Bool}
    (none : ∀ symbol ∈ pending.filterMap Pending.kept?, symbol.isOperand = false) :
    ∀ symbol ∈ (pending.dropWhile p).filterMap Pending.kept?, symbol.isOperand = false :=
  fun symbol member =>
    none symbol (((List.dropWhile_sublist p).filterMap Pending.kept?).subset member)

/-- What leaves before an operator is no group. -/
theorem isOpen_of_yieldsTo {level : Nat} (entry : Pending) (yields : entry.yieldsTo level) :
    entry.isOpen = false := by
  cases entry <;> first | rfl | cases yields

/-- A comma sends out what waits in its argument and loses nothing. -/
theorem Keeps.readComma {output : List Symbol} (proper : Proper ⟨output, pending, .nothing⟩)
    (done : Infix.readComma ⟨output, pending, .nothing⟩ = .ok next) :
    Keeps ⟨output, pending, .nothing⟩ [.comma] next := by
  have held := holdings_flushWhile (p := fun entry => !entry.isOpen) (by simp) output pending
  have none := forall_mem_dropWhile (p := fun entry => !entry.isOpen) proper
  unfold Infix.readComma flushGroup flushWhile at done
  dsimp only at done
  split at done
  · rename_i top
    split at done
    · cases done
    · obtain rfl := Except.ok.inj done
      rw [top] at held none
      exact .nothing none held.symm (.punctuation rfl)
  · cases done

/-- A closing parenthesis sends out what waits in its group and loses nothing. -/
theorem Keeps.readClose {output : List Symbol} (proper : Proper ⟨output, pending, .nothing⟩)
    (done : Infix.readClose ⟨output, pending, .nothing⟩ = .ok next) :
    Keeps ⟨output, pending, .nothing⟩ [.rightParen] next := by
  have held := holdings_flushWhile (p := fun entry => !entry.isOpen) (by simp) output pending
  have none := forall_mem_dropWhile (p := fun entry => !entry.isOpen) proper
  unfold Infix.readClose flushGroup flushWhile at done
  dsimp only at done
  split at done
  · rename_i top
    split at done
    · cases done
    · obtain rfl := Except.ok.inj done
      rw [top] at held none
      exact .nothing none held.symm (.punctuation rfl)
  · rename_i owner commas empty rest top
    split at done
    · cases done
    · obtain ⟨-, rfl⟩ := emitApplied_ok done
      rw [top] at held none
      -- The owner stood in front of those that wait, so it is out without a move.
      have sent : ∀ symbol ∈ rest.filterMap Pending.kept?, symbol.isOperand = false :=
        (List.forall_mem_cons.1 none).2
      refine .nothing sent ?_ (.punctuation rfl)
      refine Eq.trans ?_ held.symm
      simp [holdings, emit, waiting, Awaited.kept?, Pending.kept?]
  · cases done

/-- A symbol that begins or joins operands is out or waits afterwards. -/
theorem Keeps.readContent {output : List Symbol} (proper : Proper ⟨output, pending, .nothing⟩)
    (done : Infix.readContent ⟨output, pending, .nothing⟩ symbol = .ok next)
    (opens : symbol ≠ .rightParen ∧ symbol ≠ .comma) :
    Keeps ⟨output, pending, .nothing⟩ [symbol] next := by
  have waits : ∀ {other : Symbol}, other.isOperand = false →
      ∀ symbol ∈ other :: pending.filterMap Pending.kept?, symbol.isOperand = false :=
    fun operand => List.forall_mem_cons.2 ⟨operand, proper⟩
  cases symbol with
  | var v | const c | skolem s =>
    obtain rfl := Except.ok.inj done
    exact .one proper proper rfl (by simp [holdings, emit, waiting, Awaited.kept?]) (.content rfl)
  | fn f | rel r =>
    obtain rfl := Except.ok.inj done
    exact .one proper (waits rfl) rfl rfl (.content rfl)
  | op operator =>
    have held := holdings_flushWhile (p := Pending.yieldsTo operator.precedence)
      isOpen_of_yieldsTo output pending
    have none := forall_mem_dropWhile (p := Pending.yieldsTo operator.precedence) proper
    by_cases negates : operator = .not
    · subst negates
      obtain rfl := Except.ok.inj done
      exact .one proper (waits rfl) rfl rfl (.content rfl)
    · have read : Infix.readContent ⟨output, pending, .nothing⟩ (.op operator) =
          .ok ((flushWhile (Pending.yieldsTo operator.precedence) ⟨output, pending, .nothing⟩).suspend
            (.operator operator)) := by
        cases operator <;> first | rfl | exact absurd rfl negates
      obtain rfl := Except.ok.inj (read.symm.trans done)
      exact .one none (List.forall_mem_cons.2 ⟨rfl, none⟩) held rfl (.content rfl)
  | quantifier q =>
    obtain rfl := Except.ok.inj done
    exact .nothing proper rfl id
  | binder b =>
    obtain rfl := Except.ok.inj done
    exact .one proper (waits rfl) rfl rfl fun held => .heading (.read b) held
  | leftParen =>
    obtain rfl := Except.ok.inj done
    exact .nothing proper rfl (.punctuation rfl)
  | rightParen => exact absurd rfl opens.1
  | comma => exact absurd rfl opens.2
  | suchThat => cases done

/-- A symbol that is read when nothing is awaited is kept. -/
theorem Keeps.readFree {output : List Symbol} (proper : Proper ⟨output, pending, .nothing⟩)
    (done : Infix.readFree ⟨output, pending, .nothing⟩ symbol = .ok next) :
    Keeps ⟨output, pending, .nothing⟩ [symbol] next := by
  have filled : Keeps ⟨output, pending, .nothing⟩ [] ⟨output, Pending.fill pending, .nothing⟩ := by
    have same := Pending.filterMap_kept?_fill pending
    refine .nothing ?_ (congrArg (output ++ ·) same) id
    unfold Proper at proper ⊢
    rwa [waiting_free, same]
  by_cases closes : symbol = .rightParen
  · subst closes
    exact .readClose proper done
  by_cases separates : symbol = .comma
  · subst separates
    exact .readComma proper done
  · have read : Infix.readFree ⟨output, pending, .nothing⟩ symbol =
        Infix.readContent ⟨output, Pending.fill pending, .nothing⟩ symbol := by
      cases symbol <;> first | rfl | exact absurd rfl closes | exact absurd rfl separates
    exact filled.trans (.readContent filled.proper (read.symm.trans done) ⟨closes, separates⟩)

/-- One symbol moves what it brings, whatever is awaited. -/
theorem Keeps.step (proper : state.Proper) (done : state.step symbol = .ok next) :
    state.Keeps [symbol] next := by
  obtain ⟨output, pending, awaited⟩ := state
  have opened : ∀ {q : Quantifier} {bound : List Variable},
      (∀ symbol ∈ pending.filterMap Pending.kept?, symbol.isOperand = false) →
        (openScope ⟨output, pending, .nothing⟩ q bound).Proper :=
    fun none => List.forall_mem_cons.2 ⟨rfl, none⟩
  cases awaited with
  | nothing => exact .readFree proper done
  | arguments owner =>
    obtain ⟨notOperand, none⟩ := List.forall_mem_cons.1 proper
    cases symbol with
    | leftParen =>
      obtain rfl := Except.ok.inj done
      exact .nothing proper rfl (.punctuation rfl)
    | _ =>
      obtain ⟨sent, emitted, read⟩ := bind_eq_ok_iff.1 done
      obtain ⟨-, rfl⟩ := emitApplied_ok emitted
      have out : Keeps ⟨output, pending, .arguments owner⟩ []
          ⟨output ++ [owner], pending, .nothing⟩ :=
        .nothing none (by simp [holdings, waiting, Awaited.kept?]) id
      exact out.trans (.readFree none read)
  | header q =>
    cases symbol with
    | var v =>
      obtain rfl := Except.ok.inj done
      refine .one proper (opened proper) rfl rfl ?_
      rintro rest others ⟨mark, after, rfl, between, held⟩
      exact .heading (.single q v between) held
    | leftParen =>
      obtain rfl := Except.ok.inj done
      refine .nothing proper rfl ?_
      rintro rest others ⟨v, more, mark, after, contents, rfl, between, rfl, held⟩
      have whole := Contents.heading (.listed q v more between) held
      rwa [List.cons_append, List.cons_append, List.append_assoc] at whole
    | _ => cases done
  | listed q found =>
    cases symbol with
    | var v =>
      obtain rfl := Except.ok.inj done
      refine .nothing proper rfl ?_
      rintro rest others ⟨more, mark, after, contents, rfl, between, rfl, held⟩
      exact ⟨v, more, mark, after, contents, rfl, between, by simp, held⟩
    | _ => cases done
  | delimiter q found =>
    cases symbol with
    | comma =>
      obtain rfl := Except.ok.inj done
      refine .nothing proper rfl ?_
      rintro rest others ⟨v, more, mark, after, contents, rfl, between, rfl, held⟩
      exact ⟨v :: more, mark, after, contents, rfl, between, rfl, held⟩
    | rightParen =>
      obtain rfl := Except.ok.inj done
      refine .one proper (opened proper) rfl rfl ?_
      rintro rest others ⟨mark, after, rfl, between, held⟩
      exact ⟨[], mark, after, others, rfl, between, by simp, held⟩
    | _ => cases done
  | body =>
    cases symbol with
    | comma =>
      obtain rfl := Except.ok.inj done
      exact .nothing proper rfl fun held => ⟨[.comma], _, rfl, .comma, held⟩
    | suchThat =>
      obtain rfl := Except.ok.inj done
      exact .nothing proper rfl fun held => ⟨[.suchThat], _, rfl, .suchThat, held⟩
    | _ =>
      have begun : Keeps ⟨output, pending, .body⟩ [] ⟨output, pending, .nothing⟩ :=
        .nothing proper rfl fun held => ⟨[], _, rfl, .nothing, held⟩
      exact begun.trans (.readFree proper done)

/-! ### Whole runs -/

/-- Over a whole run the reader keeps what the symbols bring. -/
theorem Keeps.run (proper : state.Proper) (run : symbols.foldlM Infix.step state = .ok next) :
    state.Keeps symbols next := by
  induction symbols generalizing state with
  | nil =>
    obtain rfl := Except.ok.inj run
    exact .refl proper
  | cons symbol symbols ih =>
    obtain ⟨middle, first, rest⟩ := bind_eq_ok_iff.1 run
    have kept := Keeps.step proper first
    exact kept.trans (ih kept.proper rest)

/-- What waits in the end goes out, and nothing was awaited that the symbols still hold. -/
theorem holds_of_finish {sent : List Symbol} (finished : state.finish = .ok sent) :
    state.awaited.Holds [] [] ∧ sent = state.holdings := by
  obtain ⟨output, pending, awaited⟩ := state
  obtain ⟨settled, done, closed, rfl⟩ := finish_ok finished
  have flushed : ∀ {output : List Symbol} {awaited : Awaited},
      (flushGroup ⟨output, pending, awaited⟩).pending = [] →
        (flushGroup ⟨output, pending, awaited⟩).output = output ++ pending.filterMap Pending.kept? := by
    intro output awaited none
    change pending.dropWhile _ = [] at none
    rw [holdings_flushWhile (p := fun entry => !entry.isOpen) (by simp), none, List.filterMap_nil,
      List.append_nil]
    rfl
  cases awaited with
  | nothing =>
    obtain rfl := Except.ok.inj done
    exact ⟨.nil, flushed closed⟩
  | body =>
    obtain rfl := Except.ok.inj done
    exact ⟨⟨[], [], rfl, .nothing, .nil⟩, flushed closed⟩
  | arguments owner =>
    obtain ⟨-, rfl⟩ := emitApplied_ok done
    refine ⟨.nil, (flushed closed).trans ?_⟩
    simp [holdings, waiting, Awaited.kept?]
  | _ => cases done

end Infix

/-- What the symbols hold comes out, once each, and nothing else does. -/
structure Conserves (symbols contents sent : List Symbol) : Prop where
  /-- The symbols hold these contents and no others. -/
  holds : ∀ other, Contents symbols other ↔ other = contents
  /-- The contents come out, in particular every quantifier with the variables of its heading. -/
  perm : sent.Perm contents
  /-- Variables outside of headings, constants and Skolem functions come out in their order. -/
  operands : sent.filter Symbol.isOperand = contents.filter Symbol.isOperand
  /-- The operators are those of the symbols. -/
  operators : (sent.filter Symbol.isOperator).Perm (symbols.filter Symbol.isOperator)
  /-- The functions and relations are those of the symbols. -/
  applications : (sent.filter Symbol.isApplication).Perm (symbols.filter Symbol.isApplication)
  /-- Every quantifier comes out as one symbol. -/
  quantifiers : sent.countP Symbol.isBinder = symbols.countP Symbol.isQuantifying
  /-- Punctuation and bare quantifiers do not come out. -/
  only : ∀ symbol ∈ sent, symbol.isContent ∨ symbol.isBinder

/-- What symbols hold comes out if it is a rearrangement of the output. -/
theorem Contents.conserves {symbols contents sent : List Symbol} (holds : Contents symbols contents)
    (moved : Rearranges contents sent) : Conserves symbols contents sent where
  holds other := ⟨holds.unique, fun same => same ▸ holds⟩
  perm := moved.perm.symm
  operands := moved.operands.symm
  operators := by
    rw [← holds.filter_eq fun _ => .inr]
    exact moved.perm.symm.filter _
  applications := by
    rw [← holds.filter_eq fun _ => .inl]
    exact moved.perm.symm.filter _
  quantifiers := by
    rw [← holds.countP_isBinder]
    exact moved.perm.symm.countP_eq _
  only symbol member := holds.forall_mem symbol (moved.perm.mem_iff.2 member)

/-- Whatever symbols are put into suffix order, sentence or not, nothing is lost, doubled or
invented. -/
theorem Infix.toPostfix_conserves {symbols sent : List Symbol}
    (converted : toPostfix symbols = .ok sent) : ∃ contents, Conserves symbols contents sent := by
  obtain ⟨last, run, finished⟩ := bind_eq_ok_iff.1 converted
  have start : Proper {} := List.forall_mem_nil _
  have kept := Keeps.run start run
  obtain ⟨nothing, rfl⟩ := holds_of_finish finished
  obtain ⟨contents, held, moved⟩ := kept.holds nothing
  rw [List.append_nil] at held moved
  exact ⟨contents, held.conserves moved⟩

/-- `FORALL(x, y): f(x, a) y AND NOT` is no sentence, but it is read. It holds seven symbols: the
quantifier with both variables, the function, its arguments, the variable after it and the
operators. -/
theorem Infix.toPostfix_conserves_unjoined :
    let x : Variable := ⟨"x", 0, false, false⟩
    let y : Variable := ⟨"y", 1, false, false⟩
    let a : Symbol := .const ⟨"a", .integer 1⟩
    let f : Symbol := .fn (.uninterpreted "f" 2)
    let symbols := [.quantifier .universal, .leftParen, .var x, .comma, .var y, .rightParen, .suchThat,
      f, .leftParen, .var x, .comma, a, .rightParen, .var y, .op .and, .op .not]
    let contents := [.binder ⟨.universal, [x, y]⟩, f, .var x, a, .var y, .op .and, .op .not]
    let sent := [.var x, a, f, .var y, .op .not, .op .and, .binder ⟨.universal, [x, y]⟩]
    toPostfix symbols = .ok sent ∧ Conserves symbols contents sent := by
  intro x y a f symbols contents sent
  have converted : toPostfix symbols = .ok sent := rfl
  obtain ⟨others, conserves⟩ := toPostfix_conserves converted
  have holds : Contents symbols contents :=
    .heading (.listed .universal x [y] .suchThat) <| .content rfl <| .punctuation rfl <|
      .content rfl <| .punctuation rfl <| .content rfl <| .punctuation rfl <| .content rfl <|
      .content rfl <| .content rfl .nil
  obtain rfl : contents = others := (conserves.holds contents).1 holds
  exact ⟨converted, conserves⟩

end Refute
