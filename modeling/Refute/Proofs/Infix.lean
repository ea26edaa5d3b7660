import Refute.Proofs.Grammar
import Refute.Proofs.Reading

/-!
# Reading infix phrases

The reader of infix symbols puts a phrase into suffix order: the symbols it has sent out, followed
by those that still wait on its stack, build the expression of the phrase. What waits for a closed
phrase of some level leaves before every operator of that level, so the operator finds its whole
left operand, and what waited before the phrase stays. Hence every sentence is read as its
expression, and every formula is the expression of some sentence.
-/

namespace Refute

/-! ### Results in suffix order -/

namespace Expr

variable {stack next : List Expr} {symbol : Symbol}

/-- An application of what lies on top of the stack succeeds when that may be its arguments. -/
theorem pushNode_eq_ok_iff {args : List Expr} {atomic : Bool} :
    pushNode symbol args.length atomic (args.reverse ++ stack) = .ok next ↔
      (atomic → ∀ arg ∈ args, arg.isAtomic) ∧ next = node symbol args :: stack := by
  have popped : popArgs args.length symbol (args.reverse ++ stack) = .ok (args, stack) := by
    have enough : ¬ (args.reverse ++ stack).length < args.length := by simp
    have top : (args.reverse ++ stack).take args.length = args.reverse :=
      List.take_left' List.length_reverse
    have below : (args.reverse ++ stack).drop args.length = stack :=
      List.drop_left' List.length_reverse
    rw [popArgs, if_neg enough, top, below, List.reverse_reverse]
  have checked : pushNode symbol args.length atomic (args.reverse ++ stack) =
      (do if atomic then requireAtomic symbol args
          .ok (node symbol args :: stack)) := by
    rw [pushNode, popped]
    rfl
  rw [checked]
  have done : ((.ok (node symbol args :: stack) : Except ParseError _) = .ok next) ↔
      next = node symbol args :: stack := by rw [Except.ok.injEq, eq_comm]
  cases atomic with
  | false => simpa using done
  | true =>
    simp only [↓reduceIte, bind_eq_ok_iff, requireAtomic, List.all_eq_true, done]
    by_cases all : ∀ arg ∈ args, arg.isAtomic
    · rw [if_pos all]
      exact ⟨fun read => ⟨fun _ => all, read.choose_spec.2⟩, fun same => ⟨(), rfl, same.2⟩⟩
    · simp [all]

/-- An operand lays itself on the stack. -/
theorem pushSymbol_operand (stands : symbol.isOperand) (stack : List Expr) :
    pushSymbol stack symbol = .ok (leaf symbol :: stack) := by
  cases symbol <;> first | rfl | cases stands

/-- A function or relation takes as many arguments off the stack as it has, and only atomic ones. -/
theorem pushSymbol_application {args : List Expr} (arity : symbol.arity? = some args.length) :
    pushSymbol (args.reverse ++ stack) symbol = .ok next ↔
      (∀ arg ∈ args, arg.isAtomic) ∧ next = node symbol args :: stack := by
  have applied : pushSymbol (args.reverse ++ stack) symbol =
      pushNode symbol args.length true (args.reverse ++ stack) := by
    cases symbol with
    | fn f => exact Option.some.inj arity ▸ rfl
    | rel r => exact Option.some.inj arity ▸ rfl
    | _ => cases arity
  rw [applied, pushNode_eq_ok_iff]
  simp

/-- A binary operator takes two operands off the stack, and a comparison only atomic ones. -/
theorem pushSymbol_operator {operator : Operator} {level : Nat} (binds : operator.Binds level)
    {l r : Expr} :
    pushSymbol (r :: l :: stack) (.op operator) = .ok next ↔
      (operator.isComparison → l.isAtomic ∧ r.isAtomic) ∧ next = binary operator l r :: stack := by
  have applied : pushSymbol (r :: l :: stack) (.op operator) =
      pushNode (.op operator) [l, r].length operator.isComparison ([l, r].reverse ++ stack) := by
    cases binds <;> rfl
  rw [applied, pushNode_eq_ok_iff]
  simp [binary]

/-- A quantifier takes its body off the stack. -/
theorem pushSymbol_binder (binder : Binder) (e : Expr) (stack : List Expr) :
    pushSymbol (e :: stack) (.binder binder) = .ok (node (.binder binder) [e] :: stack) := by
  have applied : pushSymbol (e :: stack) (.binder binder) =
      pushNode (.binder binder) [e].length false ([e].reverse ++ stack) := rfl
  rw [applied, pushNode_eq_ok_iff]
  exact ⟨nofun, rfl⟩

end Expr

/-! ### The stack of the reader -/

namespace Pending

/-- Operators and quantifiers on top are passed over on the way to the innermost group. -/
theorem fill_append {held : List Pending} (inner : ∀ entry ∈ held, entry.isOpen = false)
    (pending : List Pending) : fill (held ++ pending) = held ++ fill pending := by
  induction held with
  | nil => rfl
  | cons entry others ih =>
    rw [List.forall_mem_cons] at inner
    cases entry with
    | operator o => exact congrArg _ (ih inner.2)
    | scope b => exact congrArg _ (ih inner.2)
    | _ => cases inner.1

/-- A group that is no longer empty stays so. -/
theorem fill_fill (pending : List Pending) : fill (fill pending) = fill pending := by
  induction pending with
  | nil => rfl
  | cons entry others ih =>
    cases entry with
    | operator o => exact congrArg (operator o :: ·) ih
    | scope b => exact congrArg (scope b :: ·) ih
    | _ => rfl

/-- What lies on top of the stack stays when an operator of the level, or of a tighter one, is read.
Operators bind at the levels up to the fourth. -/
def Guarded (level : Nat) (pending : List Pending) : Prop :=
  level ≤ 4 → ∀ entry, pending.head? = some entry → entry.yieldsTo level = false

/-- No operator binds as tightly as negation, so negation stays where its operand is read. -/
theorem guarded_five (pending : List Pending) : Guarded 5 pending :=
  fun bound => absurd bound (by decide)

/-- What stays for the operators of a level stays for tighter ones. -/
theorem Guarded.tighten {level : Nat} {pending : List Pending} (guarded : Guarded level pending) :
    Guarded (level + 1) pending := by
  intro bound entry top
  have stays := guarded (by omega) entry top
  cases entry with
  | operator o =>
    have below : ¬ level ≤ o.precedence := by simpa [yieldsTo] using stays
    exact decide_eq_false (by omega)
  | _ => rfl

/-- No entry leaves because the innermost group is no longer empty. -/
theorem Guarded.fill {level : Nat} {pending : List Pending} (guarded : Guarded level pending) :
    Guarded level (fill pending) := by
  intro bound entry top
  cases pending with
  | nil => cases top
  | cons first others =>
    have stays := guarded bound first rfl
    cases first <;> (cases top; exact stays)

/-- A waiting operator stays when a tighter one is read, so that one is its right operand. -/
theorem Guarded.operator {operator : Operator} {level : Nat} (binds : operator.Binds level)
    (pending : List Pending) : Guarded (level + 1) (.operator operator :: pending) := by
  intro bound entry top
  cases top
  cases binds <;> rfl

end Pending

namespace Infix

/-- Reads the rest of the symbols from a state. -/
def resume (state : Infix) (rest : List Symbol) : Except ParseError (List Symbol) := do
  (← rest.foldlM step state).finish

/-- Reading goes on from the state that the first symbol leads to. -/
theorem resume_cons {state next : Infix} {symbol : Symbol} (read : state.step symbol = .ok next)
    (rest : List Symbol) : state.resume (symbol :: rest) = next.resume rest := by
  simp only [resume, List.foldlM_cons, read]
  rfl

/-- Sends out exactly what satisfies the test on top of something that does not. -/
theorem flushWhile_append {test : Pending → Bool} {held pending : List Pending}
    (leaves : ∀ entry ∈ held, test entry)
    (stays : ∀ entry, pending.head? = some entry → test entry = false) (output : List Symbol)
    (awaited : Awaited) :
    flushWhile test ⟨output, held ++ pending, awaited⟩ =
      ⟨output ++ held.filterMap Pending.symbol?, pending, awaited⟩ := by
  have stop : pending.takeWhile test = [] ∧ pending.dropWhile test = pending := by
    cases pending with
    | nil => exact ⟨rfl, rfl⟩
    | cons first others => simp [stays first rfl]
  have taken : (held ++ pending).takeWhile test = held := by
    rw [List.takeWhile_append_of_pos leaves, stop.1, List.append_nil]
  have dropped : (held ++ pending).dropWhile test = pending := by
    rw [List.dropWhile_append_of_pos leaves, stop.2]
  simp only [flushWhile, taken, dropped]

/-- Inside a group everything leaves. -/
theorem flushGroup_append {held pending : List Pending} (inner : ∀ entry ∈ held, entry.isOpen = false)
    (group : ∀ entry, pending.head? = some entry → entry.isOpen) (output : List Symbol)
    (awaited : Awaited) :
    flushGroup ⟨output, held ++ pending, awaited⟩ =
      ⟨output ++ held.filterMap Pending.symbol?, pending, awaited⟩ :=
  flushWhile_append (fun entry member => by simp [inner entry member])
    (fun entry top => by simp [group entry top]) output awaited

/-- A function or relation without arguments goes out before anything but an argument list. -/
theorem resume_arguments {owner : Symbol} {rest : List Symbol} (arity : owner.arity? = some 0)
    (bare : rest.head? ≠ some .leftParen) (output : List Symbol) (pending : List Pending) :
    resume ⟨output, pending, .arguments owner⟩ rest =
      resume ⟨output ++ [owner], pending, .nothing⟩ rest := by
  have sent : emitApplied ⟨output, pending, .nothing⟩ owner 0 =
      .ok ⟨output ++ [owner], pending, .nothing⟩ := by
    simp [emitApplied, arity, emit]
  cases rest with
  | nil =>
    simp [resume, finish, settle, emitApplied, arity, emit, flushGroup, flushWhile, Bind.bind,
      Except.bind, pure, Except.pure]
  | cons symbol rest =>
    have same : step ⟨output, pending, .arguments owner⟩ symbol =
        step ⟨output ++ [owner], pending, .nothing⟩ symbol := by
      cases symbol with
      | leftParen => exact absurd rfl bare
      | _ =>
        simp only [step, sent]
        rfl
    simp only [resume, List.foldlM_cons, same]

/-- What went out and what waits for a phrase: together they build its expression, and what waits
for a closed phrase leaves before an operator of its level. -/
structure Builds (level : Nat) (unclosed : Bool) (sent : List Symbol) (held : List Pending)
    (e : Expr) : Prop where
  inner : ∀ entry ∈ held, entry.isOpen = false
  yields : unclosed = false → ∀ entry ∈ held, entry.yieldsTo level
  builds : ∀ stack, (sent ++ held.filterMap Pending.symbol?).foldlM Expr.pushSymbol stack =
    .ok (e :: stack)

/-- The symbols are read as the expression where what waits allows operators of the level. -/
def Reads (level : Nat) (unclosed : Bool) (symbols : List Symbol) (e : Expr) : Prop :=
  ∀ output pending rest, Pending.Guarded level pending → rest.head? ≠ some .leftParen →
    ∃ sent held, Builds level unclosed sent held e ∧
      resume ⟨output, pending, .nothing⟩ (symbols ++ rest) =
        resume ⟨output ++ sent, held ++ Pending.fill pending, .nothing⟩ rest

/-- A phrase of which nothing waits any more. -/
theorem Builds.complete {level : Nat} {sent : List Symbol} {e : Expr}
    (builds : ∀ stack, sent.foldlM Expr.pushSymbol stack = .ok (e :: stack)) :
    Builds level false sent [] e where
  inner _ member := absurd member List.not_mem_nil
  yields _ _ member := absurd member List.not_mem_nil
  builds stack := by rw [List.filterMap_nil, List.append_nil, builds]

/-- What is put under all that waits goes out after it. -/
theorem Builds.suspended {level : Nat} {unclosed : Bool} {sent : List Symbol} {held : List Pending}
    {e : Expr} (built : Builds level unclosed sent held e) {entry : Pending} {symbol : Symbol}
    (goes : entry.symbol? = some symbol) {stack next : List Expr}
    (pushed : Expr.pushSymbol (e :: stack) symbol = .ok next) :
    (sent ++ (held ++ [entry]).filterMap Pending.symbol?).foldlM Expr.pushSymbol stack = .ok next := by
  have last : (held ++ [entry]).filterMap Pending.symbol? =
      held.filterMap Pending.symbol? ++ [symbol] := by simp [goes]
  rw [last, ← List.append_assoc, foldlM_append_of_ok (built.builds stack)]
  simp only [List.foldlM_cons, pushed]
  rfl

/-- An operand is read as itself. -/
theorem Reads.operand {symbol : Symbol} (stands : symbol.isOperand) :
    Reads 5 false [symbol] (.leaf symbol) := by
  intro output pending rest _ _
  have read : step ⟨output, pending, .nothing⟩ symbol =
      .ok ⟨output ++ [symbol], Pending.fill pending, .nothing⟩ := by
    cases symbol <;> first | rfl | cases stands
  refine ⟨[symbol], [], .complete fun stack => ?_, resume_cons read rest⟩
  simp only [List.foldlM_cons, Expr.pushSymbol_operand stands]
  rfl

/-- A function or relation is held back until its argument list is seen. -/
theorem step_owner {owner : Symbol} {count : Nat} (arity : owner.arity? = some count)
    (output : List Symbol) (pending : List Pending) :
    step ⟨output, pending, .nothing⟩ owner = .ok ⟨output, Pending.fill pending, .arguments owner⟩ := by
  cases owner <;> first | rfl | cases arity

/-- A function or relation without arguments builds a leaf. -/
theorem foldlM_pushSymbol_leaf {owner : Symbol} (arity : owner.arity? = some 0) (stack : List Expr) :
    [owner].foldlM Expr.pushSymbol stack = .ok (.leaf owner :: stack) := by
  have none : owner.arity? = some ([] : List Expr).length := arity
  have applied : Expr.pushSymbol ([].reverse ++ stack) owner = .ok (.leaf owner :: stack) :=
    (Expr.pushSymbol_application none).2 ⟨nofun, rfl⟩
  have pushed : Expr.pushSymbol stack owner = .ok (.leaf owner :: stack) := applied
  simp only [List.foldlM_cons, pushed]
  rfl

/-- A function or relation without arguments may stand without parentheses. -/
theorem Reads.bare {owner : Symbol} (arity : owner.arity? = some 0) :
    Reads 5 false [owner] (.leaf owner) := by
  intro output pending rest _ bare
  refine ⟨[owner], [], .complete (foldlM_pushSymbol_leaf arity), ?_⟩
  rw [List.singleton_append, resume_cons (step_owner arity output pending),
    resume_arguments arity bare]
  rfl

/-- A function or relation without arguments may stand with empty parentheses. -/
theorem Reads.empty {owner : Symbol} (arity : owner.arity? = some 0) :
    Reads 5 false [owner, .leftParen, .rightParen] (.leaf owner) := by
  intro output pending rest _ _
  refine ⟨[owner], [], .complete (foldlM_pushSymbol_leaf arity), ?_⟩
  have closed : step ⟨output, .call owner 0 true :: Pending.fill pending, .nothing⟩ .rightParen =
      .ok ⟨output ++ [owner], Pending.fill pending, .nothing⟩ := by
    simp [step, readFree, readClose, flushGroup, flushWhile, Pending.isOpen, Pending.symbol?,
      emitApplied, arity, emit]
  rw [List.cons_append, resume_cons (step_owner arity output pending)]
  exact (resume_cons rfl _).trans (resume_cons closed rest)

/-- A phrase in parentheses is read as the phrase, and it is closed. -/
theorem Reads.group {unclosed : Bool} {symbols : List Symbol} {e : Expr}
    (inside : Reads 0 unclosed symbols e) :
    Reads 5 false (.leftParen :: (symbols ++ [.rightParen])) e := by
  intro output pending rest _ _
  obtain ⟨sent, held, built, run⟩ := inside output (.group true :: Pending.fill pending)
    (.rightParen :: rest) (fun _ _ top => by cases top; rfl) nofun
  have closed : step ⟨output ++ sent, held ++ .group false :: Pending.fill pending, .nothing⟩
      .rightParen =
        .ok ⟨output ++ sent ++ held.filterMap Pending.symbol?, Pending.fill pending, .nothing⟩ := by
    simp only [step, readFree, readClose]
    rw [flushGroup_append built.inner (fun _ top => by cases top; rfl)]
    rfl
  refine ⟨sent ++ held.filterMap Pending.symbol?, [], .complete built.builds, ?_⟩
  rw [List.cons_append, List.append_assoc]
  exact (resume_cons rfl _).trans (run.trans ((resume_cons closed rest).trans (by simp)))

/-- Arguments are read one after the other, and the commas between them are counted. -/
theorem resume_separated {symbols : List Symbol} {args : List Expr}
    (listed : Separated (fun symbols e => Reads 0 false symbols e) symbols args)
    (owner : Symbol) (output : List Symbol) (pending : List Pending) (rest : List Symbol)
    (bare : rest.head? ≠ some .leftParen) :
    ∃ sent held commas, commas + 1 = args.length ∧ (∀ entry ∈ held, entry.isOpen = false) ∧
      (∀ stack, (sent ++ held.filterMap Pending.symbol?).foldlM Expr.pushSymbol stack =
        .ok (args.reverse ++ stack)) ∧
      resume ⟨output, .call owner 0 true :: pending, .nothing⟩ (symbols ++ rest) =
        resume ⟨output ++ sent, held ++ .call owner commas false :: pending, .nothing⟩ rest := by
  induction listed generalizing rest with
  | one only =>
    obtain ⟨sent, held, built, run⟩ := only output (.call owner 0 true :: pending) rest
      (fun _ _ top => by cases top; rfl) bare
    exact ⟨sent, held, 0, rfl, built.inner, built.builds, run⟩
  | @more before after as a others last ih =>
    obtain ⟨sent, held, commas, count, inner, builds, run⟩ := ih (.comma :: (after ++ rest)) nofun
    obtain ⟨sentLast, heldLast, built, runLast⟩ :=
      last (output ++ (sent ++ held.filterMap Pending.symbol?))
        (.call owner (commas + 1) true :: pending) rest (fun _ _ top => by cases top; rfl) bare
    have separated : step ⟨output ++ sent, held ++ .call owner commas false :: pending, .nothing⟩
        .comma = .ok ⟨output ++ (sent ++ held.filterMap Pending.symbol?),
          .call owner (commas + 1) true :: pending, .nothing⟩ := by
      simp only [step, readFree, readComma]
      rw [flushGroup_append inner (fun _ top => by cases top; rfl), List.append_assoc]
      rfl
    refine ⟨sent ++ held.filterMap Pending.symbol? ++ sentLast, heldLast, commas + 1, ?_,
      built.inner, fun stack => ?_, ?_⟩
    · rw [List.length_append, ← count]
      rfl
    · rw [List.append_assoc, foldlM_append_of_ok (builds stack), built.builds, List.reverse_append]
      rfl
    · rw [List.append_assoc, List.cons_append, run, resume_cons separated, runLast]
      simp only [Pending.fill, List.append_assoc]

/-- A call is read as the application to its arguments. -/
theorem Reads.call {owner : Symbol} {symbols : List Symbol} {args : List Expr}
    (arity : owner.arity? = some args.length)
    (listed : Separated (fun symbols e => Reads 0 false symbols e) symbols args)
    (atomic : ∀ arg ∈ args, arg.isAtomic) :
    Reads 5 false (owner :: .leftParen :: (symbols ++ [.rightParen])) (.node owner args) := by
  intro output pending rest _ _
  obtain ⟨sent, held, commas, count, inner, builds, run⟩ :=
    resume_separated listed owner output (Pending.fill pending) (.rightParen :: rest) nofun
  have closed : step ⟨output ++ sent, held ++ .call owner commas false :: Pending.fill pending,
      .nothing⟩ .rightParen =
        .ok ⟨output ++ (sent ++ held.filterMap Pending.symbol? ++ [owner]), Pending.fill pending,
          .nothing⟩ := by
    simp only [step, readFree, readClose]
    rw [flushGroup_append inner (fun _ top => by cases top; rfl)]
    simp [emitApplied, arity, emit, count]
  refine ⟨sent ++ held.filterMap Pending.symbol? ++ [owner], [], .complete fun stack => ?_, ?_⟩
  · rw [foldlM_append_of_ok (builds stack)]
    have pushed : Expr.pushSymbol (args.reverse ++ stack) owner = .ok (.node owner args :: stack) :=
      (Expr.pushSymbol_application arity).2 ⟨atomic, rfl⟩
    simp only [List.foldlM_cons, pushed]
    rfl
  · simp only [List.cons_append, List.append_assoc]
    rw [resume_cons (step_owner arity output pending)]
    refine (resume_cons rfl _).trans (run.trans ((resume_cons closed rest).trans ?_))
    simp only [List.nil_append, List.append_assoc]

/-- A negation is read as the negated operand. -/
theorem Reads.negation {unclosed : Bool} {symbols : List Symbol} {e : Expr}
    (operand : Reads 5 unclosed symbols e) : Reads 5 unclosed (.op .not :: symbols) e.negate := by
  intro output pending rest _ bare
  obtain ⟨sent, held, built, run⟩ := operand output (.operator .not :: Pending.fill pending) rest
    (Pending.guarded_five _) bare
  refine ⟨sent, held ++ [.operator .not], ⟨?_, fun closed => ?_, fun stack =>
    built.suspended rfl rfl⟩, ?_⟩
  · exact List.forall_mem_append.2 ⟨built.inner, List.forall_mem_singleton.2 rfl⟩
  · exact List.forall_mem_append.2 ⟨built.yields closed, List.forall_mem_singleton.2 rfl⟩
  · rw [List.cons_append, List.append_assoc]
    refine (resume_cons rfl _).trans (run.trans ?_)
    simp only [Pending.fill, Pending.fill_fill, List.singleton_append]

/-- The mark after the variables of a quantifier changes nothing. -/
theorem resume_mark {mark symbols : List Symbol} (between : Mark mark) (passes : Turn.Passes symbols)
    (output : List Symbol) (pending : List Pending) (rest : List Symbol) :
    resume ⟨output, pending, .body⟩ (mark ++ (symbols ++ rest)) =
      resume ⟨output, pending, .nothing⟩ (symbols ++ rest) := by
  cases between with
  | comma => exact resume_cons rfl _
  | suchThat => exact resume_cons rfl _
  | nothing =>
    obtain ⟨due, run, ended⟩ := passes .operand rfl
    cases symbols with
    | nil =>
      cases run
      cases ended
    | cons symbol symbols =>
      have same : step ⟨output, pending, .body⟩ symbol = step ⟨output, pending, .nothing⟩ symbol := by
        cases symbol with
        | comma => cases run
        | suchThat => cases run
        | _ => rfl
      simp only [resume, List.nil_append, List.cons_append, List.foldlM_cons, same]

/-- The variables of a quantifier are collected up to the delimiter. -/
theorem resume_listing (quantifier : Quantifier) (others : List Variable) (found : List Variable)
    (output : List Symbol) (pending : List Pending) (rest : List Symbol) :
    resume ⟨output, pending, .delimiter quantifier found⟩
        ((others.flatMap fun v => [.comma, .var v]) ++ rest) =
      resume ⟨output, pending, .delimiter quantifier (found ++ others)⟩ rest := by
  induction others generalizing found with
  | nil => rw [List.append_nil]; rfl
  | cons v others ih =>
    refine (resume_cons rfl _).trans ((resume_cons rfl _).trans ((ih (found ++ [v])).trans ?_))
    rw [List.append_assoc]
    rfl

/-- After the heading of a quantifier its body is due. -/
theorem resume_heading {front symbols : List Symbol} {binder : Binder} (heading : Heading front binder)
    (passes : Turn.Passes symbols) (output : List Symbol) (pending : List Pending)
    (rest : List Symbol) :
    resume ⟨output, pending, .nothing⟩ (front ++ (symbols ++ rest)) =
      resume ⟨output, .scope binder :: Pending.fill pending, .nothing⟩ (symbols ++ rest) := by
  cases heading with
  | read b => exact resume_cons rfl _
  | single quantifier v between =>
    exact (resume_cons rfl _).trans ((resume_cons rfl _).trans
      (resume_mark between passes output _ rest))
  | listed quantifier first others between =>
    simp only [List.cons_append, List.append_assoc, listing]
    refine (resume_cons rfl _).trans ((resume_cons rfl _).trans ((resume_cons rfl _).trans ?_))
    exact (resume_listing quantifier others [first] output _ _).trans ((resume_cons rfl _).trans
      (resume_mark between passes output _ rest))

/-- A quantified phrase is read with all that follows as its body. -/
theorem Reads.quantified {unclosed : Bool} {front symbols : List Symbol} {binder : Binder} {e : Expr}
    (heading : Heading front binder) (passes : Turn.Passes symbols)
    (body : Reads 0 unclosed symbols e) :
    Reads 5 true (front ++ symbols) (.node (.binder binder) [e]) := by
  intro output pending rest _ bare
  obtain ⟨sent, held, built, run⟩ := body output (.scope binder :: Pending.fill pending) rest
    (fun _ _ top => by cases top; rfl) bare
  refine ⟨sent, held ++ [.scope binder], ⟨?_, nofun, fun stack =>
    built.suspended rfl (Expr.pushSymbol_binder binder e stack)⟩, ?_⟩
  · exact List.forall_mem_append.2 ⟨built.inner, List.forall_mem_singleton.2 rfl⟩
  · rw [List.append_assoc, resume_heading heading passes, List.append_assoc]
    refine run.trans ?_
    simp only [Pending.fill, Pending.fill_fill, List.singleton_append]

/-- Operands joined by an operator are read as the operation, the left one at the level of the
operator and the right one at a tighter level. -/
theorem Reads.joined {operator : Operator} {level : Nat} {unclosed : Bool}
    {before after : List Symbol} {l r : Expr} (binds : operator.Binds level)
    (left : Reads level false before l) (right : Reads (level + 1) unclosed after r)
    (atomic : operator.isComparison → l.isAtomic ∧ r.isAtomic) :
    Reads level unclosed (before ++ .op operator :: after) (.binary operator l r) := by
  intro output pending rest guarded bare
  have bounded : level ≤ 4 := by cases binds <;> decide
  obtain ⟨sentLeft, heldLeft, builtLeft, runLeft⟩ :=
    left output pending (.op operator :: (after ++ rest)) guarded nofun
  obtain ⟨sentRight, heldRight, builtRight, runRight⟩ :=
    right (output ++ (sentLeft ++ heldLeft.filterMap Pending.symbol?))
      (.operator operator :: Pending.fill pending) rest (.operator binds _) bare
  -- The left operand is complete: all that waits for it leaves, and what waited before it stays.
  have read : step ⟨output ++ sentLeft, heldLeft ++ Pending.fill pending, .nothing⟩ (.op operator) =
      .ok ⟨output ++ (sentLeft ++ heldLeft.filterMap Pending.symbol?),
        .operator operator :: Pending.fill pending, .nothing⟩ := by
    have flushed := flushWhile_append (builtLeft.yields rfl) (guarded.fill bounded)
      (output ++ sentLeft) .nothing
    have opened : step ⟨output ++ sentLeft, heldLeft ++ Pending.fill pending, .nothing⟩
        (.op operator) = .ok ((flushWhile (Pending.yieldsTo level) ⟨output ++ sentLeft,
          Pending.fill (heldLeft ++ Pending.fill pending), .nothing⟩).suspend
            (.operator operator)) := by
      cases binds <;> rfl
    rw [opened, Pending.fill_append builtLeft.inner, Pending.fill_fill, flushed, List.append_assoc]
    rfl
  refine ⟨sentLeft ++ heldLeft.filterMap Pending.symbol? ++ sentRight,
    heldRight ++ [.operator operator], ⟨?_, fun closed => ?_, fun stack => ?_⟩, ?_⟩
  · exact List.forall_mem_append.2 ⟨builtRight.inner, List.forall_mem_singleton.2 rfl⟩
  · refine List.forall_mem_append.2 ⟨fun entry member => ?_, List.forall_mem_singleton.2 ?_⟩
    · have tighter := builtRight.yields closed entry member
      cases entry with
      | operator o =>
        have above : level + 1 ≤ o.precedence := of_decide_eq_true tighter
        exact decide_eq_true (by omega)
      | _ => cases tighter
    · cases binds <;> rfl
  · rw [List.append_assoc, foldlM_append_of_ok (builtLeft.builds stack)]
    exact builtRight.suspended rfl ((Expr.pushSymbol_operator binds).2 ⟨atomic, rfl⟩)
  · rw [List.append_assoc, List.cons_append, runLeft, resume_cons read, runRight]
    simp only [Pending.fill, Pending.fill_fill, List.singleton_append, List.append_assoc]

/-- What is read at a level is read at looser levels too. -/
theorem Reads.loosened {level : Nat} {unclosed : Bool} {symbols : List Symbol} {e : Expr}
    (inner : Reads (level + 1) unclosed symbols e) : Reads level unclosed symbols e := by
  intro output pending rest guarded bare
  obtain ⟨sent, held, built, run⟩ := inner output pending rest guarded.tighten bare
  refine ⟨sent, held, ⟨built.inner, fun closed entry member => ?_, built.builds⟩, run⟩
  have tighter := built.yields closed entry member
  cases entry with
  | operator o =>
    have above : level + 1 ≤ o.precedence := of_decide_eq_true tighter
    exact decide_eq_true (by omega)
  | _ => cases tighter

end Infix

/-- Every phrase is read as its expression. -/
theorem Phrase.reads {level : Nat} {unclosed : Bool} {symbols : List Symbol} {e : Expr}
    (phrase : Phrase level unclosed symbols e) : Infix.Reads level unclosed symbols e := by
  induction phrase using Phrase.induction with
  | operand stands => exact .operand stands
  | bare arity => exact .bare arity
  | empty arity => exact .empty arity
  | call arity arguments atomic ih => exact .call arity (ih.imp fun _ _ _ each => each.2) atomic
  | group inner ih => exact .group ih
  | negation operand ih => exact .negation ih
  | quantified heading body ih => exact .quantified heading body.passes ih
  | joined binds left right atomic ihLeft ihRight => exact .joined binds ihLeft ihRight atomic
  | loosened inner ih => exact .loosened ih

/-- Every sentence is read as its expression. -/
theorem Sentence.read {symbols : List Symbol} {e : Expr} (sentence : Sentence symbols e) :
    (Infix.toPostfix symbols >>= Expr.ofPostfix) = .ok e := by
  obtain ⟨unclosed, phrase⟩ := sentence
  obtain ⟨sent, held, built, run⟩ := phrase.reads [] [] [] (fun _ _ top => by cases top)
    (fun top => by cases top)
  rw [List.append_nil] at run
  have converted : Infix.toPostfix symbols = .ok (sent ++ held.filterMap Pending.symbol?) := by
    refine run.trans ?_
    change Infix.finish ⟨sent, held ++ [], .nothing⟩ = _
    have flushed : Infix.flushGroup ⟨sent, held ++ [], .nothing⟩ =
        ⟨sent ++ held.filterMap Pending.symbol?, [], .nothing⟩ :=
      Infix.flushGroup_append built.inner (fun _ top => by cases top) sent .nothing
    refine bind_eq_ok_iff.2 ⟨⟨sent, held ++ [], .nothing⟩, rfl, ?_⟩
    simp only [flushed]
  rw [converted]
  change Expr.ofPostfix (sent ++ held.filterMap Pending.symbol?) = _
  rw [Expr.ofPostfix, built.builds []]
  rfl

namespace Expr

/-- Every formula whose quantifiers bind something can be written in infix order, and however it is
written, that is what is read. -/
theorem Formula.exists_sentence_and_forall_read {e : Expr} (formula : e.Formula)
    (named : e.Everywhere fun head _ => ∀ binder, head = .binder binder → binder.bound ≠ []) :
    (∃ symbols, Sentence symbols e ∧ Spelled symbols) ∧
      ∀ symbols, Sentence symbols e → (Infix.toPostfix symbols >>= ofPostfix) = .ok e := by
  obtain ⟨symbols, phrase, spelled⟩ := formula.written named
  exact ⟨⟨symbols, ⟨false, phrase.loosen (Nat.zero_le 5)⟩, spelled⟩, fun _ => Sentence.read⟩

/-- For all `x` and `y`, if `P(x)` then the negation of `x` is `y`. -/
def complements : Expr :=
  let x : Variable := ⟨"x", 0, false, false⟩
  let y : Variable := ⟨"y", 1, false, false⟩
  .node (.binder ⟨.universal, [x, y]⟩)
    [.binary .implication (.node (.rel (.uninterpreted "P" 1)) [.ofVariable x])
      (.binary .equals (negate (.ofVariable x)) (.ofVariable y))]

/-- The symbols of `!!FORALL(x, y): P(x) => (!x) == y`. -/
def complementsSymbols : List Symbol :=
  let x : Symbol := .var ⟨"x", 0, false, false⟩
  let y : Symbol := .var ⟨"y", 1, false, false⟩
  [.op .not, .op .not, .quantifier .universal, .leftParen, x, .comma, y, .rightParen, .suchThat,
    .rel (.uninterpreted "P" 1), .leftParen, x, .rightParen, .op .implication, .leftParen, .op .not, x,
    .rightParen, .op .equals, y]

/-- The formula about complements has a sentence, and the symbols with two negations in front are
read as it. -/
theorem read_complementsSymbols :
    (∃ symbols, Sentence symbols complements ∧ Spelled symbols) ∧
      (Infix.toPostfix complementsSymbols >>= ofPostfix) = .ok complements := by
  have left : IsAtom (.node (.rel (.uninterpreted "P" 1)) [.ofVariable ⟨"x", 0, false, false⟩]) := by
    simp [IsAtom, node, ofVariable, leaf, Everywhere, EverywhereArgs, Symbol.Takes, Relation.arity,
      Relation.uninterpreted, Function.uninterpreted]
  have right : IsAtom (.binary .equals (negate (.ofVariable ⟨"x", 0, false, false⟩))
      (.ofVariable ⟨"y", 1, false, false⟩)) := by
    simp [IsAtom, binary, negate, node, ofVariable, leaf, Everywhere, EverywhereArgs, Symbol.Takes]
  have formula : complements.Formula := .quantified (.connective rfl (.atom left) (.atom right))
  have named : complements.Everywhere fun head _ => ∀ binder, head = .binder binder →
      binder.bound ≠ [] := by
    simp [complements, binary, negate, node, ofVariable, leaf, Everywhere, EverywhereArgs]
  have x : Symbol.isOperand (.var ⟨"x", 0, false, false⟩) := rfl
  have y : Symbol.isOperand (.var ⟨"y", 1, false, false⟩) := rfl
  have premise : Phrase 5 false [.rel (.uninterpreted "P" 1), .leftParen, .var ⟨"x", 0, false, false⟩,
      .rightParen] (.node (.rel (.uninterpreted "P" 1)) [.ofVariable ⟨"x", 0, false, false⟩]) :=
    .call rfl (.one ((Phrase.operand x).loosen (by decide))) (List.forall_mem_singleton.2 rfl)
  have conclusion := Phrase.joined .equation
    ((Phrase.group ((Phrase.negation (.operand x)).loosen (by decide))).loosen (by decide))
    (.operand y) (fun _ => ⟨rfl, rfl⟩)
  have body := (Phrase.joined .implication (premise.loosen (by decide))
    (conclusion.loosen (by decide)) fun compares => by cases compares).loosen (Nat.zero_le 1)
  have sentence : Sentence complementsSymbols complements :=
    ⟨true, (Phrase.negation (.negation (.quantified
      (.listed .universal ⟨"x", 0, false, false⟩ [⟨"y", 1, false, false⟩] .suchThat)
        body))).loosen (Nat.zero_le 5)⟩
  have both := formula.exists_sentence_and_forall_read named
  exact ⟨both.1, both.2 complementsSymbols sentence⟩

end Expr

end Refute
