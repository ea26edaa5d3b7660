import Refute.Proofs.Infix

/-!
# Which sequences of infix symbols are sentences

The reader of infix symbols does not watch whether an operator stands between its operands: it only
counts, in the end, that every operator has found some. Where operands and operators alternate, a
sequence that it accepts is a sentence. The invariant of a run is that what has been read consists
of one beginning of a phrase for each entry of the stack, followed by a phrase if an operator is
due.
-/

namespace Refute

namespace Infix

/-- What has been read when an operand is due: one beginning of a phrase for each entry that waits,
with the results of the operands that are complete. -/
inductive Frames : List Pending → List Symbol → List Expr → Prop
  | start : Frames [] [] []
  | group {pending : List Pending} {read : List Symbol} {stack : List Expr}
      (outer : Frames pending read stack) (filled : Pending.fill pending = pending) (empty : Bool) :
      Frames (.group empty :: pending) (read ++ [.leftParen]) stack
  | call {pending : List Pending} {read : List Symbol} {stack : List Expr} {owner : Symbol}
      (outer : Frames pending read stack) (filled : Pending.fill pending = pending)
      (applied : owner.isApplication) (empty : Bool) :
      Frames (.call owner 0 empty :: pending) (read ++ [owner, .leftParen]) stack
  | argument {pending : List Pending} {read symbols : List Symbol} {stack args : List Expr}
      {owner : Symbol} (outer : Frames pending read stack)
      (filled : Pending.fill pending = pending) (applied : owner.isApplication)
      (listed : Separated (fun symbols e => Sentence symbols e) symbols args) (empty : Bool) :
      Frames (.call owner args.length empty :: pending)
        (read ++ owner :: .leftParen :: (symbols ++ [.comma])) (args.reverse ++ stack)
  | negation {pending : List Pending} {read : List Symbol} {stack : List Expr}
      (outer : Frames pending read stack) :
      Frames (.operator .not :: pending) (read ++ [.op .not]) stack
  | joined {pending : List Pending} {read before : List Symbol} {stack : List Expr}
      {operator : Operator} {level : Nat} {l : Expr} (outer : Frames pending read stack)
      (binds : operator.Binds level) (left : Phrase level false before l)
      (guarded : Pending.Guarded level pending) :
      Frames (.operator operator :: pending) (read ++ (before ++ [.op operator])) (l :: stack)
  | scope {pending : List Pending} {read front : List Symbol} {stack : List Expr} {binder : Binder}
      (outer : Frames pending read stack) (heading : Heading front binder) :
      Frames (.scope binder :: pending) (read ++ front) stack

/-- Beginnings of phrases stay so when the innermost group is no longer empty. -/
theorem Frames.fill {pending : List Pending} {read : List Symbol} {stack : List Expr}
    (frames : Frames pending read stack) : Frames (Pending.fill pending) read stack := by
  induction frames with
  | start => exact .start
  | group outer filled => exact .group outer filled false
  | call outer filled applied => exact .call outer filled applied false
  | argument outer filled applied listed => exact .argument outer filled applied listed false
  | negation outer ih => exact .negation ih
  | joined outer binds left guarded ih => exact .joined ih binds left guarded.fill
  | scope outer heading ih => exact .scope ih heading

/-- What has been read when an operator is due: frames and a phrase, which the top of the stack lets
grow to its level. -/
structure Ending (pending : List Pending) (read : List Symbol) (results : List Expr) (level : Nat)
    (unclosed : Bool) : Prop where
  bounded : level ≤ 5
  guarded : Pending.Guarded level pending
  splits : ∃ before symbols stack e, read = before ++ symbols ∧ results = e :: stack ∧
    Frames pending before stack ∧ Phrase level unclosed symbols e

/-- An operand after beginnings of phrases is a phrase at the tightest level. -/
theorem Ending.operand {pending : List Pending} {read symbols : List Symbol} {stack : List Expr}
    {e : Expr} (frames : Frames pending read stack) (phrase : Phrase 5 false symbols e) :
    Ending pending (read ++ symbols) (e :: stack) 5 false :=
  ⟨Nat.le_refl 5, Pending.guarded_five pending, read, symbols, stack, e, rfl, rfl, frames, phrase⟩

/-- What leaves the stack becomes part of the phrase. -/
theorem Ending.pop {entry : Pending} {pending : List Pending} {read : List Symbol}
    {results next : List Expr} {level : Nat} {unclosed : Bool} {symbol : Symbol}
    (ending : Ending (entry :: pending) read results level unclosed)
    (goes : entry.symbol? = some symbol) (pushed : Expr.pushSymbol results symbol = .ok next) :
    ∃ level' unclosed', Ending pending read next level' unclosed' ∧
      ∀ operator, entry = .operator operator →
        level' = operator.precedence ∧ unclosed' = unclosed := by
  obtain ⟨bounded, guarded, before, symbols, stack, e, rfl, rfl, frames, phrase⟩ := ending
  cases frames with
  | group => cases goes
  | call => cases goes
  | argument => cases goes
  | negation outer =>
    -- Negation leaves before every operator, so only a phrase of its own level can stand above it.
    have tight : level = 5 := by
      by_cases loose : level ≤ 4
      · have stays := guarded loose _ rfl
        have leaves : Pending.yieldsTo level (.operator .not) = true :=
          decide_eq_true (Nat.le_succ_of_le loose)
        rw [leaves] at stays
        cases stays
      · omega
    subst tight
    cases goes
    cases pushed
    refine ⟨5, unclosed, ⟨Nat.le_refl 5, Pending.guarded_five _, _, .op .not :: symbols, stack,
      e.negate, ?_, rfl, outer, .negation phrase⟩, ?_⟩
    · rw [List.append_assoc]
      rfl
    · rintro operator same
      cases same
      exact ⟨rfl, rfl⟩
  | @joined _ read before stack operator own l outer binds left below =>
    have same := binds.precedence
    have tighter : own + 1 ≤ level := by
      by_cases loose : level ≤ 4
      · have stays := guarded loose _ rfl
        have above : ¬ level ≤ operator.precedence := of_decide_eq_false stays
        omega
      · omega
    cases goes
    obtain ⟨atomic, rfl⟩ := (Expr.pushSymbol_operator binds).1 pushed
    refine ⟨own, unclosed, ⟨by omega, below, read, before ++ .op operator :: symbols, stack,
      .binary operator l e, ?_, rfl, outer, .joined binds left (phrase.loosen tighter) atomic⟩, ?_⟩
    · simp only [List.append_assoc, List.singleton_append]
    · rintro other equal
      cases equal
      exact ⟨same.1.symm, rfl⟩
  | @scope _ read front stack binder outer heading =>
    cases goes
    rw [Expr.pushSymbol_binder] at pushed
    cases pushed
    refine ⟨5, true, ⟨Nat.le_refl 5, Pending.guarded_five _, read, front ++ symbols, stack, _, ?_, rfl,
      outer, .quantified heading (phrase.loosen (Nat.zero_le level))⟩, nofun⟩
    rw [List.append_assoc]

/-- A phrase grows to a looser level if the top of the stack lets it. -/
theorem Ending.loosen {pending : List Pending} {read : List Symbol} {results : List Expr}
    {level looser : Nat} {unclosed : Bool} (ending : Ending pending read results level unclosed)
    (le : looser ≤ level) (guarded : Pending.Guarded looser pending) :
    Ending pending read results looser unclosed := by
  obtain ⟨bounded, -, before, symbols, stack, e, split, top, frames, phrase⟩ := ending
  exact ⟨Nat.le_trans le bounded, guarded, before, symbols, stack, e, split, top, frames,
    phrase.loosen le⟩

/-- What leaves before an operator makes the phrase its left operand. -/
theorem Ending.flush_operators {pending : List Pending} {read : List Symbol}
    {results next : List Expr} {level above : Nat} (le : level ≤ above)
    (ending : Ending pending read results above false)
    (pushed : ((pending.takeWhile (Pending.yieldsTo level)).filterMap Pending.symbol?).foldlM
      Expr.pushSymbol results = .ok next) :
    Ending (pending.dropWhile (Pending.yieldsTo level)) read next level false := by
  induction pending generalizing results above with
  | nil =>
    cases pushed
    exact ending.loosen le fun _ _ top => by cases top
  | cons entry pending ih =>
    by_cases leaves : entry.yieldsTo level
    · simp only [List.takeWhile_cons, List.dropWhile_cons, leaves, ↓reduceIte] at pushed ⊢
      cases entry with
      | operator operator =>
        obtain ⟨middle, first, rest⟩ := bind_eq_ok_iff.1 pushed
        obtain ⟨level', unclosed', popped, known⟩ := ending.pop rfl first
        obtain ⟨rfl, rfl⟩ := known operator rfl
        exact ih (of_decide_eq_true leaves) popped rest
      | _ => cases leaves
    · simp only [List.takeWhile_cons, List.dropWhile_cons, leaves] at pushed ⊢
      cases pushed
      refine ending.loosen le fun _ _ top => ?_
      cases top
      exact Bool.eq_false_iff.2 leaves

/-- What leaves when a group ends makes the phrase all that the group holds. -/
theorem Ending.flush_group {pending : List Pending} {read : List Symbol} {results next : List Expr}
    {level : Nat} {unclosed : Bool} (ending : Ending pending read results level unclosed)
    (pushed : ((pending.takeWhile fun entry => !entry.isOpen).filterMap Pending.symbol?).foldlM
      Expr.pushSymbol results = .ok next) :
    ∃ unclosed', Ending (pending.dropWhile fun entry => !entry.isOpen) read next 0 unclosed' := by
  induction pending generalizing results level unclosed with
  | nil =>
    cases pushed
    exact ⟨unclosed, ending.loosen (Nat.zero_le level) fun _ _ top => by cases top⟩
  | cons entry pending ih =>
    cases goes : entry.symbol? with
    | some symbol =>
      simp only [List.takeWhile_cons, List.dropWhile_cons, Pending.isOpen, goes, Option.isNone_some,
        Bool.not_false, ↓reduceIte, List.filterMap_cons] at pushed ⊢
      obtain ⟨middle, first, rest⟩ := bind_eq_ok_iff.1 pushed
      obtain ⟨level', unclosed', popped, -⟩ := ending.pop goes first
      exact ih popped rest
    | none =>
      simp only [List.takeWhile_cons, List.dropWhile_cons, Pending.isOpen, goes, Option.isNone_none,
        Bool.not_true] at pushed ⊢
      cases pushed
      refine ⟨unclosed, ending.loosen (Nat.zero_le level) fun _ _ top => ?_⟩
      cases top
      cases entry <;> first | rfl | cases goes

/-- How far a run has come: what is due is what the reader waits for, and what it has read are
frames, followed by a part of a heading or by a phrase. -/
inductive Progress : Infix → Turn → List Symbol → Prop
  | operand {output read : List Symbol} {pending : List Pending} {stack : List Expr}
      (runs : output.foldlM Expr.pushSymbol [] = .ok stack) (frames : Frames pending read stack) :
      Progress ⟨output, pending, .nothing⟩ .operand read
  | argument {output read : List Symbol} {pending : List Pending} {stack : List Expr}
      {owner : Symbol} (runs : output.foldlM Expr.pushSymbol [] = .ok stack)
      (frames : Frames pending read stack) (filled : Pending.fill pending = pending)
      (applied : owner.isApplication) :
      Progress ⟨output, .call owner 0 true :: pending, .nothing⟩ .argument
        (read ++ [owner, .leftParen])
  | operator {output read symbols : List Symbol} {pending : List Pending} {stack : List Expr}
      {e : Expr} (runs : output.foldlM Expr.pushSymbol [] = .ok (e :: stack))
      (frames : Frames pending read stack) (filled : Pending.fill pending = pending)
      (phrase : Phrase 5 false symbols e) :
      Progress ⟨output, pending, .nothing⟩ .operator (read ++ symbols)
  | call {output read : List Symbol} {pending : List Pending} {stack : List Expr} {owner : Symbol}
      (runs : output.foldlM Expr.pushSymbol [] = .ok stack) (frames : Frames pending read stack)
      (filled : Pending.fill pending = pending) (applied : owner.isApplication) :
      Progress ⟨output, pending, .arguments owner⟩ .call (read ++ [owner])
  | header {output read : List Symbol} {pending : List Pending} {stack : List Expr}
      {quantifier : Quantifier} (runs : output.foldlM Expr.pushSymbol [] = .ok stack)
      (frames : Frames pending read stack) :
      Progress ⟨output, pending, .header quantifier⟩ .header (read ++ [.quantifier quantifier])
  | listed {output read : List Symbol} {pending : List Pending} {stack : List Expr}
      {quantifier : Quantifier} (runs : output.foldlM Expr.pushSymbol [] = .ok stack)
      (frames : Frames pending read stack) :
      Progress ⟨output, pending, .listed quantifier []⟩ .listed
        (read ++ [.quantifier quantifier, .leftParen])
  | relisted {output read : List Symbol} {pending : List Pending} {stack : List Expr}
      {quantifier : Quantifier} {first : Variable} {others : List Variable}
      (runs : output.foldlM Expr.pushSymbol [] = .ok stack) (frames : Frames pending read stack) :
      Progress ⟨output, pending, .listed quantifier (first :: others)⟩ .listed
        (read ++ .quantifier quantifier :: .leftParen :: (listing first others ++ [.comma]))
  | delimiter {output read : List Symbol} {pending : List Pending} {stack : List Expr}
      {quantifier : Quantifier} {first : Variable} {others : List Variable}
      (runs : output.foldlM Expr.pushSymbol [] = .ok stack) (frames : Frames pending read stack) :
      Progress ⟨output, pending, .delimiter quantifier (first :: others)⟩ .delimiter
        (read ++ .quantifier quantifier :: .leftParen :: listing first others)
  | body {output read front : List Symbol} {pending : List Pending} {stack : List Expr}
      {binder : Binder} (runs : output.foldlM Expr.pushSymbol [] = .ok stack)
      (frames : Frames pending read stack)
      (heading : ∀ {mark}, Mark mark → Heading (front ++ mark) binder) :
      Progress ⟨output, .scope binder :: pending, .body⟩ .body (read ++ front)

variable {output read : List Symbol} {pending : List Pending} {stack : List Expr} {next : Infix}
  {symbol : Symbol} {due : Turn}

/-- Where an operand is due, a symbol that begins one is read. -/
theorem Progress.opening (runs : output.foldlM Expr.pushSymbol [] = .ok stack)
    (frames : Frames pending read stack) (opens : Turn.opening symbol = some due)
    (done : step ⟨output, pending, .nothing⟩ symbol = .ok next) :
    Progress next due (read ++ [symbol]) := by
  have filled := Pending.fill_fill pending
  have operand : symbol.isOperand →
      Progress ⟨output ++ [symbol], Pending.fill pending, .nothing⟩ .operator (read ++ [symbol]) := by
    intro stands
    refine .operator ?_ frames.fill filled (.operand stands)
    rw [foldlM_append_of_ok runs, List.foldlM_cons, Expr.pushSymbol_operand stands]
    rfl
  cases symbol with
  | var v =>
    cases opens
    cases done
    exact operand rfl
  | const c =>
    cases opens
    cases done
    exact operand rfl
  | skolem s =>
    cases opens
    cases done
    exact operand rfl
  | fn f =>
    cases opens
    cases done
    exact .call runs frames.fill filled rfl
  | rel r =>
    cases opens
    cases done
    exact .call runs frames.fill filled rfl
  | leftParen =>
    cases opens
    cases done
    exact .operand runs (.group frames.fill filled true)
  | op operator =>
    cases operator <;> cases opens
    cases done
    exact .operand runs (.negation frames.fill)
  | binder b =>
    cases opens
    cases done
    exact .operand runs (.scope frames.fill (.read b))
  | quantifier q =>
    cases opens
    cases done
    exact .header runs frames.fill
  | _ => cases opens

/-- An application goes out only with as many arguments as it takes. -/
theorem emitApplied_ok {state : Infix} {owner : Symbol} {found : Nat}
    (done : state.emitApplied owner found = .ok next) :
    owner.arity?.getD 0 = found ∧ next = state.emit owner := by
  unfold emitApplied at done
  dsimp only at done
  split at done
  · exact ⟨‹_›, (Except.ok.inj done).symm⟩
  · cases done

/-- A function or relation has the number of arguments that it is expected to have. -/
theorem arity?_eq_some {owner : Symbol} {count : Nat} (applied : owner.isApplication)
    (expected : owner.arity?.getD 0 = count) : owner.arity? = some count := by
  cases owner with
  | fn f => exact congrArg some expected
  | rel r => exact congrArg some expected
  | _ => cases applied

/-- Where the innermost group is not empty it stays so when what waits in it leaves. -/
theorem fill_dropWhile (filled : Pending.fill pending = pending) :
    Pending.fill (pending.dropWhile fun entry => !entry.isOpen) =
      pending.dropWhile fun entry => !entry.isOpen := by
  induction pending with
  | nil => rfl
  | cons entry pending ih =>
    cases entry with
    | operator o => exact ih (List.cons.inj filled).2
    | scope b => exact ih (List.cons.inj filled).2
    | _ => exact filled

/-- The arguments of a call up to the one that ends. -/
theorem Frames.arguments {owner : Symbol} {commas : Nat} {empty : Bool} {symbols : List Symbol}
    {e : Expr} (frames : Frames (.call owner commas empty :: pending) read stack)
    (last : Sentence symbols e) :
    ∃ before listed args below, read ++ symbols = before ++ owner :: .leftParen :: listed ∧
      e :: stack = args.reverse ++ below ∧ commas + 1 = args.length ∧
      Separated (fun symbols e => Sentence symbols e) listed args ∧ Frames pending before below ∧
      Pending.fill pending = pending ∧ owner.isApplication := by
  cases frames with
  | @call _ before _ _ outer filled applied =>
    refine ⟨before, symbols, [e], stack, ?_, rfl, rfl, .one last, outer, filled, applied⟩
    simp only [List.append_assoc, List.cons_append, List.nil_append]
  | @argument _ before earlier below args _ outer filled applied listed =>
    refine ⟨before, earlier ++ .comma :: symbols, args ++ [e], below, ?_, ?_, ?_, listed.more last,
      outer, filled, applied⟩
    · simp only [List.append_assoc, List.cons_append, List.nil_append]
    · simp only [List.reverse_append, List.reverse_singleton, List.cons_append, List.nil_append]
    · rw [List.length_append, List.length_singleton]

section Following

variable {symbols : List Symbol} {e : Expr}
  (runs : output.foldlM Expr.pushSymbol [] = .ok (e :: stack)) (frames : Frames pending read stack)
  (filled : Pending.fill pending = pending) (phrase : Phrase 5 false symbols e)
include runs frames phrase

/-- After an operand an operator has its left operand. -/
theorem Progress.joins {operator : Operator} {level : Nat} (binds : operator.Binds level)
    (filled : Pending.fill pending = pending)
    (done : step ⟨output, pending, .nothing⟩ (.op operator) = .ok next) {results : List Expr}
    (accepted : next.output.foldlM Expr.pushSymbol [] = .ok results) :
    Progress next .operand (read ++ symbols ++ [.op operator]) := by
  have opened : step ⟨output, pending, .nothing⟩ (.op operator) = .ok ((flushWhile
      (Pending.yieldsTo level) ⟨output, Pending.fill pending, .nothing⟩).suspend
        (.operator operator)) := by
    cases binds <;> rfl
  rw [opened, filled] at done
  cases done
  have pushed := (foldlM_append_of_ok runs _).symm.trans accepted
  obtain ⟨-, guarded, before, left, below, l, split, rfl, outer, leftPhrase⟩ :=
    (Ending.operand frames phrase).flush_operators (Nat.le_succ_of_le binds.precedence.2) pushed
  rw [split, List.append_assoc]
  exact .operand accepted (.joined outer binds leftPhrase guarded)

/-- After an operand a comma ends an argument. -/
theorem Progress.separates (done : readComma ⟨output, pending, .nothing⟩ = .ok next)
    {results : List Expr} (accepted : next.output.foldlM Expr.pushSymbol [] = .ok results) :
    Progress next .operand (read ++ symbols ++ [.comma]) := by
  unfold readComma at done
  dsimp only [flushGroup, flushWhile] at done
  split at done
  · rename_i owner commas empty rest top
    split at done
    · cases done
    · cases done
      have pushed := (foldlM_append_of_ok runs _).symm.trans accepted
      obtain ⟨unclosed, -, -, before, last, below, l, split, rfl, inner, lastPhrase⟩ :=
        (Ending.operand frames phrase).flush_group pushed
      rw [top] at inner
      obtain ⟨outerRead, listed, args, outerStack, splitArgs, stacked, count, separated, outer,
        filled, applied⟩ := inner.arguments ⟨unclosed, lastPhrase⟩
      rw [split, splitArgs, List.append_assoc]
      rw [stacked] at accepted
      exact .operand accepted (count ▸ .argument outer filled applied separated true)
  · cases done

/-- After an operand a parenthesis ends a group or an argument list. -/
theorem Progress.closes (filled : Pending.fill pending = pending)
    (done : readClose ⟨output, pending, .nothing⟩ = .ok next) {results : List Expr}
    (accepted : next.output.foldlM Expr.pushSymbol [] = .ok results) :
    Progress next .operator (read ++ symbols ++ [.rightParen]) := by
  have ending := Ending.operand frames phrase
  unfold readClose at done
  dsimp only [flushGroup, flushWhile] at done
  split at done
  · rename_i empty rest top
    split at done
    · cases done
    · cases done
      have pushed := (foldlM_append_of_ok runs _).symm.trans accepted
      obtain ⟨unclosed, -, -, before, inside, below, l, split, rfl, inner, insidePhrase⟩ :=
        ending.flush_group pushed
      rw [top] at inner
      cases inner with
      | group outer filled =>
        rw [split, List.append_assoc, List.append_assoc]
        exact .operator accepted outer filled (.group insidePhrase)
  · rename_i owner commas empty rest top
    have full : empty = false := by
      have kept := fill_dropWhile filled
      rw [top] at kept
      injection kept with same
      injection same with _ _ same
      exact same.symm
    subst full
    simp only [Bool.false_and, Bool.false_eq_true, ↓reduceIte] at done
    obtain ⟨expected, rfl⟩ := emitApplied_ok done
    obtain ⟨middle, before, last⟩ := bind_eq_ok_iff.1 (List.foldlM_append.symm.trans accepted)
    have pushed := (foldlM_append_of_ok runs _).symm.trans before
    obtain ⟨unclosed, -, -, before, inside, below, l, split, rfl, inner, insidePhrase⟩ :=
      ending.flush_group pushed
    rw [top] at inner
    obtain ⟨outerRead, listed, args, outerStack, splitArgs, stacked, count, separated, outer,
      filled, applied⟩ := inner.arguments ⟨unclosed, insidePhrase⟩
    have arity : owner.arity? = some args.length := count ▸ arity?_eq_some applied expected
    obtain ⟨_, applies, same⟩ := bind_eq_ok_iff.1 last
    rw [stacked, Expr.pushSymbol_application arity] at applies
    obtain ⟨atomic, rfl⟩ := applies
    cases same
    have closed : Separated (fun symbols e => Phrase 0 false symbols e) listed args :=
      separated.imp fun _ arg member sentence =>
        sentence.elim fun _ phrase => phrase.closed_of_isAtomic (atomic arg member)
    rw [split, splitArgs, List.append_assoc]
    exact .operator accepted outer filled (.call arity closed atomic)
  · cases done

end Following

/-- Where an operator is due, a symbol that may follow an operand is read. -/
theorem Progress.following {symbols : List Symbol} {e : Expr}
    (runs : output.foldlM Expr.pushSymbol [] = .ok (e :: stack)) (frames : Frames pending read stack)
    (filled : Pending.fill pending = pending) (phrase : Phrase 5 false symbols e)
    (follows : Turn.following symbol = some due)
    (done : step ⟨output, pending, .nothing⟩ symbol = .ok next) {results : List Expr}
    (accepted : next.output.foldlM Expr.pushSymbol [] = .ok results) :
    Progress next due (read ++ symbols ++ [symbol]) := by
  cases symbol with
  | op operator =>
    cases operator <;> cases follows
    · exact .joins runs frames phrase .equation filled done accepted
    · exact .joins runs frames phrase .inequation filled done accepted
    · exact .joins runs frames phrase .conjunction filled done accepted
    · exact .joins runs frames phrase .disjunction filled done accepted
    · exact .joins runs frames phrase .implication filled done accepted
    · exact .joins runs frames phrase .biconditional filled done accepted
  | comma =>
    cases follows
    exact .separates runs frames phrase done accepted
  | rightParen =>
    cases follows
    exact .closes runs frames phrase filled done accepted
  | _ => cases follows

/-- A function or relation that no argument list follows stands alone. -/
theorem Progress.bare {owner : Symbol} (runs : output.foldlM Expr.pushSymbol [] = .ok stack)
    (applied : owner.isApplication) {state : Infix}
    (done : emitApplied ⟨output, pending, .nothing⟩ owner 0 = .ok state) :
    state = ⟨output ++ [owner], pending, .nothing⟩ ∧ Phrase 5 false [owner] (.leaf owner) ∧
      (output ++ [owner]).foldlM Expr.pushSymbol [] = .ok (.leaf owner :: stack) := by
  obtain ⟨expected, rfl⟩ := emitApplied_ok done
  have arity := arity?_eq_some applied expected
  refine ⟨rfl, .bare arity, ?_⟩
  rw [foldlM_append_of_ok runs, foldlM_pushSymbol_leaf arity]

/-- After the parenthesis of an argument list the list ends at once, or an argument begins. -/
theorem Progress.argued {owner : Symbol} (runs : output.foldlM Expr.pushSymbol [] = .ok stack)
    (frames : Frames pending read stack) (filled : Pending.fill pending = pending)
    (applied : owner.isApplication) (turns : Turn.next .argument symbol = some due)
    (done : Infix.step ⟨output, .call owner 0 true :: pending, .nothing⟩ symbol = .ok next) :
    Progress next due (read ++ [owner, .leftParen] ++ [symbol]) := by
  cases symbol with
  | rightParen =>
    cases turns
    have closed : Infix.step ⟨output, .call owner 0 true :: pending, .nothing⟩ .rightParen =
        emitApplied ⟨output, pending, .nothing⟩ owner 0 := by
      simp [Infix.step, readFree, readClose, flushGroup, flushWhile, Pending.isOpen, Pending.symbol?]
    rw [closed] at done
    obtain ⟨expected, rfl⟩ := emitApplied_ok done
    have arity := arity?_eq_some applied expected
    rw [List.append_assoc]
    refine .operator ?_ frames filled (.empty arity)
    exact (foldlM_append_of_ok runs _).trans (foldlM_pushSymbol_leaf arity stack)
  | _ => exact .opening runs (.call frames filled applied true) turns done

/-- After the variables of a quantifier comes a mark, or the body begins. -/
theorem Progress.headed {front : List Symbol} {binder : Binder}
    (runs : output.foldlM Expr.pushSymbol [] = .ok stack) (frames : Frames pending read stack)
    (heading : ∀ {mark}, Mark mark → Heading (front ++ mark) binder)
    (turns : Turn.next .body symbol = some due)
    (done : Infix.step ⟨output, .scope binder :: pending, .body⟩ symbol = .ok next) :
    Progress next due (read ++ front ++ [symbol]) := by
  have plain : Frames (.scope binder :: pending) (read ++ front) stack := by
    have bare := Frames.scope frames (heading .nothing)
    rwa [List.append_nil] at bare
  cases symbol with
  | comma =>
    cases turns
    cases done
    rw [List.append_assoc]
    exact .operand runs (.scope frames (heading .comma))
  | suchThat =>
    cases turns
    cases done
    rw [List.append_assoc]
    exact .operand runs (.scope frames (heading .suchThat))
  | _ => exact .opening runs plain turns done

/-- One symbol that is due is read. -/
theorem Progress.step {state : Infix} {turn : Turn} (progress : Progress state turn read)
    (turns : turn.next symbol = some due) (done : state.step symbol = .ok next)
    {results : List Expr} (accepted : next.output.foldlM Expr.pushSymbol [] = .ok results) :
    Progress next due (read ++ [symbol]) := by
  cases progress with
  | operand runs frames => exact .opening runs frames turns done
  | argument runs frames filled applied => exact .argued runs frames filled applied turns done
  | operator runs frames filled phrase =>
    exact .following runs frames filled phrase turns done accepted
  | @call output read pending stack owner runs frames filled applied =>
    cases symbol with
    | leftParen =>
      cases turns
      cases done
      rw [List.append_assoc]
      exact .argument runs frames filled applied
    | _ =>
      obtain ⟨state, sent, done⟩ := bind_eq_ok_iff.1 done
      obtain ⟨rfl, phrase, runs⟩ := Progress.bare runs applied sent
      exact .following runs frames filled phrase turns done accepted
  | header runs frames =>
    cases symbol with
    | var v =>
      cases turns
      cases done
      rw [List.append_assoc]
      exact .body runs frames fun between => .single _ v between
    | leftParen =>
      cases turns
      cases done
      rw [List.append_assoc]
      exact .listed runs frames
    | _ => cases turns
  | listed runs frames =>
    cases symbol with
    | var v =>
      cases turns
      cases done
      rw [List.append_assoc]
      exact .delimiter runs frames
    | _ => cases turns
  | @relisted _ read _ _ quantifier first others runs frames =>
    cases symbol with
    | var v =>
      cases turns
      cases done
      have extended : read ++ .quantifier quantifier :: .leftParen ::
          (listing first others ++ [.comma]) ++ [.var v] =
            read ++ .quantifier quantifier :: .leftParen :: listing first (others ++ [v]) := by
        simp [listing]
      rw [extended]
      exact .delimiter runs frames
    | _ => cases turns
  | delimiter runs frames =>
    cases symbol with
    | comma =>
      cases turns
      cases done
      rw [List.append_assoc]
      exact .relisted runs frames
    | rightParen =>
      cases turns
      cases done
      rw [List.append_assoc]
      refine .body runs frames fun between => ?_
      simpa using .listed _ _ _ between
    | _ => cases turns
  | body runs frames heading => exact .headed runs frames heading turns done

/-! ### Whole runs -/

/-- Sending out what waits adds to the output. -/
theorem output_flushWhile_append (test : Pending → Bool) (state : Infix) :
    state.output <+: (state.flushWhile test).output :=
  List.prefix_append _ _

/-- Sending out an application adds to the output. -/
theorem output_of_emitApplied {state : Infix} {owner : Symbol} {found : Nat}
    (done : state.emitApplied owner found = .ok next) : state.output <+: next.output := by
  obtain ⟨-, rfl⟩ := emitApplied_ok done
  exact List.prefix_append _ _

/-- What is out stays out. -/
theorem output_of_readFree {state : Infix} (done : state.readFree symbol = .ok next) :
    state.output <+: next.output := by
  have flushed := output_flushWhile_append (fun entry => !entry.isOpen) state
  cases symbol with
  | comma =>
    change readComma state = .ok next at done
    unfold readComma at done
    dsimp only at done
    split at done
    · split at done <;> cases done
      exact flushed
    · cases done
  | rightParen =>
    change readClose state = .ok next at done
    unfold readClose at done
    dsimp only at done
    split at done
    · split at done <;> cases done
      exact flushed
    · split at done
      · cases done
      · have sent := output_of_emitApplied done
        exact flushed.trans sent
    · cases done
  | op operator =>
    cases operator with
    | not =>
      cases done
      exact List.prefix_rfl
    | _ =>
      cases done
      exact List.prefix_append _ _
  | var v => cases done; exact List.prefix_append _ _
  | const c => cases done; exact List.prefix_append _ _
  | skolem s => cases done; exact List.prefix_append _ _
  | _ => cases done <;> exact List.prefix_rfl

/-- Reading a symbol only adds to the output. -/
theorem output_of_step {state : Infix} (done : state.step symbol = .ok next) :
    state.output <+: next.output := by
  obtain ⟨output, pending, awaited⟩ := state
  cases awaited with
  | nothing => exact output_of_readFree done
  | arguments owner =>
    cases symbol with
    | leftParen =>
      cases done
      exact List.prefix_rfl
    | _ =>
      obtain ⟨middle, sent, done⟩ := bind_eq_ok_iff.1 done
      exact (output_of_emitApplied sent).trans (output_of_readFree done)
  | body =>
    have skipped : step ⟨output, pending, .body⟩ symbol = .ok ⟨output, pending, .nothing⟩ ∨
        step ⟨output, pending, .body⟩ symbol = readFree ⟨output, pending, .nothing⟩ symbol := by
      cases symbol with
      | comma => exact .inl rfl
      | suchThat => exact .inl rfl
      | _ => exact .inr rfl
    rcases skipped with same | same <;> rw [same] at done
    · cases done
      exact List.prefix_rfl
    · have kept := output_of_readFree done
      exact kept
  | _ => cases symbol <;> cases done <;> exact List.prefix_rfl

/-- A run only adds to the output. -/
theorem output_of_run {state : Infix} {symbols : List Symbol}
    (run : symbols.foldlM step state = .ok next) : state.output <+: next.output :=
  foldlM_invariant (P := fun after => state.output <+: after.output)
    (fun _ _ _ before _ done => before.trans (output_of_step done)) List.prefix_rfl run

/-- A sequence of symbols that are due is read, as long as what goes out has results. -/
theorem Progress.run {state : Infix} {turn : Turn} {symbols : List Symbol}
    (progress : Progress state turn read) (turns : symbols.foldlM Turn.next turn = some due)
    (run : symbols.foldlM Infix.step state = .ok next) {results : List Expr}
    (accepted : next.output.foldlM Expr.pushSymbol [] = .ok results) :
    Progress next due (read ++ symbols) := by
  induction symbols generalizing state turn read with
  | nil =>
    cases run
    cases turns
    rwa [List.append_nil]
  | cons symbol symbols ih =>
    obtain ⟨middle, first, rest⟩ := bind_eq_ok_iff.1 run
    obtain ⟨between, firstTurn, restTurns⟩ := Option.bind_eq_some_iff.1 turns
    obtain ⟨later, same⟩ := output_of_run rest
    rw [← same] at accepted
    obtain ⟨early, acceptedEarly, -⟩ := bind_eq_ok_iff.1 (List.foldlM_append.symm.trans accepted)
    rw [same] at accepted
    have further := ih (progress.step firstTurn first acceptedEarly) restTurns rest
    rwa [List.append_assoc] at further

/-- At the end everything leaves, and nothing may be open. -/
theorem finish_ok {state : Infix} {sent : List Symbol} (finished : state.finish = .ok sent) :
    ∃ settled, state.settle = .ok settled ∧ settled.flushGroup.pending = [] ∧
      sent = settled.flushGroup.output := by
  unfold finish at finished
  obtain ⟨settled, done, closed⟩ := bind_eq_ok_iff.1 finished
  dsimp only at closed
  split at closed
  · exact ⟨settled, done, ‹_›, (Except.ok.inj closed).symm⟩
  · cases closed

/-- The end of a run only adds to the output. -/
theorem output_of_finish {state : Infix} {sent : List Symbol} (finished : state.finish = .ok sent) :
    state.output <+: sent := by
  obtain ⟨settled, done, -, rfl⟩ := finish_ok finished
  refine List.IsPrefix.trans ?_ (output_flushWhile_append _ settled)
  obtain ⟨output, pending, awaited⟩ := state
  cases awaited with
  | arguments owner => exact output_of_emitApplied done
  | _ => cases done <;> exact List.prefix_rfl

/-- What everything that leaves in the end makes of a phrase is a sentence. -/
theorem sentence_of_flushGroup {awaited : Awaited} {symbols : List Symbol} {last e : Expr}
    (runs : output.foldlM Expr.pushSymbol [] = .ok (last :: stack))
    (frames : Frames pending read stack) (phrase : Phrase 5 false symbols last)
    (closed : (flushGroup ⟨output, pending, awaited⟩).pending = [])
    (built : (flushGroup ⟨output, pending, awaited⟩).output.foldlM Expr.pushSymbol [] = .ok [e]) :
    Sentence (read ++ symbols) e := by
  have pushed := (foldlM_append_of_ok runs _).symm.trans built
  obtain ⟨unclosed, -, -, before, all, below, whole, split, top, outer, sentence⟩ :=
    (Ending.operand frames phrase).flush_group pushed
  have nothing : (pending.dropWhile fun entry => !entry.isOpen) = [] := closed
  rw [nothing] at outer
  cases outer
  cases top
  exact split ▸ ⟨unclosed, sentence⟩

/-- When the reader has come to the end, what it has read is a sentence. -/
theorem Progress.sentence {state : Infix} {turn : Turn} {sent : List Symbol} {e : Expr}
    (progress : Progress state turn read) (ended : turn.isFollowing)
    (finished : state.finish = .ok sent)
    (built : sent.foldlM Expr.pushSymbol [] = .ok [e]) : Sentence read e := by
  obtain ⟨settled, done, closed, rfl⟩ := finish_ok finished
  cases progress with
  | operator runs frames filled phrase =>
    cases done
    exact sentence_of_flushGroup runs frames phrase closed built
  | call runs frames filled applied =>
    obtain ⟨expected, rfl⟩ := emitApplied_ok done
    have arity := arity?_eq_some applied expected
    refine sentence_of_flushGroup ?_ frames (.bare arity) closed built
    exact (foldlM_append_of_ok runs _).trans (foldlM_pushSymbol_leaf arity _)
  | _ => cases ended

end Infix

/-- Symbols in suffix order that make an expression leave only it on the stack. -/
theorem Expr.foldlM_of_ofPostfix {symbols : List Symbol} {e : Expr}
    (read : ofPostfix symbols = .ok e) : symbols.foldlM pushSymbol [] = .ok [e] := by
  unfold ofPostfix at read
  obtain ⟨stack, run, checked⟩ := bind_eq_ok_iff.1 read
  split at checked
  · cases checked
  · cases checked
    exact run
  · cases checked

/-- The sentences of an expression are the sequences in which operands and operators alternate and
that are read as the expression. -/
theorem sentence_iff_alternating_and_read {symbols : List Symbol} {e : Expr} :
    Sentence symbols e ↔
      Alternating symbols ∧ (Infix.toPostfix symbols >>= Expr.ofPostfix) = .ok e := by
  refine ⟨fun sentence => ⟨sentence.alternating, sentence.read⟩, ?_⟩
  rintro ⟨⟨turn, turns, ended⟩, read⟩
  obtain ⟨sent, converted, built⟩ := bind_eq_ok_iff.1 read
  obtain ⟨last, run, finished⟩ := bind_eq_ok_iff.1 converted
  have results := Expr.foldlM_of_ofPostfix built
  obtain ⟨later, same⟩ := Infix.output_of_finish finished
  rw [← same] at results
  obtain ⟨early, accepted, -⟩ := bind_eq_ok_iff.1 (List.foldlM_append.symm.trans results)
  rw [same] at results
  have start : Infix.Progress {} .operand [] := .operand rfl .start
  exact (start.run turns run accepted).sentence ended finished results

/-- Not every sequence that is read is a sentence: an operator may also stand behind its
operands. -/
theorem exists_read_not_sentence :
    let a : Symbol := .var ⟨"a", 0, false, false⟩
    let b : Symbol := .var ⟨"b", 1, false, false⟩
    (Infix.toPostfix [a, b, .op .and] >>= Expr.ofPostfix) = .ok (.binary .and (.leaf a) (.leaf b)) ∧
      ∀ e, ¬ Sentence [a, b, .op .and] e := by
  refine ⟨rfl, fun e sentence => ?_⟩
  obtain ⟨turn, turns, -⟩ := sentence.alternating
  cases turns

end Refute
