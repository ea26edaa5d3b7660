import Mathlib.Data.List.TakeWhile
import Refute.Proofs.Scanning

/-!
# Tokens in print

Tokens are printed with a space after each but the last. A name or a literal is printed as it was
written, and every other token in one of the spellings of its symbol. None of them goes on past the
space that follows it, so a reader in the same state takes the same token from print. What a name is
taken for also depends on whether a parenthesis opens after it, and in print it does exactly if it
does in the text. So print leads the reader through the states that the text led it through, to the
same tokens.

What is printed for a variable has to be the name it was written with. This holds for the variables
that a text introduces and for those that a session binds.
-/

namespace Refute

/-! ### Sessions -/

/-- The sessions that come about by binding variables, by declaring names and by drawing numbers. -/
inductive Session.Reachable : Session → Prop
  | empty : Reachable .empty
  | freshVariable {session : Session} (reachable : Reachable session) (name : String) :
      Reachable (session.freshVariable name).2
  | bindVariable {session : Session} (reachable : Reachable session) (name : String) :
      Reachable (session.bindVariable name).2
  | unbind {session : Session} (reachable : Reachable session) (name : String) :
      Reachable (session.unbind name).2
  | systemVariable {session : Session} (reachable : Reachable session) (name : String)
      (universal : Bool) : Reachable (session.systemVariable name universal).2
  | freshSkolem {session : Session} (reachable : Reachable session) (arguments : List Variable) :
      Reachable (session.freshSkolem arguments).2
  | declareFunction {session : Session} (reachable : Reachable session) (f : Function) :
      Reachable (session.declareFunction f)
  | declareRelation {session : Session} (reachable : Reachable session) (r : Relation) :
      Reachable (session.declareRelation r)
  | declareConstant {session : Session} (reachable : Reachable session) (c : Constant) :
      Reachable (session.declareConstant c)

/-- Every variable of the list is printed as the name it is listed under. -/
def PrintsNames (entries : List (String × Variable)) : Prop :=
  ∀ entry ∈ entries, entry.2.render = entry.1

/-- Unbinding a name leaves the other variables as they are printed. -/
theorem PrintsNames.unbind {session : Session} (prints : PrintsNames session.bindings)
    (name : String) : PrintsNames (session.unbind name).2.bindings :=
  fun entry member => prints entry (List.mem_of_mem_eraseP member)

/-- Unbinding several names leaves the other variables as they are printed. -/
theorem PrintsNames.release {session : Session} (prints : PrintsNames session.bindings)
    (names : List String) : PrintsNames (Lexer.release session names).bindings := by
  induction names generalizing session with
  | nil => exact prints
  | cons name names ih => exact ih (prints.unbind name)

/-- The variable that is found under a name is printed as that name. -/
theorem PrintsNames.render_eq {entries : List (String × Variable)} (prints : PrintsNames entries)
    {name : String} {v : Variable}
    (found : (entries.find? (·.1 == name)).map (·.2) = some v) : v.render = name := by
  obtain ⟨entry, listed, rfl⟩ := Option.map_eq_some_iff.1 found
  have same := List.find?_some listed
  rw [prints entry (List.mem_of_find?_eq_some listed), beq_iff_eq.1 same]

/-- Every session that comes about prints its bound variables as they are named. -/
theorem Session.Reachable.printsNames {session : Session} (reachable : session.Reachable) :
    PrintsNames session.bindings := by
  induction reachable with
  | empty => exact List.forall_mem_nil _
  | bindVariable _ name ih => exact List.forall_mem_cons.2 ⟨rfl, ih⟩
  | unbind _ name ih => exact ih.unbind name
  | _ => assumption

/-- A declared name is printed for what it stands for. -/
theorem Session.render_of_lookup? {session : Session} {name : String} {symbol : Symbol}
    (found : session.lookup? name = some symbol) : symbol.render = name := by
  unfold lookup? at found
  split at found
  · rename_i relation
    obtain rfl := Option.some.inj found
    have same := List.find?_some relation
    exact beq_iff_eq.1 same
  · rename_i function
    obtain rfl := Option.some.inj found
    have same := List.find?_some function
    exact beq_iff_eq.1 same
  · rename_i constant
    obtain rfl := Option.some.inj found
    have same := List.find?_some constant
    exact beq_iff_eq.1 same
  · cases found

/-! ### Words and literals -/

/-- The text ends, or it goes on with a space. -/
def Text.Spaced (text : List Char) : Prop :=
  text = [] ∨ ∃ rest, text = ' ' :: rest

/-- A text that is spaced can only start with a space. -/
theorem Text.Spaced.head?_eq {text : List Char} (spaced : Spaced text) {c : Char}
    (first : c ∈ text.head?) : c = ' ' := by
  rcases spaced with rfl | ⟨rest, rfl⟩
  · cases first
  · exact (Option.some.inj first).symm

/-- What holds at the end of a text and in front of a space holds of every spaced text. -/
theorem Text.forall_spaced {P : List Char → Prop} (ends : P []) (goes : ∀ rest, P (' ' :: rest)) :
    ∀ text, Spaced text → P text := by
  rintro text (rfl | ⟨rest, rfl⟩)
  · exact ends
  · exact goes rest

namespace Lexeme

/-- What a word or a literal is written with. -/
def name? : Lexeme → Option String
  | .word name => some name
  | .symbol (.const constant) => some constant.name
  | .symbol _ => none

variable {lexicon : Lexicon} {offset : Nat} {c : Char} {rest text after : List Char}
variable {reading : Reading}

/-- The digits of a number as they are written. -/
def spell (whole : List Char) : Option (List Char) → List Char
  | none => whole
  | some digits => whole ++ '.' :: digits

/-- The digits before the point come first, and there are digits after the point if there is one. -/
theorem numeral_ok (text : List Char) :
    ∃ fraction, numeral text = (text.takeWhile Char.isDigit, fraction) ∧
      ∀ digits ∈ fraction, digits ≠ [] ∧ ∀ c ∈ digits, c.isDigit := by
  unfold numeral
  dsimp only
  split
  · split
    · exact ⟨none, rfl, fun _ none => by cases none⟩
    · rename_i nonempty
      refine ⟨some _, rfl, fun digits same => ?_⟩
      obtain rfl := Option.some.inj same
      exact ⟨nonempty, fun c member => List.mem_takeWhile_imp member⟩
  · exact ⟨none, rfl, fun _ none => by cases none⟩

/-- The digits of a number are found again in front of a space. -/
theorem numeral_spell {whole : List Char} {fraction : Option (List Char)}
    (areDigits : ∀ c ∈ whole, c.isDigit)
    (decimals : ∀ digits ∈ fraction, digits ≠ [] ∧ ∀ c ∈ digits, c.isDigit)
    (spaced : Text.Spaced after) : numeral (spell whole fraction ++ after) = (whole, fraction) := by
  have space : ∀ c ∈ after.head?, c.isDigit = false := by
    intro c first
    rw [spaced.head?_eq first]
    decide
  unfold numeral
  cases fraction with
  | none =>
    obtain ⟨taken, left⟩ := takeWhile_append_of_stop areDigits space
    rw [spell, taken, left]
    rcases spaced with rfl | ⟨rest, rfl⟩ <;> rfl
  | some digits =>
    obtain ⟨nonempty, passes⟩ := decimals digits rfl
    have point : ∀ c ∈ ('.' :: (digits ++ after)).head?, c.isDigit = false := by
      intro c first
      obtain rfl := Option.some.inj first
      decide
    obtain ⟨taken, left⟩ := takeWhile_append_of_stop areDigits point
    obtain ⟨decimal, -⟩ := takeWhile_append_of_stop passes space
    rw [spell, List.append_assoc, List.cons_append, taken, left]
    simp only [decimal]

/-- A number is read with the value of its digits, and the text goes on behind them. -/
theorem readNumber_eq {whole : List Char} {fraction : Option (List Char)}
    (split : numeral text = (whole, fraction)) :
    readNumber text = (numeralValue? (spell whole fraction) fraction).elim
      (.error (.invalidNumber (String.ofList (spell whole fraction)))) fun value =>
        .ok ⟨.symbol (.const ⟨String.ofList (spell whole fraction), value⟩), spell whole fraction,
          text.drop (spell whole fraction).length⟩ := by
  unfold readNumber
  rw [split]
  cases fraction with
  | none =>
    simp only [spell]
    cases numeralValue? whole none <;> rfl
  | some digits =>
    simp only [spell]
    cases numeralValue? (whole ++ '.' :: digits) (some digits) <;> rfl

/-- A number is read again in front of a space. -/
theorem readNumber_again (done : readNumber (c :: rest) = .ok reading) (digit : c.isDigit) :
    ∃ others, reading.lexeme.name? = some (String.ofList (c :: others)) ∧
      ∀ after, Text.Spaced after →
        readNumber (c :: (others ++ after)) = .ok ⟨reading.lexeme, c :: others, after⟩ := by
  obtain ⟨fraction, split, decimals⟩ := numeral_ok (c :: rest)
  have areDigits : ∀ d ∈ (c :: rest).takeWhile Char.isDigit, d.isDigit :=
    fun d member => List.mem_takeWhile_imp member
  rw [List.takeWhile_cons_of_pos digit] at split areDigits
  obtain ⟨others, spelled⟩ :
      ∃ others, spell (c :: rest.takeWhile Char.isDigit) fraction = c :: others := by
    cases fraction <;> exact ⟨_, rfl⟩
  rw [readNumber_eq split, spelled] at done
  cases known : numeralValue? (c :: others) fraction with
  | none =>
    rw [known] at done
    cases done
  | some value =>
    rw [known] at done
    obtain rfl := Except.ok.inj done
    refine ⟨others, rfl, fun after spaced => ?_⟩
    have again := numeral_spell areDigits decimals spaced
    rw [spelled] at again
    rw [← List.cons_append, readNumber_eq again, spelled, known, List.drop_left]
    rfl

/-- A quoted text is read up to the next quotation mark. -/
theorem readQuoted_closed {body : List Char} (inside : ∀ c ∈ body, (c != '"') = true)
    (offset : Nat) (after : List Char) :
    readQuoted offset (body ++ '"' :: after) = .ok
      ⟨.symbol (.const ⟨String.ofList ('"' :: (body ++ ['"'])), .text (String.ofList body)⟩),
        '"' :: (body ++ ['"']), after⟩ := by
  have closes : ∀ c ∈ ('"' :: after).head?, (c != '"') = false := by
    intro c first
    obtain rfl := Option.some.inj first
    rfl
  obtain ⟨taken, -⟩ := takeWhile_append_of_stop inside closes
  unfold readQuoted
  dsimp only
  rw [taken, List.drop_left]

/-- A quoted text is read again in front of anything. -/
theorem readQuoted_again (done : readQuoted offset rest = .ok reading) :
    ∃ others, reading.lexeme.name? = some (String.ofList ('"' :: others)) ∧
      ∀ offset after,
        readQuoted offset (others ++ after) = .ok ⟨reading.lexeme, '"' :: others, after⟩ := by
  have inside : ∀ c ∈ rest.takeWhile (· != '"'), (c != '"') = true :=
    fun c member => List.mem_takeWhile_imp (p := (· != '"')) member
  have stops := List.head?_dropWhile_not (· != '"') rest
  have split := List.takeWhile_append_dropWhile (p := (· != '"')) (l := rest)
  generalize rest.takeWhile (· != '"') = body at inside split
  generalize rest.dropWhile (· != '"') = others at stops split
  subst split
  cases others with
  | nil =>
    have taken : body.takeWhile (· != '"') = body := List.takeWhile_eq_self_iff.2 inside
    unfold readQuoted at done
    dsimp only at done
    rw [List.append_nil, taken, List.drop_length] at done
    cases done
  | cons quote remaining =>
    obtain rfl : quote = '"' := by simpa using stops
    rw [readQuoted_closed inside] at done
    obtain rfl := Except.ok.inj done
    refine ⟨body ++ ['"'], rfl, fun offset after => ?_⟩
    rw [List.append_assoc]
    exact readQuoted_closed inside offset after

/-- A word or a literal is read again, as the same, in front of a space. All else is a mark. -/
theorem read_again (done : read lexicon offset c rest = .ok reading) :
    (∃ others, reading.lexeme.name? = some (String.ofList (c :: others)) ∧
      ∀ offset after, Text.Spaced after →
        read lexicon offset c (others ++ after) = .ok ⟨reading.lexeme, c :: others, after⟩) ∨
    ∃ mark ∈ lexicon.marks, mark.1.toList <+: c :: rest ∧ reading.lexeme = .symbol mark.2 := by
  unfold read at done ⊢
  split at done
  · rename_i starts
    obtain rfl := Except.ok.inj done
    refine .inl ⟨_, rfl, fun offset after spaced => ?_⟩
    have space : ∀ d ∈ after.head?, Text.continuesName d = false := by
      intro d first
      rw [spaced.head?_eq first]
      decide
    have name : ∀ d ∈ rest.takeWhile Text.continuesName, Text.continuesName d :=
      fun d member => List.mem_takeWhile_imp member
    obtain ⟨taken, left⟩ := takeWhile_append_of_stop name space
    rw [if_pos starts, taken, left]
  · rename_i starts
    simp only [if_neg starts]
    split at done
    · rename_i digit
      obtain ⟨others, name, again⟩ := readNumber_again done digit
      simp only [if_pos digit]
      exact .inl ⟨others, name, fun _ => again⟩
    · rename_i digit
      simp only [if_neg digit]
      split at done
      · rename_i quote
        obtain rfl := beq_iff_eq.1 quote
        obtain ⟨others, name, again⟩ := readQuoted_again done
        exact .inl ⟨others, name, fun offset after _ => again offset after⟩
      · split at done
        · rename_i mark meaning found
          obtain rfl := Except.ok.inj done
          have starts := List.find?_some found
          exact .inr ⟨_, List.mem_of_find?_eq_some found, List.isPrefixOf_iff_prefix.1 starts, rfl⟩
        · cases done

end Lexeme

/-! ### Reserved words and marks -/

/-- Operators, quantifiers and punctuation, which a lexicon spells. -/
def Symbol.isReserved : Symbol → Bool
  | .op _ => true
  | .quantifier _ => true
  | .leftParen => true
  | .rightParen => true
  | .comma => true
  | .suchThat => true
  | _ => false

namespace Lexicon

/-- The spelling is that of a reserved symbol, and it starts with an opening parenthesis exactly if
the symbol is printed so. -/
def isPrintable (spelling : Spelling) : Bool :=
  spelling.2.isReserved &&
    spelling.1.toList.head?.map (· == '(') == spelling.2.render.toList.head?.map (· == '(')

/-- All spellings of the standard lexicon are those of reserved symbols. -/
theorem isPrintable_standard : (standard.marks ++ standard.words).all isPrintable := by decide

end Lexicon

/-- What a reserved symbol is read from when it is printed. -/
def Symbol.printed : Symbol → Lexeme
  | .op .and => .word (Operator.render .and)
  | .op .or => .word (Operator.render .or)
  | .quantifier q => .word q.render
  | symbol => .symbol symbol

/-- A reserved symbol is read again from what is printed for it, whatever names mean. -/
theorem Symbol.read_render {symbol : Symbol} (reserved : symbol.isReserved) :
    ∃ first others, symbol.render.toList = first :: others ∧ Text.isBlank first = false ∧
      (∀ offset after, Text.Spaced after → Lexeme.read .standard offset first (others ++ after) =
        .ok ⟨symbol.printed, first :: others, after⟩) ∧
      ∀ (lexer : Lexer) after,
        lexer.symbolOf .standard after symbol.printed = .ok (symbol, lexer) := by
  cases symbol with
  | op o =>
    cases o <;>
      exact ⟨_, _, rfl, rfl, fun _ => Text.forall_spaced rfl fun _ => rfl, fun _ _ => rfl⟩
  | quantifier q =>
    cases q <;>
      exact ⟨_, _, rfl, rfl, fun _ => Text.forall_spaced rfl fun _ => rfl, fun _ _ => rfl⟩
  | leftParen | rightParen | comma | suchThat =>
    exact ⟨_, _, rfl, rfl, fun _ => Text.forall_spaced rfl fun _ => rfl, fun _ _ => rfl⟩
  | _ => cases reserved

namespace Lexer

variable {lexicon : Lexicon} {lexer resolved next last : Lexer} {symbol : Symbol}
variable {offset : Nat} {c : Char} {rest text : List Char}

/-! ### Steps -/

/-- The variables that a name can stand for are printed as that name. -/
structure Legible (lexer : Lexer) : Prop where
  /-- Bound variables are. -/
  bindings : PrintsNames lexer.session.bindings
  /-- Free variables are. -/
  free : PrintsNames lexer.free

/-- Settling what a word stands for keeps the variables legible. -/
theorem Legible.resolves (legible : lexer.Legible) (resolves : lexer.Resolves symbol resolved) :
    resolved.Legible := by
  cases resolves with
  | introduced name inside =>
    exact ⟨List.forall_mem_cons.2 ⟨rfl, legible.bindings⟩, legible.free⟩
  | new outside unbound unknown =>
    exact ⟨legible.bindings, List.forall_mem_cons.2 ⟨rfl, legible.free⟩⟩
  | _ => exact legible

/-- Taking a symbol keeps the variables legible. -/
theorem Legible.takes (legible : lexer.Legible) (takes : lexer.Takes symbol next) :
    next.Legible := by
  obtain ⟨resolved, resolves, accepted⟩ := takes
  obtain ⟨moved, advanced, same⟩ := bind_eq_ok_iff.1 accepted
  obtain rfl := Except.ok.inj same
  obtain ⟨-, free, names, released⟩ := released_of_advance advanced
  obtain ⟨bound, met⟩ := legible.resolves resolves
  exact ⟨released ▸ bound.release names, free ▸ met⟩

/-- A symbol that is known under a name is printed as that name. -/
theorem Legible.render_of_known? (legible : lexer.Legible) {name : String}
    (found : lexer.known? name = some symbol) : symbol.render = name := by
  unfold known? at found
  split at found
  · rename_i bound
    obtain rfl := Option.some.inj found
    exact legible.bindings.render_eq bound
  · rename_i declared
    obtain rfl := Option.some.inj found
    exact Session.render_of_lookup? declared
  · obtain ⟨v, met, rfl⟩ := Option.map_eq_some_iff.1 found
    exact legible.free.render_eq met

/-- What a name stands for is printed as the name, unless the name is reserved. -/
theorem Legible.render_of_resolve (legible : lexer.Legible) {name : String}
    (done : lexer.resolve lexicon name rest = .ok (symbol, resolved)) :
    ((name, symbol) ∈ lexicon.words ∧ resolved = lexer) ∨ symbol.render = name := by
  unfold resolve at done
  split at done
  · rename_i reserved
    obtain ⟨rfl, rfl⟩ := Prod.mk.inj (Except.ok.inj done)
    obtain ⟨entry, listed, rfl⟩ := Option.map_eq_some_iff.1 reserved
    have same := List.find?_some listed
    obtain rfl := beq_iff_eq.1 same
    exact .inl ⟨List.mem_of_find?_eq_some listed, rfl⟩
  · refine .inr ?_
    split at done
    · obtain ⟨rfl, -⟩ := Prod.mk.inj (Except.ok.inj done)
      rfl
    · split at done
      · rename_i found
        obtain ⟨rfl, -⟩ := Prod.mk.inj (Except.ok.inj done)
        exact legible.render_of_known? found
      · split at done
        · cases done
        · obtain ⟨rfl, -⟩ := Prod.mk.inj (Except.ok.inj done)
          rfl

/-- A word is reserved, or its symbol is printed as the word. -/
theorem Legible.render_of_symbolOf (legible : lexer.Legible) {lexeme : Lexeme} {name : String}
    (written : lexeme.name? = some name)
    (done : lexer.symbolOf lexicon rest lexeme = .ok (symbol, resolved)) :
    ((name, symbol) ∈ lexicon.words ∧ resolved = lexer) ∨ symbol.render = name := by
  cases lexeme with
  | word word =>
    obtain rfl := Option.some.inj written
    exact legible.render_of_resolve done
  | symbol meaning =>
    cases meaning with
    | const constant =>
      obtain ⟨rfl, -⟩ := Prod.mk.inj (Except.ok.inj done)
      exact .inr (Option.some.inj written)
    | _ => cases written

/-- All that counts of the rest of a text is whether it opens a parenthesis. -/
theorem symbolOf_congr {lexeme : Lexeme} {after : List Char}
    (calls : startsCall after = startsCall rest) :
    lexer.symbolOf lexicon after lexeme = lexer.symbolOf lexicon rest lexeme := by
  cases lexeme with
  | word name =>
    unfold symbolOf resolve
    rw [calls]
  | symbol meaning => rfl

/-- What is printed for the symbol can stand for a token that starts with the given character: in
front of a space, the reader takes it for the symbol if the text after it calls as the given one. -/
def Rereads (lexer : Lexer) (symbol : Symbol) (resolved : Lexer) (c : Char) (rest : List Char) :
    Prop :=
  ∃ first others lexeme, symbol.render.toList = first :: others ∧ Text.isBlank first = false ∧
    (first == '(') = (c == '(') ∧
    ∀ offset after, Text.Spaced after → startsCall after = startsCall rest →
      Lexeme.read .standard offset first (others ++ after) = .ok ⟨lexeme, first :: others, after⟩ ∧
      lexer.symbolOf .standard after lexeme = .ok (symbol, resolved)

/-- A mark or a reserved word is printed in a spelling of its symbol. -/
theorem rereads_reserved {entry : Spelling}
    (listed : entry ∈ Lexicon.standard.marks ++ Lexicon.standard.words)
    (starts : entry.1.toList <+: c :: text) (rest : List Char) :
    lexer.Rereads entry.2 lexer c rest := by
  have printable := List.all_eq_true.1 Lexicon.isPrintable_standard entry listed
  obtain ⟨reserved, opens⟩ := Bool.and_eq_true_iff.1 printable
  obtain ⟨first, others, printed, blank, read, named⟩ := Symbol.read_render reserved
  refine ⟨first, others, _, printed, blank, ?_,
    fun offset after spaced _ => ⟨read offset after spaced, named lexer after⟩⟩
  have opens := beq_iff_eq.1 opens
  rw [printed] at opens
  cases spelled : entry.1.toList with
  | nil =>
    rw [spelled] at opens
    cases opens
  | cons d spelling =>
    rw [spelled] at opens starts
    obtain ⟨rfl, -⟩ := List.cons_prefix_cons.1 starts
    exact (Option.some.inj opens).symm

/-- Every token is read again from its print. -/
theorem Legible.rereads (legible : lexer.Legible) {reading : Lexeme.Reading}
    (blank : Text.isBlank c = false) (read : Lexeme.read .standard offset c rest = .ok reading)
    (named : lexer.symbolOf .standard reading.rest reading.lexeme = .ok (symbol, resolved)) :
    lexer.Rereads symbol resolved c reading.rest := by
  obtain ⟨others, written, again⟩ | ⟨mark, listed, starts, spelled⟩ := Lexeme.read_again read
  · obtain ⟨listed, rfl⟩ | printed := legible.render_of_symbolOf written named
    · have starts : (String.ofList (c :: others)).toList <+: c :: others := by simp
      exact rereads_reserved (List.mem_append_right _ listed) starts reading.rest
    · refine ⟨c, others, reading.lexeme, ?_, blank, rfl, fun offset after spaced calls =>
        ⟨again offset after spaced, (symbolOf_congr calls).trans named⟩⟩
      rw [printed, String.toList_ofList]
  · rw [spelled] at named
    obtain ⟨rfl, rfl⟩ := Prod.mk.inj (Except.ok.inj named)
    exact rereads_reserved (List.mem_append_left _ listed) starts reading.rest

/-- A token that was taken from a text is taken again from print, in the same state. -/
theorem Legible.step_again (legible : lexer.Legible) (blank : Text.isBlank c = false)
    {spelling remaining : List Char}
    (stepped : lexer.step .standard offset c rest = (.ok (spelling, remaining), next)) :
    ∃ symbol first others, lexer.Takes symbol next ∧ symbol.render.toList = first :: others ∧
      Text.isBlank first = false ∧ (first == '(') = (c == '(') ∧
      ∀ offset after, Text.Spaced after → startsCall after = startsCall remaining →
        lexer.step .standard offset first (others ++ after) =
          (.ok (first :: others, after), next) := by
  unfold step at stepped
  split at stepped
  · cases stepped
  · rename_i reading read
    split at stepped
    · cases stepped
    · rename_i symbol resolved named
      have resolves := resolves_of_read Lexicon.isFixed_standard read named
      obtain ⟨first, others, lexeme, printed, visible, opens, again⟩ :=
        legible.rereads blank read named
      split at stepped
      · cases stepped
      · rename_i accepted
        obtain ⟨same, rfl⟩ := Prod.mk.inj stepped
        obtain ⟨rfl, rfl⟩ := Prod.mk.inj (Except.ok.inj same)
        refine ⟨symbol, first, others, ⟨resolved, resolves, accepted⟩, printed, visible, opens, ?_⟩
        intro offset after spaced calls
        obtain ⟨reread, renamed⟩ := again offset after spaced calls
        unfold step
        simp only [reread, renamed, accepted]

/-! ### Texts -/

/-- Blanks in front do not matter for whether a parenthesis opens. -/
theorem startsCall_of_isBlank (blank : Text.isBlank c) :
    startsCall (c :: rest) = startsCall rest := by
  unfold startsCall Text.trimStart
  rw [List.dropWhile_cons_of_pos blank]

/-- The first character that is not blank tells whether a parenthesis opens. -/
theorem startsCall_of_not_isBlank (blank : Text.isBlank c = false) :
    startsCall (c :: rest) = (c == '(') := by
  unfold startsCall Text.trimStart
  rw [List.dropWhile_cons_of_neg (by rw [blank]; exact Bool.false_ne_true)]
  rfl

/-- What stands in print after a token that the given ones follow. -/
def printedAfter (symbols : List Symbol) : List Char :=
  if symbols.isEmpty then [] else ' ' :: (Symbol.renderAll symbols).toList

/-- The print of tokens is that of the first one and what stands after it. -/
theorem toList_renderAll_cons (symbol : Symbol) (symbols : List Symbol) :
    (Symbol.renderAll (symbol :: symbols)).toList =
      symbol.render.toList ++ printedAfter symbols := by
  unfold printedAfter Symbol.renderAll
  cases symbols with
  | nil => simp
  | cons other symbols => simp [String.toList_intercalate, List.intercalate]

/-- What stands in print after a token starts with a space. -/
theorem spaced_printedAfter (symbols : List Symbol) : Text.Spaced (printedAfter symbols) := by
  cases symbols with
  | nil => exact .inl rfl
  | cons symbol symbols => exact .inr ⟨_, rfl⟩

/-- The space in print does not hide a parenthesis. -/
theorem startsCall_printedAfter (symbols : List Symbol) :
    startsCall (printedAfter symbols) = startsCall (Symbol.renderAll symbols).toList := by
  cases symbols with
  | nil => rfl
  | cons symbol symbols => exact startsCall_of_isBlank rfl

/-- The print of the tokens leads the reader from a state to another. -/
def RereadsAll (lexer : Lexer) (symbols : List Symbol) (last : Lexer) : Prop :=
  ∀ fuel offset, (Symbol.renderAll symbols).toList.length ≤ fuel →
    scan .standard fuel lexer offset (Symbol.renderAll symbols).toList = (.ok (), last)

/-- Without tokens the reader stays in its state. -/
theorem rereadsAll_nil (lexer : Lexer) : lexer.RereadsAll [] lexer := by
  intro fuel offset _
  cases fuel <;> rfl

/-- The space in front of the tokens is passed over. -/
theorem RereadsAll.printedAfter {symbols : List Symbol} (rereads : lexer.RereadsAll symbols last)
    {fuel : Nat} (enough : (printedAfter symbols).length ≤ fuel) (offset : Nat) :
    scan .standard fuel lexer offset (printedAfter symbols) = (.ok (), last) := by
  cases symbols with
  | nil => exact rereads fuel offset enough
  | cons symbol symbols =>
    cases fuel with
    | zero => cases enough
    | succ fuel => exact rereads fuel _ (Nat.le_of_succ_le_succ enough)

/-- A token that is reread in front of others that are leads the reader through all of them. -/
theorem RereadsAll.cons {symbols : List Symbol} {first : Char} {others : List Char}
    (rereads : next.RereadsAll symbols last) (printed : symbol.render.toList = first :: others)
    (visible : Text.isBlank first = false)
    (step : ∀ offset, lexer.step .standard offset first (others ++ Lexer.printedAfter symbols) =
      (.ok (first :: others, Lexer.printedAfter symbols), next)) :
    lexer.RereadsAll (symbol :: symbols) last := by
  intro fuel offset enough
  rw [toList_renderAll_cons, printed, List.cons_append] at enough ⊢
  cases fuel with
  | zero => cases enough
  | succ fuel =>
    have fewer : (Lexer.printedAfter symbols).length ≤ fuel := by
      simp only [List.length_cons, List.length_append] at enough
      omega
    unfold scan
    simp only [visible, step, Bool.false_eq_true, if_false]
    exact rereads.printedAfter fewer _

/-- The tokens of a text are read again from their print. -/
theorem Legible.rereadsAll (legible : lexer.Legible) {fuel : Nat}
    (scanned : scan .standard fuel lexer offset text = (.ok (), last)) :
    ∃ symbols, last.tokens = symbols.reverse ++ lexer.tokens ∧
      startsCall (Symbol.renderAll symbols).toList = startsCall text ∧
      lexer.RereadsAll symbols last := by
  induction fuel generalizing lexer offset text with
  | zero =>
    cases text with
    | nil =>
      obtain ⟨-, rfl⟩ := Prod.mk.inj scanned
      exact ⟨[], rfl, rfl, rereadsAll_nil lexer⟩
    | cons c rest => cases scanned
  | succ fuel ih =>
    cases text with
    | nil =>
      obtain ⟨-, rfl⟩ := Prod.mk.inj scanned
      exact ⟨[], rfl, rfl, rereadsAll_nil lexer⟩
    | cons c rest =>
      unfold scan at scanned
      split at scanned
      · rename_i blank
        rw [startsCall_of_isBlank blank]
        exact ih legible scanned
      · rename_i blank
        have blank : Text.isBlank c = false := Bool.eq_false_iff.2 blank
        split at scanned
        · cases scanned
        · rename_i stepped
          obtain ⟨symbol, first, others, takes, printed, visible, opens, again⟩ :=
            legible.step_again blank stepped
          obtain ⟨symbols, tokens, calls, rereads⟩ := ih (legible.takes takes) scanned
          refine ⟨symbol :: symbols, ?_, ?_, rereads.cons printed visible fun offset => ?_⟩
          · rw [tokens, takes.tokens]
            simp
          · rw [toList_renderAll_cons, printed, List.cons_append, startsCall_of_not_isBlank visible,
              startsCall_of_not_isBlank blank, opens]
          · exact again offset _ (spaced_printedAfter symbols)
              ((startsCall_printedAfter symbols).trans calls)

end Lexer

/-- Tokens that were read from a text are read again from their print, in every session that comes
about, with the same variables, the same values of literals and the same session afterwards. -/
theorem Session.tokenize_renderAll {session : Session} (reachable : session.Reachable)
    {text : String} {tokens : List Symbol} (tokenized : (session.tokenize text).1 = .ok tokens) :
    session.tokenize (Symbol.renderAll tokens) = (.ok tokens, (session.tokenize text).2) := by
  unfold tokenize tokenizeWith at tokenized ⊢
  rcases scanned : Lexer.scan .standard (text.toList.length + 3) { session } 0 text.toList with
    ⟨result, last⟩
  simp only [scanned] at tokenized ⊢
  cases result with
  | error cause => cases tokenized
  | ok done =>
    obtain rfl := Except.ok.inj tokenized
    have legible : Lexer.Legible { session } := ⟨reachable.printsNames, List.forall_mem_nil _⟩
    obtain ⟨symbols, tokens, -, rereads⟩ := legible.rereadsAll scanned
    have same : last.tokens.reverse = symbols := by simpa using congrArg List.reverse tokens
    have again := rereads _ 0 (Nat.le_add_right _ 3)
    simp only [same, again]
    rfl

namespace Session

/-- A session that binds a name and declares a relation. -/
def declaring : Session :=
  (Session.empty.bindVariable "y").2.declareRelation ⟨.uninterpreted "P" 1⟩

/-- A text without needless spaces. -/
def dense : String := "FORALL x.(NOT P (x)&&y!=\"a b\")||z==07"

/-- Its tokens in that session. -/
def denseTokens : List Symbol :=
  [.quantifier .universal, .var ⟨"x", 1, false, false⟩, .suchThat, .leftParen, .op .not,
    .rel ⟨.uninterpreted "P" 1⟩, .leftParen, .var ⟨"x", 1, false, false⟩, .rightParen, .op .and,
    .var ⟨"y", 0, false, false⟩, .op .notEquals, .const ⟨"\"a b\"", .text "a b"⟩, .rightParen,
    .op .or, .var ⟨"z", 2, false, false⟩, .op .equals, .const ⟨"07", .integer 7⟩]

/-- A text without needless spaces and the print of its tokens are read as the same tokens. -/
theorem tokenize_renderAll_denseTokens :
    declaring.Reachable ∧ (declaring.tokenize dense).1 = .ok denseTokens ∧
      Symbol.renderAll denseTokens = "FORALL x : ( ! P ( x ) AND y != \"a b\" ) OR z == 07" ∧
      declaring.tokenize (Symbol.renderAll denseTokens) =
        (.ok denseTokens, (declaring.tokenize dense).2) := by
  have reachable : declaring.Reachable := (Reachable.empty.bindVariable "y").declareRelation _
  have tokenized : (declaring.tokenize dense).1 = .ok denseTokens := rfl
  exact ⟨reachable, tokenized, rfl, tokenize_renderAll reachable tokenized⟩

end Session

end Refute
