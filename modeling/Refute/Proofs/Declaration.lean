import Mathlib.Data.List.Nodup
import Refute.Proofs.Directive

/-!
# Declared names

A line declares a constant, a function or a relation, or it declares nothing, and the line alone
tells which. A name is refused if it is declared already. So a session holds what the lines of a
file declare, each under a name of its own.

A reader that meets a declared name looks it up in the session and takes the symbol that was
declared, unless the name is a reserved word. Names are not checked against the reserved words when
they are declared. Such a declaration is held by the session, but no text refers to it.
-/

namespace Refute

/-- A constant, function or relation that is declared. -/
inductive Declaration where
  | constant (c : Constant)
  | function (f : Function)
  | relation (r : Relation)

namespace Declaration

/-- The name it is declared under. -/
def name : Declaration → String
  | constant c => c.name
  | function f => f.name
  | relation r => r.name

/-- The symbol that the name stands for. -/
def symbol : Declaration → Symbol
  | constant c => .const c
  | function f => .fn f
  | relation r => .rel r

end Declaration

/-! ### Sessions that hold declarations -/

namespace Session

variable {session : Session} {declaration : Declaration}

/-- The session with one more declaration. -/
def declare (session : Session) : Declaration → Session
  | .constant c => session.declareConstant c
  | .function f => session.declareFunction f
  | .relation r => session.declareRelation r

/-- A relation is looked for first, then a function, then a constant. -/
theorem lookup?_eq (session : Session) (name : String) : session.lookup? name =
    ((session.relation? name).map Symbol.rel).or
      (((session.function? name).map Symbol.fn).or ((session.constant? name).map Symbol.const)) := by
  unfold lookup?
  cases session.relation? name <;> cases session.function? name <;>
    cases session.constant? name <;> rfl

/-- A new declaration is found under its name. -/
theorem lookup?_declare_self (new : session.lookup? declaration.name = none) :
    (session.declare declaration).lookup? declaration.name = some declaration.symbol := by
  rw [lookup?_eq] at new ⊢
  simp only [Option.or_eq_none_iff, Option.map_eq_none_iff, relation?, function?] at new
  obtain ⟨noRelation, noFunction, -⟩ := new
  unfold relation? function? constant?
  cases declaration with
  | constant c =>
    simp only [Declaration.name] at noRelation noFunction
    simp [declare, declareConstant, Declaration.name, Declaration.symbol, noRelation, noFunction]
  | function f =>
    simp only [Declaration.name] at noRelation
    simp [declare, declareFunction, Declaration.name, Declaration.symbol, noRelation]
  | relation r => simp [declare, declareRelation, Declaration.name, Declaration.symbol]

/-- All other names stand for what they stood for. -/
theorem lookup?_declare_of_ne {name : String} (other : declaration.name ≠ name) :
    (session.declare declaration).lookup? name = session.lookup? name := by
  have different : ¬ (declaration.name == name) = true := by simpa using other
  rw [lookup?_eq, lookup?_eq]
  cases declaration with
  | constant c =>
    have skipped : (session.declareConstant c).constant? name = session.constant? name :=
      List.find?_cons_of_neg different
    rw [declare, skipped]
    rfl
  | function f =>
    have skipped : (session.declareFunction f).function? name = session.function? name :=
      List.find?_cons_of_neg different
    rw [declare, skipped]
    rfl
  | relation r =>
    have skipped : (session.declareRelation r).relation? name = session.relation? name :=
      List.find?_cons_of_neg different
    rw [declare, skipped]
    rfl

/-- The session binds no variable and knows the declarations and nothing else, each under a name of
its own. -/
structure Holds (session : Session) (declared : List Declaration) : Prop where
  unbound : session.bindings = []
  named : ∀ declaration ∈ declared, Problem.isName declaration.name.toList
  distinct : (declared.map Declaration.name).Nodup
  found : ∀ name, session.lookup? name =
    (declared.find? (·.name == name)).map Declaration.symbol

variable {next : Session} {declared : List Declaration}

/-- An empty session holds no declarations. -/
theorem holds_nil : empty.Holds [] :=
  ⟨rfl, List.forall_mem_nil _, List.nodup_nil, fun _ => rfl⟩

/-- Numbers of variables do not matter. -/
theorem Holds.lends (holds : session.Holds declared) (lends : session.Lends [] next) :
    next.Holds declared := by
  obtain ⟨entries, number, -, none, rfl⟩ := lends
  obtain rfl := List.map_eq_nil_iff.1 (List.nil_perm.1 none)
  exact ⟨holds.unbound, holds.named, holds.distinct, holds.found⟩

/-- A name that is new to the session is the name of no declaration. -/
theorem Holds.find?_eq_none (holds : session.Holds declared) {name : String}
    (new : session.lookup? name = none) : declared.find? (·.name == name) = none := by
  rw [holds.found] at new
  exact Option.map_eq_none_iff.1 new

/-- A new declaration comes to the others. -/
theorem Holds.declare (holds : session.Holds declared)
    (isName : Problem.isName declaration.name.toList)
    (new : session.lookup? declaration.name = none) :
    (session.declare declaration).Holds (declared ++ [declaration]) := by
  have unmet := holds.find?_eq_none new
  refine ⟨?_, ?_, ?_, fun name => ?_⟩
  · cases declaration <;> exact holds.unbound
  · exact List.forall_mem_append.2 ⟨holds.named, List.forall_mem_singleton.2 isName⟩
  · rw [List.map_append, List.map_singleton]
    refine holds.distinct.append (List.nodup_singleton _) (List.disjoint_singleton.2 fun member => ?_)
    obtain ⟨earlier, inside, same⟩ := List.mem_map.1 member
    exact List.find?_eq_none.1 unmet earlier inside (beq_iff_eq.2 same)
  · rw [List.find?_append]
    by_cases same : declaration.name = name
    · subst same
      rw [lookup?_declare_self new, unmet]
      simp
    · have different : ¬ (declaration.name == name) = true := by simpa using same
      rw [lookup?_declare_of_ne same, holds.found, List.find?_singleton, if_neg different,
        Option.or_none]

/-- What is declared is found under its name. -/
theorem Holds.lookup? (holds : session.Holds declared) (member : declaration ∈ declared) :
    session.lookup? declaration.name = some declaration.symbol := by
  rw [holds.found]
  cases known : declared.find? (·.name == declaration.name) with
  | none =>
    have different := List.find?_eq_none.1 known declaration member
    exact absurd (beq_self_eq_true declaration.name) different
  | some other =>
    have same := List.find?_some known
    have inside := List.mem_of_find?_eq_some known
    obtain rfl := List.inj_on_of_nodup_map holds.distinct inside member (beq_iff_eq.1 same)
    rfl

end Session

/-! ### Names alone -/

/-- No reserved word stands for something declared. -/
theorem Declaration.symbol_ne_of_word? (declaration : Declaration) {name : String} {symbol : Symbol}
    (reserved : Lexicon.standard.word? name = some symbol) : symbol ≠ declaration.symbol := by
  rintro rfl
  obtain ⟨word, listed, same⟩ := Option.map_eq_some_iff.1 reserved
  have printable := List.all_eq_true.1 Lexicon.isPrintable_standard word
    (List.mem_append_right _ (List.mem_of_find?_eq_some listed))
  have isReserved := (Bool.and_eq_true_iff.1 printable).1
  rw [same] at isReserved
  cases declaration <;> cases isReserved

/-- The text is read as a word when it is a name. -/
theorem Lexeme.read_name {c : Char} {rest : List Char} (isName : Problem.isName (c :: rest))
    (lexicon : Lexicon) (offset : Nat) :
    read lexicon offset c rest = .ok ⟨.word (String.ofList (c :: rest)), c :: rest, []⟩ := by
  obtain ⟨starts, continues⟩ := Bool.and_eq_true_iff.1 isName
  have continues := List.all_eq_true.1 continues
  unfold read
  rw [if_pos starts, List.takeWhile_eq_self_iff.2 continues, List.dropWhile_eq_nil_iff.2 continues]

/-- The symbol of a name at the start of a text: its reserved word, or else what is declared. -/
theorem Lexer.resolve_name {session : Session} {name : String} {symbol : Symbol}
    (unbound : session.bindings = []) (found : session.lookup? name = some symbol)
    (rest : List Char) : ({ session } : Lexer).resolve .standard name rest =
      .ok ((Lexicon.standard.word? name).getD symbol, { session }) := by
  have none : session.binding? name = none := by
    unfold Session.binding?
    rw [unbound]
    rfl
  unfold resolve
  cases Lexicon.standard.word? name with
  | some reserved => rfl
  | none =>
    have known : ({ session } : Lexer).known? name = some symbol := by
      unfold known?
      simp only [none, found]
    simp only [known]
    rfl

/-- Every symbol is accepted as the first token. -/
theorem Lexer.accept_first (session : Session) (symbol : Symbol) :
    ∃ next, ({ session } : Lexer).accept symbol = .ok next ∧ next.tokens = [symbol] := by
  refine ⟨_, rfl, ?_⟩
  cases symbol <;> rfl

/-- A declared name alone is one token. -/
theorem Session.tokenize_name {session : Session} {name : String} {symbol : Symbol}
    (isName : Problem.isName name.toList) (unbound : session.bindings = [])
    (found : session.lookup? name = some symbol) :
    (session.tokenize name).1 = .ok [(Lexicon.standard.word? name).getD symbol] := by
  obtain ⟨characters, rfl⟩ : ∃ characters, name = String.ofList characters :=
    ⟨name.toList, String.ofList_toList.symm⟩
  rw [String.toList_ofList] at isName
  rw [tokenize_ofList]
  rcases characters with _ | ⟨c, rest⟩
  · cases isName
  have starts := (Bool.and_eq_true_iff.1 isName).1
  have visible : ¬ Text.isBlank c = true := by
    intro blank
    have continues := Text.continuesName_of_startsName starts
    rw [Text.not_continuesName blank] at continues
    cases continues
  obtain ⟨next, accepted, tokens⟩ :=
    Lexer.accept_first session ((Lexicon.standard.word? (String.ofList (c :: rest))).getD symbol)
  have stepped : ({ session } : Lexer).step .standard 0 c rest = (.ok (c :: rest, []), next) := by
    unfold Lexer.step
    simp only [Lexeme.read_name isName, Lexer.symbolOf, Lexer.resolve_name unbound found, accepted]
  unfold Lexer.scan
  rw [if_neg visible]
  simp only [stepped, Lexer.scan, Except.map, tokens]
  rfl

/-! ### Files that declare names -/

namespace Problem

/-- The name and the value of a constant. -/
def readValue? (text : List Char) : Option (List Char × Value) :=
  match Text.cutAt? (· == '=') text with
  | none => some (text, .text (String.ofList text))
  | some (name, literal) => (readLiteral? (Text.trim literal)).map (Text.trim name, ·)

/-- What a directive declares. -/
def declaredBy? (keyword : String) (text : List Char) : Option Declaration :=
  match keyword with
  | "constant" => (readValue? text).map fun read => .constant ⟨String.ofList read.1, read.2⟩
  | "function" => (readDeclaration? text).map fun read =>
    .function (Function.uninterpreted (String.ofList read.1) read.2)
  | "relation" => (readDeclaration? text).map fun read =>
    .relation (Relation.uninterpreted (String.ofList read.1) read.2)
  | _ => none

/-- What a line declares. -/
def declared? (line : List Char) : Option Declaration :=
  declaredBy? (String.ofList (words (content line)).1) (words (content line)).2

/-- What the lines of a text declare, in order. -/
def declarations (text : String) : List Declaration :=
  (Text.lines text.toList).filterMap declared?

variable {problem next : Problem} {text : List Char} {declared : List Declaration}

/-- What is declared is a name, and one that the session does not know. -/
theorem requireNew_ok {name : List Char} (required : problem.requireNew name = .ok ()) :
    isName (String.ofList name).toList ∧ problem.session.lookup? (String.ofList name) = none := by
  unfold requireNew at required
  dsimp only at required
  split at required
  · cases required
  · rename_i isName
    split at required
    · cases required
    · rename_i new
      exact ⟨by simpa using isName, by simpa using new⟩

/-- A constant is declared under a new name with the value of its line. -/
theorem readConstant_ok (done : problem.readConstant text = .ok next) :
    ∃ name value, readValue? text = some (name, value) ∧
      isName (String.ofList name).toList ∧ problem.session.lookup? (String.ofList name) = none ∧
      next.session = problem.session.declareConstant ⟨String.ofList name, value⟩ := by
  have declared {name : List Char} {value : Value}
      (done : (problem.requireNew name >>= fun _ => .ok { problem with
        session := problem.session.declareConstant ⟨String.ofList name, value⟩ }) = .ok next) :
      isName (String.ofList name).toList ∧ problem.session.lookup? (String.ofList name) = none ∧
        next.session = problem.session.declareConstant ⟨String.ofList name, value⟩ := by
    obtain ⟨⟨⟩, required, same⟩ := bind_eq_ok_iff.1 done
    obtain ⟨isName, new⟩ := requireNew_ok required
    obtain rfl := Except.ok.inj same
    exact ⟨isName, new, rfl⟩
  unfold readConstant at done
  unfold readValue?
  cases cut : Text.cutAt? (· == '=') text with
  | none =>
    simp only [cut] at done
    exact ⟨_, _, rfl, declared done⟩
  | some parts =>
    obtain ⟨name, literal⟩ := parts
    simp only [cut] at done
    cases read : readLiteral? (Text.trim literal) with
    | none =>
      simp only [read] at done
      cases done
    | some value =>
      simp only [read] at done ⊢
      exact ⟨_, _, rfl, declared done⟩

/-- A function or relation is declared under a new name with the arity of its line. -/
theorem readSymbol_ok {found : String × Nat} (done : problem.readSymbol text = .ok found) :
    ∃ name, readDeclaration? text = some (name, found.2) ∧ found.1 = String.ofList name ∧
      isName found.1.toList ∧ problem.session.lookup? found.1 = none := by
  unfold readSymbol at done
  split at done
  · cases done
  · rename_i name arity read
    obtain ⟨⟨⟩, required, same⟩ := bind_eq_ok_iff.1 done
    obtain rfl := Except.ok.inj same
    exact ⟨name, read, rfl, requireNew_ok required⟩

/-- Reading a statement leaves the declarations and bindings of the session. -/
theorem lends_of_readStatement {keyword : String} {found : Statement × Problem}
    (done : problem.readStatement keyword text = .ok found) :
    problem.session.Lends [] found.2.session := by
  unfold readStatement at done
  split at done
  · cases done
  · have lends := Statement.lends_parse problem.session (String.ofList text)
    split at done
    · cases done
    · rename_i parsed
      rw [parsed] at lends
      obtain rfl := Except.ok.inj done
      exact lends

/-- A directive declares a new name, or it leaves the declarations alone. -/
theorem directive_cases {keyword : String} (done : problem.directive keyword text = .ok next) :
    (declaredBy? keyword text = none ∧ problem.session.Lends [] next.session) ∨
      ∃ declaration, declaredBy? keyword text = some declaration ∧
        isName declaration.name.toList ∧ problem.session.lookup? declaration.name = none ∧
        next.session = problem.session.declare declaration := by
  unfold directive at done
  split at done
  · obtain ⟨read, stated, same⟩ := bind_eq_ok_iff.1 done
    obtain rfl := Except.ok.inj same
    exact .inl ⟨rfl, lends_of_readStatement stated⟩
  · obtain ⟨read, stated, same⟩ := bind_eq_ok_iff.1 done
    obtain rfl := Except.ok.inj same
    exact .inl ⟨rfl, lends_of_readStatement stated⟩
  · obtain ⟨name, value, read, isName, new, same⟩ := readConstant_ok done
    refine .inr ⟨.constant ⟨String.ofList name, value⟩, ?_, isName, new, same⟩
    simp only [declaredBy?, read, Option.map_some]
  · obtain ⟨⟨spelled, arity⟩, declared, same⟩ := bind_eq_ok_iff.1 done
    obtain ⟨name, read, rfl, isName, new⟩ := readSymbol_ok declared
    obtain rfl := Except.ok.inj same
    refine .inr ⟨.function (Function.uninterpreted (String.ofList name) arity), ?_, isName, new, rfl⟩
    simp only [declaredBy?, read, Option.map_some]
  · obtain ⟨⟨spelled, arity⟩, declared, same⟩ := bind_eq_ok_iff.1 done
    obtain ⟨name, read, rfl, isName, new⟩ := readSymbol_ok declared
    obtain rfl := Except.ok.inj same
    refine .inr ⟨.relation (Relation.uninterpreted (String.ofList name) arity), ?_, isName, new, rfl⟩
    simp only [declaredBy?, read, Option.map_some]
  · split at done
    · cases done
    · obtain rfl := Except.ok.inj done
      exact .inl ⟨rfl, Session.lends_refl _⟩
  · cases done

/-- After a line the session holds what the line declares too. -/
theorem holds_of_readLine (holds : problem.session.Holds declared) {line : List Char × Nat}
    (done : problem.readLine line = .ok next) :
    next.session.Holds (declared ++ (declared? line.1).toList) := by
  unfold readLine at done
  unfold declared?
  split at done
  · rename_i blank
    obtain rfl := Except.ok.inj done
    rw [blank]
    exact (List.append_nil declared).symm ▸ holds
  · generalize words (content line.1) = split at done ⊢
    obtain ⟨keyword, rest⟩ := split
    dsimp only at done ⊢
    cases directed : problem.directive (String.ofList keyword) rest with
    | error fault =>
      rw [directed] at done
      cases done
    | ok found =>
      rw [directed] at done
      obtain rfl := Except.ok.inj done
      obtain ⟨none, lends⟩ | ⟨declaration, some, isName, new, same⟩ := directive_cases directed
      · rw [none]
        exact (List.append_nil declared).symm ▸ holds.lends lends
      · rw [some, same]
        exact holds.declare isName new

/-- After all lines the session holds what they declare. -/
theorem holds_of_lines {lines : List (List Char)} {number : Nat}
    (holds : problem.session.Holds declared)
    (run : (lines.zipIdx number).foldlM readLine problem = .ok next) :
    next.session.Holds (declared ++ lines.filterMap declared?) := by
  induction lines generalizing problem declared number with
  | nil =>
    obtain rfl := Except.ok.inj run
    exact (List.append_nil declared).symm ▸ holds
  | cons line lines ih =>
    rw [List.zipIdx_cons, List.foldlM_cons, bind_eq_ok_iff] at run
    obtain ⟨middle, done, run⟩ := run
    have later := ih (holds_of_readLine holds done) run
    rw [List.append_assoc] at later
    rw [List.filterMap_cons]
    cases found : declared? line <;> rw [found] at later <;> exact later

/-- The session of a file holds what its lines declare and nothing else. -/
theorem holds_of_parse {text : String} (parsed : parse text = .ok problem) :
    problem.session.Holds (declarations text) :=
  holds_of_lines Session.holds_nil parsed

/-- Every declaration of a file has a name of its own, under which the session holds it. The name
alone is read as one token. That is the declared symbol, unless the name is a reserved word. -/
theorem tokenize_declarations {text : String} (parsed : parse text = .ok problem) :
    ((declarations text).map Declaration.name).Nodup ∧
    (∀ name, problem.session.lookup? name =
      ((declarations text).find? (·.name == name)).map Declaration.symbol) ∧
    ∀ declaration ∈ declarations text,
      (problem.session.tokenize declaration.name).1 =
        .ok [(Lexicon.standard.word? declaration.name).getD declaration.symbol] ∧
      ((problem.session.tokenize declaration.name).1 = .ok [declaration.symbol] ↔
        Lexicon.standard.word? declaration.name = none) := by
  have holds := holds_of_parse parsed
  refine ⟨holds.distinct, holds.found, fun declaration member => ?_⟩
  have token := Session.tokenize_name (holds.named declaration member) holds.unbound
    (holds.lookup? member)
  refine ⟨token, ?_⟩
  rw [token]
  cases reserved : Lexicon.standard.word? declaration.name with
  | none => simp
  | some symbol => simpa using declaration.symbol_ne_of_word? reserved

/-- A file of all three kinds of declarations, with a statement between them. -/
def mixedText : String :=
  "function f(2)\nconstant a = 2.5\naxiom FORALL x: f(x, b) == a\n relation P (1) # unary\nconstant b"

/-- In a file with all kinds of declarations every declared name is read as its symbol. -/
theorem tokenize_declarations_mixed :
    ∃ problem, parse mixedText = .ok problem ∧
      (declarations mixedText).map Declaration.name = ["f", "a", "P", "b"] ∧
      ∀ declaration ∈ declarations mixedText,
        (problem.session.tokenize declaration.name).1 = .ok [declaration.symbol] := by
  obtain ⟨problem, parsed⟩ : ∃ problem, parse mixedText = .ok problem := ⟨_, rfl⟩
  have names : (declarations mixedText).map Declaration.name = ["f", "a", "P", "b"] := rfl
  have free : ∀ name ∈ ["f", "a", "P", "b"], Lexicon.standard.word? name = none := by decide
  refine ⟨problem, parsed, names, fun declaration member => ?_⟩
  have listed : declaration.name ∈ ["f", "a", "P", "b"] :=
    names ▸ List.mem_map_of_mem member
  exact ((tokenize_declarations parsed).2.2 declaration member).2.2 (free _ listed)

/-- A reserved word can be declared, but it is read as the reserved word. -/
theorem tokenize_declarations_reserved :
    ∃ problem, parse "relation NOT(1)" = .ok problem ∧
      declarations "relation NOT(1)" = [.relation (Relation.uninterpreted "NOT" 1)] ∧
      problem.session.lookup? "NOT" = some (.rel (Relation.uninterpreted "NOT" 1)) ∧
      (problem.session.tokenize "NOT").1 = .ok [.op .not] :=
  ⟨_, rfl, rfl, rfl, rfl⟩

end Problem

end Refute
