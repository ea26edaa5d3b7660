import Refute.Proofs.Infix
import Refute.Proofs.Naming
import Refute.Proofs.Scanning

/-!
# Scopes

The scope of a name is found twice. While a text is read, a header binds its names until the
parenthesis around it closes; in the expression, a quantifier binds its names in its body. For the
phrases of the grammar the two agree: while the symbols of a phrase are read, the bindings of the
session are the variables of the quantifiers around it. A phrase that ends with the body of a
quantifier leaves scopes open, at the depth it stands at, and the parenthesis that closes the group
around it closes them all.
-/

namespace Refute

namespace Lexer

variable {lexer next last : Lexer} {symbol : Symbol} {symbols : List Symbol}

/-! ### Single tokens -/

/-- A symbol that is the same in every session is taken as it is. -/
theorem Takes.accept_of_isFixed (takes : lexer.Takes symbol next) (isFixed : symbol.isFixed) :
    lexer.accept symbol = .ok next := by
  obtain ⟨resolved, resolves, accepted⟩ := takes
  cases resolves with
  | fixed => exact accepted
  | _ => cases isFixed

/-- No token is a quantifier together with its variables. -/
theorem Takes.not_binder {binder : Binder} (takes : lexer.Takes (.binder binder) next) : False := by
  obtain ⟨resolved, resolves, -⟩ := takes
  cases resolves with
  | fixed isFixed => cases isFixed

/-- Outside of headers a fixed symbol opens or closes a group, opens a header, or does nothing. -/
theorem Takes.enter (takes : lexer.Takes symbol next) (isFixed : symbol.isFixed)
    (closed : lexer.header = .closed) :
    next = { lexer.enter symbol with tokens := symbol :: (lexer.enter symbol).tokens } := by
  have accepted := takes.accept_of_isFixed isFixed
  unfold accept advance at accepted
  rw [closed] at accepted
  exact (Except.ok.inj accepted).symm

/-! ### Bindings and scopes -/

/-- The reader stands outside of headers, inside quantifiers with the given variables, the innermost
quantifier first. -/
structure Inside (lexer : Lexer) (around : List (List Variable)) : Prop where
  /-- No header is open. -/
  closed : lexer.header = .closed
  /-- No scope was opened in a group that is closed. -/
  levels : ∀ scope ∈ lexer.scopes, scope.depth ≤ lexer.depth
  /-- The variables of the quantifiers are bound. -/
  bindings : lexer.session.bindings = (around.flatMap List.reverse).map fun v => (v.name, v)
  /-- The free variables carry their names. -/
  lawful : lexer.Lawful

/-- What was read has left scopes open and their names bound. -/
structure Opens (lexer last : Lexer) (opened : List Scope) (entries : List (String × Variable)) :
    Prop where
  /-- No header is open. -/
  closed : last.header = .closed
  /-- All groups that were opened are closed. -/
  depth : last.depth = lexer.depth
  /-- The scopes are the innermost ones. -/
  scopes : last.scopes = opened ++ lexer.scopes
  /-- The names are bound before all others. -/
  bindings : last.session.bindings = entries ++ lexer.session.bindings
  /-- The scopes belong to the group around. -/
  levels : ∀ scope ∈ opened, scope.depth = lexer.depth
  /-- The names of the scopes are those that are bound. -/
  names : (opened.flatMap Scope.names).Perm (entries.map Prod.fst)

/-- What was read has given variables to quantifiers and to occurrences. -/
structure Binds (lexer last : Lexer) (bound : List Variable) (occurrences : List Occurrence) :
    Prop where
  /-- What was introduced before stays. -/
  grows : lexer.Grows last
  /-- The free variables carry their names. -/
  lawful : lexer.Lawful → last.Lawful
  /-- Quantified variables have new numbers in order. -/
  ascending : Variable.Ascending lexer.session.nextVariable last.session.nextVariable bound
  /-- They are no numbers of free variables. -/
  separate : ∀ v ∈ bound, ∀ entry ∈ last.free, entry.2.id ≠ v.id
  /-- An occurrence is what its name stands for, or a free variable. -/
  resolved : ∀ o ∈ occurrences, o.binding? = some o.occurring ∨
    o.binding? = none ∧ (o.occurring.name, o.occurring) ∈ last.free

variable {around : List (List Variable)} {bound others : List Variable}
variable {occurrences later : List Occurrence}
variable {opened inner : List Scope} {entries more : List (String × Variable)}

/-- Inside quantifiers a name is bound to the variable of the innermost one that has it. -/
theorem Inside.binding? (inside : lexer.Inside around) (name : String) :
    lexer.session.binding? name = (around.flatMap List.reverse).find? (·.name == name) := by
  unfold Session.binding?
  rw [inside.bindings, List.find?_map, Option.map_map]
  exact Option.map_id'

/-- Scopes that are opened later lie on top of those opened before. -/
theorem Opens.trans (first : lexer.Opens next opened entries) (second : next.Opens last inner more) :
    lexer.Opens last (inner ++ opened) (more ++ entries) where
  closed := second.closed
  depth := second.depth.trans first.depth
  scopes := by rw [second.scopes, first.scopes, List.append_assoc]
  bindings := by rw [second.bindings, first.bindings, List.append_assoc]
  levels := List.forall_mem_append.2
    ⟨fun scope member => (second.levels scope member).trans first.depth, first.levels⟩
  names := by
    rw [List.flatMap_append, List.map_append]
    exact second.names.append first.names

/-- Variables are given in the order of the symbols. -/
theorem Binds.append (first : lexer.Binds next bound occurrences)
    (second : next.Binds last others later) :
    lexer.Binds last (bound ++ others) (occurrences ++ later) where
  grows := first.grows.trans second.grows
  lawful := second.lawful ∘ first.lawful
  ascending := first.ascending.append second.ascending first.grows.le second.grows.le
  separate := by
    refine List.forall_mem_append.2 ⟨fun v early entry listed => ?_, second.separate⟩
    rcases second.grows.new entry listed with old | new
    · exact first.separate v early entry old
    · have := first.ascending.range v early
      omega
  resolved := by
    refine List.forall_mem_append.2 ⟨fun o early => ?_, second.resolved⟩
    exact (first.resolved o early).imp_right fun free => ⟨free.1, second.grows.subset free.2⟩

/-- Tokens that bring in no variables. -/
theorem Reads.binds (reads : lexer.Reads symbols last) : lexer.Binds last [] [] where
  grows := reads.grows.1
  lawful := reads.grows.2
  ascending := Variable.ascending_nil _ _
  separate := List.forall_mem_nil _
  resolved := List.forall_mem_nil _

/-- A token may be taken without giving a variable to a quantifier or an occurrence. -/
theorem Takes.binds (takes : lexer.Takes symbol next) : lexer.Binds next [] [] :=
  (reads_singleton_iff.2 takes).binds

/-- Where nothing was left open the quantifiers around are the same. -/
theorem Inside.after (inside : lexer.Inside around) (opens : lexer.Opens last [] [])
    (binds : lexer.Binds last bound occurrences) : last.Inside around where
  closed := opens.closed
  levels := by
    rw [opens.scopes, opens.depth]
    exact inside.levels
  bindings := by
    rw [opens.bindings]
    exact inside.bindings
  lawful := binds.lawful inside.lawful

/-- Before anything is read no scope is opened. -/
theorem Inside.opens_refl (inside : lexer.Inside around) : lexer.Opens lexer [] [] :=
  ⟨inside.closed, rfl, rfl, rfl, List.forall_mem_nil _, .refl _⟩

/-- A symbol that stands in no header and moves no group leaves nothing open. -/
theorem Inside.opens_of_takes (inside : lexer.Inside around) (takes : lexer.Takes symbol next)
    (isFixed : symbol.isFixed) (still : ∀ lexer : Lexer, lexer.enter symbol = lexer) :
    lexer.Opens next [] [] := by
  have same := takes.enter isFixed inside.closed
  rw [still] at same
  subst same
  exact ⟨inside.closed, rfl, rfl, rfl, List.forall_mem_nil _, .refl _⟩

/-! ### Groups -/

/-- Of names that are bound before all others some are released, in any order. -/
theorem exists_bindings_release {session : Session} {names kept : List String}
    {rest : List (String × Variable)} (bindings : session.bindings = entries ++ rest)
    (perm : (names ++ kept).Perm (entries.map Prod.fst)) :
    ∃ left, (release session names).bindings = left ++ rest ∧ kept.Perm (left.map Prod.fst) := by
  induction names generalizing session entries with
  | nil => exact ⟨entries, bindings, perm⟩
  | cons name names ih =>
    rw [List.cons_append] at perm
    have member : name ∈ entries.map Prod.fst := perm.subset List.mem_cons_self
    obtain ⟨entry, listed, same⟩ := List.mem_map.1 member
    have dropped : (session.unbind name).2.bindings = entries.eraseP (·.1 == name) ++ rest := by
      change session.bindings.eraseP _ = _
      rw [bindings]
      exact List.eraseP_append_left (p := (·.1 == name)) (beq_iff_eq.2 same) rest listed
    refine ih dropped ?_
    have erased := (List.cons_perm_iff_perm_erase.1 perm).2
    rw [List.erase_eq_eraseP, List.eraseP_map] at erased
    simpa only [Function.comp_def, BEq.comm] using erased

/-- Names that are bound before all others are released in any order. -/
theorem bindings_release {session : Session} {names : List String}
    {rest : List (String × Variable)} (bindings : session.bindings = entries ++ rest)
    (perm : names.Perm (entries.map Prod.fst)) : (release session names).bindings = rest := by
  rw [← List.append_nil names] at perm
  obtain ⟨left, released, none⟩ := exists_bindings_release bindings perm
  obtain rfl := List.map_eq_nil_iff.1 (List.nil_perm.1 none)
  exact released

/-- The scopes opened in a group are those that lie deeper than what is around it. -/
theorem takeWhile_levels {depth : Nat} {outer : List Scope}
    (deep : ∀ scope ∈ opened, depth < scope.depth) (shallow : ∀ scope ∈ outer, scope.depth ≤ depth) :
    (opened ++ outer).takeWhile (depth < ·.depth) = opened ∧
      (opened ++ outer).dropWhile (depth < ·.depth) = outer := by
  refine takeWhile_append_of_stop (fun scope member => decide_eq_true (deep scope member)) ?_
  intro scope first
  exact decide_eq_false (Nat.not_lt.2 (shallow scope (List.mem_of_mem_head? first)))

/-- An opening parenthesis leaves the quantifiers around as they are. -/
theorem Inside.group {grouped : Lexer} (inside : lexer.Inside around)
    (opening : lexer.Takes .leftParen grouped) : grouped.Inside around := by
  obtain ⟨-, lawful⟩ := opening.grows
  obtain rfl := opening.enter rfl inside.closed
  exact ⟨inside.closed, fun scope member => Nat.le_succ_of_le (inside.levels scope member),
    inside.bindings, lawful inside.lawful⟩

/-- The parenthesis that closes a group closes the scopes that were opened inside. -/
theorem Inside.opens_group {grouped full : Lexer} (inside : lexer.Inside around)
    (opening : lexer.Takes .leftParen grouped) (opens : grouped.Opens full opened entries)
    (closing : full.Takes .rightParen last) : lexer.Opens last [] [] := by
  have deeper : grouped = _ := opening.enter rfl inside.closed
  have shallower : last = _ := closing.enter rfl opens.closed
  subst deeper shallower
  have depth : full.depth - 1 = lexer.depth := by
    rw [opens.depth]
    rfl
  have deep : ∀ scope ∈ opened, full.depth - 1 < scope.depth := by
    intro scope member
    rw [depth, opens.levels scope member]
    exact Nat.lt_succ_self _
  obtain ⟨taken, dropped⟩ := takeWhile_levels deep (depth ▸ inside.levels)
  have scopes : full.scopes = opened ++ lexer.scopes := opens.scopes
  refine ⟨opens.closed, depth, ?_, ?_, List.forall_mem_nil _, .refl _⟩
  · change full.scopes.dropWhile _ = _
    rw [scopes]
    exact dropped
  · change (release full.session ((full.scopes.takeWhile _).flatMap _)).bindings = _
    rw [scopes, taken]
    exact bindings_release opens.bindings opens.names

/-! ### Headers -/

/-- What was read has introduced variables, to which their names are bound. -/
structure Introduces (lexer next : Lexer) (bound : List Variable) : Prop where
  /-- No group was opened or closed. -/
  depth : next.depth = lexer.depth
  /-- No free variable was introduced. -/
  free : next.free = lexer.free
  /-- The names are bound, the last one before all others. -/
  bindings : next.session.bindings =
    (bound.reverse.map fun v => (v.name, v)) ++ lexer.session.bindings
  /-- Numbers are not given twice. -/
  le : lexer.session.nextVariable ≤ next.session.nextVariable
  /-- The variables have new numbers in order. -/
  ascending : Variable.Ascending lexer.session.nextVariable next.session.nextVariable bound

/-- Variables are introduced one after the other. -/
theorem Introduces.trans (first : lexer.Introduces next bound)
    (second : next.Introduces last others) : lexer.Introduces last (bound ++ others) where
  depth := second.depth.trans first.depth
  free := second.free.trans first.free
  bindings := by
    rw [second.bindings, first.bindings, List.reverse_append, List.map_append, List.append_assoc]
  le := Nat.le_trans first.le second.le
  ascending := first.ascending.append second.ascending first.le second.le

/-- A symbol that is no variable introduces none. -/
theorem introduces_nil (depth : next.depth = lexer.depth) (free : next.free = lexer.free)
    (session : next.session = lexer.session) : lexer.Introduces next [] where
  depth := depth
  free := free
  bindings := by rw [session]; rfl
  le := by rw [session]
  ascending := Variable.ascending_nil _ _

/-- In a header every name introduces a variable. -/
theorem Takes.introduced {v : Variable} (takes : lexer.Takes (.var v) next)
    (inside : lexer.header ≠ .closed) :
    ∃ resolved, lexer.Introduces resolved [v] ∧ resolved.header = lexer.header ∧
      resolved.scopes = lexer.scopes ∧ resolved.accept (.var v) = .ok next := by
  obtain ⟨resolved, resolves, accepted⟩ := takes
  cases resolves with
  | introduced name =>
    refine ⟨(lexer.introduce name).2,
      ⟨rfl, rfl, rfl, Nat.le_succ _, List.pairwise_singleton _ _, ?_⟩, rfl, rfl, accepted⟩
    exact List.forall_mem_singleton.2 ⟨Nat.le_refl _, Nat.lt_succ_self _⟩
  | fixed isFixed => cases isFixed
  | bound outside found => exact absurd outside inside
  | met outside unbound known => exact absurd outside inside
  | new outside unbound unknown => exact absurd outside inside

/-- A variable right after a quantifier is all that the quantifier binds. -/
theorem Takes.single {v : Variable} (takes : lexer.Takes (.var v) next)
    (opened : lexer.header = .opened) :
    lexer.Introduces next [v] ∧ next.header = .closed ∧
      next.scopes = ⟨lexer.depth, [v.name]⟩ :: lexer.scopes := by
  obtain ⟨resolved, introduces, header, scopes, accepted⟩ :=
    takes.introduced (by rw [opened]; exact Header.noConfusion)
  rw [opened] at header
  unfold accept advance at accepted
  rw [header] at accepted
  obtain rfl := Except.ok.inj accepted
  refine ⟨⟨introduces.depth, introduces.free, introduces.bindings, introduces.le,
    introduces.ascending⟩, rfl, ?_⟩
  change ⟨resolved.depth, [v.name]⟩ :: resolved.scopes = _
  rw [introduces.depth, scopes]

/-- A variable in a list is added to those the quantifier binds. -/
theorem Takes.listed {v : Variable} {names : List String} (takes : lexer.Takes (.var v) next)
    (listed : lexer.header = .listed names) :
    lexer.Introduces next [v] ∧ next.header = .listed (names ++ [v.name]) ∧
      next.scopes = lexer.scopes := by
  obtain ⟨resolved, introduces, header, scopes, accepted⟩ :=
    takes.introduced (by rw [listed]; exact Header.noConfusion)
  rw [listed] at header
  unfold accept advance at accepted
  rw [header] at accepted
  obtain rfl := Except.ok.inj accepted
  exact ⟨⟨introduces.depth, introduces.free, introduces.bindings, introduces.le,
    introduces.ascending⟩, rfl, scopes⟩

/-- A quantifier opens a header. -/
theorem Takes.quantifies {quantifier : Quantifier} (takes : lexer.Takes (.quantifier quantifier) next)
    (closed : lexer.header = .closed) :
    lexer.Introduces next [] ∧ next.header = .opened ∧ next.scopes = lexer.scopes := by
  obtain rfl := takes.enter rfl closed
  exact ⟨introduces_nil rfl rfl rfl, rfl, rfl⟩

/-- A parenthesis right after a quantifier opens a list and no group. -/
theorem Takes.opens_list (takes : lexer.Takes .leftParen next) (opened : lexer.header = .opened) :
    lexer.Introduces next [] ∧ next.header = .listed [] ∧ next.scopes = lexer.scopes := by
  have accepted := takes.accept_of_isFixed rfl
  unfold accept advance at accepted
  rw [opened] at accepted
  obtain rfl := Except.ok.inj accepted
  exact ⟨introduces_nil rfl rfl rfl, rfl, rfl⟩

/-- A comma in a list of variables introduces none and opens no scope. -/
theorem Takes.separates_list {names : List String} (takes : lexer.Takes .comma next)
    (listed : lexer.header = .listed names) :
    lexer.Introduces next [] ∧ next.header = .listed names ∧ next.scopes = lexer.scopes := by
  have accepted := takes.accept_of_isFixed rfl
  unfold accept advance at accepted
  rw [listed] at accepted
  obtain rfl := Except.ok.inj accepted
  exact ⟨introduces_nil rfl rfl rfl, listed, rfl⟩

/-- The parenthesis that closes a list opens a scope for its names. -/
theorem Takes.closes_list {names : List String} (takes : lexer.Takes .rightParen next)
    (listed : lexer.header = .listed names) :
    lexer.Introduces next [] ∧ next.header = .closed ∧
      next.scopes = ⟨lexer.depth, names⟩ :: lexer.scopes := by
  have accepted := takes.accept_of_isFixed rfl
  unfold accept advance at accepted
  rw [listed] at accepted
  obtain rfl := Except.ok.inj accepted
  exact ⟨introduces_nil rfl rfl rfl, rfl, rfl⟩

/-- The further variables of a list are introduced in order. -/
theorem Reads.listed {names : List String}
    (reads : lexer.Reads (others.flatMap fun v => [.comma, .var v]) last)
    (listed : lexer.header = .listed names) :
    lexer.Introduces last others ∧ last.header = .listed (names ++ others.map Variable.name) ∧
      last.scopes = lexer.scopes := by
  induction others generalizing lexer names with
  | nil =>
    cases reads
    exact ⟨introduces_nil rfl rfl rfl, by rw [listed]; simp, rfl⟩
  | cons v rest ih =>
    rw [List.flatMap_cons] at reads
    obtain ⟨afterComma, comma, named⟩ := reads_cons_iff.1 reads
    obtain ⟨afterName, name, remaining⟩ := reads_cons_iff.1 named
    obtain ⟨start, kept, outer⟩ := comma.separates_list listed
    obtain ⟨one, header, scopes⟩ := name.listed kept
    obtain ⟨many, lastHeader, lastScopes⟩ := ih remaining header
    refine ⟨start.trans (one.trans many), by rw [lastHeader]; simp, ?_⟩
    rw [lastScopes, scopes, outer]

/-- A header that is read opens a scope for the variables it has introduced. -/
theorem Inside.opens_header (inside : lexer.Inside around) (reads : lexer.Reads symbols next)
    (introduces : lexer.Introduces next bound) (closed : next.header = .closed)
    (scopes : next.scopes = ⟨lexer.depth, bound.map Variable.name⟩ :: lexer.scopes) :
    (∃ opened entries, lexer.Opens next opened entries) ∧ next.Inside (bound :: around) ∧
      lexer.Binds next bound [] := by
  obtain ⟨grows, lawful⟩ := reads.grows
  refine ⟨⟨[⟨lexer.depth, bound.map Variable.name⟩], _, closed, introduces.depth, scopes,
    introduces.bindings, List.forall_mem_singleton.2 rfl, ?_⟩, ⟨closed, ?_, ?_, lawful inside.lawful⟩,
    ⟨grows, lawful, introduces.ascending, ?_, List.forall_mem_nil _⟩⟩
  · have names : (bound.reverse.map fun v => (v.name, v)).map Prod.fst =
        (bound.map Variable.name).reverse := by simp [Function.comp_def]
    rw [names, List.flatMap_singleton]
    exact (List.reverse_perm _).symm
  · rw [scopes, introduces.depth]
    exact List.forall_mem_cons.2 ⟨Nat.le_refl _, inside.levels⟩
  · rw [introduces.bindings, inside.bindings, List.flatMap_cons, List.map_append]
  · intro v own entry listed
    rw [introduces.free] at listed
    have old := inside.lawful.below entry listed
    have new := (introduces.ascending.range v own).1
    omega

end Lexer

/-- What may stand between the variables of a quantifier and its body leaves nothing open. -/
theorem Mark.opens {mark : List Symbol} (between : Mark mark) {lexer last : Lexer}
    {around : List (List Variable)} (inside : lexer.Inside around) (reads : lexer.Reads mark last) :
    lexer.Opens last [] [] := by
  cases between with
  | nothing =>
    cases reads
    exact inside.opens_refl
  | comma => exact inside.opens_of_takes (Lexer.reads_singleton_iff.1 reads) rfl fun _ => rfl
  | suchThat => exact inside.opens_of_takes (Lexer.reads_singleton_iff.1 reads) rfl fun _ => rfl

/-- Reading what stands before the body of a quantifier leads inside the quantifier. -/
theorem Heading.opens {front : List Symbol} {binder : Binder} (heading : Heading front binder)
    {lexer next : Lexer} {around : List (List Variable)} (inside : lexer.Inside around)
    (reads : lexer.Reads front next) :
    (∃ opened entries, lexer.Opens next opened entries) ∧ next.Inside (binder.bound :: around) ∧
      lexer.Binds next binder.bound [] := by
  have marked : ∀ {bound mark symbols middle}, Mark mark → lexer.Reads symbols middle →
      middle.Reads mark next → lexer.Introduces middle bound → middle.header = .closed →
      middle.scopes = ⟨lexer.depth, bound.map Variable.name⟩ :: lexer.scopes →
      (∃ opened entries, lexer.Opens next opened entries) ∧ next.Inside (bound :: around) ∧
        lexer.Binds next bound [] := by
    intro bound mark symbols middle between before after introduces closed scopes
    obtain ⟨⟨opened, entries, opens⟩, within, binds⟩ :=
      inside.opens_header before introduces closed scopes
    have nothing := between.opens within after
    refine ⟨⟨_, _, opens.trans nothing⟩, within.after nothing after.binds, ?_⟩
    simpa using binds.append after.binds
  cases heading with
  | single quantifier v between =>
    obtain ⟨opened, first, reads⟩ := Lexer.reads_cons_iff.1 reads
    obtain ⟨named, second, mark⟩ := Lexer.reads_cons_iff.1 reads
    obtain ⟨start, header, outer⟩ := first.quantifies inside.closed
    obtain ⟨introduces, closed, scopes⟩ := second.single header
    refine marked between (.token first (.token second .done)) mark (start.trans introduces) closed ?_
    rw [scopes, outer, start.depth]
    rfl
  | listed quantifier first others between =>
    obtain ⟨opened, quantifying, reads⟩ := Lexer.reads_cons_iff.1 reads
    obtain ⟨parenthesized, opening, reads⟩ := Lexer.reads_cons_iff.1 reads
    obtain ⟨full, list, reads⟩ := Lexer.reads_append_iff.1 reads
    obtain ⟨named, closing, mark⟩ := Lexer.reads_cons_iff.1 reads
    obtain ⟨firstNamed, name, rest⟩ := Lexer.reads_cons_iff.1 list
    obtain ⟨start, header, outer⟩ := quantifying.quantifies inside.closed
    obtain ⟨entered, empty, outerToo⟩ := opening.opens_list header
    obtain ⟨one, single, same⟩ := name.listed empty
    obtain ⟨many, all, kept⟩ := rest.listed single
    obtain ⟨left, closed, scopes⟩ := closing.closes_list all
    have introduces := start.trans (entered.trans (one.trans (many.trans left)))
    have before : lexer.Reads (.quantifier quantifier :: .leftParen ::
        (listing first others ++ [.rightParen])) named :=
      .token quantifying (.token opening
        (Lexer.reads_append_iff.2 ⟨full, list, Lexer.reads_singleton_iff.2 closing⟩))
    refine marked between before mark (by simpa using introduces) closed ?_
    have depth := (one.trans many).depth
    rw [scopes, depth, entered.depth, start.depth, kept, same, outerToo, outer]
    simp
  | read =>
    obtain ⟨next, takes, -⟩ := Lexer.reads_cons_iff.1 reads
    exact takes.not_binder.elim

/-! ### Phrases -/

namespace Lexer

variable {lexer next last : Lexer} {symbol : Symbol} {symbols : List Symbol}
variable {around : List (List Variable)} {v : Variable} {bound others : List Variable}
variable {occurrences later : List Occurrence}

/-- What was read has given variables to quantifiers and to occurrences, and has left scopes open
only if it is unclosed. -/
structure Traverses (lexer last : Lexer) (unclosed : Bool) (bound : List Variable)
    (occurrences : List Occurrence) : Prop where
  /-- Only an unclosed phrase leaves scopes open. -/
  opens : ∃ opened entries, lexer.Opens last opened entries ∧
    (unclosed = false → opened = [] ∧ entries = [])
  /-- Quantifiers and occurrences have got their variables. -/
  binds : lexer.Binds last bound occurrences

/-- What leaves no scope open traverses as a closed phrase. -/
theorem Opens.traverses (opens : lexer.Opens last [] [])
    (binds : lexer.Binds last bound occurrences) : lexer.Traverses last false bound occurrences :=
  ⟨⟨[], [], opens, fun _ => ⟨rfl, rfl⟩⟩, binds⟩

/-- A closed phrase leaves no scope open. -/
theorem Traverses.closed (traverses : lexer.Traverses last false bound occurrences) :
    lexer.Opens last [] [] := by
  obtain ⟨opened, entries, opens, nothing⟩ := traverses.opens
  obtain ⟨rfl, rfl⟩ := nothing rfl
  exact opens

/-- After a closed phrase the reader stands inside the same quantifiers. -/
theorem Inside.beyond (inside : lexer.Inside around)
    (traverses : lexer.Traverses last false bound occurrences) : last.Inside around :=
  inside.after traverses.closed traverses.binds

/-- A symbol that stands in no header and moves no group brings in no variables. -/
theorem Inside.traverses_still (inside : lexer.Inside around) (takes : lexer.Takes symbol next)
    (isFixed : symbol.isFixed) (still : ∀ lexer : Lexer, lexer.enter symbol = lexer) :
    lexer.Traverses next false [] [] :=
  (inside.opens_of_takes takes isFixed still).traverses takes.binds

/-- What follows a closed phrase decides whether anything is left open. -/
theorem Traverses.trans {unclosed : Bool} (first : lexer.Traverses next false bound occurrences)
    (second : next.Traverses last unclosed others later) :
    lexer.Traverses last unclosed (bound ++ others) (occurrences ++ later) where
  opens := by
    obtain ⟨opened, entries, opens, nothing⟩ := second.opens
    refine ⟨opened ++ [], entries ++ [], first.closed.trans opens, fun closed => ?_⟩
    rw [List.append_nil, List.append_nil]
    exact nothing closed
  binds := first.binds.append second.binds

/-- An occurrence of a name outside of headers is what the quantifiers around bind it to, or the
free variable of the name. -/
theorem Inside.occurs (inside : lexer.Inside around) (takes : lexer.Takes (.var v) next) :
    lexer.Opens next [] [] ∧ lexer.Binds next [] [⟨v, around⟩] := by
  obtain ⟨grows, lawful⟩ := takes.grows
  -- The state after the token is that of the resolved name, so only the name has to be looked up.
  have binds : (Occurrence.binding? ⟨v, around⟩ = some v ∨ Occurrence.binding? ⟨v, around⟩ = none ∧
      (v.name, v) ∈ next.free) → lexer.Binds next [] [⟨v, around⟩] := fun resolved =>
    ⟨grows, lawful, Variable.ascending_nil _ _, List.forall_mem_nil _,
      List.forall_mem_singleton.2 resolved⟩
  rw [Occurrence.binding?_eq_find?] at binds
  obtain ⟨resolved, resolves, accepted⟩ := takes
  have settled : resolved.header = .closed →
      next = { resolved with tokens := .var v :: resolved.tokens } := by
    intro closed
    unfold accept advance at accepted
    rw [closed] at accepted
    exact (Except.ok.inj accepted).symm
  cases resolves with
  | fixed isFixed => cases isFixed
  | introduced name header => exact absurd inside.closed header
  | bound outside found =>
    obtain rfl := settled outside
    rw [inside.binding?] at found
    have named := List.find?_some found
    refine ⟨⟨outside, rfl, rfl, rfl, List.forall_mem_nil _, .refl _⟩, binds (.inl ?_)⟩
    rw [beq_iff_eq.1 named]
    exact found
  | met outside unbound known =>
    obtain rfl := settled outside
    rw [inside.binding?] at unbound
    obtain ⟨entry, listed, rfl⟩ := Option.map_eq_some_iff.1 known
    have member := List.mem_of_find?_eq_some listed
    have name := List.find?_some listed
    have named := inside.lawful.named entry member
    refine ⟨⟨outside, rfl, rfl, rfl, List.forall_mem_nil _, .refl _⟩, binds (.inr ⟨?_, ?_⟩)⟩
    · rw [named, beq_iff_eq.1 name]
      exact unbound
    · rw [named]
      exact member
  | new outside unbound unknown =>
    obtain rfl := settled outside
    rw [inside.binding?] at unbound
    exact ⟨⟨outside, rfl, rfl, rfl, List.forall_mem_nil _, .refl _⟩,
      binds (.inr ⟨unbound, List.mem_cons_self⟩)⟩

/-- What stands in parentheses leaves nothing open. -/
theorem Inside.traverses_group {grouped full : Lexer} {unclosed : Bool} (inside : lexer.Inside around)
    (opening : lexer.Takes .leftParen grouped)
    (inner : grouped.Traverses full unclosed bound occurrences)
    (closing : full.Takes .rightParen last) : lexer.Traverses last false bound occurrences := by
  obtain ⟨opened, entries, opens, -⟩ := inner.opens
  have binds := (opening.binds.append inner.binds).append closing.binds
  exact (inside.opens_group opening opens closing).traverses (by simpa using binds)

/-- Functions and relations leave nothing open and bring in no variables. -/
theorem Inside.traverses_owner {owner : Symbol} {count : Nat} (inside : lexer.Inside around)
    (arity : owner.arity? = some count) (takes : lexer.Takes owner next) :
    lexer.Traverses next false [] [] := by
  cases owner with
  | fn f => exact inside.traverses_still takes rfl fun _ => rfl
  | rel r => exact inside.traverses_still takes rfl fun _ => rfl
  | _ => cases arity

end Lexer

/-- Wherever the symbols are read, variables are given to the quantifiers and occurrences of the
expression. -/
def Traversed (unclosed : Bool) (symbols : List Symbol) (e : Expr) : Prop :=
  ∀ ⦃lexer last : Lexer⦄ ⦃around : List (List Variable)⦄, lexer.Inside around →
    lexer.Reads symbols last → lexer.Traverses last unclosed e.boundVariables (e.occurrences around)

/-- The variables of an application are those of its arguments. -/
theorem Expr.variables_application {owner : Symbol} {count : Nat}
    (arity : owner.arity? = some count) (args : List Expr) (around : List (List Variable)) :
    (node owner args).boundVariables = args.flatMap boundVariables ∧
      (node owner args).occurrences around = args.flatMap (occurrences around) := by
  rw [← boundVariablesArgs_eq_flatMap, ← occurrencesArgs_eq_flatMap]
  cases owner with
  | fn f => exact ⟨rfl, rfl⟩
  | rel r => exact ⟨rfl, rfl⟩
  | _ => cases arity

/-- Arguments leave nothing open and are read one after the other. -/
theorem Separated.traverses {symbols : List Symbol} {args : List Expr}
    (separated : Separated (Traversed false) symbols args) {lexer last : Lexer}
    {around : List (List Variable)} (inside : lexer.Inside around)
    (reads : lexer.Reads symbols last) :
    lexer.Traverses last false (args.flatMap Expr.boundVariables)
      (args.flatMap (Expr.occurrences around)) := by
  induction separated generalizing last with
  | one only => simpa using only inside reads
  | more others final ih =>
    obtain ⟨middle, before, reads⟩ := Lexer.reads_append_iff.1 reads
    obtain ⟨separated, comma, after⟩ := Lexer.reads_cons_iff.1 reads
    have first := ih before
    have skipped := (inside.beyond first).traverses_still comma rfl fun _ => rfl
    have second := final ((inside.beyond first).beyond skipped) after
    simpa using first.trans (skipped.trans second)

/-- While a phrase is read, names are resolved as in its expression. -/
theorem Phrase.traversed {level : Nat} {unclosed : Bool} {symbols : List Symbol} {e : Expr}
    (phrase : Phrase level unclosed symbols e) : Traversed unclosed symbols e := by
  induction phrase using Phrase.induction with
  | @operand symbol stands =>
    intro lexer last around inside reads
    have takes := Lexer.reads_singleton_iff.1 reads
    cases symbol with
    | var v =>
      obtain ⟨opens, binds⟩ := inside.occurs takes
      exact opens.traverses binds
    | const c => exact inside.traverses_still takes rfl fun _ => rfl
    | skolem s => exact inside.traverses_still takes rfl fun _ => rfl
    | _ => cases stands
  | @bare owner arity =>
    intro lexer last around inside reads
    obtain ⟨bound, occurring⟩ : (Expr.leaf owner).boundVariables = [] ∧
      (Expr.leaf owner).occurrences around = [] := Expr.variables_application arity [] around
    rw [bound, occurring]
    exact inside.traverses_owner arity (Lexer.reads_singleton_iff.1 reads)
  | @empty owner arity =>
    intro lexer last around inside reads
    obtain ⟨bound, occurring⟩ : (Expr.leaf owner).boundVariables = [] ∧
      (Expr.leaf owner).occurrences around = [] := Expr.variables_application arity [] around
    obtain ⟨named, ownerTaken, reads⟩ := Lexer.reads_cons_iff.1 reads
    obtain ⟨grouped, opening, reads⟩ := Lexer.reads_cons_iff.1 reads
    have closing := Lexer.reads_singleton_iff.1 reads
    have first := inside.traverses_owner arity ownerTaken
    have after := inside.beyond first
    have nothing := (after.group opening).opens_refl.traverses Lexer.Reads.done.binds
    rw [bound, occurring]
    exact first.trans (after.traverses_group opening nothing closing)
  | call arity arguments atomic each =>
    intro lexer last around inside reads
    obtain ⟨bound, occurring⟩ := Expr.variables_application arity _ around
    obtain ⟨named, owner, reads⟩ := Lexer.reads_cons_iff.1 reads
    obtain ⟨grouped, opening, reads⟩ := Lexer.reads_cons_iff.1 reads
    obtain ⟨full, within, reads⟩ := Lexer.reads_append_iff.1 reads
    have closing := Lexer.reads_singleton_iff.1 reads
    have first := inside.traverses_owner arity owner
    have after := inside.beyond first
    have arguments := each.imp fun _ _ _ known => known.elim fun _ traversed => traversed
    have inner := arguments.traverses (after.group opening) within
    rw [bound, occurring]
    exact first.trans (after.traverses_group opening inner closing)
  | group inner ih =>
    intro lexer last around inside reads
    obtain ⟨grouped, opening, reads⟩ := Lexer.reads_cons_iff.1 reads
    obtain ⟨full, within, reads⟩ := Lexer.reads_append_iff.1 reads
    have closing := Lexer.reads_singleton_iff.1 reads
    exact inside.traverses_group opening (ih (inside.group opening) within) closing
  | negation operand ih =>
    intro lexer last around inside reads
    obtain ⟨negated, takes, reads⟩ := Lexer.reads_cons_iff.1 reads
    have skipped := inside.traverses_still takes rfl fun _ => rfl
    rw [Expr.boundVariables_negate, Expr.occurrences_negate]
    exact skipped.trans (ih (inside.beyond skipped) reads)
  | quantified heading body ih =>
    intro lexer last around inside reads
    obtain ⟨middle, front, reads⟩ := Lexer.reads_append_iff.1 reads
    obtain ⟨⟨opened, entries, opens⟩, within, binds⟩ := heading.opens inside front
    have inner := ih within reads
    -- The scope of the header stays open under those of the body, whether or not the body is closed.
    obtain ⟨more, others, opensToo, -⟩ := inner.opens
    refine ⟨⟨_, _, opens.trans opensToo, Bool.noConfusion⟩, ?_⟩
    simpa using binds.append inner.binds
  | joined binds left right atomic ihLeft ihRight =>
    intro lexer last around inside reads
    obtain ⟨middle, before, reads⟩ := Lexer.reads_append_iff.1 reads
    obtain ⟨operated, operator, after⟩ := Lexer.reads_cons_iff.1 reads
    have first := ihLeft inside before
    have skipped := (inside.beyond first).traverses_still operator rfl fun _ => rfl
    have second := ihRight ((inside.beyond first).beyond skipped) after
    simpa using first.trans (skipped.trans second)
  | loosened inner ih => exact ih

/-! ### Statements -/

/-- A variable of the expression belongs to a quantifier or is one of the free variables. -/
theorem Lexer.Binds.bound_or_free {lexer last : Lexer} {e : Expr}
    (binds : lexer.Binds last e.boundVariables (e.occurrences [])) {v : Variable}
    (member : v ∈ e.boundVariables ++ (e.occurrences []).map Occurrence.occurring) :
    v ∈ e.boundVariables ∨ (v.name, v) ∈ last.free := by
  rcases List.mem_append.1 member with bound | occurring
  · exact .inl bound
  · obtain ⟨o, occurs, rfl⟩ := List.mem_map.1 occurring
    rcases binds.resolved o occurs with found | free
    · rw [Occurrence.binding?_eq_find?] at found
      obtain ⟨bound, listed, -⟩ | bound :=
        Expr.mem_scope_of_mem_occurrences occurs (List.mem_of_find?_eq_some found)
      · cases listed
      · exact .inl bound
    · exact .inr free.2

/-- No two variables that a reader gives to an expression have the same number. -/
theorem Lexer.Binds.numbered {lexer last : Lexer} {e : Expr} (lawful : lexer.Lawful)
    (binds : lexer.Binds last e.boundVariables (e.occurrences [])) : e.Numbered := by
  have ordered : (last.free.map Prod.snd).reverse.Pairwise fun v w => v.id < w.id := by
    rw [List.pairwise_reverse, List.pairwise_map]
    exact (binds.lawful lawful).ordered
  intro v first w second same
  rcases binds.bound_or_free first with bound | free <;>
    rcases binds.bound_or_free second with boundToo | freeToo
  · exact Variable.eq_of_id_eq binds.ascending.ordered bound boundToo same
  · exact absurd same.symm (binds.separate v bound _ freeToo)
  · exact absurd same (binds.separate w boundToo _ free)
  · exact Variable.eq_of_id_eq ordered (List.mem_reverse.2 (List.mem_map_of_mem free))
      (List.mem_reverse.2 (List.mem_map_of_mem freeToo)) same

/-- Occurrences have the variables that the quantifiers around them bind. -/
theorem Lexer.Binds.agrees {lexer last : Lexer} {e : Expr} (lawful : lexer.Lawful)
    (binds : lexer.Binds last e.boundVariables (e.occurrences [])) : e.Scoped := by
  have free : ∀ o ∈ e.occurrences [], o.binding? = none →
      (o.occurring.name, o.occurring) ∈ last.free := by
    intro o occurs unbound
    rcases binds.resolved o occurs with found | free
    · rw [unbound] at found
      cases found
    · exact free.2
  refine ⟨fun o occurs v bound => ?_, fun o occurs unbound v member => ?_,
    fun o occurs other otherOccurs unbound otherUnbound same => ?_⟩
  · rcases binds.resolved o occurs with found | ⟨unbound, -⟩
    · rw [found] at bound
      rw [Option.some.inj bound]
    · rw [unbound] at bound
      cases bound
  · exact binds.separate v member _ (free o occurs unbound)
  · rw [(binds.lawful lawful).eq_of_name_eq (free o occurs unbound)
      (free other otherOccurs otherUnbound) same]

/-- In a statement whose tokens are a sentence, occurrences of names have the variables that the
quantifiers around them bind, free ones have one variable for each name, and renaming apart by name
is renaming apart by number. -/
theorem Statement.scoped_of_parse {session next : Session} {text : String} {statement : Statement}
    {tokens : List Symbol} (unbound : session.bindings = [])
    (parsed : parse session text = (.ok statement, next))
    (tokenized : (session.tokenize text).1 = .ok tokens) (sentence : ∃ e, Sentence tokens e) :
    statement.formula.Scoped ∧ statement.formula.eliminateConnectives.StandardizedByNumber ∧
      statement.formula.negate.eliminateConnectives.StandardizedByNumber := by
  obtain ⟨formula, -⟩ := formula_of_parse parsed
  obtain ⟨e, isSentence⟩ := sentence
  obtain rfl : statement.formula = e := by
    have accepted := congrArg Prod.fst parsed
    change (session.tokenize text).1.bind ofInfix = _ at accepted
    rw [tokenized] at accepted
    change ofInfix tokens = .ok statement at accepted
    obtain ⟨symbols, converted, assembled⟩ := bind_eq_ok_iff.1 accepted
    obtain ⟨formula, made, same⟩ := bind_eq_ok_iff.1 assembled
    have read := isSentence.read
    rw [converted] at read
    obtain rfl := Except.ok.inj same
    exact Except.ok.inj (made.symm.trans read)
  obtain ⟨unclosed, phrase⟩ := isSentence
  obtain ⟨last, reads⟩ := Session.reads_of_tokenize tokenized
  have lawful : Lexer.Lawful { session } := ⟨List.forall_mem_nil _, List.forall_mem_nil _, .nil, .nil⟩
  have inside : Lexer.Inside { session } [] := ⟨rfl, List.forall_mem_nil _, unbound, lawful⟩
  have binds := (phrase.traversed inside reads).binds
  have agrees := binds.agrees lawful
  have numbered := binds.numbered lawful
  refine ⟨agrees, agrees.standardizedByNumber_nnf numbered formula false, ?_⟩
  have occurrences : statement.formula.negate.occurrences [] ⊆ statement.formula.occurrences [] := by
    rw [Expr.occurrences_negate]
    exact List.Subset.refl _
  have bound : statement.formula.negate.boundVariables ⊆ statement.formula.boundVariables := by
    rw [Expr.boundVariables_negate]
    exact List.Subset.refl _
  exact (agrees.mono occurrences bound).standardizedByNumber_nnf (numbered.mono occurrences bound)
    formula.negate false

/-- A variable read from text. -/
def Variable.ofText (name : String) (id : Nat) : Variable := ⟨name, id, false, false⟩

namespace Statement

open Variable (ofText)

/-- The symbols of "(FORALL x, (EXISTS (x, y, x): x AND y) OR x) AND x AND y". -/
def shadowingTokens : List Symbol :=
  [.leftParen, .quantifier .universal, .var (ofText "x" 0), .comma, .leftParen,
    .quantifier .existential, .leftParen, .var (ofText "x" 1), .comma, .var (ofText "y" 2), .comma,
    .var (ofText "x" 3), .rightParen, .suchThat, .var (ofText "x" 3), .op .and, .var (ofText "y" 2),
    .rightParen, .op .or, .var (ofText "x" 0), .rightParen, .op .and, .var (ofText "x" 4), .op .and,
    .var (ofText "y" 5)]

/-- A name that is bound twice by an inner quantifier, bound again around it, and free after it. -/
def shadowing : Statement where
  symbols := [.var (ofText "x" 3), .var (ofText "y" 2), .op .and,
    .binder ⟨.existential, [ofText "x" 1, ofText "y" 2, ofText "x" 3]⟩, .var (ofText "x" 0), .op .or,
    .binder ⟨.universal, [ofText "x" 0]⟩, .var (ofText "x" 4), .op .and, .var (ofText "y" 5), .op .and]
  formula := .binary .and
    (.binary .and
      (.node (.binder ⟨.universal, [ofText "x" 0]⟩)
        [.binary .or
          (.node (.binder ⟨.existential, [ofText "x" 1, ofText "y" 2, ofText "x" 3]⟩)
            [.binary .and (.leaf (.var (ofText "x" 3))) (.leaf (.var (ofText "y" 2)))])
          (.leaf (.var (ofText "x" 0)))])
      (.leaf (.var (ofText "x" 4))))
    (.leaf (.var (ofText "y" 5)))

/-- A name that is bound twice by one quantifier, again around it and free after it is resolved to
its innermost binding at each place. -/
theorem scoped_shadowing :
    parse .empty "(FORALL x, (EXISTS (x, y, x): x AND y) OR x) AND x AND y" =
        (.ok shadowing, { Session.empty with nextVariable := 6 }) ∧
      (Session.empty.tokenize "(FORALL x, (EXISTS (x, y, x): x AND y) OR x) AND x AND y").1 =
        .ok shadowingTokens ∧ Sentence shadowingTokens shadowing.formula ∧
      shadowing.formula.Scoped ∧ shadowing.formula.eliminateConnectives.StandardizedByNumber ∧
      shadowing.formula.negate.eliminateConnectives.StandardizedByNumber := by
  have parsed : parse .empty "(FORALL x, (EXISTS (x, y, x): x AND y) OR x) AND x AND y" =
    (.ok shadowing, { Session.empty with nextVariable := 6 }) := rfl
  have operand : ∀ {level} v, level ≤ 5 → Phrase level false [.var v] (.leaf (.var v)) :=
    fun v => (Phrase.operand rfl).loosen
  have conjunction : ∀ {before l} v, Phrase 3 false before l →
      Phrase 3 false (before ++ [.op .and, .var v]) (.binary .and l (.leaf (.var v))) :=
    fun v left => .joined .conjunction left (operand v (by decide)) Bool.noConfusion
  have inner := Phrase.quantified
    (.listed .existential (ofText "x" 1) [ofText "y" 2, ofText "x" 3] .suchThat)
    ((conjunction (ofText "y" 2) (operand (ofText "x" 3) (by decide))).loosen (Nat.zero_le 3))
  have body := Phrase.joined .disjunction
    ((Phrase.group (inner.loosen (Nat.zero_le 5))).loosen (by decide))
    (operand (ofText "x" 0) (by decide)) Bool.noConfusion
  have outer := Phrase.quantified (.single .universal (ofText "x" 0) .comma)
    (body.loosen (Nat.zero_le 2))
  have sentence : Sentence shadowingTokens shadowing.formula :=
    ⟨false, (conjunction (ofText "y" 5) (conjunction (ofText "x" 4)
      ((Phrase.group (outer.loosen (Nat.zero_le 5))).loosen (by decide)))).loosen (Nat.zero_le 3)⟩
  have tokenized : (Session.empty.tokenize
    "(FORALL x, (EXISTS (x, y, x): x AND y) OR x) AND x AND y").1 = .ok shadowingTokens := rfl
  exact ⟨parsed, tokenized, sentence, scoped_of_parse rfl parsed tokenized ⟨_, sentence⟩⟩

end Statement

end Refute
