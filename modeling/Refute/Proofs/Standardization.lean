import Refute.Proofs.Naming

/-!
# Renaming without capture

Renaming an expression apart changes its variables and nothing else, and a variable keeps its name.
Read by name, with the quantifiers of the result, every occurrence is the variable that its name
stands for: the last one of that name in the innermost quantifier that binds it, or the one free
variable of that name. No two variables that quantifiers bind or that are free have the same number,
and their numbers are those that the session has counted off meanwhile.

`Renaming.Renames` says this of a stretch of operands and of the states before and after it;
stretches are joined from left to right, and a quantifier adds its own variables in front.
-/

namespace Refute

/-! ### Bare expressions -/

/-- The variable as a mere name. -/
def Variable.bare (v : Variable) : Variable := ⟨v.name, 0, false, false⟩

/-- The symbol with mere names for its variables. -/
def Symbol.bare : Symbol → Symbol
  | .var v => .var v.bare
  | .binder b => .binder { b with bound := b.bound.map Variable.bare }
  | symbol => symbol

namespace Expr

mutual

/-- The expression with mere names for its variables. -/
def bare : Expr → Expr
  | ⟨head, negated, args⟩ => ⟨head.bare, negated, bareArgs args⟩

/-- Operands with mere names for their variables. -/
def bareArgs : List Expr → List Expr
  | [] => []
  | a :: as => bare a :: bareArgs as

end

/-- The variables of universal quantifiers are marked universal, those of others are not, and all
of them are system variables. -/
def Marked (e : Expr) : Prop :=
  e.Everywhere fun head _ => ∀ b, head = .binder b → ∀ v ∈ b.bound,
    v.system ∧ (v.universal ↔ b.quantifier = .universal)

end Expr

namespace Renaming

variable {around : List (List Variable)} {state next last : Renaming}

/-! ### Scopes -/

/-- The scope inside quantifiers whose variables are given, the innermost quantifier first. -/
def scopeOf (around : List (List Variable)) : List (String × Variable) :=
  (around.flatMap List.reverse).map fun v => (v.name, v)

/-- Inside one more quantifier its variables are the innermost ones. -/
theorem extend_scopeOf (around : List (List Variable)) (bound : List Variable) :
    extend (scopeOf around) bound = scopeOf (bound :: around) := by
  rw [extend_eq, scopeOf, scopeOf, List.flatMap_cons, List.map_append, List.map_reverse]

/-- A scope finds what a name stands for. -/
theorem find?_scopeOf (o : Occurrence) :
    (scopeOf o.around).find? (·.1 == o.occurring.name) = o.binding?.map fun v => (v.name, v) := by
  rw [Occurrence.binding?_eq_find?]
  exact List.find?_map ..

/-- An occurrence is the variable of a quantifier around it or a free one. -/
theorem lookup?_scopeOf (o : Occurrence) (free : List (String × Variable)) :
    lookup? (scopeOf o.around) free o.occurring.name =
      o.binding?.or ((free.find? (·.1 == o.occurring.name)).map (·.2)) := by
  unfold lookup?
  rw [find?_scopeOf]
  cases o.binding? <;> rfl

/-- A variable is handed out for a name that nothing stands for yet, and for no other. -/
theorem resolve_cases (scope : List (String × Variable)) (state : Renaming) (name : String) :
    (resolve scope state name).2 = state ∨
      scope.find? (·.1 == name) = none ∧ resolve scope state name =
        (renamed name state.next false,
          ⟨state.next + 1, (name, renamed name state.next false) :: state.free⟩) := by
  unfold resolve
  split
  · exact .inl rfl
  · exact .inl rfl
  · rename_i outside _
    exact .inr ⟨outside, rfl⟩

/-- Occurrences keep their names. -/
theorem name_resolve (lawful : state.Lawful) (around : List (List Variable)) (name : String) :
    (resolve (scopeOf around) state name).1.name = name := by
  unfold resolve
  split
  · rename_i entry _ _ found
    obtain ⟨v, -, rfl⟩ := List.mem_map.1 (List.mem_of_find?_eq_some found)
    exact eq_of_beq (List.find?_some found :)
  · rename_i entry _ found
    rw [lawful.named entry (List.mem_of_find?_eq_some found)]
    exact eq_of_beq (List.find?_some found :)
  · rfl

/-- The variables of a quantifier get consecutive numbers. -/
theorem map_id_number (universal : Bool) (start : Nat) (bound : List Variable) :
    (number universal start bound).map Variable.id = List.range' start bound.length := by
  induction bound generalizing start with
  | nil => rfl
  | cons v rest ih => simp [number, renamed, ih, List.range'_succ]

/-- Numbering variables leaves their mere names. -/
theorem map_bare_number (universal : Bool) (start : Nat) (bound : List Variable) :
    (number universal start bound).map Variable.bare = bound.map Variable.bare := by
  induction bound generalizing start with
  | nil => rfl
  | cons v rest ih => simp [number, renamed, Variable.bare, ih]

/-! ### Stretches of operands -/

/-- Operands are renamed to results inside the quantifiers around them, and the variables for it are
handed out. -/
structure Renames (around : List (List Variable)) (state next : Renaming)
    (args results : List Expr) : Prop where
  /-- Only variables change, and they keep their names. -/
  bare : Expr.bareArgs results = Expr.bareArgs args
  /-- Quantified variables are marked. -/
  marked : ∀ result ∈ results, result.Marked
  /-- Free variables stay what they were. -/
  grows : state.Grows next
  /-- Free variables are added for names that occur free; they and the quantified variables have the
  numbers that are counted off. -/
  numbers : ∃ added, next.free = added ++ state.free ∧
    (∀ entry ∈ added, ∃ o ∈ Expr.occurrencesArgs around results,
      o.binding? = none ∧ o.occurring = entry.2) ∧
    ((Expr.boundVariablesArgs results ++ added.map Prod.snd).map Variable.id).Perm
      (List.range' state.next (next.next - state.next))
  /-- Every occurrence is what its name stands for. -/
  resolved : ∀ o ∈ Expr.occurrencesArgs around results,
    lookup? (scopeOf o.around) next.free o.occurring.name = some o.occurring

/-- An empty stretch of operands is renamed without a change of state. -/
theorem Renames.nil (around : List (List Variable)) (state : Renaming) :
    Renames around state state [] [] where
  bare := rfl
  marked := List.forall_mem_nil _
  grows := .refl state
  numbers := ⟨[], rfl, List.forall_mem_nil _, by simp [Expr.boundVariablesArgs]⟩
  resolved := List.forall_mem_nil _

/-- Numbers up to a number and those from it on are all of them. -/
theorem range'_append_of_le {first second third : Nat} (left : first ≤ second)
    (right : second ≤ third) :
    List.range' first (second - first) ++ List.range' second (third - second) =
      List.range' first (third - first) := by
  have joined := List.range'_append_1 (s := first) (m := second - first) (n := third - second)
  rwa [Nat.add_sub_cancel' left, show second - first + (third - second) = third - first by omega]
    at joined

/-- An operand and the stretch after it make up a stretch. -/
theorem Renames.cons {a result : Expr} {args results : List Expr}
    (first : Renames around state next [a] [result])
    (others : Renames around next last args results) :
    Renames around state last (a :: args) (result :: results) := by
  obtain ⟨added, free, occurs, numbers⟩ := first.numbers
  obtain ⟨addedLater, freeLater, occursLater, numbersLater⟩ := others.numbers
  have occurrences : Expr.occurrencesArgs around (result :: results) =
      Expr.occurrencesArgs around [result] ++ Expr.occurrencesArgs around results := by
    simp [Expr.occurrencesArgs]
  refine ⟨?_, ?_, first.grows.trans others.grows, ⟨addedLater ++ added, ?_, ?_, ?_⟩, ?_⟩
  · exact List.cons_eq_cons.2 ⟨(List.cons.inj first.bare).1, others.bare⟩
  · exact List.forall_mem_cons.2 ⟨first.marked result List.mem_cons_self, others.marked⟩
  · rw [freeLater, free, List.append_assoc]
  · intro entry listed
    rw [occurrences]
    rcases List.mem_append.1 listed with later | early
    · obtain ⟨o, member, isFree, same⟩ := occursLater entry later
      exact ⟨o, List.mem_append_right _ member, isFree, same⟩
    · obtain ⟨o, member, isFree, same⟩ := occurs entry early
      exact ⟨o, List.mem_append_left _ member, isFree, same⟩
  · have later : (Expr.boundVariablesArgs results ++ addedLater.map Prod.snd ++
        added.map Prod.snd).Perm (added.map Prod.snd ++ _) := List.perm_append_comm
    have inOrder := (later.append_left result.boundVariables).map Variable.id
    have counted := numbers.append numbersLater
    rw [range'_append_of_le first.grows.le others.grows.le] at counted
    simp only [Expr.boundVariablesArgs, List.append_nil, List.append_assoc, List.map_append]
      at inOrder counted ⊢
    exact inOrder.trans counted
  · intro o member
    rw [occurrences] at member
    rcases List.mem_append.1 member with early | later
    · exact others.grows.lookup? (first.resolved o early)
    · exact others.resolved o later

/-- An occurrence gets the variable that its name stands for. -/
theorem Renames.occurrence (lawful : state.Lawful) (around : List (List Variable)) (v : Variable)
    (negated : Bool) :
    Renames around state (resolve (scopeOf around) state v.name).2 [⟨.var v, negated, []⟩]
      [⟨.var (resolve (scopeOf around) state v.name).1, negated, []⟩] := by
  have named := name_resolve lawful around v.name
  refine ⟨?_, ?_, grows_resolve _ state v.name, ?_, ?_⟩
  · simp [Expr.bareArgs, Expr.bare, Symbol.bare, Variable.bare, named]
  · refine List.forall_mem_singleton.2 (Expr.everywhere_iff.2 ⟨?_, List.forall_mem_nil _⟩)
    rintro b ⟨⟩
  · obtain same | ⟨outside, fresh⟩ := resolve_cases (scopeOf around) state v.name
    · rw [same]
      exact ⟨[], rfl, List.forall_mem_nil _, by simp [Expr.boundVariablesArgs, Expr.boundVariables]⟩
    · rw [fresh]
      refine ⟨[(v.name, renamed v.name state.next false)], rfl, ?_, ?_⟩
      · refine List.forall_mem_singleton.2 ⟨⟨_, around⟩, List.mem_cons_self, ?_, rfl⟩
        have missed := find?_scopeOf ⟨renamed v.name state.next false, around⟩
        exact Option.map_eq_none_iff.1 (missed.symm.trans outside)
      · simp [Expr.boundVariablesArgs, Expr.boundVariables, renamed]
  · refine List.forall_mem_singleton.2 ?_
    have found := lookup?_resolve (scopeOf around) state v.name
    simp only [named]
    exact found

/-- A quantifier gets variables of its own before its operands are renamed. -/
theorem Renames.quantified (b : Binder) (negated : Bool) {args results : List Expr}
    (inside : Renames (number (b.quantifier == .universal) state.next b.bound :: around)
      { state with next := state.next + b.bound.length } next args results) :
    Renames around state next [⟨.binder b, negated, args⟩]
      [⟨.binder { b with bound := number (b.quantifier == .universal) state.next b.bound }, negated,
        results⟩] := by
  obtain ⟨bare, marked, grows, ⟨added, free, occurs, numbers⟩, resolved⟩ := inside
  refine ⟨?_, ?_, (grows_skip state _).trans grows, ⟨added, free, ?_, ?_⟩, ?_⟩
  · simp [Expr.bareArgs, Expr.bare, Symbol.bare, map_bare_number, bare]
  · refine List.forall_mem_singleton.2 (Expr.everywhere_iff.2 ⟨?_, marked⟩)
    rintro _ ⟨⟩ v member
    obtain ⟨system, universal, -⟩ := mem_number member
    exact ⟨system, by simp [universal]⟩
  · simpa [Expr.occurrencesArgs, Expr.occurrences] using occurs
  · have counted := range'_append_of_le (Nat.le_add_right state.next b.bound.length) grows.le
    rw [Nat.add_sub_cancel_left] at counted
    rw [← counted, ← map_id_number (b.quantifier == .universal)]
    simpa [Expr.boundVariablesArgs, Expr.boundVariables] using numbers.append_left _
  · simpa [Expr.occurrencesArgs, Expr.occurrences] using resolved

/-- Any other symbol stays as it is. -/
theorem Renames.application {head : Symbol} (negated : Bool) {args results : List Expr}
    (notVariable : ∀ v, head ≠ .var v) (notBinder : ∀ b, head ≠ .binder b)
    (inside : Renames around state next args results) :
    Renames around state next [⟨head, negated, args⟩] [⟨head, negated, results⟩] := by
  obtain ⟨bare, marked, grows, ⟨added, free, occurs, numbers⟩, resolved⟩ := inside
  have occurrences : Expr.occurrencesArgs around [⟨head, negated, results⟩] =
      Expr.occurrencesArgs around results := by
    cases head with
    | var v => exact absurd rfl (notVariable v)
    | binder b => exact absurd rfl (notBinder b)
    | _ => simp [Expr.occurrencesArgs, Expr.occurrences]
  have bound : Expr.boundVariablesArgs [⟨head, negated, results⟩] =
      Expr.boundVariablesArgs results := by
    cases head with
    | binder b => exact absurd rfl (notBinder b)
    | _ => simp [Expr.boundVariablesArgs, Expr.boundVariables]
  refine ⟨?_, ?_, grows, ⟨added, free, ?_, ?_⟩, ?_⟩
  · simp [Expr.bareArgs, Expr.bare, bare]
  · exact List.forall_mem_singleton.2
      (Expr.everywhere_iff.2 ⟨fun b same => absurd same (notBinder b), marked⟩)
  · rwa [occurrences]
  · rwa [bound]
  · rwa [occurrences]

end Renaming

namespace Expr

variable {state : Renaming}

/-- Operands that are renamed one after the other make up a stretch. -/
theorem renames_renameArgs {around : List (List Variable)} {args : List Expr}
    (each : ∀ arg ∈ args, ∀ {state : Renaming}, state.Lawful →
      Renaming.Renames around state (rename (Renaming.scopeOf around) state arg).2 [arg]
        [(rename (Renaming.scopeOf around) state arg).1])
    (lawful : state.Lawful) :
    Renaming.Renames around state (renameArgs (Renaming.scopeOf around) state args).2 args
      (renameArgs (Renaming.scopeOf around) state args).1 := by
  induction args generalizing state with
  | nil => exact .nil around state
  | cons a as ih =>
    rw [List.forall_mem_cons] at each
    exact (each.1 lawful).cons (ih each.2 (lawful_rename _ a lawful))

/-- Renaming an expression in the scope of the quantifiers around it is such a stretch. -/
theorem renames_rename {e : Expr} (firstOrder : e.FirstOrder) (around : List (List Variable))
    (lawful : state.Lawful) :
    Renaming.Renames around state (rename (Renaming.scopeOf around) state e).2 [e]
      [(rename (Renaming.scopeOf around) state e).1] := by
  induction e using Expr.induction generalizing around state with
  | node head negated args ih =>
    obtain ⟨root, inside⟩ := everywhere_iff.1 firstOrder
    have inArgs := fun (around : List (List Variable)) {state : Renaming} (lawful : state.Lawful) =>
      renames_renameArgs (fun arg member _ lawful => ih arg member (inside arg member) around lawful)
        lawful
    cases head with
    | var v =>
      obtain rfl : args = [] := List.length_eq_zero_iff.1 (root v rfl)
      exact .occurrence lawful around v negated
    | binder b =>
      have operands := inArgs
        (Renaming.number (b.quantifier == .universal) state.next b.bound :: around)
        (lawful.skip b.bound.length)
      rw [← Renaming.extend_scopeOf] at operands
      exact operands.quantified b negated
    | _ => exact (inArgs around lawful).application negated nofun nofun

/-! ### Renaming apart -/

/-- The result of renaming an expression apart in a session, with its free variables and the session
afterwards. -/
structure RenamedApart (session : Session) (e result : Expr) (free : List Variable)
    (after : Session) : Prop where
  /-- Only variables change, and they keep their names. -/
  bare : result.bare = e.bare
  /-- Where a quantifier binds a name, the last variable of that name in the innermost such
  quantifier occurs. -/
  bound : ∀ o ∈ result.occurrences [], ∀ v, o.binding? = some v → o.occurring = v
  /-- The free variables are those that occur where no quantifier binds their name. -/
  mem_free_iff : ∀ v, v ∈ free ↔ ∃ o ∈ result.occurrences [], o.binding? = none ∧ o.occurring = v
  /-- A name has one free variable. -/
  single : ∀ v ∈ free, ∀ w ∈ free, v.name = w.name → v = w
  /-- No number is given to two variables, and those given are the ones counted off. -/
  numbers : ((result.boundVariables ++ free).map Variable.id).Perm
    (List.range' session.nextSystem (after.nextSystem - session.nextSystem))
  /-- Exactly the variables of universal quantifiers are marked universal. -/
  marked : result.Marked ∧ ∀ v ∈ free, v.system ∧ v.universal = false
  /-- The counter goes up, and nothing else of the session changes. -/
  session : session.nextSystem ≤ after.nextSystem ∧
    after = { session with nextSystem := after.nextSystem }

/-- Renaming an expression apart changes its variables and nothing else. Every occurrence becomes
the last variable of its name in the innermost quantifier that binds the name, or the one free
variable of that name; quantified and free variables have different numbers, which are those that
the session has counted off; and those of universal quantifiers are marked universal. -/
theorem standardize_renamedApart {e : Expr} (firstOrder : e.FirstOrder) (session : Session) :
    ∃ free, RenamedApart session e (e.standardize session).1 free (e.standardize session).2 := by
  have lawful : Renaming.Lawful { next := session.nextSystem } :=
    ⟨List.forall_mem_nil _, List.forall_mem_nil _, .nil⟩
  have lawfulAfter := lawful_rename [] e lawful
  obtain ⟨bare, marked, grows, ⟨added, free, occurs, numbers⟩, resolved⟩ :=
    renames_rename firstOrder [] lawful
  simp only [occurrencesArgs, boundVariablesArgs, List.append_nil] at free occurs numbers resolved
  have lookedUp : ∀ o ∈ (e.standardize session).1.occurrences [],
      o.binding?.or ((added.find? (·.1 == o.occurring.name)).map (·.2)) = some o.occurring := by
    intro o member
    rw [← free, ← Renaming.lookup?_scopeOf]
    exact resolved o member
  have found : ∀ o ∈ (e.standardize session).1.occurrences [], o.binding? = none →
      (added.find? (·.1 == o.occurring.name)).map (·.2) = some o.occurring := by
    intro o member unbound
    have known := lookedUp o member
    rwa [unbound, Option.none_or] at known
  refine ⟨added.map Prod.snd, (List.cons.inj bare).1, ?bound, ?occursFree, ?single, numbers,
    ⟨marked _ List.mem_cons_self, ?unmarked⟩, grows.le, rfl⟩
  case bound =>
    intro o member v binds
    have known := lookedUp o member
    rw [binds, Option.some_or] at known
    exact (Option.some.inj known).symm
  case occursFree =>
    intro v
    constructor
    · intro listed
      obtain ⟨entry, inside, rfl⟩ := List.mem_map.1 listed
      exact occurs entry inside
    · rintro ⟨o, member, unbound, rfl⟩
      obtain ⟨entry, located, same⟩ := Option.map_eq_some_iff.1 (found o member unbound)
      exact List.mem_map.2 ⟨entry, List.mem_of_find?_eq_some located, same⟩
  case single =>
    intro v inFirst w inSecond sameName
    obtain ⟨first, listed, rfl⟩ := List.mem_map.1 inFirst
    obtain ⟨second, listedToo, rfl⟩ := List.mem_map.1 inSecond
    obtain ⟨o, member, unbound, here⟩ := occurs first listed
    obtain ⟨other, memberToo, unboundToo, there⟩ := occurs second listedToo
    have one := found o member unbound
    have two := found other memberToo unboundToo
    rw [here] at one
    rw [there, ← sameName] at two
    exact Option.some.inj (one.symm.trans two)
  case unmarked =>
    intro v listed
    obtain ⟨entry, inside, rfl⟩ := List.mem_map.1 listed
    have named := lawfulAfter.named entry (free ▸ inside)
    rw [named]
    exact ⟨rfl, rfl⟩

/-- A free variable on both sides of a universal quantifier, inside which an existential one binds
three variables, and another free variable at the end. -/
def shadowing (outer middle first second last free : Variable) : Expr :=
  binary .and (ofVariable outer)
    (binary .and
      (node (.binder ⟨.universal, [middle]⟩)
        [binary .or
          (node (.binder ⟨.existential, [first, second, last]⟩)
            [binary .and (ofVariable last) (ofVariable second)])
          (ofVariable middle)])
      (binary .and (ofVariable outer) (ofVariable free)))

/-- Two names for all of them, so that quantifiers shadow each other and one of them binds a name
twice. -/
def shadowed : Expr :=
  let x : Variable := ⟨"x", 0, false, false⟩
  let y : Variable := ⟨"y", 0, false, false⟩
  shadowing x x x y x y

/-- The same with variables numbered from 7 on. -/
def shadowedApart : Expr :=
  let v := Renaming.renamed
  shadowing (v "x" 7 false) (v "x" 8 true) (v "x" 9 false) (v "y" 10 false) (v "x" 11 false)
    (v "y" 12 false)

/-- A formula with shadowed names is renamed apart to the expected one, with the numbers from 7 to
12. -/
theorem standardize_shadowed :
    shadowed.FirstOrder ∧
      shadowed.standardize { nextSystem := 7 } = (shadowedApart, { nextSystem := 13 }) ∧
      ∃ free, RenamedApart { nextSystem := 7 } shadowed shadowedApart free { nextSystem := 13 } := by
  have firstOrder : shadowed.FirstOrder := by
    simp [FirstOrder, shadowed, shadowing, binary, node, ofVariable, leaf, Everywhere,
      EverywhereArgs]
  have renamed : shadowed.standardize { nextSystem := 7 } =
      (shadowedApart, { nextSystem := 13 }) := rfl
  have apart := standardize_renamedApart firstOrder { nextSystem := 7 }
  rw [renamed] at apart
  exact ⟨firstOrder, renamed, apart⟩

end Expr

end Refute
