import Refute.Proofs.Existential

/-!
# Names and numbers

An occurrence of a variable can be resolved by name, as the last variable of that name in the
innermost quantifier that binds it, or by number. `Expr.Scoped` says that the two ways agree in an
expression. Renaming goes by name. Where the ways agree, it does the same when every variable is
named by its number, and so the names carry nothing that the numbers do not.
-/

namespace Refute

/-! ### Occurrences -/

/-- An occurrence of a variable. -/
structure Occurrence where
  /-- The variable. -/
  occurring : Variable
  /-- The variables of the quantifiers around it, the innermost quantifier first. -/
  around : List (List Variable)

/-- What the name stands for where it occurs: the last variable of that name in the innermost
quantifier that binds it. -/
def Occurrence.binding? (o : Occurrence) : Option Variable :=
  o.around.findSome? fun bound => bound.reverse.find? (·.name == o.occurring.name)

/-- The variables in scope, those that shadow others first. -/
def Occurrence.scope (o : Occurrence) : List Variable := o.around.flatMap List.reverse

/-- A name stands for the first variable of that name in scope. -/
theorem Occurrence.binding?_eq_find? (o : Occurrence) :
    o.binding? = o.scope.find? (·.name == o.occurring.name) :=
  List.find?_flatMap.symm

namespace Expr

mutual

/-- The occurrences of variables inside quantifiers whose variables are given. -/
def occurrences (around : List (List Variable)) : Expr → List Occurrence
  | ⟨.binder b, _, args⟩ => occurrencesArgs (b.bound :: around) args
  | ⟨.var v, _, args⟩ => ⟨v, around⟩ :: occurrencesArgs around args
  | ⟨_, _, args⟩ => occurrencesArgs around args

/-- The occurrences of variables in several operands. -/
def occurrencesArgs (around : List (List Variable)) : List Expr → List Occurrence
  | [] => []
  | a :: as => occurrences around a ++ occurrencesArgs around as

end

/-- Occurrences of names are occurrences of what the names stand for. -/
structure Scoped (e : Expr) : Prop where
  /-- A name that a quantifier binds has the number of the variable it stands for. -/
  bound : ∀ o ∈ e.occurrences [], ∀ v, o.binding? = some v → o.occurring.id = v.id
  /-- A name that no quantifier around it binds has a number that no quantifier binds. -/
  free : ∀ o ∈ e.occurrences [], o.binding? = none → ∀ v ∈ e.boundVariables, o.occurring.id ≠ v.id
  /-- Free occurrences of one name have one number. -/
  shared : ∀ o ∈ e.occurrences [], ∀ other ∈ e.occurrences [], o.binding? = none →
    other.binding? = none → o.occurring.name = other.occurring.name →
    o.occurring.id = other.occurring.id

/-- The occurrences in operands come operand by operand. -/
theorem occurrencesArgs_eq_flatMap (around : List (List Variable)) (args : List Expr) :
    occurrencesArgs around args = args.flatMap (occurrences around) := by
  induction args with
  | nil => rfl
  | cons a as ih => simp [occurrencesArgs, ih]

/-- The quantified variables of operands come operand by operand. -/
theorem boundVariablesArgs_eq_flatMap (args : List Expr) :
    boundVariablesArgs args = args.flatMap boundVariables := by
  induction args with
  | nil => rfl
  | cons a as ih => simp [boundVariablesArgs, ih]

/-- The occurrences in the left operand come before those in the right one. -/
@[simp] theorem occurrences_binary (around : List (List Variable)) (operator : Operator) (a b : Expr) :
    (binary operator a b).occurrences around = a.occurrences around ++ b.occurrences around := by
  simp [binary, node, occurrences, occurrencesArgs]

/-- Inside a quantifier its variables are the innermost ones. -/
@[simp] theorem occurrences_quantified (around : List (List Variable)) (binder : Binder)
    (body : Expr) :
    (node (.binder binder) [body]).occurrences around = body.occurrences (binder.bound :: around) := by
  simp [node, occurrences, occurrencesArgs]

/-- A variable in scope is in scope around the expression, or a quantifier inside binds it. -/
theorem mem_scope_of_mem_occurrences {e : Expr} {around : List (List Variable)} {o : Occurrence}
    (occurs : o ∈ e.occurrences around) {v : Variable} (inScope : v ∈ o.scope) :
    (∃ bound ∈ around, v ∈ bound) ∨ v ∈ e.boundVariables := by
  induction e using Expr.induction generalizing around with
  | node head negated args ih =>
    have inArgs : ∀ around, o ∈ occurrencesArgs around args →
        (∃ bound ∈ around, v ∈ bound) ∨ v ∈ boundVariablesArgs args := by
      intro around occurs
      rw [occurrencesArgs_eq_flatMap] at occurs
      obtain ⟨arg, member, inside⟩ := List.mem_flatMap.1 occurs
      rw [boundVariablesArgs_eq_flatMap]
      exact (ih arg member inside).imp_right fun bound => List.mem_flatMap.2 ⟨arg, member, bound⟩
    cases head with
    | binder b =>
      rw [boundVariables, List.mem_append]
      obtain ⟨bound, listed, member⟩ | inside := inArgs _ occurs
      · rcases List.mem_cons.1 listed with rfl | outer
        · exact .inr (.inl member)
        · exact .inl ⟨bound, outer, member⟩
      · exact .inr (.inr inside)
    | var w =>
      rcases List.mem_cons.1 occurs with rfl | inside
      · obtain ⟨bound, listed, member⟩ := List.mem_flatMap.1 inScope
        exact .inl ⟨bound, listed, List.mem_reverse.1 member⟩
      · exact inArgs around inside
    | _ => exact inArgs around occurs

/-- Negation normal form brings in neither occurrences nor quantified variables. -/
theorem Formula.occurrences_nnf_subset {e : Expr} (formula : e.Formula) (flip : Bool) :
    (∀ around, (nnf flip e).occurrences around ⊆ e.occurrences around) ∧
      (nnf flip e).boundVariables ⊆ e.boundVariables := by
  refine formula.nnf_induction (Q := fun e result =>
    (∀ around, result.occurrences around ⊆ e.occurrences around) ∧
      result.boundVariables ⊆ e.boundVariables) ?atom ?operand ?junction ?quantified flip
  case atom =>
    intro e flip isAtom
    obtain ⟨negated, args, rfl, same⟩ | same := nnf_atom_cases isAtom flip
    · rw [same]
      exact ⟨fun _ => List.Subset.refl _, List.Subset.refl _⟩
    · rw [same]
      cases e with
      | mk head negated args =>
        cases head <;> exact ⟨fun _ => List.Subset.refl _, List.Subset.refl _⟩
  case operand =>
    intro operator negated args part result member passes
    refine ⟨fun around o occurs => ?_, fun v bound => ?_⟩
    · change o ∈ occurrencesArgs around args
      rw [occurrencesArgs_eq_flatMap]
      exact List.mem_flatMap.2 ⟨part, member, passes.1 around occurs⟩
    · change v ∈ boundVariablesArgs args
      rw [boundVariablesArgs_eq_flatMap]
      exact List.mem_flatMap.2 ⟨part, member, passes.2 bound⟩
  case junction =>
    intro e operator a b _ left right
    refine ⟨fun around o occurs => ?_, ?_⟩
    · change o ∈ occurrencesArgs around [a, b] at occurs
      rw [occurrencesArgs_eq_flatMap] at occurs
      obtain ⟨arg, member, inside⟩ := List.mem_flatMap.1 occurs
      rcases List.mem_cons.1 member with rfl | member
      · exact left.1 around inside
      · exact right.1 around (List.mem_singleton.1 member ▸ inside)
    · rw [boundVariables_binary]
      exact List.append_subset.2 ⟨left.2, right.2⟩
  case quantified =>
    intro binder negated body result quantifier passes
    have extended : ∀ {small large around}, small.occurrences around ⊆ large.occurrences around →
        occurrencesArgs around [small] ⊆ occurrencesArgs around [large] := by
      intro small large around subset
      simpa [occurrencesArgs] using subset
    refine ⟨fun around => extended (passes.1 (binder.bound :: around)), ?_⟩
    rw [boundVariables_quantified]
    simp only [boundVariables, boundVariablesArgs, List.append_nil]
    exact List.append_subset.2 ⟨List.subset_append_left _ _,
      List.Subset.trans passes.2 (List.subset_append_right _ _)⟩

end Expr

/-! ### Naming variables anew -/

/-- The variable under another name. -/
def Variable.relabel (label : Variable → String) (v : Variable) : Variable :=
  { v with name := label v }

/-- The symbol with its variables under other names. -/
def Symbol.relabel (label : Variable → String) : Symbol → Symbol
  | .var v => .var (v.relabel label)
  | .binder b => .binder { b with bound := b.bound.map (Variable.relabel label) }
  | symbol => symbol

namespace Expr

mutual

/-- The expression with its variables under other names. -/
def relabel (label : Variable → String) : Expr → Expr
  | ⟨head, negated, args⟩ => ⟨head.relabel label, negated, relabelArgs label args⟩

/-- Operands with their variables under other names. -/
def relabelArgs (label : Variable → String) : List Expr → List Expr
  | [] => []
  | a :: as => relabel label a :: relabelArgs label as

end

/-- The expression without the names of its variables. -/
def anonymous (e : Expr) : Expr := e.relabel fun _ => ""

/-- Operands are relabelled one by one. -/
theorem relabelArgs_eq_map (label : Variable → String) (args : List Expr) :
    relabelArgs label args = args.map (relabel label) := by
  induction args with
  | nil => rfl
  | cons a as ih => simp [relabelArgs, ih]

/-- Naming variables as they are named changes nothing. -/
theorem relabel_name (e : Expr) : e.relabel Variable.name = e := by
  induction e using Expr.induction with
  | node head negated args ih =>
    have same : head.relabel Variable.name = head := by
      have kept : Variable.relabel Variable.name = id := rfl
      cases head <;> simp [Symbol.relabel, kept]
    rw [relabel, same, relabelArgs_eq_map, List.map_congr_left ih, List.map_id']

/-- Names leave no trace in an expression without names. -/
theorem anonymous_relabel (label : Variable → String) (e : Expr) :
    (e.relabel label).anonymous = e.anonymous := by
  induction e using Expr.induction with
  | node head negated args ih =>
    have same : (head.relabel label).relabel (fun _ => "") = head.relabel fun _ => "" := by
      cases head <;> simp [Symbol.relabel, Variable.relabel]
    unfold anonymous at ih ⊢
    simp only [relabel, same, relabelArgs_eq_map, List.map_map, Function.comp_def]
    rw [List.map_congr_left ih]

end Expr

/-! ### Two ways of naming -/

/-- Two tests find the same if the first that passes one also passes the other, which nothing else
passes. -/
theorem find?_eq_of_first {α : Type} {p q : α → Bool} {as : List α} (implied : ∀ a ∈ as, q a → p a)
    (first : ∀ a, as.find? p = some a → q a) : as.find? p = as.find? q := by
  induction as with
  | nil => rfl
  | cons a as ih =>
    rw [List.forall_mem_cons] at implied
    by_cases passes : p a
    · have both : q a := first a (List.find?_cons_of_pos passes)
      rw [List.find?_cons_of_pos passes, List.find?_cons_of_pos both]
    · have neither : ¬ q a := fun other => passes (implied.1 other)
      rw [List.find?_cons_of_neg passes] at first ⊢
      rw [List.find?_cons_of_neg neither]
      exact ih implied.2 first

namespace Renaming

/-- Variables as names stand for them: every pair is a variable and what it is renamed to. -/
def entries (label : Variable → String) (pairs : List (Variable × Variable)) :
    List (String × Variable) :=
  pairs.map fun pair => (label pair.1, { pair.2 with name := label pair.1 })

/-- The state that is about to hand out a number and has handed out pairs for free variables. -/
def handing (label : Variable → String) (next : Nat) (pairs : List (Variable × Variable)) : Renaming :=
  ⟨next, entries label pairs⟩

/-- The states are about to hand out the same number, and have handed out the same pairs for free
variables, each under its own names. -/
def Alike (first second : Variable → String) (free : Variable → Prop) (state other : Renaming) :
    Prop :=
  ∃ next pairs, (∀ pair ∈ pairs, free pair.1) ∧ state = handing first next pairs ∧
    other = handing second next pairs

variable {label : Variable → String} {pairs : List (Variable × Variable)}

/-- What a name stands for is the variable that is labelled so. -/
theorem find?_entries (name : String) :
    (entries label pairs).find? (·.1 == name) = (pairs.find? fun pair => label pair.1 == name).map
      fun pair => (label pair.1, { pair.2 with name := label pair.1 }) :=
  List.find?_map ..

/-- Variables under other names get the same numbers. -/
theorem number_relabel (universal : Bool) (next : Nat) (bound : List Variable) :
    number universal next (bound.map (Variable.relabel label)) =
      (bound.zip (number universal next bound)).map fun pair =>
        { pair.2 with name := label pair.1 } := by
  induction bound generalizing next with
  | nil => rfl
  | cons v rest ih => simp [number, renamed, Variable.relabel, ih]

/-- Every variable of a quantifier gets a number. -/
theorem length_number (universal : Bool) (next : Nat) (bound : List Variable) :
    (number universal next bound).length = bound.length := by
  induction bound generalizing next with
  | nil => rfl
  | cons v rest ih => simp [number, ih]

/-- A scope is extended alike under other names. -/
theorem extend_entries (universal : Bool) (next : Nat) (bound : List Variable) :
    extend (entries label pairs) (number universal next (bound.map (Variable.relabel label))) =
      entries label ((bound.zip (number universal next bound)).reverse ++ pairs) := by
  rw [extend_eq, number_relabel, entries, entries, List.map_append, List.map_map, List.map_reverse]
  rfl

end Renaming

/-- Two ways of naming find the same variable for an occurrence: the one that is found by the first
name is found by the second, and among the free variables both tell the same apart. -/
structure Occurrence.Alike (first second : Variable → String) (free : Variable → Prop)
    (o : Occurrence) : Prop where
  /-- Around the occurrence the second way tells apart what the first does. -/
  implied : ∀ v ∈ o.scope, second v = second o.occurring → first v = first o.occurring
  /-- What the first way finds has the name of the second. -/
  found : ∀ v, o.scope.find? (first · == first o.occurring) = some v →
    second v = second o.occurring
  /-- What the first way does not find is free. -/
  missed : o.scope.find? (first · == first o.occurring) = none →
    free o.occurring ∧ ∀ v, free v → (first v = first o.occurring ↔ second v = second o.occurring)

section Alike

variable {first second : Variable → String} {free : Variable → Prop}
variable {pairs handed : List (Variable × Variable)}

/-- An occurrence gets the same number under both names. -/
theorem Renaming.resolve_alike {o : Occurrence} (alike : o.Alike first second free)
    (located : pairs.map Prod.fst = o.scope) (known : ∀ pair ∈ handed, free pair.1) (next : Nat) :
    ((resolve (entries first pairs) (handing first next handed) (first o.occurring)).1.relabel
        fun _ => "") =
      ((resolve (entries second pairs) (handing second next handed) (second o.occurring)).1.relabel
        fun _ => "") ∧
    Renaming.Alike first second free
      (resolve (entries first pairs) (handing first next handed) (first o.occurring)).2
      (resolve (entries second pairs) (handing second next handed) (second o.occurring)).2 := by
  have inScope : o.scope.find? (first · == first o.occurring) =
      (pairs.find? fun pair => first pair.1 == first o.occurring).map Prod.fst := by
    rw [← located]
    exact List.find?_map ..
  have same : (pairs.find? fun pair => first pair.1 == first o.occurring) =
      pairs.find? fun pair => second pair.1 == second o.occurring := by
    refine find?_eq_of_first (fun pair member => ?_) (fun pair found => ?_)
    · have around : pair.1 ∈ o.scope := located ▸ List.mem_map_of_mem member
      simpa using alike.implied pair.1 around
    · rw [found] at inScope
      simpa using alike.found pair.1 inScope
  unfold resolve
  simp only [handing, find?_entries, ← same]
  cases found : pairs.find? fun pair => first pair.1 == first o.occurring with
  | some pair => exact ⟨rfl, next, handed, known, rfl, rfl⟩
  | none =>
    rw [found] at inScope
    obtain ⟨isFree, tells⟩ := alike.missed inScope
    have sameFree : (handed.find? fun pair => first pair.1 == first o.occurring) =
        handed.find? fun pair => second pair.1 == second o.occurring := by
      refine find?_eq_of_first (fun pair member => ?_) (fun pair found => ?_)
      · simpa using (tells pair.1 (known pair member)).2
      · have matched := List.find?_some found
        simpa using (tells pair.1 (known pair (List.mem_of_find?_eq_some found))).1
          (beq_iff_eq.1 matched)
    rw [← sameFree]
    cases met : handed.find? fun pair => first pair.1 == first o.occurring with
    | some pair => exact ⟨rfl, next, handed, known, rfl, rfl⟩
    | none =>
      exact ⟨rfl, next + 1, (o.occurring, renamed "" next false) :: handed,
        List.forall_mem_cons.2 ⟨isFree, known⟩, rfl, rfl⟩

namespace Expr

/-- Renaming when variables are named in another way: the pairs are in scope, and others were handed
out for free variables. -/
def renameAs (label : Variable → String) (pairs handed : List (Variable × Variable)) (next : Nat)
    (e : Expr) : Expr × Renaming :=
  rename (Renaming.entries label pairs) (Renaming.handing label next handed) (e.relabel label)

/-- Renaming operands when variables are named in another way. -/
def renameArgsAs (label : Variable → String) (pairs handed : List (Variable × Variable)) (next : Nat)
    (args : List Expr) : List Expr × Renaming :=
  renameArgs (Renaming.entries label pairs) (Renaming.handing label next handed)
    (relabelArgs label args)

/-- Operands are renamed alike if each of them is. -/
theorem renameArgs_alike {args : List Expr}
    (each : ∀ arg ∈ args, ∀ handed next, (∀ pair ∈ handed, free pair.1) →
      (renameAs first pairs handed next arg).1.anonymous =
          (renameAs second pairs handed next arg).1.anonymous ∧
        Renaming.Alike first second free (renameAs first pairs handed next arg).2
          (renameAs second pairs handed next arg).2)
    (known : ∀ pair ∈ handed, free pair.1) (next : Nat) :
    (renameArgsAs first pairs handed next args).1.map anonymous =
        (renameArgsAs second pairs handed next args).1.map anonymous ∧
      Renaming.Alike first second free (renameArgsAs first pairs handed next args).2
        (renameArgsAs second pairs handed next args).2 := by
  induction args generalizing handed next with
  | nil => exact ⟨rfl, next, handed, known, rfl, rfl⟩
  | cons a as ih =>
    rw [List.forall_mem_cons] at each
    obtain ⟨sameHead, later, given, knownLater, one, other⟩ := each.1 handed next known
    obtain ⟨sameRest, alike⟩ := ih each.2 knownLater later
    unfold renameAs at sameHead one other
    unfold renameArgsAs at sameRest alike ⊢
    dsimp only [relabelArgs, renameArgs]
    rw [one, other, List.map_cons, List.map_cons, sameHead, sameRest]
    exact ⟨rfl, alike⟩

/-- Two ways of naming that find the same variables lead to the same numbers. -/
theorem rename_alike {e : Expr} {around : List (List Variable)}
    (alike : ∀ o ∈ e.occurrences around, o.Alike first second free)
    (located : pairs.map Prod.fst = around.flatMap List.reverse)
    (known : ∀ pair ∈ handed, free pair.1) (next : Nat) :
    (renameAs first pairs handed next e).1.anonymous =
        (renameAs second pairs handed next e).1.anonymous ∧
      Renaming.Alike first second free (renameAs first pairs handed next e).2
        (renameAs second pairs handed next e).2 := by
  induction e using Expr.induction generalizing around pairs handed next with
  | node head negated args ih =>
    have inArgs : ∀ {around pairs handed} next,
        (∀ o ∈ occurrencesArgs around args, o.Alike first second free) →
        pairs.map Prod.fst = around.flatMap List.reverse → (∀ pair ∈ handed, free pair.1) →
        (renameArgsAs first pairs handed next args).1.map anonymous =
            (renameArgsAs second pairs handed next args).1.map anonymous ∧
          Renaming.Alike first second free (renameArgsAs first pairs handed next args).2
            (renameArgsAs second pairs handed next args).2 := by
      intro around pairs handed next alike located known
      refine renameArgs_alike (fun arg member handed next known => ?_) known next
      refine ih arg member (fun o occurs => alike o ?_) located known next
      rw [occurrencesArgs_eq_flatMap]
      exact List.mem_flatMap.2 ⟨arg, member, occurs⟩
    have assembled : ∀ {one other : Symbol} {left right : List Expr},
        one.relabel (fun _ => "") = other.relabel (fun _ => "") →
        left.map anonymous = right.map anonymous →
        anonymous ⟨one, negated, left⟩ = anonymous ⟨other, negated, right⟩ := by
      intro one other left right heads arguments
      unfold anonymous at arguments ⊢
      rw [relabel, relabel, heads, relabelArgs_eq_map, relabelArgs_eq_map]
      exact congrArg _ arguments
    cases head with
    | binder b =>
      obtain ⟨quantifier, bound⟩ := b
      let numbered := Renaming.number (quantifier == .universal) next bound
      have opened : ∀ label,
          renameAs label pairs handed next ⟨.binder ⟨quantifier, bound⟩, negated, args⟩ =
            (⟨.binder ⟨quantifier, Renaming.number (quantifier == .universal) next
                (bound.map (Variable.relabel label))⟩, negated,
              (renameArgsAs label ((bound.zip numbered).reverse ++ pairs) handed
                (next + bound.length) args).1⟩,
            (renameArgsAs label ((bound.zip numbered).reverse ++ pairs) handed
              (next + bound.length) args).2) := by
        intro label
        simp [renameAs, renameArgsAs, relabel, Symbol.relabel, rename, Renaming.handing,
          Renaming.extend_entries, numbered]
      have inside : ((bound.zip numbered).reverse ++ pairs).map Prod.fst =
          (bound :: around).flatMap List.reverse := by
        have length : bound.length ≤ numbered.length := (Renaming.length_number _ _ _).ge
        rw [List.map_append, List.map_reverse, List.map_fst_zip length, located, List.flatMap_cons]
      obtain ⟨same, states⟩ := inArgs (next + bound.length) alike inside known
      rw [opened, opened]
      refine ⟨assembled ?_ same, states⟩
      simp [Symbol.relabel, Renaming.number_relabel, Variable.relabel]
    | var v =>
      obtain ⟨same, states⟩ := Renaming.resolve_alike
        (alike ⟨v, around⟩ List.mem_cons_self) located known next
      refine ⟨assembled (congrArg Symbol.var same) ?_, states⟩
      simp only [relabelArgs_eq_map, List.map_map, Function.comp_def, anonymous_relabel]
    | _ =>
      obtain ⟨same, states⟩ := inArgs next alike located known
      exact ⟨assembled rfl same, states⟩

end Expr

end Alike

namespace Expr

/-- Renaming apart gives every variable the number that it would give it if variables were named by
their numbers. -/
def StandardizedByNumber (e : Expr) : Prop :=
  ∀ (session : Session) (label : Nat → String), Function.Injective label →
    ((e.relabel fun v => label v.id).standardize session).1.anonymous =
        (e.standardize session).1.anonymous ∧
      ((e.relabel fun v => label v.id).standardize session).2 = (e.standardize session).2

/-- Variables with one number are one variable. -/
def Numbered (e : Expr) : Prop :=
  ∀ v ∈ e.boundVariables ++ (e.occurrences []).map Occurrence.occurring,
    ∀ w ∈ e.boundVariables ++ (e.occurrences []).map Occurrence.occurring, v.id = w.id → v = w

/-- Where names stand for the variables that occur, renaming by name is renaming by number. -/
theorem Scoped.standardizedByNumber {e : Expr} (agrees : e.Scoped) (numbered : e.Numbered) :
    e.StandardizedByNumber := by
  intro session label injective
  have occurring : ∀ {o}, o ∈ e.occurrences [] →
      o.occurring ∈ e.boundVariables ++ (e.occurrences []).map Occurrence.occurring :=
    fun occurs => List.mem_append_right _ (List.mem_map_of_mem occurs)
  have alike : ∀ o ∈ e.occurrences [], o.Alike Variable.name (fun v => label v.id)
      fun v => ∃ o ∈ e.occurrences [], o.binding? = none ∧ o.occurring = v := by
    intro o occurs
    refine ⟨fun v inScope same => ?_, fun v found => ?_, fun missed => ?_⟩
    · obtain ⟨bound, listed, -⟩ | bound := mem_scope_of_mem_occurrences occurs inScope
      · cases listed
      · rw [numbered v (List.mem_append_left _ bound) _ (occurring occurs) (injective same)]
    · rw [← o.binding?_eq_find?] at found
      exact congrArg label (agrees.bound o occurs v found).symm
    · rw [← o.binding?_eq_find?] at missed
      refine ⟨⟨o, occurs, missed, rfl⟩, ?_⟩
      rintro v ⟨other, otherOccurs, unbound, rfl⟩
      constructor
      · intro same
        exact congrArg label (agrees.shared other otherOccurs o occurs unbound missed same)
      · intro same
        rw [numbered _ (occurring otherOccurs) _ (occurring occurs) (injective same)]
  have located : ([] : List (Variable × Variable)).map Prod.fst = [].flatMap List.reverse := rfl
  obtain ⟨same, next, given, -, byName, byNumber⟩ :=
    rename_alike alike located (List.forall_mem_nil _) session.nextSystem
  unfold renameAs at same byName byNumber
  rw [relabel_name] at same byName
  refine ⟨same.symm, ?_⟩
  have counters := (congrArg Renaming.next byNumber).trans (congrArg Renaming.next byName).symm
  exact congrArg (fun count => { session with nextSystem := count }) counters

/-- Names and numbers agree in a part of what they agree in. -/
theorem Scoped.mono {e smaller : Expr} (agrees : e.Scoped)
    (occurrences : smaller.occurrences [] ⊆ e.occurrences [])
    (bound : smaller.boundVariables ⊆ e.boundVariables) : smaller.Scoped where
  bound o occurs := agrees.bound o (occurrences occurs)
  free o occurs unbound v member := agrees.free o (occurrences occurs) unbound v (bound member)
  shared o occurs other otherOccurs :=
    agrees.shared o (occurrences occurs) other (occurrences otherOccurs)

/-- Variables with one number are one variable in a part of what they are so in. -/
theorem Numbered.mono {e smaller : Expr} (numbered : e.Numbered)
    (occurrences : smaller.occurrences [] ⊆ e.occurrences [])
    (bound : smaller.boundVariables ⊆ e.boundVariables) : smaller.Numbered := by
  have subset : smaller.boundVariables ++ (smaller.occurrences []).map Occurrence.occurring ⊆
      e.boundVariables ++ (e.occurrences []).map Occurrence.occurring :=
    List.append_subset.2 ⟨List.Subset.trans bound (List.subset_append_left _ _),
      List.Subset.trans (List.map_subset _ occurrences) (List.subset_append_right _ _)⟩
  exact fun v first w second => numbered v (subset first) w (subset second)

/-- The normal form on the way to clauses is renamed by number. -/
theorem Scoped.standardizedByNumber_nnf {e : Expr} (agrees : e.Scoped) (numbered : e.Numbered)
    (formula : e.Formula) (flip : Bool) : (nnf flip e).StandardizedByNumber := by
  obtain ⟨occurrences, bound⟩ := formula.occurrences_nnf_subset flip
  exact (agrees.mono (occurrences []) bound).standardizedByNumber
    (numbered.mono (occurrences []) bound)

/-- Negation leaves the occurrences of variables. -/
theorem occurrences_negate (around : List (List Variable)) (e : Expr) :
    e.negate.occurrences around = e.occurrences around := by
  obtain ⟨head, negated, args⟩ := e
  cases head <;> rfl

/-- Negation leaves the quantified variables. -/
theorem boundVariables_negate (e : Expr) : e.negate.boundVariables = e.boundVariables := by
  obtain ⟨head, negated, args⟩ := e
  cases head <;> rfl

end Expr

end Refute
