import Refute.Normal.Form
import Refute.Proofs.ClausalForm
import Refute.Proofs.Reading

/-!
# Clauses of statements

The clauses of a statement say what the statement says, up to the operations of Skolem functions.
Every pass of the conversion keeps the truth of a formula in its own way; here they are put
together. A statement is true for values of its free names exactly when its clauses are true for
some operations of its Skolem functions, for all values of the universal variables, where the other
variables have the values of their names.
-/

namespace Refute

universe u

/-! ### The passes in a row -/

namespace Expr

variable {e : Expr}

/-- The formula with its variables apart, and what has been handed out for it. -/
def apartForm (session : Session) (e : Expr) : Expr × Renaming :=
  rename [] { next := session.nextSystem } (nnf false e)

/-- The free variables of the formula by their names. -/
def freeVariables (session : Session) (e : Expr) : List (String × Variable) :=
  (e.apartForm session).2.free

/-- The formula with Skolem functions for its existential variables, and the number of the next
Skolem function. -/
def skolemForm (session : Session) (e : Expr) : Expr × Nat :=
  skolemizeWith [] [] session.nextSkolem (e.apartForm session).1

/-- The conversion is its passes in a row, and the session counts off the numbers that they take. -/
theorem toCnf_eq (session : Session) (e : Expr) :
    e.toCnf session =
      ((e.skolemForm session).1.dropUniversals.distribute,
        { session with
          nextSystem := (e.apartForm session).2.next
          nextSkolem := (e.skolemForm session).2 }) := rfl

/-- Renaming starts with no free variables. -/
theorem lawful_start (session : Session) : Renaming.Lawful { next := session.nextSystem } :=
  ⟨nofun, nofun, .nil⟩

/-- The free variables of a formula that is renamed apart are lawful. -/
theorem lawful_apartForm (session : Session) (e : Expr) : (e.apartForm session).2.Lawful :=
  lawful_rename [] _ (lawful_start session)

/-- The free variables as a set. -/
def freeSet (session : Session) (e : Expr) : Set Variable :=
  {v | v ∈ (e.freeVariables session).map (·.2)}

/-- A formula without free names has no free variables. -/
theorem freeVariables_eq_nil (formula : e.Formula) (closed : e.freeNames = []) (session : Session) :
    e.freeVariables session = [] := by
  refine List.eq_nil_iff_forall_not_mem.2 fun entry member => ?_
  rcases mem_free_rename [] _ member with old | ⟨free, -⟩
  · exact absurd old List.not_mem_nil
  · have outside := formula.freeNames_nnf_subset false free
    rw [closed] at outside
    exact absurd outside List.not_mem_nil

/-- A formula that is renamed apart has its variables apart, with numbers that the session counts
off. -/
theorem apart_apartForm (formula : e.Formula) (skolemFree : e.SkolemFree) (session : Session) :
    (e.apartForm session).1.Apart Set.univ (e.freeSet session) ∅ session.nextSystem
      (e.apartForm session).2.next := by
  have known : ∀ entry ∈ (e.apartForm session).2.free, entry.2 ∈ e.freeSet session :=
    fun entry member => List.mem_map_of_mem member
  have apart := apart_rename (formula.normal false) (skolemFree.nnf formula false) []
    (lawful_start session) known (fun v => .inl)
  simpa [apartForm] using apart

/-- Renaming apart brings in no Skolem function. -/
theorem skolemFree_apartForm (formula : e.Formula) (skolemFree : e.SkolemFree) (session : Session) :
    (e.apartForm session).1.SkolemFree :=
  (skolemFree.nnf formula false).rename (formula.normal false) [] _

/-- Nothing stands around a statement. -/
theorem stands_nil (low next : Nat) : Skolem.Stands ∅ low [] [] next :=
  ⟨nofun, nofun, nofun, nofun, nofun⟩

/-- The Skolem form has universal quantifiers only, its variables are apart, and its Skolem
functions have numbers below the next one. -/
theorem apart_skolemForm (formula : e.Formula) (skolemFree : e.SkolemFree) (session : Session) :
    (e.skolemForm session).1.Apart {.universal} (e.freeSet session) ∅ session.nextSystem
        (e.apartForm session).2.next ∧
      session.nextSkolem ≤ (e.skolemForm session).2 ∧
      (e.skolemForm session).1.Everywhere fun head _ =>
        ∀ s, head = .skolem s → s.id < (e.skolemForm session).2 := by
  obtain ⟨apart, more, numbered⟩ := (apart_apartForm formula skolemFree session).skolemizeWith
    (skolemFree_apartForm formula skolemFree session) (stands_nil _ session.nextSkolem)
  exact ⟨by simpa [skolemForm] using apart, more, numbered⟩

/-- The normal form is a conjunction of disjunctions of atoms. Their Skolem functions have numbers
below the next one, and their variables are free ones and universal ones of this formula. -/
theorem conjunction_toCnf (formula : e.Formula) (skolemFree : e.SkolemFree) (session : Session) :
    (e.toCnf session).1.Conjunction fun atom =>
      (atom.Everywhere fun head _ => ∀ s, head = .skolem s → s.id < (e.skolemForm session).2) ∧
      atom.Over fun v => v ∈ e.freeSet session ∨
        v.Fresh (e.freeSet session) session.nextSystem (e.apartForm session).2.next ∧ v.universal := by
  obtain ⟨apart, -, numbered⟩ := apart_skolemForm formula skolemFree session
  rw [toCnf_eq]
  refine ((apart.matrix numbered).imp fun atom ⟨here, occurring⟩ => ⟨here, ?_⟩).distribute
  exact occurring.imp fun _ _ inside v occurs => (inside v occurs).resolve_left (Set.notMem_empty v)

end Expr

/-! ### Values of the variables of clauses -/

namespace Assignment

variable {D : Type u}

/-- Free variables have the values of their names. -/
def Fits (free : List (String × Variable)) (ρ : String → D) (β : Assignment D) : Prop :=
  ∀ entry ∈ free, β.get entry.2 = ρ entry.1

/-- Universal variables have the values of an assignment, all others those of their names. -/
def naming (α : Assignment D) (ρ : String → D) (v : Variable) : D :=
  if v.universal then α.get v else ρ v.name

/-- The free variables of a formula can be given the values of their names. -/
theorem exists_fits (session : Session) (e : Expr) (ρ : String → D) :
    ∃ β : Assignment D, β.Fits (e.freeVariables session) ρ := by
  refine ⟨fun identity => ((e.freeVariables session).find? (·.2.identity == identity)).elim (ρ "")
    fun entry => ρ entry.1, fun entry member => ?_⟩
  unfold get
  cases found : (e.freeVariables session).find? (·.2.identity == entry.2.identity) with
  | some other =>
    -- No number is handed out twice.
    have same := List.find?_some found
    have ids : other.2.id = entry.2.id := congrArg Prod.fst (eq_of_beq same)
    have equal := (Expr.lawful_apartForm session e).eq_of_id_eq (List.mem_of_find?_eq_some found)
      member ids
    simp only [found, equal, Option.elim_some]
  | none =>
    have missed := List.find?_eq_none.1 found entry member
    simp at missed

/-- Assignments that differ at fresh variables only both fit. -/
theorem Fits.varies {session : Session} {e : Expr} {ρ : String → D} {β γ : Assignment D}
    (fits : β.Fits (e.freeVariables session) ρ) {low high : Nat}
    (varies : β.Varies (e.freeSet session) low high γ) : γ.Fits (e.freeVariables session) ρ := by
  intro entry member
  have isFree : entry.2 ∈ e.freeSet session := List.mem_map_of_mem member
  rw [varies entry.2 fun fresh => fresh.new _ isFree rfl]
  exact fits entry member

/-- A free variable is not universal and has the value of its name. -/
theorem Fits.naming_free {session : Session} {e : Expr} {ρ : String → D} {β : Assignment D}
    (fits : β.Fits (e.freeVariables session) ρ) (α : Assignment D) {v : Variable}
    (isFree : v ∈ e.freeSet session) : α.naming ρ v = β.get v := by
  obtain ⟨entry, member, rfl⟩ := List.mem_map.1 isFree
  have named := (Expr.lawful_apartForm session e).named entry member
  rw [fits entry member, named]
  rfl

/-- A universal variable has the value of the assignment. -/
theorem naming_universal (α : Assignment D) (ρ : String → D) {v : Variable} (universal : v.universal) :
    α.naming ρ v = α.get v := if_pos universal

end Assignment

/-! ### What the clauses of a formula say -/

namespace Structure

variable {D : Type u} {M : Structure D} {e : Expr} {session : Session} {ρ : String → D}

/-- Renaming apart keeps the truth of a formula where free variables have the values of their
names. -/
theorem truth_apartForm (formula : e.Formula) (skolemFree : e.SkolemFree) {β : Assignment D}
    (fits : β.Fits (e.freeVariables session) ρ) :
    M.Truth Variable.name ρ e ↔ M.Truth Variable.identity β (e.apartForm session).1 := by
  have agrees : Renaming.Agrees [] (e.freeVariables session) ρ β := by
    intro name v found
    obtain ⟨entry, located, rfl⟩ := Option.map_eq_some_iff.1 found
    have named := List.find?_some located
    rw [fits entry (List.mem_of_find?_eq_some located), ← eq_of_beq named]
  have renamed := M.truth_rename (formula.normal false) (skolemFree.nnf formula false) []
    (Expr.lawful_start session) nofun agrees
  rw [← signed_false_iff (M.Truth Variable.name ρ e), ← M.truth_nnf _ formula, renamed]
  rfl

/-- The Skolem form is true when all clauses are, whatever the values of the universal variables. -/
theorem truth_skolemForm (formula : e.Formula) (skolemFree : e.SkolemFree) {β : Assignment D}
    (fits : β.Fits (e.freeVariables session) ρ) :
    M.Truth Variable.identity β (e.skolemForm session).1 ↔
      ∀ γ : Assignment D, γ.Fits (e.freeVariables session) ρ →
        ∀ clause ∈ (e.toCnf session).1.conjuncts, M.SomeTrue γ.get clause.literals := by
  obtain ⟨apart, -, numbered⟩ := Expr.apart_skolemForm formula skolemFree session
  have clauses : ∀ γ : Assignment D,
      M.Truth Variable.identity γ (e.skolemForm session).1.dropUniversals ↔
        ∀ clause ∈ (e.toCnf session).1.conjuncts, M.SomeTrue γ.get clause.literals := by
    intro γ
    rw [← M.truth_distribute _ _ (apart.matrix numbered)]
    exact M.truth_conjuncts γ (Expr.conjunction_toCnf formula skolemFree session)
  simp only [M.truth_dropUniversals apart nofun β, ← clauses]
  refine ⟨fun all γ fitsToo => ?_, fun all γ varies => all γ (fits.varies varies)⟩
  obtain ⟨δ, varies, taken⟩ := Assignment.exists_varies β γ (e.freeSet session) session.nextSystem
    (e.apartForm session).2.next
  refine (M.truth_dropUniversals_congr apart fun v known => ?_).1 (all δ varies)
  rcases known with none | isFree | fresh
  · exact absurd none (Set.notMem_empty v)
  · obtain ⟨entry, member, rfl⟩ := List.mem_map.1 isFree
    rw [fits.varies varies entry member, fitsToo entry member]
  · exact taken v fresh

/-- A formula is true if its clauses are, whatever the operations of Skolem functions. -/
theorem truth_of_conjuncts (formula : e.Formula) (skolemFree : e.SkolemFree) (F : Nat → List D → D)
    (true : ∀ γ : Assignment D, γ.Fits (e.freeVariables session) ρ →
      ∀ clause ∈ (e.toCnf session).1.conjuncts, (M.withSkolems F).SomeTrue γ.get clause.literals) :
    M.Truth Variable.name ρ e := by
  obtain ⟨β, fits⟩ := Assignment.exists_fits session e ρ
  have apart := Expr.apart_apartForm formula skolemFree session
  have plain := Expr.skolemFree_apartForm formula skolemFree session
  have witnessed := (M.withSkolems F).truth_of_truth_skolemizeWith apart plain
    (Expr.stands_nil _ session.nextSkolem) β ((truth_skolemForm formula skolemFree fits).2 true)
  rw [truth_apartForm formula skolemFree fits]
  rwa [through_nil, truth_withSkolems_iff _ apart.normal plain F M.skolems, withSkolems_skolems]
    at witnessed

/-- If a formula is true, its Skolem functions can be given operations under which its clauses are
true. No other Skolem function needs to be changed. -/
theorem exists_conjuncts_of_truth (formula : e.Formula) (skolemFree : e.SkolemFree)
    (true : M.Truth Variable.name ρ e) (F : Nat → List D → D) :
    ∃ G : Nat → List D → D,
      (∀ number, number < session.nextSkolem ∨ (e.toCnf session).2.nextSkolem ≤ number →
        G number = F number) ∧
      ∀ γ : Assignment D, γ.Fits (e.freeVariables session) ρ →
        ∀ clause ∈ (e.toCnf session).1.conjuncts,
          (M.withSkolems G).SomeTrue γ.get clause.literals := by
  obtain ⟨β, fits⟩ := Assignment.exists_fits session e ρ
  have apart := Expr.apart_apartForm formula skolemFree session
  have plain := Expr.skolemFree_apartForm formula skolemFree session
  obtain ⟨G, same, chosen⟩ := exists_truth_skolemizeWith (M := M) apart plain
    (Expr.stands_nil _ session.nextSkolem) F β
  refine ⟨G, same, (truth_skolemForm formula skolemFree fits).1 (chosen β (fun _ _ => rfl) ?_)⟩
  rw [through_nil, truth_withSkolems_iff _ apart.normal plain F M.skolems, withSkolems_skolems]
  exact (truth_apartForm formula skolemFree fits).1 true

/-- Clauses are true for all assignments that fit when they are true for all values of the universal
variables, the other variables having the values of their names. -/
theorem someTrue_naming_iff (formula : e.Formula) (skolemFree : e.SkolemFree) {clause : Clause}
    (member : clause ∈ (e.toCnf session).1.conjuncts) :
    (∀ α : Assignment D, M.SomeTrue (α.naming ρ) clause.literals) ↔
      ∀ γ : Assignment D, γ.Fits (e.freeVariables session) ρ → M.SomeTrue γ.get clause.literals := by
  have conjunction := Expr.conjunction_toCnf formula skolemFree session
  have occurring : ∀ literal ∈ clause.literals, literal.Over fun v => v ∈ e.freeSet session ∨
      v.Fresh (e.freeSet session) session.nextSystem (e.apartForm session).2.next ∧ v.universal := by
    intro literal inside
    obtain ⟨atom, -, ⟨-, occurring⟩, rfl⟩ := conjunction.exists_atom member inside
    exact occurring.literal
  constructor
  · rintro all γ fits
    obtain ⟨literal, inside, true⟩ := all γ
    refine ⟨literal, inside, ?_⟩
    rwa [← M.value_congr_leaves ((occurring literal inside).leaves.imp fun _ _ known v occurs =>
      (known v occurs).elim (fits.naming_free γ) fun ⟨_, universal⟩ => γ.naming_universal ρ universal)]
  · intro all α
    obtain ⟨β, fits⟩ := Assignment.exists_fits session e ρ
    obtain ⟨γ, varies, taken⟩ := Assignment.exists_varies β α (e.freeSet session) session.nextSystem
      (e.apartForm session).2.next
    obtain ⟨literal, inside, true⟩ := all γ (fits.varies varies)
    refine ⟨literal, inside, ?_⟩
    rwa [M.value_congr_leaves ((occurring literal inside).leaves.imp fun _ _ known v occurs => ?_)]
    rcases known v occurs with isFree | ⟨fresh, universal⟩
    · exact (fits.varies varies).naming_free α isFree
    · rw [α.naming_universal ρ universal, taken v fresh]

/-- A formula is true exactly when some operations of the Skolem functions make all its clauses
true, for all values of the universal variables. -/
theorem truth_iff_exists_skolems (formula : e.Formula) (skolemFree : e.SkolemFree)
    (session : Session) :
    M.Truth Variable.name ρ e ↔
      ∃ F : Nat → List D → D, ∀ clause ∈ (e.toCnf session).1.conjuncts, ∀ α : Assignment D,
        (M.withSkolems F).SomeTrue (α.naming ρ) clause.literals := by
  constructor
  · intro true
    obtain ⟨F, -, clauses⟩ := exists_conjuncts_of_truth formula skolemFree true M.skolems
    exact ⟨F, fun clause member => (someTrue_naming_iff formula skolemFree member).2 fun γ fits =>
      clauses γ fits clause member⟩
  · rintro ⟨F, clauses⟩
    exact truth_of_conjuncts formula skolemFree F fun γ fits clause member =>
      (someTrue_naming_iff formula skolemFree member).1 (clauses clause member) γ fits

end Structure

/-! ### Statements -/

/-- All clauses are true for all values of the universal variables, where the other variables have
the values of their names. -/
def Structure.SatisfiesForm {D : Type u} (M : Structure D) (ρ : String → D) (form : ClausalForm) :
    Prop :=
  ∀ clause ∈ form.clauses, ∀ α : Assignment D, M.SomeTrue (α.naming ρ) clause.literals

/-- A formula has clauses, and they say what it says up to the operations of Skolem functions. -/
theorem Expr.exists_form {e : Expr} (formula : e.Formula) (skolemFree : e.SkolemFree)
    (session : Session) {D : Type u} (M : Structure D) (ρ : String → D) :
    ∃ form, ClausalForm.ofPostfix (e.toCnf session).1.toPostfix = .ok form ∧
      (M.Truth Variable.name ρ e ↔ ∃ F, (M.withSkolems F).SatisfiesForm ρ form) := by
  obtain ⟨form, read, same⟩ :=
    ClausalForm.ofPostfix_toPostfix (conjunction_toCnf formula skolemFree session)
  refine ⟨form, read, ?_⟩
  rw [Structure.truth_iff_exists_skolems formula skolemFree session]
  simp only [Structure.SatisfiesForm, same.mem_iff]

namespace Statement

/-- Every statement that is read has clauses, and so has its negation. For all values of its free
names a statement is true exactly when some operations of the Skolem functions make its clauses true
for all values of the universal variables; its negation is true exactly when the same holds of the
clauses of the negation. -/
theorem truth_iff_exists_skolems_of_parse {session next : Session} {text : String}
    {statement : Statement} (parsed : parse session text = (.ok statement, next)) (current : Session)
    {D : Type u} (M : Structure D) (ρ : String → D) :
    (∃ form, (statement.clauses current).1 = .ok form ∧
      (M.Truth Variable.name ρ statement.formula ↔ ∃ F, (M.withSkolems F).SatisfiesForm ρ form)) ∧
    ∃ form, (statement.negatedClauses current).1 = .ok form ∧
      (¬ M.Truth Variable.name ρ statement.formula ↔
        ∃ F, (M.withSkolems F).SatisfiesForm ρ form) := by
  obtain ⟨formula, skolemFree⟩ := formula_of_parse parsed
  refine ⟨Expr.exists_form formula skolemFree current M ρ, ?_⟩
  rw [← M.truth_negate _ formula]
  exact Expr.exists_form formula.negate ((Expr.everywhere_signed _).2 skolemFree) current M ρ

/-- Integers, of which those that are not negative are true, and `P(x, y)` says that `x` is less
than `y`. -/
def integers : Structure Int where
  inhabited := ⟨0⟩
  operation
    | .rel _ => fun
      | [x, y] => y - x - 1
      | _ => 0
    | _ => fun _ => 0
  complement d := -1 - d
  holds d := 0 ≤ d
  operation_congr := by
    intro f g same
    cases f with
    | rel r =>
      cases g with
      | rel s => rfl
      | _ => cases same
    | _ =>
      cases g with
      | rel s => cases same
      | _ => rfl
  complement_complement := by intro d; omega
  holds_complement := by intro d; omega

/-- The session in which `P` takes two arguments. -/
def lessSession : Session := Session.empty.declareRelation ⟨⟨"P", 2, none⟩⟩

/-- `FORALL x, EXISTS y, P(x, y)`. -/
def unbounded : Statement :=
  let x : Variable := ⟨"x", 0, false, false⟩
  let y : Variable := ⟨"y", 1, false, false⟩
  let less : Symbol := .rel ⟨⟨"P", 2, none⟩⟩
  ⟨[.var x, .var y, less, .binder ⟨.existential, [y]⟩, .binder ⟨.universal, [x]⟩],
    .node (.binder ⟨.universal, [x]⟩) [.node (.binder ⟨.existential, [y]⟩)
      [.node less [.ofVariable x, .ofVariable y]]]⟩

/-- The clauses of a statement that is true of the integers are true of them for some Skolem
functions. -/
theorem exists_skolems_unbounded :
    parse lessSession "FORALL x, EXISTS y, P(x, y)" =
        (.ok unbounded, { lessSession with nextVariable := 2 }) ∧
      ∃ form, (unbounded.clauses lessSession).1 = .ok form ∧
        ∃ F, (integers.withSkolems F).SatisfiesForm (fun _ => 0) form := by
  have parsed : parse lessSession "FORALL x, EXISTS y, P(x, y)" =
    (.ok unbounded, { lessSession with nextVariable := 2 }) := rfl
  have true : integers.Truth Variable.name (fun _ => 0) unbounded.formula := by
    intro values
    refine ⟨fun _ => values "x" + 1, ?_⟩
    change 0 ≤ values "x" + 1 - values "x" - 1
    omega
  obtain ⟨⟨form, read, iff⟩, -⟩ :=
    truth_iff_exists_skolems_of_parse parsed lessSession integers fun _ => 0
  exact ⟨parsed, form, read, iff.1 true⟩

end Statement

end Refute
