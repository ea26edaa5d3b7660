import Mathlib.Data.List.Forall2
import Mathlib.Logic.Relation
import Refute.Expr.Basic

/-!
# Rewriting

A pass of the conversion to normal form applies rules to an expression until none applies. A rule
applies at the root, or at an operand of a symbol that the pass enters; whether it enters a symbol
depends on the sign and on the number of operands as well. `Expr.Rewrites` is one application of a
rule, and a run of the pass is a sequence of them.

What a run keeps is said of the rules and of one operand, and what a run can reach is put together
from what the runs of the operands reach. An expression is settled when no rule applies any more.
-/

open Relation (ReflTransGen)

namespace Refute

namespace Expr

/-- A rule is applied at the root or at an operand of a symbol that is entered. -/
inductive Rewrites (enters : Symbol → Bool → Nat → Prop) (rule : Expr → Expr → Prop) :
    Expr → Expr → Prop
  /-- At the root. -/
  | root {e f : Expr} (applies : rule e f) : Rewrites enters rule e f
  /-- Inside an operand. -/
  | operand {head : Symbol} {negated : Bool} {before after : List Expr} {a b : Expr}
      (entered : enters head negated (before ++ a :: after).length)
      (inner : Rewrites enters rule a b) :
      Rewrites enters rule ⟨head, negated, before ++ a :: after⟩
        ⟨head, negated, before ++ b :: after⟩

variable {enters : Symbol → Bool → Nat → Prop} {rule : Expr → Expr → Prop} {e f : Expr}

/-- What the two sides of every rule share, and applications that are entered share if their
operands do, the two sides of every step share. -/
theorem Rewrites.congr {β : Sort*} {F : Expr → β} (atRoot : ∀ {e f}, rule e f → F e = F f)
    (operand : ∀ {head negated before after a b},
      enters head negated (before ++ a :: after).length → F a = F b →
      F ⟨head, negated, before ++ a :: after⟩ = F ⟨head, negated, before ++ b :: after⟩)
    (step : Rewrites enters rule e f) : F e = F f := by
  induction step with
  | root applies => exact atRoot applies
  | operand entered _ ih => exact operand entered ih

/-- No step leads on from the expression. -/
def Settled (step : Expr → Expr → Prop) (e : Expr) : Prop := ∀ f, ¬ step e f

/-- An expression is settled when no rule applies at the root and the operands that are entered are
settled. -/
theorem settled_iff {head : Symbol} {negated : Bool} {args : List Expr} :
    Settled (Rewrites enters rule) ⟨head, negated, args⟩ ↔
      Settled rule ⟨head, negated, args⟩ ∧
        (enters head negated args.length → ∀ arg ∈ args, Settled (Rewrites enters rule) arg) := by
  constructor
  · intro settled
    refine ⟨fun f applies => settled f (.root applies), fun entered arg member f inner => ?_⟩
    obtain ⟨before, after, rfl⟩ := List.append_of_mem member
    exact settled _ (.operand entered inner)
  · rintro ⟨root, operands⟩ f step
    cases step with
    | root applies => exact root f applies
    | operand entered inner => exact operands entered _ (by simp) _ inner

/-- A run from a settled expression does not leave it. -/
theorem Settled.eq_of_run {step : Expr → Expr → Prop} (settled : Settled step e)
    (run : ReflTransGen step e f) : e = f := by
  obtain same | ⟨next, first, -⟩ := run.cases_head
  · exact same
  · exact absurd first (settled next)

/-- What steps share is shared by all expressions of a run. -/
theorem eq_of_run {α : Type*} {β : Sort*} {r : α → α → Prop} {F : α → β}
    (step : ∀ {a b}, r a b → F a = F b) {a b : α} (run : ReflTransGen r a b) : F a = F b := by
  induction run with
  | refl => rfl
  | tail _ last ih => exact ih.trans (step last)

/-- Runs of the operands of a symbol that is entered make up a run of the application. -/
theorem run_operands {head : Symbol} {negated : Bool} {args results : List Expr}
    (entered : enters head negated args.length)
    (runs : List.Forall₂ (ReflTransGen (Rewrites enters rule)) args results) :
    ReflTransGen (Rewrites enters rule) ⟨head, negated, args⟩ ⟨head, negated, results⟩ := by
  -- The operands to the left have been rewritten, those to the right not yet.
  have sweep : ∀ before : List Expr, enters head negated (before ++ args).length →
      ReflTransGen (Rewrites enters rule) ⟨head, negated, before ++ args⟩
        ⟨head, negated, before ++ results⟩ := by
    clear entered
    induction runs with
    | nil => exact fun _ _ => .refl
    | @cons a b as bs first _ ih =>
      intro before entered
      have here : ReflTransGen (Rewrites enters rule) ⟨head, negated, before ++ a :: as⟩
          ⟨head, negated, before ++ b :: as⟩ := by
        refine ReflTransGen.lift (fun c => Expr.mk head negated (before ++ c :: as))
          (fun c d step => ?_) a b first
        exact .operand (by simpa using entered) step
      have others := ih (before ++ [b]) (by simpa [Nat.add_right_comm] using entered)
      simp only [List.append_assoc, List.singleton_append] at others
      exact here.trans others
  exact sweep [] entered

/-- A pass that enters an operator can run in both of its operands. -/
theorem run_binary {operator : Operator} {negated : Bool} {a b c d : Expr}
    (entered : enters (.op operator) negated 2) (left : ReflTransGen (Rewrites enters rule) a c)
    (right : ReflTransGen (Rewrites enters rule) b d) :
    ReflTransGen (Rewrites enters rule) ⟨.op operator, negated, [a, b]⟩
      ⟨.op operator, negated, [c, d]⟩ :=
  run_operands entered (.cons left (.cons right .nil))

/-- Operands that a function takes along runs are rewritten to its values. -/
theorem run_map {head : Symbol} {negated : Bool} {args : List Expr} {given result : Expr → Expr}
    (entered : enters head negated args.length)
    (runs : ∀ arg ∈ args, ReflTransGen (Rewrites enters rule) (given arg) (result arg)) :
    ReflTransGen (Rewrites enters rule) ⟨head, negated, args.map given⟩
      ⟨head, negated, args.map result⟩ := by
  refine run_operands (by simpa using entered) ?_
  rw [List.forall₂_map_left_iff, List.forall₂_map_right_iff]
  exact List.forall₂_same.2 runs

end Expr

end Refute
