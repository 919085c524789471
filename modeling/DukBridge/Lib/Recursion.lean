import Mathlib.Order.Iterate
import Mathlib.Order.BoundedOrder.Basic
import Mathlib.Order.Lattice.Nat

/-!
# Functions that call themselves

A function that is defined through itself need not come back. Cut off after so many calls below
one another, it is an iterate of its defining step; where a measure of the arguments falls from
call to call, the iterates settle, and on what they have settled there is no other solution.
-/
namespace Recursion

variable {α β : Type} [PartialOrder β] [OrderBot β]

/-- Outcomes know nothing of one another, except that `⊥` is no outcome yet. -/
class Flat (β : Type) [PartialOrder β] [OrderBot β] : Prop where
  eq_of_le : ∀ {x y : β}, x ≠ ⊥ → x ≤ y → x = y

/-- The function with at most this many calls below one another. -/
def unroll (step : (α → β) → α → β) (n : Nat) : α → β := step^[n] ⊥

variable {step : (α → β) → α → β}

theorem unroll_succ (n : Nat) : unroll step (n + 1) = step (unroll step n) :=
  Function.iterate_succ_apply' step n ⊥

theorem unroll_mono (monotone : Monotone step) : Monotone (unroll step) :=
  monotone.monotone_iterate_of_le_map bot_le

/-- What the step keeps holds however often it is taken. -/
theorem unroll_induction {P : (α → β) → Prop} (start : P ⊥) (keeps : ∀ f, P f → P (step f))
    (n : Nat) : P (unroll step n) := by
  induction n with
  | zero => exact start
  | succ n ih =>
    rw [unroll_succ]
    exact keeps _ ih

/-- An outcome is final. -/
theorem unroll_settled [Flat β] (monotone : Monotone step) {n m : Nat} (more : n ≤ m) {a : α}
    (back : unroll step n a ≠ ⊥) : unroll step m a = unroll step n a :=
  (Flat.eq_of_le back (unroll_mono monotone more a)).symm

section Progress

variable {P : α → Prop} {μ : α → Nat} {J : (α → β) → Prop}

/-- The step comes back if the calls below it, which are smaller, do. -/
def Progress (step : (α → β) → α → β) (J : (α → β) → Prop) (P : α → Prop) (μ : α → Nat) : Prop :=
  ∀ f, J f → ∀ a, P a → (∀ b, P b → μ b < μ a → f b ≠ ⊥) → step f a ≠ ⊥

theorem unroll_returns (inv : ∀ n, J (unroll step n)) (progress : Progress step J P μ) {n : Nat}
    {a : α} (holds : P a) (enough : μ a < n) : unroll step n a ≠ ⊥ := by
  induction n generalizing a with
  | zero => exact absurd enough (Nat.not_lt_zero _)
  | succ n ih =>
    rw [unroll_succ]
    refine progress _ (inv n) a holds fun b holds smaller => ih holds ?_
    omega

/-- With enough calls the function solves its own equation. -/
theorem unroll_fixed [Flat β] (monotone : Monotone step) (inv : ∀ n, J (unroll step n))
    (progress : Progress step J P μ) {n : Nat} {a : α} (holds : P a) (enough : μ a < n) :
    step (unroll step n) a = unroll step n a := by
  have next : unroll step (n + 1) = step (unroll step n) := unroll_succ n
  rw [← next]
  exact unroll_settled monotone (Nat.le_succ n) (unroll_returns inv progress holds enough)

/-- Whatever else solves the equation agrees with it. -/
theorem eq_unroll [Flat β] (monotone : Monotone step) (inv : ∀ n, J (unroll step n))
    (progress : Progress step J P μ) {f : α → β} (solves : step f = f) {n : Nat} {a : α}
    (holds : P a) (enough : μ a < n) : f a = unroll step n a := by
  have below : ∀ n, unroll step n ≤ f := by
    intro n
    induction n with
    | zero => exact bot_le
    | succ n ih =>
      rw [unroll_succ, ← solves]
      exact monotone ih
  exact (Flat.eq_of_le (unroll_returns inv progress holds enough) (below n a)).symm

end Progress

end Recursion
