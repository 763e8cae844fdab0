import Mathlib.Logic.Function.Basic
import Mathlib.Data.Nat.Basic

/-!
# Placing jobs where the load is least

A job adds one to the load of its place. If it goes to a place that carries no more than the others,
the loads stay within one of each other.
-/

namespace LeastLoaded

variable {P : Type*}

/-- No place of `S` carries more than one job more than a place of `T`. -/
def WithinOne (S T : P → Prop) (load : P → ℕ) : Prop :=
  ∀ a b, S a → T b → load a ≤ load b + 1

/-- Equal loads are within one. -/
theorem withinOne_const (S T : P → Prop) (n : ℕ) : WithinOne S T fun _ => n :=
  fun _ _ _ _ => Nat.le_succ n

variable [DecidableEq P]

/-- The loads after one more job at `p`. -/
def add (load : P → ℕ) (p : P) : P → ℕ := Function.update load p (load p + 1)

@[simp]
theorem add_self (load : P → ℕ) (p : P) : add load p p = load p + 1 := Function.update_self ..

@[simp]
theorem add_of_ne (load : P → ℕ) {p a : P} (h : a ≠ p) : add load p a = load a :=
  Function.update_of_ne h ..

theorem le_add (load : P → ℕ) (p a : P) : load a ≤ add load p a := by
  by_cases h : a = p
  · rw [h, add_self]
    exact Nat.le_succ _
  · rw [add_of_ne load h]

/-- **Balance**: a job at a place of `S` that carries no more than the places of `T` keeps `S` within one
of `T`. A job anywhere else keeps it too. -/
theorem WithinOne.add {S T : P → Prop} {load : P → ℕ} {p : P} (h : WithinOne S T load)
    (hleast : S p → ∀ b, T b → load p ≤ load b) : WithinOne S T (add load p) := by
  intro a b ha hb
  have hmono := le_add load p b
  by_cases hap : a = p
  · subst hap
    rw [add_self]
    have := hleast ha b hb
    omega
  · rw [add_of_ne load hap]
    have := h a b ha hb
    omega

end LeastLoaded
