import Mathlib.Algebra.BigOperators.Group.List.Basic
import Mathlib.Algebra.Order.Ring.Nat
import Webmeow.Lib.Draining
import Webmeow.Lib.Interleaving

/-!
# Threads that finish on their own

Every step of a thread lowers its rank, whatever the other threads do in between. So a thread takes at most
as many steps as its rank at the start, and if some thread can go on as long as one is not done, every run
goes on to one in which all are.
-/

namespace Interleaving

open Runs

variable {S T R I : Type*}

/-- The event is a step of thread `i`. -/
def Event.isStepOf (i : ℕ) : Event R I → Bool
  | .request _ => false
  | .advance j _ => j = i

/-- How often thread `i` steps. -/
def stepsOf (i : ℕ) (es : List (Event R I)) : ℕ := es.countP (Event.isStepOf i)

variable (rank : T → ℕ) (n : ℕ)

/-- The steps that thread `i` may still take; a thread that has not started may take `n`. -/
def Pool.budget (p : Pool S T) (i : ℕ) : ℕ := (p.threads[i]?.map rank).getD n

variable {rank n} {start : R → T} {act : S → T → I → Option (S × T)} {p p' : Pool S T}

/-- **One event**: it costs the thread whose step it is. -/
theorem budget_step (hstart : ∀ r, rank (start r) ≤ n)
    (hact : ∀ s t x s' t', act s t x = some (s', t') → rank t' < rank t) {e : Event R I}
    (hs : p.step start act e = some p') (i : ℕ) :
    p'.budget rank n i + (if Event.isStepOf i e then 1 else 0) ≤ p.budget rank n i := by
  cases e with
  | request r =>
    cases hs
    show ((p.threads ++ [start r])[i]?.map rank).getD n + 0 ≤ (p.threads[i]?.map rank).getD n
    rcases lt_trichotomy i p.threads.length with hlt | rfl | hgt
    · rw [List.getElem?_append_left hlt, Nat.add_zero]
    · simpa using hstart r
    · have hlong : (p.threads ++ [start r]).length ≤ i := by
        rw [List.length_append]
        exact hgt
      rw [List.getElem?_eq_none hlong, List.getElem?_eq_none (Nat.le_of_lt hgt), Nat.add_zero]
  | advance j x =>
    obtain ⟨t, s', t', hj, ha, rfl⟩ := Pool.step_advance_iff.1 hs
    show ((p.threads.set j t')[i]?.map rank).getD n + (if decide (j = i) = true then 1 else 0) ≤
      (p.threads[i]?.map rank).getD n
    by_cases hji : j = i
    · subst hji
      have hlt := (List.getElem?_eq_some_iff.1 hj).1
      have hless := hact _ _ _ _ _ ha
      rw [List.getElem?_set_self hlt, hj, if_pos (decide_eq_true rfl)]
      exact hless
    · rw [List.getElem?_set_ne hji, if_neg (by simpa using hji)]
      exact Nat.le_refl _

variable (rank) in
/-- **Wait freedom**: the steps that a thread has taken and those that it may still take are no more than
those that it could take before. -/
theorem budget_run (hstart : ∀ r, rank (start r) ≤ n)
    (hact : ∀ s t x s' t', act s t x = some (s', t') → rank t' < rank t) {es : List (Event R I)}
    (hrun : run (Pool.step start act) p es = some p') (i : ℕ) :
    p'.budget rank n i + stepsOf i es ≤ p.budget rank n i := by
  induction es generalizing p with
  | nil =>
    rw [run_nil, Option.some.injEq] at hrun
    subst hrun
    exact Nat.le_refl _
  | cons e es ih =>
    obtain ⟨p₁, hs, hrest⟩ := run_cons_iff.1 hrun
    have hone := budget_step hstart hact hs i
    have hmore := ih hrest
    have hcount : stepsOf i (e :: es) = stepsOf i es + if Event.isStepOf i e then 1 else 0 :=
      List.countP_cons
    omega

/-- The step of one thread lowers the sum. -/
theorem sum_rank_set {threads : List T} {i : ℕ} {t t' : T} (hi : threads[i]? = some t)
    (hless : rank t' < rank t) : ((threads.set i t').map rank).sum < (threads.map rank).sum := by
  induction threads generalizing i with
  | nil => cases hi
  | cons u threads ih =>
    cases i with
    | zero =>
      cases hi
      rw [List.set_cons_zero, List.map_cons, List.map_cons, List.sum_cons, List.sum_cons]
      exact Nat.add_lt_add_right hless _
    | succ i =>
      rw [List.set_cons_succ, List.map_cons, List.map_cons, List.sum_cons, List.sum_cons]
      exact Nat.add_lt_add_left (ih hi) _

variable (rank) in
/-- **Completion**: without a deadlock, all threads can be run to their ends. -/
theorem exists_completion (done : T → Prop) {J : Pool S T → Prop}
    (hact : ∀ s t x s' t', act s t x = some (s', t') → rank t' < rank t)
    (hstep : ∀ p (e : Event R I) p', J p → p.step start act e = some p' → J p')
    (hfree : ∀ p, J p → (∃ t ∈ p.threads, ¬done t) →
      ∃ t ∈ p.threads, ∃ x : I, (act p.store t x).isSome) (hp : J p) :
    ∃ es p', run (Pool.step start act) p es = some p' ∧ (∀ e ∈ es, ∃ i x, e = .advance i x) ∧
      ∀ t ∈ p'.threads, done t := by
  have hless : ∀ (p : Pool S T) (e : Event R I) (p' : Pool S T), J p → (∃ i x, e = .advance i x) →
      p.step start act e = some p' → (p'.threads.map rank).sum < (p.threads.map rank).sum := by
    rintro p _ p' - ⟨i, x, rfl⟩ hs
    obtain ⟨t, s', t', hi, ha, rfl⟩ := Pool.step_advance_iff.1 hs
    exact sum_rank_set hi (hact _ _ _ _ _ ha)
  refine exists_run_to_rest (fun p => (p.threads.map rank).sum) (fun p => ∀ t ∈ p.threads, done t)
    hstep hless ?_ hp
  intro p hp hopen
  push Not at hopen
  obtain ⟨t, ht, x, hx⟩ := hfree p hp hopen
  obtain ⟨i, hi⟩ := List.mem_iff_getElem?.1 ht
  refine ⟨.advance i x, ⟨i, x, rfl⟩, ?_⟩
  rw [Pool.step, hi, Option.isSome_map]
  exact hx

end Interleaving
