import Webmeow.Lib.Runs
import Mathlib.Data.List.Perm.Basic

/-!
# Ledgers of a run

Every step hands something out: a list, collected over the run. The books balance if what has been
handed out and what the state still holds are together what the state has on record. A quantity that
counts down during a wait is accounted for in the same way.
-/

namespace Runs

variable {σ α β : Type*} {step : σ → α → Option σ} {J : σ → Prop}

/-- What the steps of a run hand out, in order. -/
def collect (step : σ → α → Option σ) (out : σ → α → List β) : σ → List α → List β
  | _, [] => []
  | s, a :: as => out s a ++ ((step s a).map fun s' => collect step out s' as).getD []

theorem collect_cons {out : σ → α → List β} {s s' : σ} {a : α} {as : List α}
    (hs : step s a = some s') :
    collect step out s (a :: as) = out s a ++ collect step out s' as := by
  simp only [collect, hs, Option.map_some, Option.getD_some]

/-- A run that goes on by one step. -/
theorem collect_concat {out : σ → α → List β} {s p : σ} {as : List α} (a : α)
    (hrun : run step s as = some p) :
    collect step out s (as ++ [a]) = collect step out s as ++ out p a := by
  induction as generalizing s with
  | nil =>
    rw [run_nil, Option.some.injEq] at hrun
    subst hrun
    cases hs : step s a with
    | none => simp [collect, hs]
    | some s' => simp [collect, hs]
  | cons b as ih =>
    obtain ⟨s', hb, hrest⟩ := run_cons_iff.1 hrun
    rw [List.cons_append, collect_cons hb, collect_cons hb, ih hrest, List.append_assoc]

section Balance

variable (out : σ → α → List β) (held record : σ → List β)

/-- Steps that enter on record what they hand out or come to hold keep the books balanced. -/
theorem collect_perm_from
    (hJ : ∀ s a s', J s → step s a = some s' → J s')
    (hstep : ∀ s a s', J s → step s a = some s' → ∃ made,
      (out s a ++ held s').Perm (made ++ held s) ∧ (record s').Perm (made ++ record s))
    {s t : σ} {as : List α} (hs : J s) (hrun : run step s as = some t) (before : List β)
    (hbalance : (before ++ held s).Perm (record s)) :
    (before ++ collect step out s as ++ held t).Perm (record t) := by
  induction as generalizing s before with
  | nil =>
    rw [run_nil, Option.some.injEq] at hrun
    subst hrun
    simpa only [collect, List.append_nil] using hbalance
  | cons a as ih =>
    obtain ⟨s', ha, hrest⟩ := run_cons_iff.1 hrun
    obtain ⟨made, hout, hrecord⟩ := hstep s a s' hs ha
    rw [collect_cons ha, ← List.append_assoc]
    refine ih (hJ s a s' hs ha) hrest _ ?_
    calc (before ++ out s a ++ held s').Perm (before ++ (made ++ held s)) := by
          rw [List.append_assoc]
          exact hout.append_left before
      _ |>.Perm (made ++ (before ++ held s)) := by
          rw [← List.append_assoc, ← List.append_assoc]
          exact List.perm_append_comm.append_right (held s)
      _ |>.Perm (record s') := (hbalance.append_left made).trans hrecord.symm

/-- **The books balance**: what a run hands out and what its last state holds are what the last state has
on record. -/
theorem collect_perm (hJ : ∀ s a s', J s → step s a = some s' → J s')
    (hstep : ∀ s a s', J s → step s a = some s' → ∃ made,
      (out s a ++ held s').Perm (made ++ held s) ∧ (record s').Perm (made ++ record s))
    {s t : σ} {as : List α} (hs : J s) (hrun : run step s as = some t)
    (hbalance : (held s).Perm (record s)) :
    (collect step out s as ++ held t).Perm (record t) :=
  collect_perm_from out held record hJ hstep hs hrun [] hbalance

end Balance

/-- Two ledgers of one run. -/
theorem collect_append {out out' : σ → α → List β} (s : σ) (as : List α) :
    (collect step (fun s a => out s a ++ out' s a) s as).Perm
      (collect step out s as ++ collect step out' s as) := by
  induction as generalizing s with
  | nil => exact List.Perm.refl _
  | cons a as ih =>
    cases hs : step s a with
    | none =>
      simp only [collect, hs, Option.map_none, Option.getD_none, List.append_nil]
      exact List.Perm.refl _
    | some s' =>
      rw [collect_cons hs, collect_cons hs, collect_cons hs, List.append_assoc, List.append_assoc]
      refine List.Perm.append_left _ (((ih s').append_left _).trans ?_)
      rw [← List.append_assoc, ← List.append_assoc]
      exact List.perm_append_comm.append_right _

/-- What only some steps hand out, and those boundedly much. -/
theorem length_collect_le {out : σ → α → List β} {c : σ → α → Bool} {bound : ℕ}
    (hout : ∀ s a, (out s a).length ≤ bound * if c s a then 1 else 0) (s : σ) (as : List α) :
    (collect step out s as).length ≤ bound * countSteps step c s as := by
  induction as generalizing s with
  | nil => exact Nat.zero_le _
  | cons a as ih =>
    have hone := hout s a
    cases hs : step s a with
    | none =>
      simp only [collect, countSteps, hs, Option.map_none, Option.getD_none, List.append_nil,
        Nat.add_zero]
      exact hone
    | some s' =>
      rw [collect_cons hs, countSteps_cons hs, List.length_append, Nat.mul_add]
      exact Nat.add_le_add hone (ih s')

/-- **Ledger of a wait**: as long as `P` holds, under an invariant of the steps that meet `Q`, a quantity
changes by the difference of two counts. -/
theorem ledger_while {f : σ → ℕ} {rises falls : σ → α → Bool} {P : σ → Prop} {Q : α → Prop}
    (hJ : ∀ s a s', J s → Q a → step s a = some s' → J s')
    (hstep : ∀ s a s', J s → P s → P s' → Q a → step s a = some s' →
      f s' + (if falls s a then 1 else 0) = f s + if rises s a then 1 else 0)
    {s t : σ} {as : List α} (hs : J s) (hQ : ∀ a ∈ as, Q a) (hP : Always step P s as)
    (hrun : run step s as = some t) :
    f t + countSteps step falls s as = f s + countSteps step rises s as := by
  induction as generalizing s with
  | nil =>
    rw [run_nil, Option.some.injEq] at hrun
    rw [hrun]
    rfl
  | cons a as ih =>
    obtain ⟨s', ha, hrest⟩ := run_cons_iff.1 hrun
    have hqa := hQ a List.mem_cons_self
    have hhead := hstep s a s' hs hP.1 (hP.2 s' ha).head hqa ha
    have htail := ih (hJ s a s' hs hqa ha) (fun b hb => hQ b (List.mem_cons_of_mem a hb))
      (hP.2 s' ha) hrest
    rw [countSteps_cons ha, countSteps_cons ha]
    omega

end Runs
