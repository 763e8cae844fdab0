import Webmeow.Lib.Runs

/-!
# Reading at the beginning, writing at the end

A transaction of a thread reads a key when it begins and may write the key when it ends, so that a
write in between is lost. If, whenever a thread writes, no other thread holds the key (may still write
it), then no write is lost.
-/

namespace LostWrites

open Runs

variable {σ α K : Type*} {step : σ → α → Option σ}

/-- What begins, what is written, and what a thread holds: the thread with the key. -/
structure Accesses (σ α K : Type*) where
  /-- The thread that begins with an event, and what it reads. -/
  begins : α → Option (ℕ × K)
  /-- The thread that writes with an event, and where. -/
  writes : σ → α → Option (ℕ × K)
  /-- What a thread has read and is to write. -/
  holds : σ → ℕ → Option K

/-- A thread writes a key that it holds, and holds a key since it has begun, until it writes it. -/
structure Accesses.Disciplined (acc : Accesses σ α K) (step : σ → α → Option σ) : Prop where
  /-- Only a holder writes. -/
  writer : ∀ s a i k, acc.writes s a = some (i, k) → acc.holds s i = some k
  /-- A holder began or has held on, and has not written. -/
  kept : ∀ s a s' i k, step s a = some s' → acc.holds s' i = some k →
    acc.begins a = some (i, k) ∨ acc.holds s i = some k ∧ ∀ k', acc.writes s a ≠ some (i, k')

/-- No write of a key that a transaction of the run writes falls between its beginning and its end. -/
def Accesses.Undisturbed (acc : Accesses σ α K) (step : σ → α → Option σ) (s : σ) (as : List α) :
    Prop :=
  ∀ before b mid a after q q' i k, as = before ++ b :: (mid ++ a :: after) →
    run step s (before ++ [b]) = some q → acc.begins b = some (i, k) →
    (∀ e ∈ mid, ∀ k', acc.begins e ≠ some (i, k')) →
    run step q mid = some q' → acc.writes q' a = some (i, k) →
    Throughout step (fun s e => ∀ j, acc.writes s e ≠ some (j, k)) q mid

/-- Whoever writes a key is the only one that holds it. -/
def Accesses.SoleHolder (acc : Accesses σ α K) (s : σ) (a : α) : Prop :=
  ∀ i k, acc.writes s a = some (i, k) → ∀ j, j ≠ i → acc.holds s j ≠ some k

variable {acc : Accesses σ α K}

/-- While a thread does not begin anew, it has held what it holds, and nobody else has written it. -/
theorem Accesses.Disciplined.held_back (h : acc.Disciplined step) {s t : σ} {as : List α} {i : ℕ}
    {k : K} (hC : Throughout step acc.SoleHolder s as) (hr : run step s as = some t)
    (hquiet : ∀ e ∈ as, ∀ k', acc.begins e ≠ some (i, k')) (ht : acc.holds t i = some k) :
    acc.holds s i = some k ∧ Throughout step (fun s e => ∀ j, acc.writes s e ≠ some (j, k)) s as := by
  induction as generalizing s with
  | nil =>
    rw [run_nil, Option.some.injEq] at hr
    exact ⟨hr ▸ ht, trivial⟩
  | cons e as ih =>
    obtain ⟨s', hs, hr'⟩ := run_cons_iff.1 hr
    obtain ⟨hs', hrest⟩ := ih (hC.2 s' hs) hr' fun e' he' => hquiet e' (List.mem_cons_of_mem e he')
    rcases h.kept s e s' i k hs hs' with hbegin | ⟨hheld, hown⟩
    · exact absurd hbegin (hquiet e List.mem_cons_self k)
    · refine ⟨hheld, fun j hj => ?_, fun u hu => ?_⟩
      · by_cases hji : j = i
        · exact hown k (hji ▸ hj)
        · exact hC.1 j k hj i (Ne.symm hji) hheld
      · rw [hs, Option.some.injEq] at hu
        exact hu ▸ hrest

/-- **No lost write**: a run in which every writer is the only holder of its key is undisturbed. -/
theorem Accesses.Disciplined.undisturbed (h : acc.Disciplined step) {s : σ} {as : List α}
    (hC : Throughout step acc.SoleHolder s as) : acc.Undisturbed step s as := by
  intro before b mid a after q q' i k has hq _ hquiet hq' hwrite
  rw [has, List.append_cons] at hC
  exact (h.held_back (hC.after hq).of_append hq' hquiet (h.writer q' a i k hwrite)).2

end LostWrites
