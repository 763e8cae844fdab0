import Webmeow.Lib.Runs

/-!
# Systems that come to rest

Some labels are work of the system itself. If each of them leaves less work, a run of them is not longer
than the work there was; and if one of them is possible as long as the system is not at rest, some run of
them brings it to rest.
-/

namespace Runs

variable {σ α : Type*} {step : σ → α → Option σ} {J : σ → Prop} {own : α → Prop}

/-- **Bounded work**: every run of own steps is at most as long as the work that it has done. -/
theorem length_add_work_le (work : σ → ℕ) (hJ : ∀ s a s', J s → step s a = some s' → J s')
    (hless : ∀ s a s', J s → own a → step s a = some s' → work s' < work s) {s s' : σ} {as : List α}
    (hs : J s) (hown : ∀ a ∈ as, own a) (hrun : run step s as = some s') :
    as.length + work s' ≤ work s := by
  induction as generalizing s with
  | nil =>
    rw [run_nil, Option.some.injEq] at hrun
    subst hrun
    exact Nat.le_of_eq (Nat.zero_add _)
  | cons a as ih =>
    obtain ⟨t, ha, hrest⟩ := run_cons_iff.1 hrun
    have hone := hless s a t hs (hown a List.mem_cons_self) ha
    have hmore := ih (hJ s a t hs ha) (fun b hb => hown b (List.mem_cons_of_mem a hb)) hrest
    rw [List.length_cons]
    omega

/-- **Coming to rest**: without a deadlock, own steps bring the system to rest. -/
theorem exists_run_to_rest (work : σ → ℕ) (rest : σ → Prop)
    (hJ : ∀ s a s', J s → step s a = some s' → J s')
    (hless : ∀ s a s', J s → own a → step s a = some s' → work s' < work s)
    (hfree : ∀ s, J s → ¬rest s → ∃ a, own a ∧ (step s a).isSome) {s : σ} (hs : J s) :
    ∃ as s', run step s as = some s' ∧ (∀ a ∈ as, own a) ∧ rest s' := by
  induction hwork : work s using Nat.strongRecOn generalizing s with
  | ind n ih =>
    by_cases hrest : rest s
    · exact ⟨[], s, rfl, nofun, hrest⟩
    · obtain ⟨a, ha, hsome⟩ := hfree s hs hrest
      obtain ⟨t, ht⟩ := Option.isSome_iff_exists.1 hsome
      have hone := hless s a t hs ha ht
      rw [hwork] at hone
      obtain ⟨as, s', hrun, hown, hdone⟩ := ih _ hone (hJ s a t hs ht) rfl
      refine ⟨a :: as, s', run_cons_iff.2 ⟨t, ht, hrun⟩, ?_, hdone⟩
      intro b hb
      rcases List.mem_cons.1 hb with rfl | hb
      · exact ha
      · exact hown b hb

end Runs
