import Mathlib.Data.List.Induction

/-!
# Runs of a labelled step function

A system is given by a partial step function `step : σ → α → Option σ`; the label resolves every
choice of the environment, so a run is a list of labels. `Always` and `Throughout` state a property
of all the states, respectively of all the steps, of one run.
-/

namespace Runs

variable {σ α : Type*}

/-- Perform the labels from left to right; `none` if one of them is not enabled. -/
def run (step : σ → α → Option σ) : σ → List α → Option σ
  | s, [] => some s
  | s, a :: as => (step s a).bind fun s' => run step s' as

/-- Every state of the run of `as` from `s`, the first and the last one included, satisfies `P`. -/
def Always (step : σ → α → Option σ) (P : σ → Prop) : σ → List α → Prop
  | s, [] => P s
  | s, a :: as => P s ∧ ∀ s', step s a = some s' → Always step P s' as

/-- Every step of the run of `as` from `s` is taken in a state that satisfies `C` for its label. -/
def Throughout (step : σ → α → Option σ) (C : σ → α → Prop) : σ → List α → Prop
  | _, [] => True
  | s, a :: as => C s a ∧ ∀ s', step s a = some s' → Throughout step C s' as

variable {step : σ → α → Option σ} {P J : σ → Prop} {C : σ → α → Prop}

@[simp]
theorem run_nil (s : σ) : run step s [] = some s := rfl

/-- A run, by its first step. -/
theorem run_cons_iff {s t : σ} {a : α} {as : List α} :
    run step s (a :: as) = some t ↔ ∃ s', step s a = some s' ∧ run step s' as = some t := by
  simp [run, Option.bind_eq_some_iff]

/-- A run, by its two parts. -/
theorem run_append_iff {s t : σ} {as bs : List α} :
    run step s (as ++ bs) = some t ↔ ∃ s', run step s as = some s' ∧ run step s' bs = some t := by
  induction as generalizing s with
  | nil => simp
  | cons a as ih =>
    rw [List.cons_append, run_cons_iff]
    simp only [run_cons_iff, ih]
    constructor
    · rintro ⟨u, hu, s', hs', ht⟩
      exact ⟨s', ⟨u, hu, hs'⟩, ht⟩
    · rintro ⟨s', ⟨u, hu, hs'⟩, ht⟩
      exact ⟨u, hu, s', hs', ht⟩

theorem run_concat_iff {s t : σ} {as : List α} {a : α} :
    run step s (as ++ [a]) = some t ↔ ∃ s', run step s as = some s' ∧ step s' a = some t := by
  simp only [run_append_iff, run_cons_iff, run_nil, Option.some.injEq, exists_eq_right]

theorem Always.head {s : σ} {as : List α} (h : Always step P s as) : P s := by
  cases as with
  | nil => exact h
  | cons a as => exact h.1

/-- The state in which a run ends is one of its states. -/
theorem Always.last {s t : σ} {as : List α} (h : Always step P s as)
    (hr : run step s as = some t) : P t := by
  induction as generalizing s with
  | nil =>
    rw [run_nil] at hr
    exact Option.some.inj hr ▸ h
  | cons a as ih =>
    obtain ⟨s', hs, hr'⟩ := run_cons_iff.1 hr
    exact ih (h.2 s' hs) hr'

theorem Always.imp {Q : σ → Prop} (hPQ : ∀ s, P s → Q s) {s : σ} {as : List α}
    (h : Always step P s as) : Always step Q s as := by
  induction as generalizing s with
  | nil => exact hPQ s h
  | cons a as ih => exact ⟨hPQ s h.1, fun s' hs => ih (h.2 s' hs)⟩

theorem Always.and {Q : σ → Prop} {s : σ} {as : List α} (h : Always step P s as)
    (h' : Always step Q s as) : Always step (fun s => P s ∧ Q s) s as := by
  induction as generalizing s with
  | nil => exact ⟨h, h'⟩
  | cons a as ih => exact ⟨⟨h.1, h'.1⟩, fun s' hs => ih (h.2 s' hs) (h'.2 s' hs)⟩

/-- A run is checked by performing it. -/
instance [∀ s a, Decidable (C s a)] : ∀ (s : σ) (as : List α), Decidable (Throughout step C s as)
  | _, [] => isTrue trivial
  | s, a :: as =>
    have : Decidable (∀ s', step s a = some s' → Throughout step C s' as) :=
      match h : step s a with
      | none => isTrue fun _ h' => by cases h'
      | some s' =>
        match instDecidableThroughout s' as with
        | isTrue hT => isTrue fun u hu => Option.some.inj hu ▸ hT
        | isFalse hF => isFalse fun hA => hF (hA s' rfl)
    inferInstanceAs (Decidable (_ ∧ _))

/-- **Guarded invariants**: what every step that meets `C` preserves holds in all states of a run
whose steps all meet `C`. -/
theorem always_of_throughout (hstep : ∀ s a s', J s → C s a → step s a = some s' → J s')
    {s : σ} {as : List α} (h0 : J s) (hC : Throughout step C s as) : Always step J s as := by
  induction as generalizing s with
  | nil => exact h0
  | cons a as ih => exact ⟨h0, fun s' hs => ih (hstep s a s' h0 hC.1 hs) (hC.2 s' hs)⟩

/-- **Invariants**: what every step preserves holds in all states of every run. -/
theorem always_of_invariant (hstep : ∀ s a s', J s → step s a = some s' → J s')
    {s : σ} {as : List α} (h0 : J s) : Always step J s as := by
  induction as generalizing s with
  | nil => exact h0
  | cons a as ih => exact ⟨h0, fun s' hs => ih (hstep s a s' h0 hs)⟩

/-- What holds in every state before a step holds throughout. -/
theorem throughout_of_always (hC : ∀ s a, J s → C s a) {s : σ} {as : List α}
    (h : Always step J s as) : Throughout step C s as := by
  induction as generalizing s with
  | nil => trivial
  | cons a as ih => exact ⟨hC s a h.1, fun s' hs => ih (h.2 s' hs)⟩

/-- **Exact guards**: if, under the invariant `J`, a step keeps `P` exactly when it meets `C`, then
the states of a run all satisfy `P` exactly when its steps all meet `C`. -/
theorem always_iff_throughout (hJ : ∀ s a s', J s → step s a = some s' → J s')
    (hstep : ∀ s a s', J s → P s → step s a = some s' → (P s' ↔ C s a))
    {s t : σ} {as : List α} (h0 : J s) (hP : P s) (hr : run step s as = some t) :
    Always step P s as ↔ Throughout step C s as := by
  induction as generalizing s with
  | nil => exact ⟨fun _ => trivial, fun _ => hP⟩
  | cons a as ih =>
    obtain ⟨s', hs, hr'⟩ := run_cons_iff.1 hr
    have hnext : ∀ u, step s a = some u → u = s' := fun u hu => Option.some.inj (hu.symm.trans hs)
    constructor
    · rintro ⟨-, hA⟩
      have hP' : P s' := (hA s' hs).head
      refine ⟨(hstep s a s' h0 hP hs).1 hP', fun u hu => ?_⟩
      rw [hnext u hu]
      exact (ih (hJ s a s' h0 hs) hP' hr').1 (hA s' hs)
    · rintro ⟨hC, hT⟩
      have hP' : P s' := (hstep s a s' h0 hP hs).2 hC
      refine ⟨hP, fun u hu => ?_⟩
      rw [hnext u hu]
      exact (ih (hJ s a s' h0 hs) hP' hr').2 (hT s' hs)

/-- If, under the invariant `J`, a step between two states that satisfy `P` meets `C`, then a run all
of whose states satisfy `P` meets `C` throughout. -/
theorem throughout_of_always_steps (hJ : ∀ s a s', J s → step s a = some s' → J s')
    (hstep : ∀ s a s', J s → P s → step s a = some s' → P s' → C s a)
    {s t : σ} {as : List α} (h0 : J s) (hr : run step s as = some t) (h : Always step P s as) :
    Throughout step C s as := by
  induction as generalizing s with
  | nil => trivial
  | cons a as ih =>
    obtain ⟨s', hs, hr'⟩ := run_cons_iff.1 hr
    refine ⟨hstep s a s' h0 h.1 hs (h.2 s' hs).head, fun u hu => ?_⟩
    rw [hs, Option.some.injEq] at hu
    subst hu
    exact ih (hJ s a s' h0 hs) hr' (h.2 s' hs)

theorem Throughout.imp {D : σ → α → Prop} (hCD : ∀ s a, C s a → D s a) {s : σ} {as : List α}
    (h : Throughout step C s as) : Throughout step D s as := by
  induction as generalizing s with
  | nil => trivial
  | cons a as ih => exact ⟨hCD s a h.1, fun s' hs => ih (h.2 s' hs)⟩

/-- The steps after a first part of the run. -/
theorem Throughout.after {s q : σ} {before after : List α}
    (h : Throughout step C s (before ++ after)) (hr : run step s before = some q) :
    Throughout step C q after := by
  induction before generalizing s with
  | nil =>
    rw [run_nil, Option.some.injEq] at hr
    exact hr ▸ h
  | cons b before ih =>
    obtain ⟨s', hs, hr'⟩ := run_cons_iff.1 hr
    exact ih (h.2 s' hs) hr'

/-- The step after a first part of the run. -/
theorem Throughout.at_split {s q : σ} {before after : List α} {a : α}
    (h : Throughout step C s (before ++ a :: after)) (hr : run step s before = some q) : C q a :=
  (h.after hr).1

theorem Throughout.of_append {s : σ} {before after : List α}
    (h : Throughout step C s (before ++ after)) : Throughout step C s before := by
  induction before generalizing s with
  | nil => trivial
  | cons a before ih => exact ⟨h.1, fun s' hs => ih (h.2 s' hs)⟩

/-- **Histories**: what holds of the empty history, and of a longer one after each step that meets `C`,
holds of the history and the last state of a run whose steps all meet `C`. -/
theorem history_invariant {H : List α → σ → Prop} {s : σ} (h0 : H [] s)
    (hstep : ∀ as p a p', run step s as = some p → H as p → C p a → step p a = some p' →
      H (as ++ [a]) p')
    {as : List α} {p : σ} (hC : Throughout step C s as) (hr : run step s as = some p) : H as p := by
  induction as using List.reverseRecOn generalizing p with
  | nil =>
    rw [run_nil, Option.some.injEq] at hr
    exact hr ▸ h0
  | append_singleton as a ih =>
    obtain ⟨q, hq, hs⟩ := run_concat_iff.1 hr
    exact hstep as q a p hq (ih hC.of_append hq) (hC.at_split hq) hs

/-- A condition on the labels alone. -/
theorem throughout_label_iff {Q : α → Prop} {s t : σ} {as : List α}
    (hr : run step s as = some t) :
    Throughout step (fun _ a => Q a) s as ↔ ∀ a ∈ as, Q a := by
  induction as generalizing s with
  | nil => exact ⟨fun _ => nofun, fun _ => trivial⟩
  | cons a as ih =>
    obtain ⟨s', hs, hr'⟩ := run_cons_iff.1 hr
    rw [List.forall_mem_cons, ← ih hr']
    refine and_congr_right fun _ => ⟨fun h => h s' hs, fun h u hu => ?_⟩
    rw [hs, Option.some.injEq] at hu
    exact hu ▸ h

/-! ## Counting steps -/

/-- How many steps of a run satisfy `c`. -/
def countSteps (step : σ → α → Option σ) (c : σ → α → Bool) : σ → List α → ℕ
  | _, [] => 0
  | s, a :: as =>
    (if c s a then 1 else 0) + ((step s a).map fun s' => countSteps step c s' as).getD 0

theorem countSteps_cons {c : σ → α → Bool} {s s' : σ} {a : α} {as : List α}
    (hs : step s a = some s') :
    countSteps step c s (a :: as) = (if c s a then 1 else 0) + countSteps step c s' as := by
  simp only [countSteps, hs, Option.map_some, Option.getD_some]

/-- **Ledger**: a quantity that rises by one at some steps, falls by one at others and stays at the rest
has changed at the end of a run by the difference of the two counts. -/
theorem ledger {f : σ → ℕ} {rises falls : σ → α → Bool} {Q : α → Prop}
    (hstep : ∀ s a s', Q a → step s a = some s' →
      f s' + (if falls s a then 1 else 0) = f s + if rises s a then 1 else 0)
    {s t : σ} {as : List α} (hQ : ∀ a ∈ as, Q a) (hr : run step s as = some t) :
    f t + countSteps step falls s as = f s + countSteps step rises s as := by
  induction as generalizing s with
  | nil =>
    rw [run_nil, Option.some.injEq] at hr
    rw [hr]
    rfl
  | cons a as ih =>
    obtain ⟨s', hs, hr'⟩ := run_cons_iff.1 hr
    have hhead := hstep s a s' (hQ a List.mem_cons_self) hs
    have htail := ih (fun b hb => hQ b (List.mem_cons_of_mem a hb)) hr'
    rw [countSteps_cons hs, countSteps_cons hs]
    omega

end Runs
