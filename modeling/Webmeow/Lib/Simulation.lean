import Mathlib.Data.List.Basic

/-!
# Machines with answers, and simulations between them

A machine takes an input and gives a new state and an answer, or is stuck. A simulation relation
that every input preserves makes two machines give the same answers to every sequence of inputs.
-/

namespace Simulation

variable {σ τ ι ο : Type*}

/-- The final state and the answers to a sequence of inputs; `none` if the machine gets stuck. -/
def trace (step : σ → ι → Option (σ × ο)) : σ → List ι → Option (σ × List ο)
  | s, [] => some (s, [])
  | s, i :: is =>
    (step s i).bind fun q => (trace step q.1 is).map fun r => (r.1, q.2 :: r.2)

variable {step : σ → ι → Option (σ × ο)} {step' : τ → ι → Option (τ × ο)} {R : σ → τ → Prop}

/-- A trace, by its first step. -/
theorem trace_cons_iff {s t : σ} {i : ι} {is : List ι} {os : List ο} :
    trace step s (i :: is) = some (t, os) ↔
      ∃ s' o os', step s i = some (s', o) ∧ trace step s' is = some (t, os') ∧ os = o :: os' := by
  simp only [trace, Option.bind_eq_some_iff, Option.map_eq_some_iff]
  constructor
  · rintro ⟨⟨s', o⟩, h1, ⟨t', os'⟩, h2, h3⟩
    cases h3
    exact ⟨s', o, os', h1, h2, rfl⟩
  · rintro ⟨s', o, os', h1, h2, rfl⟩
    exact ⟨(s', o), h1, (t, os'), h2, rfl⟩

theorem trace_cons {s s' t : σ} {i : ι} {is : List ι} {o : ο} {os : List ο}
    (h : step s i = some (s', o)) (ht : trace step s' is = some (t, os)) :
    trace step s (i :: is) = some (t, o :: os) :=
  trace_cons_iff.2 ⟨s', o, os, h, ht, rfl⟩

theorem trace_append {s t u : σ} {is js : List ι} {os os' : List ο}
    (his : trace step s is = some (t, os)) (hjs : trace step t js = some (u, os')) :
    trace step s (is ++ js) = some (u, os ++ os') := by
  induction is generalizing s os with
  | nil =>
    cases his
    exact hjs
  | cons i is ih =>
    obtain ⟨s', o, os1, hs, hrest, rfl⟩ := trace_cons_iff.1 his
    exact trace_cons hs (ih hrest)

/-- Inputs that are translated before a machine takes them. -/
theorem trace_map {κ : Type*} (f : κ → ι) (is : List κ) (s : σ) :
    trace step s (is.map f) = trace (fun s k => step s (f k)) s is := by
  induction is generalizing s with
  | nil => rfl
  | cons k is ih =>
    rw [List.map_cons, trace, trace]
    cases step s (f k) with
    | none => rfl
    | some q => exact congrArg (Option.map fun r => (r.1, q.2 :: r.2)) (ih q.1)

/-- **Simulation**: related machines both get through every sequence of inputs, with the same
answers, and end in related states. -/
theorem trace_of_simulation
    (hsim : ∀ s t i, R s t → ∃ s' t' o, step s i = some (s', o) ∧ step' t i = some (t', o) ∧ R s' t')
    (is : List ι) (s : σ) (t : τ) (h : R s t) :
    ∃ s' t' os, trace step s is = some (s', os) ∧ trace step' t is = some (t', os) ∧ R s' t' := by
  induction is generalizing s t with
  | nil => exact ⟨s, t, [], rfl, rfl, h⟩
  | cons i is ih =>
    obtain ⟨s1, t1, o, hs, ht, h1⟩ := hsim s t i h
    obtain ⟨s', t', os, hs', ht', h'⟩ := ih s1 t1 h1
    exact ⟨s', t', o :: os, trace_cons hs hs', trace_cons ht ht', h'⟩

end Simulation
