import Webmeow.Lib.Interleaving

/-!
# Forgetting part of a store

Some of what a store holds makes no difference to the steps of the threads. If one step commutes with
forgetting it, so does every run: the same events are possible without it, the threads come to the same
ends, and the stores differ by what was forgotten alone.
-/

namespace Interleaving

open Runs

variable {S T R I : Type*} {start : R → T} {act : S → T → I → Option (S × T)}

/-- The pool with another store. -/
def Pool.mapStore (f : S → S) (p : Pool S T) : Pool S T := { p with store := f p.store }

/-- In stores that satisfy `P`, steps of threads that satisfy `Q` with inputs that satisfy `G` do not
notice that the store has been cut down by `forget`. -/
structure Forgettable (act : S → T → I → Option (S × T)) (forget : S → S) (P : S → Prop) (Q : T → Prop)
    (G : I → Prop) : Prop where
  /-- A step does the same on what is left. -/
  commutes : ∀ s t x, P s → Q t → G x →
    act (forget s) t x = (act s t x).map fun q => (forget q.1, q.2)
  /-- A step keeps what the first part asks for. -/
  kept : ∀ s t x s' t', P s → Q t → G x → act s t x = some (s', t') → P s' ∧ Q t'

variable {forget : S → S} {P : S → Prop} {Q : T → Prop} {G : I → Prop}

/-- An event whose request, or whose input, is as required. -/
def Event.Meets (start : R → T) (Q : T → Prop) (G : I → Prop) : Event R I → Prop
  | .request r => Q (start r)
  | .advance _ x => G x

/-- A step of the pool does the same on what is left. -/
theorem step_forget (h : Forgettable act forget P Q G) {p : Pool S T} {e : Event R I}
    (hP : P p.store) (hQ : ∀ t ∈ p.threads, Q t) (he : e.Meets start Q G) :
    Pool.step start act (p.mapStore forget) e =
      (Pool.step start act p e).map (Pool.mapStore forget) := by
  cases e with
  | request r => rfl
  | advance i x =>
    simp only [Pool.step, Pool.mapStore]
    cases hi : p.threads[i]? with
    | none => rfl
    | some t =>
      simp only [h.commutes p.store t x hP (hQ t (List.mem_of_getElem? hi)) he, Option.map_map]
      rfl

/-- A step of the pool keeps what is asked for. -/
theorem step_forgettable (h : Forgettable act forget P Q G) {p p' : Pool S T} {e : Event R I}
    (hP : P p.store) (hQ : ∀ t ∈ p.threads, Q t) (he : e.Meets start Q G)
    (hs : Pool.step start act p e = some p') : P p'.store ∧ ∀ t ∈ p'.threads, Q t := by
  cases e with
  | request r =>
    cases hs
    refine ⟨hP, fun t ht => ?_⟩
    rcases List.mem_append.1 ht with ht | ht
    · exact hQ t ht
    · rw [List.mem_singleton.1 ht]
      exact he
  | advance i x =>
    obtain ⟨t, s', t', hi, ha, rfl⟩ := Pool.step_advance_iff.1 hs
    obtain ⟨hP', hQ'⟩ := h.kept _ _ _ _ _ hP (hQ t (List.mem_of_getElem? hi)) he ha
    refine ⟨hP', fun u hu => ?_⟩
    rcases List.mem_or_eq_of_mem_set hu with hu | rfl
    · exact hQ u hu
    · exact hQ'

/-- What the steps keep, the run keeps. -/
theorem run_forgettable (h : Forgettable act forget P Q G) {p p' : Pool S T} {es : List (Event R I)}
    (hP : P p.store) (hQ : ∀ t ∈ p.threads, Q t) (hes : ∀ e ∈ es, e.Meets start Q G)
    (hrun : run (Pool.step start act) p es = some p') : P p'.store ∧ ∀ t ∈ p'.threads, Q t := by
  induction es generalizing p with
  | nil =>
    cases hrun
    exact ⟨hP, hQ⟩
  | cons e es ih =>
    obtain ⟨p₁, hs, hrest⟩ := run_cons_iff.1 hrun
    obtain ⟨hP₁, hQ₁⟩ := step_forgettable h hP hQ (hes e List.mem_cons_self) hs
    exact ih hP₁ hQ₁ (fun e' he' => hes e' (List.mem_cons_of_mem e he')) hrest

/-- **Forgetting**: the same run, without what was forgotten. -/
theorem run_forget (h : Forgettable act forget P Q G) {p : Pool S T} {es : List (Event R I)}
    (hP : P p.store) (hQ : ∀ t ∈ p.threads, Q t) (hes : ∀ e ∈ es, e.Meets start Q G) :
    run (Pool.step start act) (p.mapStore forget) es =
      (run (Pool.step start act) p es).map (Pool.mapStore forget) := by
  induction es generalizing p with
  | nil => rfl
  | cons e es ih =>
    have he := hes e List.mem_cons_self
    rw [run, run, step_forget h hP hQ he]
    cases hs : Pool.step start act p e with
    | none => rfl
    | some p₁ =>
      obtain ⟨hP₁, hQ₁⟩ := step_forgettable h hP hQ he hs
      exact ih hP₁ hQ₁ fun e' he' => hes e' (List.mem_cons_of_mem e he')

end Interleaving
