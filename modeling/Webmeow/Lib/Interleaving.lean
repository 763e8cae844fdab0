import Webmeow.Lib.Runs

/-!
# Interleavings of requests over a shared store

Any number of requests run against one store. A request is a thread with a program counter; one
`advance` performs the next atomic step of one thread. An assertion about a thread has to survive
the steps of all the others, which is the interference condition of `Pool.invariant_step`.
-/

namespace Interleaving

open Runs

/-- The shared store and the requests received so far, finished ones included. -/
structure Pool (S T : Type*) where
  /-- What the threads share. -/
  store : S
  /-- The threads, in the order they came in. -/
  threads : List T

/-- What can happen: a request arrives, or a thread performs its next step with an input. -/
inductive Event (R I : Type*) where
  /-- A request comes in. -/
  | request (r : R)
  /-- Thread `i` takes a step with what it reads from outside. -/
  | advance (i : ℕ) (x : I)

variable {S T R I : Type*}

/-- One event, given how a request starts and what one step of a thread does to the store. -/
def Pool.step (start : R → T) (act : S → T → I → Option (S × T)) (p : Pool S T) :
    Event R I → Option (Pool S T)
  | .request r => some { p with threads := p.threads ++ [start r] }
  | .advance i x =>
    match p.threads[i]? with
    | none => none
    | some t => (act p.store t x).map fun q => ⟨q.1, p.threads.set i q.2⟩

variable {start : R → T} {act : S → T → I → Option (S × T)} {p p' : Pool S T}

/-- A step of thread `i` is a step of its own, and only its entry changes. -/
theorem Pool.step_advance_iff {i : ℕ} {x : I} :
    p.step start act (.advance i x) = some p' ↔
      ∃ t s' t', p.threads[i]? = some t ∧ act p.store t x = some (s', t') ∧
        p' = ⟨s', p.threads.set i t'⟩ := by
  simp only [Pool.step]
  cases ht : p.threads[i]? with
  | none => simp
  | some t =>
    simp only [Option.map_eq_some_iff, Option.some.injEq]
    constructor
    · rintro ⟨⟨s', t'⟩, h1, h2⟩
      exact ⟨t, s', t', rfl, h1, h2.symm⟩
    · rintro ⟨_, s', t', rfl, h1, h2⟩
      exact ⟨⟨s', t'⟩, h1, h2.symm⟩

/-- A thread after an event is one that has not moved, one that has just started, or the one whose step
the event is. -/
theorem Pool.thread_after {e : Event R I} (hs : p.step start act e = some p') {i : ℕ} {t' : T}
    (ht' : p'.threads[i]? = some t') :
    p.threads[i]? = some t' ∨ (∃ r, e = .request r ∧ t' = start r) ∨
      ∃ x t, e = .advance i x ∧ p.threads[i]? = some t ∧ act p.store t x = some (p'.store, t') := by
  cases e with
  | request r =>
    cases hs
    rcases Nat.lt_or_ge i p.threads.length with hlt | hge
    · rw [List.getElem?_append_left hlt] at ht'
      exact Or.inl ht'
    · rw [List.getElem?_append_right hge] at ht'
      exact Or.inr (Or.inl ⟨r, rfl, List.mem_singleton.1 (List.mem_of_getElem? ht')⟩)
  | advance j x =>
    obtain ⟨t, s', u, hj, ha, rfl⟩ := Pool.step_advance_iff.1 hs
    by_cases hij : j = i
    · subst hij
      have hlt := (List.getElem?_eq_some_iff.1 hj).1
      rw [List.getElem?_set_self hlt, Option.some.injEq] at ht'
      subst ht'
      exact Or.inr (Or.inr ⟨x, t, rfl, hj, ha⟩)
    · rw [List.getElem?_set_ne hij] at ht'
      exact Or.inl ht'

/-- How many threads have a property, after the step of one of them. -/
theorem countP_set {threads : List T} {i : ℕ} {t : T} (hi : threads[i]? = some t) (t' : T)
    (q : T → Bool) : (threads.set i t').countP q + (if q t then 1 else 0) =
      threads.countP q + if q t' then 1 else 0 := by
  obtain ⟨hlt, rfl⟩ := List.getElem?_eq_some_iff.1 hi
  rw [List.countP_set hlt]
  have hle : (if q threads[i] then 1 else 0) ≤ threads.countP q := by
    split_ifs with hq
    · exact List.countP_pos_iff.2 ⟨_, List.getElem_mem hlt, hq⟩
    · exact Nat.zero_le _
  omega

/-- **Guarded interference freedom**: an invariant `P` of the store together with an assertion `Q`
about each thread is preserved by an event that meets the guard `G` if a thread's own step
re-establishes both under `G` and keeps the assertions of the other threads. -/
theorem Pool.guarded_step {P : S → Prop} {Q : S → T → Prop} {G : S → T → I → Prop}
    (hstart : ∀ s r, P s → Q s (start r))
    (hact : ∀ s t x s' t', P s → Q s t → G s t x → act s t x = some (s', t') →
      P s' ∧ Q s' t' ∧ ∀ u, Q s u → Q s' u)
    (p : Pool S T) (e : Event R I) (p' : Pool S T) (h : P p.store ∧ ∀ t ∈ p.threads, Q p.store t)
    (hG : ∀ i x t, e = .advance i x → p.threads[i]? = some t → G p.store t x)
    (hs : p.step start act e = some p') : P p'.store ∧ ∀ t ∈ p'.threads, Q p'.store t := by
  obtain ⟨hP, hQ⟩ := h
  cases e with
  | request r =>
    cases hs
    refine ⟨hP, fun t ht => ?_⟩
    rcases List.mem_append.1 ht with ht | ht
    · exact hQ t ht
    · rw [List.mem_singleton.1 ht]
      exact hstart _ r hP
  | advance i x =>
    obtain ⟨t, s', t', hi, ha, rfl⟩ := Pool.step_advance_iff.1 hs
    obtain ⟨hP', hQ', hkeep⟩ :=
      hact _ t x s' t' hP (hQ t (List.mem_of_getElem? hi)) (hG i x t rfl hi) ha
    refine ⟨hP', fun u hu => ?_⟩
    rcases List.mem_or_eq_of_mem_set hu with hu | rfl
    · exact hkeep u (hQ u hu)
    · exact hQ'

/-- **Interference freedom**: the same for steps that need no guard. -/
theorem Pool.invariant_step {P : S → Prop} {Q : S → T → Prop}
    (hstart : ∀ s r, P s → Q s (start r))
    (hact : ∀ s t x s' t', P s → Q s t → act s t x = some (s', t') →
      P s' ∧ Q s' t' ∧ ∀ u, Q s u → Q s' u)
    (p : Pool S T) (e : Event R I) (p' : Pool S T) (h : P p.store ∧ ∀ t ∈ p.threads, Q p.store t)
    (hs : p.step start act e = some p') : P p'.store ∧ ∀ t ∈ p'.threads, Q p'.store t :=
  Pool.guarded_step (G := fun _ _ _ => True) hstart
    (fun s t x s' t' hP hQ _ ha => hact s t x s' t' hP hQ ha) p e p' h (fun _ _ _ _ _ => trivial) hs

end Interleaving
