import Mathlib.Data.List.Forall2
import Webmeow.Lib.Interleaving

/-!
# Leaving out the steps of hidden threads

In a run of a pool some threads are hidden from the others. If their steps do not matter to what two
stores have to agree on, and a step of another thread is the same in stores that agree, then the run goes
on without the steps of the hidden threads, and the other threads come to the same states. A guard says which steps of these are meant.
-/

namespace Interleaving

open Runs

variable {S T R I : Type*}

/-- The event is no step of a hidden thread. -/
def Pool.seen (hidden : T → Bool) (p : Pool S T) : Event R I → Bool
  | .request _ => true
  | .advance i _ => !(p.threads[i]?.any hidden)

/-- The run without the steps of hidden threads; their requests stay, so that the threads keep their
numbers. -/
def erase (step : Pool S T → Event R I → Option (Pool S T)) (hidden : T → Bool) :
    Pool S T → List (Event R I) → List (Event R I)
  | _, [] => []
  | p, e :: es =>
    (if p.seen hidden e then [e] else []) ++ ((step p e).map fun p' => erase step hidden p' es).getD []

/-- The two threads are the same one, or both are hidden. -/
def SameSeen (hidden : T → Bool) (t u : T) : Prop := t = u ∨ hidden t = true ∧ hidden u = true

/-- The stores agree and the threads are the same up to hidden ones. -/
structure Similar (agree : S → S → Prop) (hidden : T → Bool) (p q : Pool S T) : Prop where
  /-- The stores agree. -/
  store : agree p.store q.store
  /-- The threads that are not hidden are the same. -/
  threads : List.Forall₂ (SameSeen hidden) p.threads q.threads

/-- What is required of the steps that meet the guard. -/
structure Erasable (act : S → T → I → Option (S × T)) (agree : S → S → Prop) (hidden : T → Bool)
    (G : S → T → I → Prop) (Q : T → Prop) : Prop where
  /-- A step of a hidden thread is not noticed. -/
  unnoticed : ∀ s u t x s' t', Q t → hidden t = true → agree s u → act s t x = some (s', t') →
    agree s' u ∧ hidden t' = true
  /-- A step of another thread is possible in a store that agrees, too. -/
  possible : ∀ s u t x s' t', Q t → hidden t = false → G s t x → agree s u →
    act s t x = some (s', t') → ∃ u', act u t x = some (u', t') ∧ agree s' u'
  /-- The assertion about threads is kept. -/
  kept : ∀ s t x s' t', Q t → act s t x = some (s', t') → Q t'

/-- The step of the thread whose turn it is meets the guard. -/
def Pool.Meets (G : S → T → I → Prop) (p : Pool S T) : Event R I → Prop
  | .request _ => True
  | .advance i x => ∀ t ∈ p.threads[i]?, G p.store t x

instance {G : S → T → I → Prop} [∀ s t x, Decidable (G s t x)] (p : Pool S T) :
    ∀ e : Event R I, Decidable (p.Meets G e)
  | .request _ => isTrue trivial
  | .advance i x => inferInstanceAs (Decidable (∀ t ∈ p.threads[i]?, G p.store t x))

variable {start : R → T} {act : S → T → I → Option (S × T)} {agree : S → S → Prop} {hidden : T → Bool}
  {G : S → T → I → Prop} {Q : T → Prop} {p q p' : Pool S T}

theorem forall₂_getElem? {r : T → T → Prop} {l l' : List T} (h : List.Forall₂ r l l') {i : ℕ} {t : T}
    (hi : l[i]? = some t) : ∃ u, l'[i]? = some u ∧ r t u := by
  induction h generalizing i with
  | nil => cases hi
  | cons htu _ ih =>
    cases i with
    | zero =>
      cases hi
      exact ⟨_, rfl, htu⟩
    | succ i => exact ih hi

theorem forall₂_set {r : T → T → Prop} {l l' : List T} (h : List.Forall₂ r l l') (i : ℕ) {t u : T}
    (htu : r t u) : List.Forall₂ r (l.set i t) (l'.set i u) := by
  induction h generalizing i with
  | nil => exact List.Forall₂.nil
  | cons hhead htail ih =>
    cases i with
    | zero => exact List.Forall₂.cons htu htail
    | succ i => exact List.Forall₂.cons hhead (ih i)

/-- A hidden thread changes on one side only. -/
theorem forall₂_set_left {r : T → T → Prop} {l l' : List T} (h : List.Forall₂ r l l') {i : ℕ}
    {t u : T} (hi : l'[i]? = some u) (htu : r t u) : List.Forall₂ r (l.set i t) l' := by
  induction h generalizing i with
  | nil => exact List.Forall₂.nil
  | cons hhead htail ih =>
    cases i with
    | zero =>
      cases hi
      exact List.Forall₂.cons htu htail
    | succ i => exact List.Forall₂.cons hhead (ih hi)

/-- **One event**: it is one of the other run, too, or the step of a hidden thread. -/
theorem similar_step (hact : Erasable act agree hidden G Q) (hQ : ∀ t ∈ p.threads, Q t)
    (h : Similar agree hidden p q) {e : Event R I} (hG : p.Meets G e)
    (hs : p.step start act e = some p') :
    if p.seen hidden e then ∃ q', q.step start act e = some q' ∧ Similar agree hidden p' q'
    else Similar agree hidden p' q := by
  cases e with
  | request r =>
    cases hs
    have happend : List.Forall₂ (SameSeen hidden) (p.threads ++ [start r]) (q.threads ++ [start r]) :=
      List.rel_append h.threads (List.Forall₂.cons (Or.inl rfl) List.Forall₂.nil)
    rw [if_pos (by rfl)]
    exact ⟨_, rfl, h.store, happend⟩
  | advance i x =>
    obtain ⟨t, s', t', hi, ha, rfl⟩ := Pool.step_advance_iff.1 hs
    obtain ⟨u, hu, htu⟩ := forall₂_getElem? h.threads hi
    have hQt := hQ t (List.mem_of_getElem? hi)
    have hseen : p.seen hidden (.advance i x : Event R I) = !hidden t := by
      rw [Pool.seen, hi]
      rfl
    rw [hseen]
    cases hhidden : hidden t with
    | true =>
      obtain ⟨hstore, ht'⟩ := hact.unnoticed _ _ t x s' t' hQt hhidden h.store ha
      have hu' : hidden u = true := by
        rcases htu with rfl | ⟨-, hu'⟩
        · exact hhidden
        · exact hu'
      rw [if_neg (by decide)]
      exact ⟨hstore, forall₂_set_left h.threads hu (Or.inr ⟨ht', hu'⟩)⟩
    | false =>
      have hsame : t = u := by
        rcases htu with hsame | ⟨ht, -⟩
        · exact hsame
        · exact absurd (hhidden.symm.trans ht) (by decide)
      subst hsame
      obtain ⟨u', hact', hstore⟩ := hact.possible _ _ t x s' t' hQt hhidden (hG t hi) h.store ha
      rw [if_pos (by rfl)]
      exact ⟨_, Pool.step_advance_iff.2 ⟨t, u', t', hu, hact', rfl⟩, hstore,
        forall₂_set h.threads i (Or.inl rfl)⟩

/-- Where the guard asks for nothing, every run meets it. -/
theorem throughout_free (step : Pool S T → Event R I → Option (Pool S T)) (p : Pool S T)
    (es : List (Event R I)) : Throughout step (Pool.Meets fun _ _ _ => True) p es := by
  induction es generalizing p with
  | nil => trivial
  | cons e es ih =>
    refine ⟨?_, fun p' _ => ih p'⟩
    cases e with
    | request r => trivial
    | advance i x => exact fun _ _ => trivial

/-- **Erasure**: the run without the steps of the hidden threads is a run, its end agrees with that of the
whole run, and the assertion holds of all threads there. -/
theorem run_erase (hact : Erasable act agree hidden G Q) {es : List (Event R I)}
    (hstart : ∀ r, .request r ∈ es → Q (start r)) (hQ : ∀ t ∈ p.threads, Q t)
    (h : Similar agree hidden p q) (hG : Throughout (Pool.step start act) (Pool.Meets G) p es)
    (hrun : run (Pool.step start act) p es = some p') :
    ∃ q', run (Pool.step start act) q (erase (Pool.step start act) hidden p es) = some q' ∧
      Similar agree hidden p' q' ∧ ∀ t ∈ p'.threads, Q t := by
  induction es generalizing p q with
  | nil =>
    rw [run_nil, Option.some.injEq] at hrun
    subst hrun
    exact ⟨q, rfl, h, hQ⟩
  | cons e es ih =>
    obtain ⟨p₁, hs, hrest⟩ := run_cons_iff.1 hrun
    have hQ₁ : ∀ t ∈ p₁.threads, Q t := by
      intro t ht
      obtain ⟨i, hi⟩ := List.mem_iff_getElem?.1 ht
      rcases Pool.thread_after hs hi with hkept | ⟨r, rfl, rfl⟩ | ⟨x, u, -, hu, ha⟩
      · exact hQ t (List.mem_of_getElem? hkept)
      · exact hstart r List.mem_cons_self
      · exact hact.kept _ _ _ _ _ (hQ u (List.mem_of_getElem? hu)) ha
    have hstart₁ : ∀ r, .request r ∈ es → Q (start r) := fun r hr =>
      hstart r (List.mem_cons_of_mem e hr)
    have hone := similar_step hact hQ h hG.1 hs
    have hG₁ := hG.2 p₁ hs
    rw [erase, hs, Option.map_some, Option.getD_some]
    split_ifs at hone ⊢ with hseen
    · obtain ⟨q₁, hq₁, hsim⟩ := hone
      obtain ⟨q', hq', hsim'⟩ := ih hstart₁ hQ₁ hsim hG₁ hrest
      exact ⟨q', run_cons_iff.2 ⟨q₁, hq₁, hq'⟩, hsim'⟩
    · exact ih hstart₁ hQ₁ hone hG₁ hrest

end Interleaving
