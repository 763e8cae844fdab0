import Mathlib.Data.List.Induction
import Webmeow.Lib.Interleaving

/-!
# The last writer of a register

Threads that each write a register of the shared store at most once. In every interleaving the
register holds what some thread has written, such that no other thread that has written began after
that one had ended; or it was never written.
-/

namespace Interleaving

open Runs

variable {S T R I V : Type*} {start : R → T} {act : S → T → I → Option (S × T)}

/-- Thread `j` arrived when thread `i` was `done` already. -/
def EntirelyAfter (start : R → T) (act : S → T → I → Option (S × T)) (done : T → Prop)
    (p : Pool S T) (es : List (Event R I)) (i j : ℕ) : Prop :=
  ∃ before after q t, es = before ++ after ∧ run (Pool.step start act) p before = some q ∧
    q.threads[i]? = some t ∧ done t ∧ q.threads.length ≤ j

/-- What a step has to respect: it leaves the register and what its thread has written alone, or it
is the one write of its thread, which is not done before. -/
structure WritesOnce (act : S → T → I → Option (S × T)) (reg : S → V) (wrote : T → Option V)
    (done : T → Prop) (Q : T → Prop) : Prop where
  /-- A step keeps what the threads have to satisfy. -/
  keep : ∀ s t x s' t', Q t → act s t x = some (s', t') → Q t'
  /-- A step leaves the register alone or is the write of its thread. -/
  write : ∀ s t x s' t', Q t → act s t x = some (s', t') →
    (reg s' = reg s ∧ wrote t' = wrote t) ∨ (wrote t' = some (reg s') ∧ ¬ done t)
  /-- A thread that is done takes no step. -/
  stuck : ∀ s t x, done t → act s t x = none

variable {reg : S → V} {wrote : T → Option V} {done : T → Prop} {Q : T → Prop}

/-- A thread that is done stays as it is. -/
theorem WritesOnce.done_step (h : WritesOnce act reg wrote done Q) {p p' : Pool S T}
    {e : Event R I} (hs : p.step start act e = some p') {i : ℕ} {t : T}
    (hi : p.threads[i]? = some t) (hd : done t) : p'.threads[i]? = some t := by
  cases e with
  | request r =>
    cases hs
    have hlt : i < p.threads.length := (List.getElem?_eq_some_iff.1 hi).1
    rw [List.getElem?_append_left hlt]
    exact hi
  | advance k x =>
    obtain ⟨u, s', u', hk, ha, rfl⟩ := Pool.step_advance_iff.1 hs
    have hne : k ≠ i := by
      rintro rfl
      rw [hi, Option.some.injEq] at hk
      rw [← hk, h.stuck _ _ _ hd] at ha
      cases ha
    rw [List.getElem?_set_ne hne]
    exact hi

/-- A thread that is done stays as it is. -/
theorem WritesOnce.done_run (h : WritesOnce act reg wrote done Q) {p p' : Pool S T}
    {es : List (Event R I)} (hr : run (Pool.step start act) p es = some p') {i : ℕ} {t : T}
    (hi : p.threads[i]? = some t) (hd : done t) : p'.threads[i]? = some t := by
  have hall : Always (Pool.step start act) (fun q => q.threads[i]? = some t) p es :=
    always_of_invariant (fun _ _ _ hq hs => h.done_step hs hq hd) hi
  exact hall.last hr

/-- One more event puts a thread after another only if it arrives later than that. -/
theorem entirelyAfter_concat {p q : Pool S T} {es : List (Event R I)} {e : Event R I} {i j : ℕ}
    (hr : run (Pool.step start act) p (es ++ [e]) = some q) (hj : j < q.threads.length)
    (h : EntirelyAfter start act done p (es ++ [e]) i j) :
    EntirelyAfter start act done p es i j := by
  obtain ⟨before, after, q', t, hes, hq', hi, hd, hlen⟩ := h
  rcases List.eq_nil_or_concat after with rfl | ⟨init, last, rfl⟩
  · rw [List.append_nil] at hes
    rw [← hes, hr, Option.some.injEq] at hq'
    rw [← hq'] at hlen
    exact absurd hj (Nat.not_lt.2 hlen)
  · rw [List.concat_eq_append, ← List.append_assoc] at hes
    exact ⟨before, init, q', t, (List.append_inj' hes rfl).1, hq', hi, hd, hlen⟩

/-- What thread `j` has written. -/
def Pool.written (wrote : T → Option V) (q : Pool S T) (j : ℕ) : Option V :=
  q.threads[j]?.bind wrote

theorem Pool.lt_of_written {q : Pool S T} {j : ℕ} (h : q.written wrote j ≠ none) :
    j < q.threads.length := by
  by_contra hge
  rw [Pool.written, List.getElem?_eq_none (Nat.not_lt.1 hge)] at h
  exact h rfl

theorem Pool.written_request {q : Pool S T} {r : R} (hstart : wrote (start r) = none) (j : ℕ) :
    Pool.written wrote { q with threads := q.threads ++ [start r] } j = q.written wrote j := by
  simp only [Pool.written]
  rcases Nat.lt_or_ge j q.threads.length with hlt | hge
  · rw [List.getElem?_append_left hlt]
  · rw [List.getElem?_eq_none hge, List.getElem?_append_right hge]
    cases hd : j - q.threads.length with
    | zero => exact hstart
    | succ n => rfl

theorem Pool.written_set {q : Pool S T} {k : ℕ} {t t' : T} {s' : S} (hk : q.threads[k]? = some t)
    (j : ℕ) : Pool.written wrote ⟨s', q.threads.set k t'⟩ j =
      if k = j then wrote t' else q.written wrote j := by
  simp only [Pool.written]
  split_ifs with he
  · subst he
    rw [List.getElem?_set_self (List.getElem?_eq_some_iff.1 hk).1]
    rfl
  · rw [List.getElem?_set_ne he]

/-- Nobody has written yet, or the register holds the value of a thread without a writer entirely
after it. -/
def LastWrite (start : R → T) (act : S → T → I → Option (S × T)) (reg : S → V)
    (wrote : T → Option V) (done : T → Prop) (p : Pool S T) (es : List (Event R I))
    (q : Pool S T) : Prop :=
  (reg q.store = reg p.store ∧ ∀ j, q.written wrote j = none) ∨
  ∃ i, q.written wrote i = some (reg q.store) ∧
    ∀ j, q.written wrote j ≠ none → ¬ EntirelyAfter start act done p es i j

/-- An event that leaves the register and what was written alone keeps the last write. -/
theorem LastWrite.keep {p m q : Pool S T} {es : List (Event R I)} {e : Event R I}
    (h : LastWrite start act reg wrote done p es m)
    (hr : run (Pool.step start act) p (es ++ [e]) = some q)
    (hreg : reg q.store = reg m.store) (hw : ∀ j, q.written wrote j = m.written wrote j) :
    LastWrite start act reg wrote done p (es ++ [e]) q := by
  rcases h with ⟨hinit, hnone⟩ | ⟨i, hi, hlast⟩
  · exact Or.inl ⟨hreg.trans hinit, fun j => (hw j).trans (hnone j)⟩
  · refine Or.inr ⟨i, by rw [hw, hreg]; exact hi, fun j hj hafter => ?_⟩
    exact hlast j (hw j ▸ hj) (entirelyAfter_concat hr (Pool.lt_of_written hj) hafter)

/-- **The last writer**: whatever the interleaving, the register of a pool that began without
threads holds its initial value or that of a last writer. -/
theorem WritesOnce.lastWrite (h : WritesOnce act reg wrote done Q)
    (hstart : ∀ r, wrote (start r) = none) (hQ : ∀ r, Q (start r)) {p : Pool S T}
    (hp : p.threads = []) (es : List (Event R I)) (q : Pool S T)
    (hr : run (Pool.step start act) p es = some q) :
    (∀ t ∈ q.threads, Q t) ∧ LastWrite start act reg wrote done p es q := by
  induction es using List.reverseRecOn generalizing q with
  | nil =>
    rw [run_nil, Option.some.injEq] at hr
    subst hr
    refine ⟨by simp [hp], Or.inl ⟨rfl, fun j => ?_⟩⟩
    simp [Pool.written, hp]
  | append_singleton es e ih =>
    obtain ⟨m, hm, hs⟩ := run_concat_iff.1 hr
    obtain ⟨hQm, hold⟩ := ih m hm
    cases e with
    | request r =>
      cases hs
      refine ⟨fun t ht => ?_, hold.keep hr rfl (Pool.written_request (hstart r))⟩
      rcases List.mem_append.1 ht with ht | ht
      · exact hQm t ht
      · rw [List.mem_singleton.1 ht]
        exact hQ r
    | advance k x =>
      obtain ⟨t, s', t', hk, ha, rfl⟩ := Pool.step_advance_iff.1 hs
      have hQt : Q t := hQm t (List.mem_of_getElem? hk)
      refine ⟨fun u hu => ?_, ?_⟩
      · rcases List.mem_or_eq_of_mem_set hu with hu | rfl
        · exact hQm u hu
        · exact h.keep _ _ _ _ _ hQt ha
      · rcases h.write _ _ _ _ _ hQt ha with ⟨hreg, hw⟩ | ⟨hw, hdone⟩
        · refine hold.keep hr hreg fun j => ?_
          rw [Pool.written_set hk]
          split_ifs with he
          · rw [hw, Pool.written, ← he, hk, Option.bind_some]
          · rfl
        · -- the writer is not done, so nobody can have arrived after it
          refine Or.inr ⟨k, by rw [Pool.written_set hk, if_pos rfl]; exact hw, ?_⟩
          intro j hj hafter
          obtain ⟨before, after, n, u, hes, hn, hku, hd, -⟩ :=
            entirelyAfter_concat hr (Pool.lt_of_written hj) hafter
          rw [hes] at hm
          obtain ⟨n', hn', hrest⟩ := run_append_iff.1 hm
          rw [hn, Option.some.injEq] at hn'
          subst hn'
          have hsame := h.done_run hrest hku hd
          rw [hk, Option.some.injEq] at hsame
          exact hdone (hsame ▸ hd)

end Interleaving
