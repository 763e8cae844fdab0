import Mathlib.Data.Nat.Notation
import Mathlib.Tactic.TypeStar

/-!
# Isolation of an observer

An observer asks queries, each of which is answered in the state of its moment. The answers are
isolated from what a relation on states leaves open if they are the same in all related histories.
Since every answer is taken in a state of its own, a list of queries is isolated exactly when each
query is.
-/

namespace Isolation

variable {Q S O : Type*}

/-- The `n`-th query is answered in the `n`-th state. -/
def respond (obs : Q → S → O) : List Q → (ℕ → S) → List O
  | [], _ => []
  | q :: qs, σ => obs q (σ 0) :: respond obs qs fun n => σ (n + 1)

/-- The answers do not depend on what `agree` leaves open. -/
def Isolated (obs : Q → S → O) (agree : S → S → Prop) (qs : List Q) : Prop :=
  ∀ σ τ : ℕ → S, (∀ n, agree (σ n) (τ n)) → respond obs qs σ = respond obs qs τ

variable {obs : Q → S → O} {agree : S → S → Prop} {qs : List Q}

theorem respond_congr (h : ∀ q ∈ qs, ∀ s t, agree s t → obs q s = obs q t) {σ τ : ℕ → S}
    (hστ : ∀ n, agree (σ n) (τ n)) : respond obs qs σ = respond obs qs τ := by
  induction qs generalizing σ τ with
  | nil => rfl
  | cons q qs ih =>
    have hhead : obs q (σ 0) = obs q (τ 0) := h q List.mem_cons_self _ _ (hστ 0)
    have htail := ih (fun q' hq' => h q' (List.mem_cons_of_mem q hq')) fun n => hστ (n + 1)
    rw [respond, respond, hhead, htail]

/-- In an unchanging state every query of the list is answered. -/
theorem respond_const (s : S) : (respond obs qs fun _ => s) = qs.map fun q => obs q s := by
  induction qs with
  | nil => rfl
  | cons q qs ih => rw [respond, ih, List.map_cons]

/-- Isolation is a property of each query. -/
theorem isolated_iff :
    Isolated obs agree qs ↔ ∀ q ∈ qs, ∀ s t, agree s t → obs q s = obs q t := by
  constructor
  · intro h q hq s t hst
    have heq := h (fun _ => s) (fun _ => t) fun _ => hst
    rw [respond_const, respond_const] at heq
    exact List.map_inj_left.1 heq q hq
  · intro h σ τ hστ
    exact respond_congr h hστ

end Isolation
