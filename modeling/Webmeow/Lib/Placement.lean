import Mathlib.Logic.Function.Basic
import Mathlib.Data.Nat.Basic

/-!
# Items in places

`occ i p` is how often the item `i` occurs at the place `p`. Items that occur at most once anywhere
stay so when one item moves, appears or disappears and the others stay where they are.
-/

namespace Placement

variable {I P : Type*} [DecidableEq P] {occ occ' : I → P → ℕ}

/-- The item occurs once, at this place and nowhere else. -/
def At (occ : I → P → ℕ) (i : I) (p : P) : Prop := ∀ q, occ i q = if q = p then 1 else 0

/-- The item is in no place. -/
def Nowhere (occ : I → P → ℕ) (i : I) : Prop := ∀ q, occ i q = 0

/-- No item is in two places or twice in one. -/
def AtMostOnce (occ : I → P → ℕ) : Prop := ∀ i, Nowhere occ i ∨ ∃ p, At occ i p

theorem At.self {i : I} {p : P} (h : At occ i p) : occ i p = 1 := by
  rw [h p, if_pos rfl]

theorem At.eq_of_pos {i : I} {p q : P} (h : At occ i p) (hq : 0 < occ i q) : q = p := by
  by_contra hne
  rw [h q, if_neg hne] at hq
  exact absurd hq (Nat.lt_irrefl 0)

/-- An item that is taken from its place and put at another one is there. -/
theorem At.move {i : I} {p q : P} (h : At occ i p) (hne : q ≠ p)
    (hocc : occ' i = Function.update (Function.update (occ i) q 1) p 0) : At occ' i q := by
  intro r
  rw [hocc]
  by_cases hp : r = p
  · rw [hp, Function.update_self, if_neg (Ne.symm hne)]
  · rw [Function.update_of_ne hp]
    by_cases hq : r = q
    · rw [hq, Function.update_self, if_pos rfl]
    · rw [Function.update_of_ne hq, if_neg hq, h r, if_neg hp]

/-- An item that is taken from its place is nowhere. -/
theorem At.remove {i : I} {p : P} (h : At occ i p) (hocc : occ' i = Function.update (occ i) p 0) :
    Nowhere occ' i := by
  intro r
  rw [hocc]
  by_cases hp : r = p
  · rw [hp, Function.update_self]
  · rw [Function.update_of_ne hp, h r, if_neg hp]

/-- Where an item is, it is there alone. -/
theorem AtMostOnce.at_of_pos (h : AtMostOnce occ) {i : I} {p : P} (hp : 0 < occ i p) :
    At occ i p := by
  rcases h i with hno | ⟨q, hq⟩
  · rw [hno p] at hp
    exact absurd hp (Nat.lt_irrefl 0)
  · rw [hq.eq_of_pos hp]
    exact hq

/-- An item has one place. -/
theorem AtMostOnce.place_eq (h : AtMostOnce occ) {i : I} {p q : P} (hp : 0 < occ i p)
    (hq : 0 < occ i q) : p = q :=
  (h.at_of_pos hq).eq_of_pos hp

/-- **Conservation**: one item is anywhere, at most once, and the others stay. -/
theorem AtMostOnce.of_others (h : AtMostOnce occ) {i : I} (hi : Nowhere occ' i ∨ ∃ p, At occ' i p)
    (hothers : ∀ j, j ≠ i → occ' j = occ j) : AtMostOnce occ' := by
  intro j
  by_cases hj : j = i
  · rw [hj]
    exact hi
  · unfold Nowhere At
    rw [hothers j hj]
    exact h j

end Placement
