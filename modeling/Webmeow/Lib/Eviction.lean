import Mathlib.Data.List.Sort
import Mathlib.Data.List.Nodup

/-!
# Eviction of the lowest rows

A table that has become too long drops the rows that come first in the order of their ranks. Rows are
dropped by key, in the place where they stand.
-/

namespace Eviction

variable {α κ ρ : Type*} [DecidableEq κ] [LinearOrder ρ] (key : α → κ) (rank : α → ρ)

/-- The rows in the order of their ranks; rows of one rank stay in the order of the table. -/
def byRank (l : List α) : List α := l.insertionSort fun a b => rank a ≤ rank b

/-- The table without its `n` lowest rows. -/
def evict (n : ℕ) (l : List α) : List α :=
  l.filter fun a => decide (key a ∉ ((byRank rank l).take n).map key)

variable {key rank} {l : List α} {n : ℕ}

theorem byRank_perm (l : List α) : (byRank rank l).Perm l := List.perm_insertionSort _ l

theorem byRank_sorted (l : List α) : (byRank rank l).Pairwise fun a b => rank a ≤ rank b := by
  have htrans : IsTrans α fun a b => rank a ≤ rank b := ⟨fun _ _ _ h h' => h.trans h'⟩
  have htotal : Std.Total fun a b : α => rank a ≤ rank b := ⟨fun a b => le_total (rank a) (rank b)⟩
  exact List.pairwise_insertionSort (fun a b => rank a ≤ rank b) l

/-- What goes ranks no higher than what stays. -/
theorem rank_le_of_take_drop {a b : α} (ha : a ∈ (byRank rank l).take n)
    (hb : b ∈ (byRank rank l).drop n) : rank a ≤ rank b := by
  have hsorted := @byRank_sorted _ _ _ rank l
  rw [← List.take_append_drop n (byRank rank l), List.pairwise_append] at hsorted
  exact hsorted.2.2 a ha b hb

/-- Of a table that falls into two parts, the rows whose keys are not in the first are the second. -/
theorem filter_key_perm {s t : List α} (h : l.Perm (s ++ t)) (hkey : (l.map key).Nodup) :
    (l.filter fun a => decide (key a ∉ s.map key)).Perm t := by
  have hnodup := (h.map key).nodup_iff.1 hkey
  rw [List.map_append, List.nodup_append] at hnodup
  obtain ⟨-, -, hdisjoint⟩ := hnodup
  have hs : s.filter (fun a => decide (key a ∉ s.map key)) = [] := by
    refine List.filter_eq_nil_iff.2 fun a ha hnot => ?_
    exact of_decide_eq_true hnot (List.mem_map_of_mem ha)
  have ht : t.filter (fun a => decide (key a ∉ s.map key)) = t := by
    refine List.filter_eq_self.2 fun a ha => decide_eq_true fun hin => ?_
    exact hdisjoint _ hin _ (List.mem_map_of_mem ha) rfl
  have hsplit := h.filter fun a => decide (key a ∉ s.map key)
  rwa [List.filter_append, hs, ht] at hsplit

/-- What is left are the rows behind the first `n` of the order. -/
theorem evict_perm (hkey : (l.map key).Nodup) (n : ℕ) :
    (evict key rank n l).Perm ((byRank rank l).drop n) := by
  refine filter_key_perm ?_ hkey
  rw [List.take_append_drop]
  exact (byRank_perm l).symm

theorem evict_length (hkey : (l.map key).Nodup) (n : ℕ) :
    (evict key rank n l).length = l.length - n := by
  rw [(evict_perm hkey n).length_eq, List.length_drop, (byRank_perm l).length_eq]

/-- **Eviction of the lowest**: no row that is dropped ranks above one that is left. -/
theorem rank_le_of_evicted (hkey : (l.map key).Nodup) {a b : α} (ha : a ∈ l)
    (hout : a ∉ evict key rank n l) (hb : b ∈ evict key rank n l) : rank a ≤ rank b := by
  have hb' : b ∈ (byRank rank l).drop n := (evict_perm hkey n).mem_iff.1 hb
  have ha' : a ∈ byRank rank l := (byRank_perm l).mem_iff.2 ha
  rw [← List.take_append_drop n (byRank rank l), List.mem_append] at ha'
  rcases ha' with ha' | ha'
  · exact rank_le_of_take_drop ha' hb'
  · exact absurd ((evict_perm hkey n).mem_iff.2 ha') hout

end Eviction
