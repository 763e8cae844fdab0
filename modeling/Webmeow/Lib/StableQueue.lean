import Mathlib.Data.List.InsertIdx
import Mathlib.Data.List.TakeWhile
import Mathlib.Order.Lattice
import Mathlib.Data.List.Perm.Basic

/-!
# Stable priority queues

A queue in which a newcomer goes in front of the first element with a larger rank. If newcomers come
with increasing stamps, the queue is sorted by rank and, within one rank, by stamp.
-/

namespace StableQueue

variable {α R T : Type*} [LinearOrder R] [LinearOrder T] (rank : α → R) (stamp : α → T)

/-- The place of a newcomer: the first element with a larger rank, or the end. -/
def position (a : α) (queue : List α) : ℕ := queue.findIdx fun b => decide (rank a < rank b)

/-- The element behind those that rank no higher. -/
def insert (a : α) (queue : List α) : List α := queue.insertIdx (position rank a queue) a

/-- Smaller rank, or the same rank and an earlier stamp. -/
def Before (a b : α) : Prop := rank a < rank b ∨ rank a = rank b ∧ stamp a < stamp b

variable {rank stamp}

theorem insert_cons (a b : α) (queue : List α) :
    insert rank a (b :: queue) =
      if rank a < rank b then a :: b :: queue else b :: insert rank a queue := by
  by_cases h : rank a < rank b
  · simp [insert, position, List.findIdx_cons, h]
  · simp [insert, position, List.findIdx_cons, h]

theorem insert_perm (a : α) (queue : List α) : (insert rank a queue).Perm (a :: queue) :=
  List.perm_insertIdx a queue List.findIdx_le_length

theorem mem_insert {a b : α} {queue : List α} : b ∈ insert rank a queue ↔ b = a ∨ b ∈ queue := by
  rw [(insert_perm a queue).mem_iff, List.mem_cons]

theorem Before.rank_le {a b : α} (h : Before rank stamp a b) : rank a ≤ rank b := by
  rcases h with h | ⟨h, -⟩
  · exact le_of_lt h
  · exact le_of_eq h

/-- An earlier element that comes later in the order has a larger rank. -/
theorem Before.rank_lt {a b : α} (h : Before rank stamp a b) (hs : stamp b < stamp a) :
    rank a < rank b := by
  rcases h with h | ⟨-, h⟩
  · exact h
  · exact absurd hs (lt_asymm h)

/-- **Insertion**: a newcomer with the latest stamp keeps the queue sorted. -/
theorem insert_sorted {a : α} {queue : List α} (h : queue.Pairwise (Before rank stamp))
    (hlast : ∀ b ∈ queue, stamp b < stamp a) :
    (insert rank a queue).Pairwise (Before rank stamp) := by
  induction queue with
  | nil => exact List.pairwise_singleton _ _
  | cons b queue ih =>
    obtain ⟨hb, hqueue⟩ := List.pairwise_cons.1 h
    rw [insert_cons]
    by_cases hab : rank a < rank b
    · rw [if_pos hab]
      refine List.pairwise_cons.2 ⟨fun c hc => ?_, h⟩
      rcases List.mem_cons.1 hc with rfl | hc
      · exact Or.inl hab
      · exact Or.inl (lt_of_lt_of_le hab (hb c hc).rank_le)
    · rw [if_neg hab]
      refine List.pairwise_cons.2 ⟨fun c hc => ?_, ih hqueue fun c hc => ?_⟩
      swap
      · exact hlast c (List.mem_cons_of_mem b hc)
      rcases mem_insert.1 hc with rfl | hc
      · -- the newcomer comes behind its own rank
        rcases lt_or_eq_of_le (not_lt.1 hab) with hlt | heq
        · exact Or.inl hlt
        · exact Or.inr ⟨heq, hlast b List.mem_cons_self⟩
      · exact hb c hc

/-! ## Ranks alone -/

/-- A newcomer keeps the ranks sorted, whatever its stamp. -/
theorem insert_rank_sorted {a : α} {queue : List α}
    (h : queue.Pairwise fun b c => rank b ≤ rank c) :
    (insert rank a queue).Pairwise fun b c => rank b ≤ rank c := by
  induction queue with
  | nil => exact List.pairwise_singleton _ _
  | cons b queue ih =>
    obtain ⟨hb, hqueue⟩ := List.pairwise_cons.1 h
    rw [insert_cons]
    by_cases hab : rank a < rank b
    · rw [if_pos hab]
      refine List.pairwise_cons.2 ⟨fun c hc => ?_, h⟩
      rcases List.mem_cons.1 hc with rfl | hc
      · exact le_of_lt hab
      · exact (le_of_lt hab).trans (hb c hc)
    · rw [if_neg hab]
      refine List.pairwise_cons.2 ⟨fun c hc => ?_, ih hqueue⟩
      rcases mem_insert.1 hc with rfl | hc
      · exact not_lt.1 hab
      · exact hb c hc

variable [DecidableEq α]

/-- A newcomer of a smaller rank overtakes. -/
theorem idxOf_insert_of_lt {a x : α} {queue : List α} (hx : x ∈ queue) (h : rank a < rank x) :
    (insert rank a queue).idxOf x = queue.idxOf x + 1 := by
  have hne : a ≠ x := fun he => absurd (congrArg rank he) (ne_of_lt h)
  induction queue with
  | nil => cases hx
  | cons b queue ih =>
    rw [insert_cons]
    by_cases hab : rank a < rank b
    · rw [if_pos hab, List.idxOf_cons_ne _ hne]
    · have hbx : b ≠ x := fun he => hab (he ▸ h)
      have hmem : x ∈ queue := (List.mem_cons.1 hx).resolve_left (Ne.symm hbx)
      rw [if_neg hab, List.idxOf_cons_ne _ hbx, List.idxOf_cons_ne _ hbx, ih hmem]

/-- Nobody else does, if the ranks are sorted. -/
theorem idxOf_insert_of_le {a x : α} {queue : List α}
    (hsorted : queue.Pairwise fun b c => rank b ≤ rank c) (hx : x ∈ queue) (h : rank x ≤ rank a) :
    (insert rank a queue).idxOf x = queue.idxOf x := by
  induction queue with
  | nil => cases hx
  | cons b queue ih =>
    obtain ⟨hb, hqueue⟩ := List.pairwise_cons.1 hsorted
    have hbx : rank b ≤ rank x := by
      rcases List.mem_cons.1 hx with rfl | hx
      · exact le_refl _
      · exact hb x hx
    rw [insert_cons, if_neg (not_lt.2 (hbx.trans h))]
    by_cases he : b = x
    · rw [he, List.idxOf_cons_self, List.idxOf_cons_self]
    · have hmem : x ∈ queue := (List.mem_cons.1 hx).resolve_left (Ne.symm he)
      rw [List.idxOf_cons_ne _ he, List.idxOf_cons_ne _ he, ih hqueue hmem]

end StableQueue
