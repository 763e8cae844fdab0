import Webmeow.Lib.Keyed
import Mathlib.Data.List.Sort
import Mathlib.Data.List.Induction
import Mathlib.Data.List.Perm.Basic
import Mathlib.Algebra.Order.Group.Int

/-!
# Assembling slots from interleaved pieces

Pieces carry the index of the slot they belong to and arrive interleaved. A slot is created by its
first piece and fed by all of them in the order of arrival. Sorted by index, the slots do not depend
on how the pieces of different slots were interleaved.
-/

namespace Assembly

variable {δ β : Type*} (index : δ → Int) (key : β → Int) (empty : Int → β) (feed : β → δ → β)

/-- Feed a piece to its slot, which is created if it is missing. -/
def add (slots : List β) (d : δ) : List β :=
  if slots.any fun s => key s = index d then
    slots.map fun s => if key s = index d then feed s d else s
  else slots ++ [feed (empty (index d)) d]

/-- The slots after all the pieces. -/
def assemble (ds : List δ) : List β := ds.foldl (add index key empty feed) []

/-- The slot of one index, fed by its own pieces only. -/
def slot (ds : List δ) (i : Int) : β :=
  (ds.filter fun d => index d = i).foldl feed (empty i)

variable {index key empty feed}

theorem assemble_concat (ds : List δ) (d : δ) :
    assemble index key empty feed (ds ++ [d]) =
      add index key empty feed (assemble index key empty feed ds) d :=
  List.foldl_concat _ _ _ _

theorem slot_concat (ds : List δ) (d : δ) (i : Int) :
    slot index empty feed (ds ++ [d]) i =
      if index d = i then feed (slot index empty feed ds i) d else slot index empty feed ds i := by
  unfold slot
  rw [List.filter_append]
  split_ifs with h
  · rw [List.filter_cons_of_pos (by simpa using h), List.filter_nil, List.foldl_concat]
  · rw [List.filter_cons_of_neg (by simpa using h), List.filter_nil, List.append_nil]

/-- An index without pieces has the empty slot. -/
theorem slot_of_not_mem {ds : List δ} {i : Int} (h : i ∉ ds.map index) :
    slot index empty feed ds i = empty i := by
  have hnone : (ds.filter fun d => index d = i) = [] := by
    refine List.filter_eq_nil_iff.2 fun d hd hi => h ?_
    exact List.mem_map.2 ⟨d, hd, of_decide_eq_true hi⟩
  rw [slot, hnone]
  rfl

section Keys

variable (hempty : ∀ i, key (empty i) = i) (hfeed : ∀ s d, key (feed s d) = key s)
include hempty hfeed

theorem key_slot (ds : List δ) (i : Int) : key (slot index empty feed ds i) = i := by
  unfold slot
  induction ds.filter fun d => index d = i using List.reverseRecOn with
  | nil => exact hempty i
  | append_singleton l d ih => rw [List.foldl_concat, hfeed, ih]

omit hempty in
theorem key_ite_feed (d : δ) (s : β) : key (if key s = index d then feed s d else s) = key s := by
  split_ifs
  · exact hfeed s d
  · rfl

theorem nodup_add {slots : List β} (hn : (slots.map key).Nodup) (d : δ) :
    ((add index key empty feed slots d).map key).Nodup := by
  unfold add
  split_ifs with hany
  · have hsame : (key ∘ fun s => if key s = index d then feed s d else s) = key :=
      funext (key_ite_feed hfeed d)
    rw [List.map_map, hsame]
    exact hn
  · refine Keyed.nodup_concat hn fun hd => hany ?_
    rw [hfeed, hempty] at hd
    obtain ⟨s, hs, he⟩ := List.mem_map.1 hd
    exact List.any_eq_true.2 ⟨s, hs, decide_eq_true he⟩

/-- A piece changes its own slot and no other. -/
theorem find_add (slots : List β) (d : δ) (i : Int) :
    ((add index key empty feed slots d).find? fun s => key s = i) =
      if index d = i then some (feed ((slots.find? fun s => key s = i).getD (empty i)) d)
      else slots.find? fun s => key s = i := by
  unfold add
  split_ifs with hany hi hi
  · -- the slot exists and is fed in its place
    rw [Keyed.find_map (key_ite_feed hfeed d)]
    cases hs : slots.find? fun s => key s = i with
    | none =>
      obtain ⟨s, hmem, hk⟩ := List.any_eq_true.1 hany
      rw [hi] at hk
      exact absurd hk (List.find?_eq_none.1 hs s hmem)
    | some s =>
      have hk : key s = i := by simpa using List.find?_some hs
      rw [Option.map_some, if_pos (hk.trans hi.symm), Option.getD_some]
  · rw [Keyed.find_map (key_ite_feed hfeed d)]
    cases hs : slots.find? fun s => key s = i with
    | none => rfl
    | some s =>
      have hk : key s = i := by simpa using List.find?_some hs
      rw [Option.map_some, if_neg fun he => hi (he.symm.trans hk)]
  · -- the slot is created at the end
    have hnone : (slots.find? fun s => key s = i) = none := by
      rw [← hi]
      exact List.find?_eq_none.2 fun s hs hk => hany (List.any_eq_true.2 ⟨s, hs, hk⟩)
    rw [List.find?_append, hnone, List.find?_cons_of_pos (by simp [hfeed, hempty, hi]), hi]
    rfl
  · rw [List.find?_append, List.find?_cons_of_neg (by simp [hfeed, hempty, hi]), List.find?_nil,
      Option.or_none]

theorem nodup_assemble (ds : List δ) : ((assemble index key empty feed ds).map key).Nodup := by
  induction ds using List.reverseRecOn with
  | nil => exact List.nodup_nil
  | append_singleton ds d ih =>
    rw [assemble_concat]
    exact nodup_add hempty hfeed ih d

/-- A slot is what its own pieces make of it. -/
theorem find_assemble (ds : List δ) (i : Int) :
    ((assemble index key empty feed ds).find? fun s => key s = i) =
      if i ∈ ds.map index then some (slot index empty feed ds i) else none := by
  induction ds using List.reverseRecOn with
  | nil => rfl
  | append_singleton ds d ih =>
    rw [assemble_concat, find_add hempty hfeed, ih, slot_concat]
    by_cases hd : index d = i
    · have hmem : i ∈ (ds ++ [d]).map index := by simp [hd]
      rw [if_pos hd, if_pos hmem, if_pos hd]
      split_ifs with hold
      · rfl
      · rw [slot_of_not_mem hold]
        rfl
    · have hmem : i ∈ ds.map index ↔ i ∈ (ds ++ [d]).map index := by simp [Ne.symm hd]
      rw [if_neg hd, if_neg hd]
      exact if_congr hmem rfl rfl

theorem mem_assemble_iff {ds : List δ} {s : β} :
    s ∈ assemble index key empty feed ds ↔
      key s ∈ ds.map index ∧ s = slot index empty feed ds (key s) := by
  have hfind : ((assemble index key empty feed ds).find? fun t => key t = key s) = _ :=
    find_assemble hempty hfeed ds (key s)
  constructor
  · intro hs
    rw [Keyed.find_of_mem (nodup_assemble hempty hfeed ds) hs] at hfind
    split_ifs at hfind with hmem
    exact ⟨hmem, Option.some.inj hfind⟩
  · rintro ⟨hmem, hs⟩
    rw [if_pos hmem, ← hs] at hfind
    exact List.mem_of_find?_eq_some hfind

/-- **Interleaving does not matter**: if the pieces are those of the slots `0 … n - 1`, each with at
least one piece, the slots sorted by key are these slots in order. -/
theorem sort_assemble {ds : List δ} {n : ℕ} (hindex : ∀ i, i ∈ ds.map index ↔ ∃ k < n, i = (k : ℕ)) :
    (assemble index key empty feed ds).insertionSort (fun s t => key s ≤ key t) =
      (List.range n).map fun k => slot index empty feed ds (k : ℕ) := by
  have hkey : ∀ i, key (slot index empty feed ds i) = i := key_slot hempty hfeed ds
  have hstrict : ((List.range n).map fun k => slot index empty feed ds (k : ℕ)).Pairwise
      fun s t => key s < key t := by
    refine List.pairwise_map.2 (List.pairwise_lt_range.imp fun {a b} hab => ?_)
    rw [hkey, hkey]
    exact_mod_cast hab
  have hperm : (assemble index key empty feed ds).Perm
      ((List.range n).map fun k => slot index empty feed ds (k : ℕ)) := by
    refine (List.perm_ext_iff_of_nodup (nodup_assemble hempty hfeed ds).of_map
      (hstrict.imp fun hlt he => ?_)).2 fun s => ?_
    · rw [he] at hlt
      exact lt_irrefl _ hlt
    · rw [mem_assemble_iff hempty hfeed, hindex, List.mem_map]
      constructor
      · rintro ⟨⟨k, hk, he⟩, hs⟩
        exact ⟨k, List.mem_range.2 hk, by rw [hs, he]⟩
      · rintro ⟨k, hk, rfl⟩
        exact ⟨⟨k, List.mem_range.1 hk, hkey _⟩, by rw [hkey]⟩
  have : Std.Total fun s t : β => key s ≤ key t := ⟨fun s t => le_total (key s) (key t)⟩
  have : IsTrans β fun s t => key s ≤ key t := ⟨fun _ _ _ => le_trans⟩
  refine List.Perm.eq_of_pairwise (fun s t hs ht hst hts => ?_)
    (List.pairwise_insertionSort _ _) (hstrict.imp le_of_lt) ((List.perm_insertionSort _ _).trans hperm)
  have hs' := (mem_assemble_iff hempty hfeed).1 ((List.mem_insertionSort _).1 hs)
  have ht' := (mem_assemble_iff hempty hfeed).1 (hperm.mem_iff.2 ht)
  rw [hs'.2, ht'.2, le_antisymm hst hts]

end Keys

end Assembly
