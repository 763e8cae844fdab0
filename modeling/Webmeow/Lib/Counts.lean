import Mathlib.Algebra.BigOperators.Group.List.Basic
import Mathlib.Algebra.GroupWithZero.Nat

/-!
# Counts by key

A map from keys to counts as the list of its items, in the order in which the keys came up. Adding
to a key, counting a list and merging two maps all add up key by key, and in total.
-/

namespace Counts

variable {κ : Type*} [DecidableEq κ]

/-- Add `n` to the count of a key, which begins at zero. -/
def add (counts : List (κ × ℕ)) (k : κ) (n : ℕ) : List (κ × ℕ) :=
  if counts.any fun p => p.1 = k then counts.map fun p => if p.1 = k then (p.1, p.2 + n) else p
  else counts ++ [(k, n)]

/-- The count of a key. -/
def get (counts : List (κ × ℕ)) (k : κ) : ℕ := (counts.lookup k).getD 0

/-- The sum of the counts. -/
def total (counts : List (κ × ℕ)) : ℕ := (counts.map Prod.snd).sum

/-- Count the items of a list on top of what there is. -/
def tally (counts : List (κ × ℕ)) (l : List κ) : List (κ × ℕ) :=
  l.foldl (fun counts k => add counts k 1) counts

/-- Add every count of `b` to `a`. -/
def merge (a b : List (κ × ℕ)) : List (κ × ℕ) := b.foldl (fun counts p => add counts p.1 p.2) a

variable {counts a b : List (κ × ℕ)}

@[simp]
theorem get_nil (k : κ) : get [] k = 0 := rfl

theorem get_cons (p : κ × ℕ) (k : κ) :
    get (p :: counts) k = if k = p.1 then p.2 else get counts k := by
  obtain ⟨k', n⟩ := p
  simp only [get, List.lookup_cons]
  by_cases h : k = k'
  · simp [h]
  · have hb : (k == k') = false := by simpa using h
    simp [hb, h]

/-- A key that is not listed counts nothing. -/
theorem get_of_notMem {k : κ} (h : k ∉ counts.map Prod.fst) : get counts k = 0 := by
  induction counts with
  | nil => rfl
  | cons p counts ih =>
    rw [List.map_cons, List.mem_cons, not_or] at h
    rw [get_cons, if_neg h.1, ih h.2]

theorem any_iff {k : κ} : (counts.any fun p => p.1 = k) = true ↔ k ∈ counts.map Prod.fst := by
  rw [List.any_eq_true, List.mem_map]
  exact ⟨fun ⟨p, hp, hk⟩ => ⟨p, hp, of_decide_eq_true hk⟩,
    fun ⟨p, hp, hk⟩ => ⟨p, hp, decide_eq_true hk⟩⟩

theorem get_append_singleton (k k' : κ) (n : ℕ) (h : k ∉ counts.map Prod.fst) :
    get (counts ++ [(k, n)]) k' = get counts k' + if k' = k then n else 0 := by
  induction counts with
  | nil => simp [get_cons]
  | cons p counts ih =>
    rw [List.map_cons, List.mem_cons, not_or] at h
    rw [List.cons_append, get_cons, get_cons, ih h.2]
    by_cases hk : k' = p.1
    · have hne : p.1 ≠ k := fun he => h.1 he.symm
      simp [hk, hne]
    · simp [hk]

theorem get_map_add (k k' : κ) (n : ℕ) (h : k ∈ counts.map Prod.fst) :
    get (counts.map fun p => if p.1 = k then (p.1, p.2 + n) else p) k' =
      get counts k' + if k' = k then n else 0 := by
  induction counts with
  | nil => cases h
  | cons p counts ih =>
    rw [List.map_cons, get_cons, get_cons]
    by_cases hp : p.1 = k
    · rw [if_pos hp]
      by_cases hk : k' = p.1
      · simp [hk, hp]
      · have hne : k' ≠ k := fun he => hk (he.trans hp.symm)
        rw [if_neg hk, if_neg hk, if_neg hne, Nat.add_zero]
        by_cases hmem : k ∈ counts.map Prod.fst
        · rw [ih hmem, if_neg hne, Nat.add_zero]
        · congr 1
          refine (List.map_congr_left fun q hq => if_neg fun he => hmem ?_).trans (List.map_id _)
          exact he ▸ List.mem_map_of_mem hq
    · rw [if_neg hp]
      have hmem : k ∈ counts.map Prod.fst := by
        rcases List.mem_cons.1 h with h | h
        · exact absurd h.symm hp
        · exact h
      rw [ih hmem]
      by_cases hk : k' = p.1
      · have hne : k' ≠ k := fun he => hp (hk.symm.trans he)
        simp [hk, hp]
      · simp [hk]

/-- Adding to a key adds to the count of this key. -/
theorem get_add (counts : List (κ × ℕ)) (k k' : κ) (n : ℕ) :
    get (add counts k n) k' = get counts k' + if k' = k then n else 0 := by
  unfold add
  by_cases h : k ∈ counts.map Prod.fst
  · rw [if_pos (any_iff.2 h), get_map_add k k' n h]
  · rw [if_neg fun hany => h (any_iff.1 hany), get_append_singleton k k' n h]

/-- The keys after an addition. -/
theorem keys_add (counts : List (κ × ℕ)) (k : κ) (n : ℕ) : (add counts k n).map Prod.fst =
    if k ∈ counts.map Prod.fst then counts.map Prod.fst else counts.map Prod.fst ++ [k] := by
  unfold add
  by_cases h : k ∈ counts.map Prod.fst
  · rw [if_pos (any_iff.2 h), if_pos h, List.map_map]
    refine List.map_congr_left fun p _ => ?_
    simp only [Function.comp_apply]
    split_ifs <;> rfl
  · rw [if_neg fun hany => h (any_iff.1 hany), if_neg h, List.map_append]
    rfl

theorem mem_keys_add {k k' : κ} {n : ℕ} :
    k' ∈ (add counts k n).map Prod.fst ↔ k' ∈ counts.map Prod.fst ∨ k' = k := by
  rw [keys_add]
  split_ifs with hk
  · exact ⟨Or.inl, fun h => h.elim id fun he => he ▸ hk⟩
  · rw [List.mem_append, List.mem_singleton]

theorem nodup_add (h : (counts.map Prod.fst).Nodup) (k : κ) (n : ℕ) :
    ((add counts k n).map Prod.fst).Nodup := by
  rw [keys_add]
  split_ifs with hk
  · exact h
  · refine List.nodup_append.2 ⟨h, List.nodup_cons.2 ⟨List.not_mem_nil, List.nodup_nil⟩, ?_⟩
    intro a ha b hb
    rw [List.mem_singleton.1 hb]
    rintro rfl
    exact hk ha

/-- The total after an addition. -/
theorem total_add (h : (counts.map Prod.fst).Nodup) (k : κ) (n : ℕ) :
    total (add counts k n) = total counts + n := by
  unfold add
  by_cases hk : k ∈ counts.map Prod.fst
  · rw [if_pos (any_iff.2 hk)]
    induction counts with
    | nil => cases hk
    | cons p counts ih =>
      rw [List.map_cons, List.nodup_cons] at h
      by_cases hp : p.1 = k
      · have hrest : (counts.map fun q => if q.1 = k then (q.1, q.2 + n) else q) = counts := by
          refine (List.map_congr_left fun q hq => if_neg fun he => h.1 ?_).trans (List.map_id _)
          exact hp ▸ he ▸ List.mem_map_of_mem hq
        rw [List.map_cons, hrest, if_pos hp]
        simp only [total, List.map_cons, List.sum_cons]
        omega
      · have hmem : k ∈ counts.map Prod.fst := by
          rcases List.mem_cons.1 hk with he | he
          · exact absurd he.symm hp
          · exact he
        have hrest := ih h.2 hmem
        rw [List.map_cons, if_neg hp]
        simp only [total, List.map_cons, List.sum_cons] at hrest ⊢
        omega
  · rw [if_neg fun hany => hk (any_iff.1 hany)]
    simp [total]

/-! ## Lists that are counted -/

theorem nodup_tally (h : (counts.map Prod.fst).Nodup) (l : List κ) :
    ((tally counts l).map Prod.fst).Nodup := by
  induction l generalizing counts with
  | nil => exact h
  | cons k l ih => exact ih (nodup_add h k 1)

theorem mem_keys_tally {l : List κ} {k : κ} :
    k ∈ (tally counts l).map Prod.fst ↔ k ∈ counts.map Prod.fst ∨ k ∈ l := by
  induction l generalizing counts with
  | nil => exact ⟨Or.inl, fun h => h.elim id fun hk => absurd hk List.not_mem_nil⟩
  | cons k' l ih =>
    have hstep : tally counts (k' :: l) = tally (add counts k' 1) l := rfl
    rw [hstep, ih, mem_keys_add, List.mem_cons, or_assoc]

/-- A tally counts how often each key occurs. -/
theorem get_tally (counts : List (κ × ℕ)) (l : List κ) (k : κ) :
    get (tally counts l) k = get counts k + l.count k := by
  induction l generalizing counts with
  | nil => rfl
  | cons k' l ih =>
    have hstep : tally counts (k' :: l) = tally (add counts k' 1) l := rfl
    rw [hstep, ih, get_add, List.count_cons]
    by_cases hk : k = k'
    · simp [hk]
      omega
    · have hk' : ¬k' = k := fun he => hk he.symm
      simp [hk, hk']

/-- A tally counts every element. -/
theorem total_tally (h : (counts.map Prod.fst).Nodup) (l : List κ) :
    total (tally counts l) = total counts + l.length := by
  induction l generalizing counts with
  | nil => rfl
  | cons k l ih =>
    have hstep : tally counts (k :: l) = tally (add counts k 1) l := rfl
    rw [hstep, ih (nodup_add h k 1), total_add h, List.length_cons]
    omega

/-! ## Maps that are merged -/

theorem nodup_merge (h : (a.map Prod.fst).Nodup) (b : List (κ × ℕ)) :
    ((merge a b).map Prod.fst).Nodup := by
  induction b generalizing a with
  | nil => exact h
  | cons p b ih => exact ih (nodup_add h p.1 p.2)

theorem mem_keys_merge {k : κ} :
    k ∈ (merge a b).map Prod.fst ↔ k ∈ a.map Prod.fst ∨ k ∈ b.map Prod.fst := by
  induction b generalizing a with
  | nil => exact ⟨Or.inl, fun h => h.elim id fun hk => absurd hk List.not_mem_nil⟩
  | cons p b ih =>
    have hstep : merge a (p :: b) = merge (add a p.1 p.2) b := rfl
    rw [hstep, ih, mem_keys_add, List.map_cons, List.mem_cons, or_assoc]

/-- Merging adds the counts. -/
theorem get_merge (a : List (κ × ℕ)) (hb : (b.map Prod.fst).Nodup) (k : κ) :
    get (merge a b) k = get a k + get b k := by
  induction b generalizing a with
  | nil => rfl
  | cons p b ih =>
    rw [List.map_cons, List.nodup_cons] at hb
    have hstep : merge a (p :: b) = merge (add a p.1 p.2) b := rfl
    rw [hstep, ih _ hb.2, get_add, get_cons]
    by_cases hk : k = p.1
    · rw [if_pos hk, if_pos hk, hk, get_of_notMem hb.1, Nat.add_zero]
    · rw [if_neg hk, if_neg hk, Nat.add_zero]

/-- Merging adds the totals. -/
theorem total_merge (ha : (a.map Prod.fst).Nodup) (b : List (κ × ℕ)) :
    total (merge a b) = total a + total b := by
  induction b generalizing a with
  | nil => rfl
  | cons p b ih =>
    have hstep : merge a (p :: b) = merge (add a p.1 p.2) b := rfl
    have htotal : total (p :: b) = p.2 + total b := by simp [total]
    rw [hstep, ih (nodup_add ha p.1 p.2), total_add ha, htotal]
    omega

/-- Merging many maps, one after the other. -/
theorem nodup_foldl_merge (ha : (a.map Prod.fst).Nodup) (bs : List (List (κ × ℕ))) :
    ((bs.foldl merge a).map Prod.fst).Nodup := by
  induction bs generalizing a with
  | nil => exact ha
  | cons b bs ih => exact ih (nodup_merge ha b)

theorem mem_keys_foldl_merge {bs : List (List (κ × ℕ))} {k : κ} :
    k ∈ (bs.foldl merge a).map Prod.fst ↔
      k ∈ a.map Prod.fst ∨ ∃ b ∈ bs, k ∈ b.map Prod.fst := by
  induction bs generalizing a with
  | nil => simp
  | cons b bs ih =>
    rw [List.foldl_cons, ih, mem_keys_merge, or_assoc]
    simp only [List.exists_mem_cons_iff]

/-- Merging many adds all their counts. -/
theorem get_foldl_merge (a : List (κ × ℕ)) {bs : List (List (κ × ℕ))}
    (hbs : ∀ b ∈ bs, (b.map Prod.fst).Nodup) (k : κ) :
    get (bs.foldl merge a) k = get a k + (bs.map fun b => get b k).sum := by
  induction bs generalizing a with
  | nil => rfl
  | cons b bs ih =>
    rw [List.foldl_cons, ih _ fun b' hb' => hbs b' (List.mem_cons_of_mem _ hb'),
      get_merge a (hbs b List.mem_cons_self), List.map_cons, List.sum_cons, Nat.add_assoc]

/-- Merging many adds all their totals. -/
theorem total_foldl_merge (ha : (a.map Prod.fst).Nodup) (bs : List (List (κ × ℕ))) :
    total (bs.foldl merge a) = total a + (bs.map total).sum := by
  induction bs generalizing a with
  | nil => rfl
  | cons b bs ih =>
    rw [List.foldl_cons, ih (nodup_merge ha b), total_merge ha, List.map_cons, List.sum_cons,
      Nat.add_assoc]

end Counts
