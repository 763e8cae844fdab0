import Webmeow.Lib.Keyed
import Mathlib.Data.List.Induction
import Mathlib.Order.Lattice

/-!
# Bounded recency lists with expiry

The purpose of an LRU cache with a time to live, as a list of items with the most recently used one
in front. Whatever the operations, the keys stay distinct, each item is the last one put under its
key, the keys are ordered by their last use, and a put that drops a key drops the last one.
-/

namespace Recency

/-- An item that is kept. -/
structure Item (K V T : Type*) where
  /-- Its key. -/
  key : K
  /-- Its value. -/
  value : V
  /-- When it expires. -/
  expires : T
deriving DecidableEq

/-- The operations. -/
inductive Op (K V T : Type*) where
  /-- A key is asked for. -/
  | get (k : K) (now : T)
  /-- A value is put under a key. -/
  | put (k : K) (v : V) (expires : T)
  /-- Nothing happens. -/
  | skip

variable {K V T : Type*}

/-- `k` was used at a moment after which `k'` was not used. -/
def MoreRecent (us : List (Option K)) (k k' : K) : Prop :=
  ∃ before later, us = before ++ some k :: later ∧ some k' ∉ later

/-- The item was put and its key was not put again. -/
def LastPut (ops : List (Op K V T)) (i : Item K V T) : Prop :=
  ∃ before later, ops = before ++ .put i.key i.value i.expires :: later ∧
    ∀ v e, Op.put i.key v e ∉ later

theorem MoreRecent.concat {us : List (Option K)} {k k' : K} (h : MoreRecent us k k')
    {u : Option K} (hu : u ≠ some k') : MoreRecent (us ++ [u]) k k' := by
  obtain ⟨before, later, rfl, hk⟩ := h
  refine ⟨before, later ++ [u], by simp, fun hmem => ?_⟩
  rcases List.mem_append.1 hmem with hmem | hmem
  · exact hk hmem
  · exact hu (List.mem_singleton.1 hmem).symm

theorem moreRecent_self (us : List (Option K)) (k k' : K) : MoreRecent (us ++ [some k]) k k' :=
  ⟨us, [], rfl, List.not_mem_nil⟩

theorem LastPut.concat {ops : List (Op K V T)} {i : Item K V T} (h : LastPut ops i) {op : Op K V T}
    (hop : ∀ v e, op ≠ .put i.key v e) : LastPut (ops ++ [op]) i := by
  obtain ⟨before, later, rfl, hlater⟩ := h
  refine ⟨before, later ++ [op], by simp, fun v e hmem => ?_⟩
  rcases List.mem_append.1 hmem with hmem | hmem
  · exact hlater v e hmem
  · exact hop v e (List.mem_singleton.1 hmem).symm

theorem lastPut_self (ops : List (Op K V T)) (k : K) (v : V) (e : T) :
    LastPut (ops ++ [.put k v e]) ⟨k, v, e⟩ :=
  ⟨ops, [], rfl, fun _ _ => List.not_mem_nil⟩

/-- What holds of the items after the operations `ops` that used the keys `us`. -/
structure Inv (max : ℕ) (ops : List (Op K V T)) (us : List (Option K)) (l : List (Item K V T)) :
    Prop where
  /-- No key is kept twice. -/
  nodup : (l.map Item.key).Nodup
  /-- There are not too many items. -/
  length : l.length ≤ max
  /-- An item is the last one put under its key. -/
  lastPut : ∀ i ∈ l, LastPut ops i
  /-- The items are in the order of their last use. -/
  recent : l.Pairwise fun i j => MoreRecent us i.key j.key

/-- Fewer items keep the invariant. -/
theorem Inv.sublist {max : ℕ} {ops : List (Op K V T)} {us : List (Option K)}
    {l l' : List (Item K V T)} (h : Inv max ops us l) (hs : l'.Sublist l) {op : Op K V T}
    (hop : ∀ k v e, op ≠ .put k v e) : Inv max (ops ++ [op]) (us ++ [none]) l' where
  nodup := h.nodup.sublist (hs.map _)
  length := Nat.le_trans hs.length_le h.length
  lastPut i hi := (h.lastPut i (hs.subset hi)).concat (hop _)
  recent := (h.recent.sublist hs).imp fun hr => hr.concat nofun

/-! ## Items -/

section Items

variable [DecidableEq K]

/-- The items under other keys. -/
def without (k : K) (l : List (Item K V T)) : List (Item K V T) := l.filter fun i => i.key ≠ k

theorem mem_without {k : K} {l : List (Item K V T)} {i : Item K V T} :
    i ∈ without k l ↔ i ∈ l ∧ i.key ≠ k := by
  simp [without]

theorem without_sublist (k : K) (l : List (Item K V T)) : (without k l).Sublist l :=
  List.filter_sublist

theorem without_of_forall_ne {k : K} {l : List (Item K V T)} (h : ∀ i ∈ l, i.key ≠ k) :
    without k l = l :=
  List.filter_eq_self.2 fun i hi => decide_eq_true (h i hi)

/-- Where the keys are distinct, an item is taken out from the place where it is. -/
theorem without_middle {l1 l2 : List (Item K V T)} {i : Item K V T}
    (hn : ((l1 ++ i :: l2).map Item.key).Nodup) : without i.key (l1 ++ i :: l2) = l1 ++ l2 := by
  rw [List.map_append, List.map_cons, List.nodup_middle, ← List.map_append, List.nodup_cons] at hn
  have hne : ∀ j ∈ l1 ++ l2, j.key ≠ i.key := fun j hj he => hn.1 (he ▸ List.mem_map_of_mem hj)
  calc without i.key (l1 ++ i :: l2) = without i.key (l1 ++ l2) := by simp [without]
    _ = l1 ++ l2 := without_of_forall_ne hne

/-- An item with a new use in front of items with other keys. -/
theorem recent_cons {us : List (Option K)} {l : List (Item K V T)}
    (h : l.Pairwise fun i j => MoreRecent us i.key j.key) (i : Item K V T) :
    (i :: without i.key l).Pairwise fun i' j => MoreRecent (us ++ [some i.key]) i'.key j.key := by
  refine List.pairwise_cons.2 ⟨fun j _ => moreRecent_self us i.key j.key, ?_⟩
  refine (h.sublist (without_sublist i.key l)).imp_of_mem ?_
  intro j j' _ hj' hr
  exact hr.concat fun he => (mem_without.1 hj').2 (Option.some.inj he).symm

theorem nodup_cons_without {l : List (Item K V T)} (h : (l.map Item.key).Nodup) (i : Item K V T) :
    ((i :: without i.key l).map Item.key).Nodup := by
  rw [List.map_cons, List.nodup_cons]
  refine ⟨fun hmem => ?_, h.sublist ((without_sublist i.key l).map _)⟩
  obtain ⟨j, hj, he⟩ := List.mem_map.1 hmem
  exact (mem_without.1 hj).2 he

/-- The item in front, and what there is room for. -/
def put (max : ℕ) (l : List (Item K V T)) (k : K) (v : V) (expires : T) : List (Item K V T) :=
  (⟨k, v, expires⟩ :: without k l).take max

/-- **Eviction**: if a put drops another key, the list was full, the key put was not in it, and
exactly the last item goes. -/
theorem put_evicts {max : ℕ} {l : List (Item K V T)} (hn : (l.map Item.key).Nodup)
    (hlen : l.length ≤ max) {k : K} {v : V} {e : T} {i : Item K V T} (hi : i ∈ l) (hne : i.key ≠ k)
    (hgone : i ∉ put max l k v e) :
    l.length = max ∧ (∀ j ∈ l, j.key ≠ k) ∧
      ∃ init, l = init ++ [i] ∧ put max l k v e = ⟨k, v, e⟩ :: init := by
  have hiw : i ∈ without k l := mem_without.2 ⟨hi, hne⟩
  -- nothing is cut off a list that fits
  have hlong : max < (without k l).length + 1 := by
    by_contra hfit
    apply hgone
    rw [put, List.take_of_length_le (by simpa using hfit)]
    exact List.mem_cons_of_mem _ hiw
  have hfull : l.length = max := by
    have := (without_sublist k l).length_le
    omega
  have hkeep : without k l = l := (without_sublist k l).eq_of_length_le (by omega)
  have hnew : ∀ j ∈ l, j.key ≠ k := by
    intro j hj
    rw [← hkeep] at hj
    exact (mem_without.1 hj).2
  obtain ⟨init, last, rfl⟩ : ∃ init last, l = init ++ [last] := by
    rcases List.eq_nil_or_concat l with rfl | ⟨init, last, rfl⟩
    · cases hi
    · exact ⟨init, last, by simp⟩
  have hput : put max (init ++ [last]) k v e = ⟨k, v, e⟩ :: init := by
    rw [put, hkeep, ← hfull]
    simp
  rw [hput] at hgone
  rcases List.mem_append.1 hi with hin | hlast
  · exact absurd (List.mem_cons_of_mem _ hin) hgone
  · rw [List.mem_singleton.1 hlast] at *
    exact ⟨hfull, hnew, init, rfl, hput⟩

end Items

variable [DecidableEq K] [LinearOrder T]

/-- An expired item is dropped, a live one is moved to the front. -/
def get (l : List (Item K V T)) (k : K) (now : T) : List (Item K V T) × Option V :=
  match l.find? fun i => i.key = k with
  | none => (l, none)
  | some i => if i.expires < now then (without k l, none) else (i :: without k l, some i.value)

/-- One operation, with what it returns. -/
def step (max : ℕ) (l : List (Item K V T)) : Op K V T → List (Item K V T) × Option V
  | .get k now => get l k now
  | .put k v expires => (put max l k v expires, none)
  | .skip => (l, none)

/-- The key that an operation uses: the one it puts, or the one it finds alive. -/
def used (l : List (Item K V T)) : Op K V T → Option K
  | .get k now => (get l k now).2.map fun _ => k
  | .put k _ _ => some k
  | .skip => none

/-- The items after a sequence of operations on the empty list, and the keys the operations used. -/
def exec (max : ℕ) (ops : List (Op K V T)) : List (Item K V T) × List (Option K) :=
  ops.foldl (fun s op => ((step max s.1 op).1, s.2 ++ [used s.1 op])) ([], [])

/-- The items after the operations. -/
def after (max : ℕ) (ops : List (Op K V T)) : List (Item K V T) := (exec max ops).1

/-- The keys used by the operations. -/
def uses (max : ℕ) (ops : List (Op K V T)) : List (Option K) := (exec max ops).2

theorem after_concat (max : ℕ) (ops : List (Op K V T)) (op : Op K V T) :
    after max (ops ++ [op]) = (step max (after max ops) op).1 := by
  simp [after, exec, List.foldl_append]

theorem uses_concat (max : ℕ) (ops : List (Op K V T)) (op : Op K V T) :
    uses max (ops ++ [op]) = uses max ops ++ [used (after max ops) op] := by
  simp [uses, after, exec, List.foldl_append]

/-- A hit returns the value of an item that has not expired. -/
theorem get_eq_some {l : List (Item K V T)} {k : K} {now : T} {v : V} (h : (get l k now).2 = some v) :
    ∃ i ∈ l, i.key = k ∧ i.value = v ∧ now ≤ i.expires := by
  unfold get at h
  cases hf : l.find? fun i => i.key = k with
  | none =>
    rw [hf] at h
    cases h
  | some i =>
    rw [hf] at h
    simp only at h
    split_ifs at h with hexp
    exact ⟨i, List.mem_of_find?_eq_some hf, by simpa using List.find?_some hf, Option.some.inj h,
      not_lt.1 hexp⟩

/-- **What an operation does**: it drops items and uses no key, moves an item to the front, or puts a
new item in front of others. -/
theorem step_cases (max : ℕ) (l : List (Item K V T)) (op : Op K V T) :
    (used l op = none ∧ (step max l op).1.Sublist l ∧ ∀ k v e, op ≠ .put k v e) ∨
      (∃ i ∈ l, used l op = some i.key ∧ (step max l op).1 = i :: without i.key l ∧
        ∀ k v e, op ≠ .put k v e) ∨
      (∃ k v e, op = .put k v e ∧ used l op = some k ∧
        (step max l op).1 = (⟨k, v, e⟩ :: without k l).take max) := by
  cases op with
  | get k now =>
    simp only [used, step, get]
    cases hf : l.find? fun i => i.key = k with
    | none => exact Or.inl ⟨rfl, List.Sublist.refl l, nofun⟩
    | some i =>
      have hi : i ∈ l := List.mem_of_find?_eq_some hf
      have hk : i.key = k := by simpa using List.find?_some hf
      by_cases hexp : i.expires < now
      · simp only [hexp, if_true]
        exact Or.inl ⟨rfl, without_sublist k l, nofun⟩
      · simp only [hexp, if_false]
        refine Or.inr (Or.inl ⟨i, hi, ?_, ?_, nofun⟩)
        · rw [hk]; rfl
        · rw [hk]
  | put k v e => exact Or.inr (Or.inr ⟨k, v, e, rfl, rfl, rfl⟩)
  | skip => exact Or.inl ⟨rfl, List.Sublist.refl l, nofun⟩

/-! ## Every sequence -/

/-- An operation keeps the invariant. -/
theorem inv_step {max : ℕ} {ops : List (Op K V T)} {us : List (Option K)} {l : List (Item K V T)}
    (h : Inv max ops us l) (op : Op K V T) :
    Inv max (ops ++ [op]) (us ++ [used l op]) (step max l op).1 := by
  rcases step_cases max l op with ⟨hu, hs, hop⟩ | ⟨i, hi, hu, hs, hop⟩ | ⟨k, v, e, rfl, hu, hs⟩
  · rw [hu]
    exact h.sublist hs hop
  · rw [hu, hs]
    refine ⟨nodup_cons_without h.nodup i, ?_, ?_, recent_cons h.recent i⟩
    · obtain ⟨l1, l2, rfl⟩ := List.append_of_mem hi
      rw [without_middle h.nodup]
      have := h.length
      simp only [List.length_append, List.length_cons] at this ⊢
      omega
    · intro j hj
      rcases List.mem_cons.1 hj with rfl | hj
      · exact (h.lastPut _ hi).concat (hop _)
      · exact (h.lastPut j (mem_without.1 hj).1).concat (hop _)
  · rw [hu, hs]
    have htake := List.take_sublist max ((⟨k, v, e⟩ : Item K V T) :: without k l)
    refine ⟨(nodup_cons_without h.nodup ⟨k, v, e⟩).sublist (htake.map _), List.length_take_le _ _,
      ?_, (recent_cons h.recent ⟨k, v, e⟩).sublist htake⟩
    intro j hj
    rcases List.mem_cons.1 (htake.subset hj) with rfl | hj
    · exact lastPut_self ops k v e
    · obtain ⟨hmem, hne⟩ := mem_without.1 hj
      exact (h.lastPut j hmem).concat fun v' e' he => hne (by cases he; rfl)

/-- The invariant holds after any operations. -/
theorem inv_after (max : ℕ) (ops : List (Op K V T)) :
    Inv max ops (uses max ops) (after max ops) := by
  induction ops using List.reverseRecOn with
  | nil => exact ⟨List.nodup_nil, Nat.zero_le _, nofun, List.Pairwise.nil⟩
  | append_singleton ops op ih =>
    rw [uses_concat, after_concat]
    exact inv_step ih op

/-! ## Where the items come from -/

theorem mem_of_mem_get {l : List (Item K V T)} {k : K} {now : T} {i : Item K V T}
    (hi : i ∈ (get l k now).1) : i ∈ l := by
  unfold get at hi
  cases hf : l.find? fun i => i.key = k with
  | none =>
    rw [hf] at hi
    exact hi
  | some j =>
    rw [hf] at hi
    dsimp only at hi
    split_ifs at hi
    · exact (mem_without.1 hi).1
    · rcases List.mem_cons.1 hi with rfl | hi
      · exact List.mem_of_find?_eq_some hf
      · exact (mem_without.1 hi).1

omit [LinearOrder T] in
/-- A `put` brings no other item. -/
theorem eq_or_mem_of_mem_put {max : ℕ} {l : List (Item K V T)} {k : K} {v : V} {expires : T}
    {i : Item K V T} (hi : i ∈ put max l k v expires) : i = ⟨k, v, expires⟩ ∨ i ∈ l := by
  rcases List.mem_cons.1 (List.mem_of_mem_take hi) with rfl | hi
  · exact Or.inl rfl
  · exact Or.inr (mem_without.1 hi).1

end Recency
