import Mathlib.Data.List.Sublists

/-!
# Operations that may change places

Operations are carried out one after the other, those of a larger key first, those of one key in any
order. Whether that order plays a role shows where two operations of one key follow each other: the
final states agree for all orders, and for all orders of a part of the operations, exactly when such
two can be swapped.
-/

namespace Reordering

variable {ι σ : Type*} {act : ι → σ → σ}

/-- The state after the operations of a list. -/
def run (act : ι → σ → σ) (l : List ι) (s : σ) : σ := l.foldl (fun t i => act i t) s

/-- Whichever operations of the list have been carried out, two further ones can be swapped. -/
def Swappable (act : ι → σ → σ) (l : List ι) (s : σ) : Prop :=
  ∀ (done : List ι) (p q : ι), (done ++ [p, q]).Nodup → done ++ [p, q] ⊆ l →
    act q (act p (run act done s)) = act p (act q (run act done s))

/-- Operations of one key can be swapped once those of larger keys have been carried out. -/
def KeysSwappable (act : ι → σ → σ) (key : ι → ℕ) (l : List ι) (s : σ) : Prop :=
  ∀ n, Swappable act (l.filter fun i => key i = n) (run act (l.filter fun i => n < key i) s)

@[simp]
theorem run_nil (s : σ) : run act [] s = s := rfl

@[simp]
theorem run_cons (i : ι) (l : List ι) (s : σ) : run act (i :: l) s = run act l (act i s) := rfl

@[simp]
theorem run_append (l m : List ι) (s : σ) : run act (l ++ m) s = run act m (run act l s) :=
  List.foldl_append

/-! ## Operations of one key -/

section OneKey

variable {l : List ι} {s : σ}

/-- Only the set of the operations that have been carried out counts: it is enough to look at those
that are a sublist, to carry out all selections in any order. -/
theorem run_perm_of_sublists [DecidableEq ι]
    (h : ∀ done ∈ l.sublists, ∀ p ∈ l, ∀ q ∈ l, p ∉ done → q ∉ done → p ≠ q →
      act q (act p (run act done s)) = act p (act q (run act done s)))
    {m m' : List ι} (hperm : m.Perm m') (hnodup : m.Nodup) (hsub : m ⊆ l) :
    run act m s = run act m' s := by
  obtain ⟨k, hk⟩ : ∃ k, m.length = k := ⟨_, rfl⟩
  induction k generalizing m m' with
  | zero =>
    obtain rfl := List.eq_nil_of_length_eq_zero hk
    rw [hperm.nil_eq]
  | succ k ih =>
    have hk' := hperm.length_eq ▸ hk
    rcases List.eq_nil_or_concat m with rfl | ⟨a, x, rfl⟩
    · cases hk
    rcases List.eq_nil_or_concat m' with rfl | ⟨b, y, rfl⟩
    · cases hk'
    rw [List.concat_eq_append] at hperm hnodup hsub hk ⊢
    rw [List.concat_eq_append] at hperm hk' ⊢
    rw [List.length_append, List.length_singleton, Nat.add_right_cancel_iff] at hk hk'
    have ha : a.Nodup := hnodup.of_append_left
    have hal : a ⊆ l := fun i hi => hsub (List.mem_append_left _ hi)
    have hb : b.Nodup := (hperm.nodup_iff.1 hnodup).of_append_left
    have hbl : b ⊆ l := fun i hi => hsub (hperm.mem_iff.2 (List.mem_append_left _ hi))
    rw [run_append, run_append]
    by_cases hxy : x = y
    · -- the same operation is the last one
      subst hxy
      rw [ih ((List.perm_append_right_iff _).1 hperm) ha hal hk]
    · -- the others come first, in the order of the list, then the two last ones
      have hya : y ∈ a := by
        have hy : y ∈ a ++ [x] := hperm.mem_iff.2 (by simp)
        simpa [Ne.symm hxy] using hy
      have hxa : x ∉ a := fun hx => (List.nodup_append.1 hnodup).2.2 x hx x (by simp) rfl
      obtain ⟨c, hc, hcl⟩ := (ha.erase y).subperm fun i hi => hal (List.mem_of_mem_erase hi)
      have hac : a.Perm (c ++ [y]) :=
        (List.perm_cons_erase hya).trans ((hc.symm.cons y).trans (List.perm_append_singleton y c).symm)
      have hbc : b.Perm (c ++ [x]) := by
        have hboth : (b ++ [y]).Perm (c ++ [x] ++ [y]) := by
          refine hperm.symm.trans ((hac.append_right [x]).trans ?_)
          rw [List.append_assoc, List.append_assoc]
          exact (List.Perm.swap x y []).append_left c
        exact (List.perm_append_right_iff _).1 hboth
      have hmem : ∀ i ∈ c, i ∈ a ∧ i ≠ y := fun i hi => by
        have := ha.mem_erase_iff.1 (hc.mem_iff.1 hi)
        exact ⟨this.2, this.1⟩
      rw [ih hac ha hal hk, ih hbc hb hbl hk', run_append, run_append]
      exact h c (List.mem_sublists.2 hcl) y (hal hya) x (hsub (by simp))
        (fun hy => (hmem y hy).2 rfl) (fun hx => hxa (hmem x hx).1) (Ne.symm hxy)

theorem Swappable.mono {m : List ι} (h : Swappable act l s) (hm : m ⊆ l) : Swappable act m s :=
  fun done p q hnodup hsub => h done p q hnodup fun _ hi => hm (hsub hi)

theorem Swappable.of_sublist (h : Swappable act l s) (hl : l.Nodup) {done : List ι}
    (hdone : done.Sublist l) {p q : ι} (hp : p ∈ l) (hq : q ∈ l) (hpd : p ∉ done) (hqd : q ∉ done)
    (hpq : p ≠ q) : act q (act p (run act done s)) = act p (act q (run act done s)) := by
  have hnodup : (done ++ [p, q]).Nodup := by
    refine List.nodup_append.2 ⟨hl.sublist hdone, by simpa using hpq, ?_⟩
    rintro i hi j hj rfl
    rcases List.mem_pair.1 hj with rfl | rfl
    · exact hpd hi
    · exact hqd hi
  refine h done p q hnodup fun i hi => ?_
  rcases List.mem_append.1 hi with hi | hi
  · exact hdone.subset hi
  · rcases List.mem_pair.1 hi with rfl | rfl
    · exact hp
    · exact hq

variable [DecidableEq ι]

/-- Swapping, checked on sublists. -/
theorem swappable_iff_sublists (hl : l.Nodup) : Swappable act l s ↔
    ∀ done ∈ l.sublists, ∀ p ∈ l, ∀ q ∈ l, p ∉ done → q ∉ done → p ≠ q →
      act q (act p (run act done s)) = act p (act q (run act done s)) := by
  constructor
  · intro h done hdone p hp q hq hpd hqd hpq
    exact h.of_sublist hl (List.mem_sublists.1 hdone) hp hq hpd hqd hpq
  · intro h done p q hnodup hsub
    have hswap : (done ++ [p, q]).Perm (done ++ [q, p]) :=
      (List.Perm.swap q p []).append_left done
    have := run_perm_of_sublists h hswap hnodup hsub
    simpa using this

/-- **Operations that can be swapped** may be carried out in any order, and so may any selection of
them; there is nothing more to it. -/
theorem swappable_iff : Swappable act l s ↔
    ∀ m m' : List ι, m.Perm m' → m.Nodup → m ⊆ l → run act m s = run act m' s := by
  constructor
  · intro h m m' hperm hnodup hsub
    refine run_perm_of_sublists (l := m) (fun done hdone p hp q hq hpd hqd hpq => ?_) hperm hnodup
      (List.Subset.refl m)
    exact (h.mono hsub).of_sublist hnodup (List.mem_sublists.1 hdone) hp hq hpd hqd hpq
  · intro h done p q hnodup hsub
    have hswap := h (done ++ [p, q]) (done ++ [q, p])
      ((List.Perm.swap q p []).append_left done) hnodup hsub
    simpa using hswap

end OneKey

/-! ## Operations by descending keys -/

section Keys

variable {key : ι → ℕ}

/-- In descending order the operations of key `n` come last among those whose key is not smaller. -/
theorem filter_le_of_sorted {l : List ι} (hsorted : l.Pairwise fun p q => key q ≤ key p) (n : ℕ) :
    l.filter (fun i => n ≤ key i) =
      l.filter (fun i => n < key i) ++ l.filter fun i => key i = n := by
  induction l with
  | nil => rfl
  | cons p l ih =>
    obtain ⟨hp, hl⟩ := List.pairwise_cons.1 hsorted
    have hrest := ih hl
    rcases Nat.lt_trichotomy n (key p) with hlt | heq | hgt
    · rw [List.filter_cons_of_pos (by simpa using Nat.le_of_lt hlt),
        List.filter_cons_of_pos (by simpa using hlt), List.filter_cons_of_neg (by simp; omega),
        hrest, List.cons_append]
    · have hnone : l.filter (fun i => n < key i) = [] :=
        List.filter_eq_nil_iff.2 fun i hi => by simpa [heq] using hp i hi
      rw [hnone, List.nil_append] at hrest
      rw [List.filter_cons_of_pos (by simp [heq]), List.filter_cons_of_neg (by simp [heq]),
        List.filter_cons_of_pos (by simp [heq]), hnone, hrest, List.nil_append]
    · rw [List.filter_cons_of_neg (by simpa using hgt), List.filter_cons_of_neg (by simp; omega),
        List.filter_cons_of_neg (by simp; omega), hrest]

theorem filter_lt_of_sorted {l : List ι} (hsorted : l.Pairwise fun p q => key q ≤ key p) (n : ℕ) :
    l.filter (fun i => n < key i) =
      l.filter (fun i => n + 1 < key i) ++ l.filter fun i => key i = n + 1 :=
  filter_le_of_sorted hsorted (n + 1)

variable {l m m' : List ι} {s : σ}

/-! ## Neighbours -/

/-- The list is an order in which the operations of `l` may be carried out. -/
def IsOrder (key : ι → ℕ) (l m : List ι) : Prop :=
  m.Perm l ∧ m.Pairwise fun p q => key q ≤ key p

/-- Neighbours of one key may be swapped in a sorted list. -/
theorem pairwise_append_swap_iff {done rest : List ι} {p q : ι} (hkey : key p = key q) :
    (done ++ p :: q :: rest).Pairwise (fun p q => key q ≤ key p) ↔
      (done ++ q :: p :: rest).Pairwise fun p q => key q ≤ key p := by
  simp only [List.pairwise_append, List.pairwise_cons, List.mem_cons, forall_eq_or_imp, hkey]

theorem IsOrder.swap {done rest : List ι} {p q : ι} (h : IsOrder key l (done ++ p :: q :: rest))
    (hkey : key p = key q) : IsOrder key l (done ++ q :: p :: rest) :=
  ⟨((List.Perm.swap p q rest).append_left done).trans h.1, (pairwise_append_swap_iff hkey).1 h.2⟩

/-- An operation of the largest key may come first. -/
theorem run_moved_to_front
    (h : ∀ (done : List ι) (p q : ι) (rest : List ι), IsOrder key l (done ++ p :: q :: rest) →
      key p = key q → run act (done ++ p :: q :: rest) s = run act (done ++ q :: p :: rest) s)
    (done u v : List ι) (x : ι) (hkeys : ∀ y ∈ u, key y = key x)
    (horder : IsOrder key l (done ++ u ++ x :: v)) :
    IsOrder key l (done ++ x :: (u ++ v)) ∧
      run act (done ++ u ++ x :: v) s = run act (done ++ x :: (u ++ v)) s := by
  induction u using List.reverseRecOn generalizing v with
  | nil => exact ⟨by simpa using horder, by simp⟩
  | append_singleton u y ih =>
    have hassoc : done ++ (u ++ [y]) ++ x :: v = done ++ u ++ y :: x :: v := by simp
    rw [hassoc] at horder ⊢
    have hyx := hkeys y (by simp)
    obtain ⟨hfront, hrun⟩ := ih (y :: v) (fun z hz => hkeys z (by simp [hz])) (horder.swap hyx)
    rw [List.append_assoc, List.singleton_append, h _ y x v horder hyx, hrun]
    exact ⟨hfront, rfl⟩

/-- **Orders and neighbours**: all orders lead to one state if and only if this is so for every two
orders in which two neighbours have changed places. -/
theorem orders_iff_neighbours : (∀ m m' : List ι, IsOrder key l m → IsOrder key l m' →
      run act m s = run act m' s) ↔
    ∀ (done : List ι) (p q : ι) (rest : List ι), IsOrder key l (done ++ p :: q :: rest) →
      key p = key q → run act (done ++ p :: q :: rest) s = run act (done ++ q :: p :: rest) s := by
  refine ⟨fun h done p q rest horder hkey => h _ _ horder (horder.swap hkey), fun h => ?_⟩
  -- the two orders agree up to `done`; the first operation behind is moved forward in the other one
  have hbehind : ∀ (m m' done : List ι), m.Perm m' → IsOrder key l (done ++ m) →
      IsOrder key l (done ++ m') → run act (done ++ m) s = run act (done ++ m') s := by
    intro m
    induction m with
    | nil =>
      intro m' done hperm _ _
      rw [hperm.nil_eq]
    | cons x m ih =>
      intro m' done hperm horder horder'
      obtain ⟨u, v, rfl⟩ := List.append_of_mem (hperm.mem_iff.1 List.mem_cons_self)
      have hkeys : ∀ y ∈ u, key y = key x := by
        intro y hy
        have hle : key y ≤ key x := by
          have hmem : y ∈ x :: m := hperm.mem_iff.2 (List.mem_append_left _ hy)
          rcases List.mem_cons.1 hmem with rfl | hmem
          · exact Nat.le_refl _
          · exact (List.pairwise_cons.1 (List.pairwise_append.1 horder.2).2.1).1 y hmem
        have hge : key x ≤ key y := by
          have hm' := (List.pairwise_append.1 horder'.2).2.1
          exact (List.pairwise_append.1 hm').2.2 y hy x List.mem_cons_self
        exact Nat.le_antisymm hle hge
      rw [← List.append_assoc] at horder' ⊢
      obtain ⟨hfront, hrun⟩ := run_moved_to_front h done u v x hkeys horder'
      have hrest : m.Perm (u ++ v) := by
        have := hperm.trans List.perm_middle
        exact (List.perm_cons x).1 this
      have hnext := ih (u ++ v) (done ++ [x]) hrest (by simpa using horder) (by simpa using hfront)
      rw [hrun]
      simpa using hnext
  intro m m' horder horder'
  exact hbehind m m' [] (horder.1.trans horder'.1.symm) horder horder'

/-! ## Keys of which the operations can be swapped -/

variable [DecidableEq ι]

/-- The state after all operations of keys larger than `n` does not depend on their order. -/
theorem KeysSwappable.run_larger (h : KeysSwappable act key l s) (hnodup : l.Nodup)
    (hl : l.Pairwise fun p q => key q ≤ key p) (hm : m.Pairwise fun p q => key q ≤ key p) {n : ℕ}
    (hperm : m.Perm (l.filter fun i => n < key i)) :
    run act m s = run act (l.filter fun i => n < key i) s := by
  -- from the largest key downwards: no key is `d` or more above `n`
  obtain ⟨d, hd⟩ : ∃ d, ∀ i ∈ l, key i ≤ n + d := by
    cases l with
    | nil => exact ⟨0, fun i hi => absurd hi List.not_mem_nil⟩
    | cons p l =>
      refine ⟨key p, fun i hi => ?_⟩
      rcases List.mem_cons.1 hi with rfl | hi
      · omega
      · have := (List.pairwise_cons.1 hl).1 i hi
        omega
  induction d generalizing n m with
  | zero =>
    have hnone : l.filter (fun i => n < key i) = [] :=
      List.filter_eq_nil_iff.2 fun i hi => by simpa using hd i hi
    rw [hnone] at hperm ⊢
    rw [hperm.eq_nil]
  | succ d ih =>
    have hmn : m.Nodup := hperm.nodup_iff.2 (hnodup.filter _)
    have hmem : ∀ i, i ∈ m ↔ i ∈ l ∧ n < key i := fun i => by
      rw [hperm.mem_iff, List.mem_filter, decide_eq_true_eq]
    have hsplit : m = m.filter (fun i => n + 1 < key i) ++ m.filter fun i => key i = n + 1 := by
      rw [← filter_le_of_sorted hm]
      exact (List.filter_eq_self.2 fun i hi => decide_eq_true ((hmem i).1 hi).2).symm
    have hupper : (m.filter fun i => n + 1 < key i).Perm (l.filter fun i => n + 1 < key i) := by
      refine (List.perm_ext_iff_of_nodup (hmn.filter _) (hnodup.filter _)).2 fun i => ?_
      rw [List.mem_filter, List.mem_filter, hmem, decide_eq_true_eq]
      exact and_congr_left fun hi => and_iff_left (by omega)
    have hequal : (m.filter fun i => key i = n + 1).Perm (l.filter fun i => key i = n + 1) := by
      refine (List.perm_ext_iff_of_nodup (hmn.filter _) (hnodup.filter _)).2 fun i => ?_
      rw [List.mem_filter, List.mem_filter, hmem, decide_eq_true_eq]
      exact and_congr_left fun hi => and_iff_left (by omega)
    have hbound : ∀ i ∈ l, key i ≤ n + 1 + d := fun i hi => by
      have := hd i hi
      omega
    rw [hsplit, filter_lt_of_sorted hl, run_append, run_append, ih (hm.filter _) hupper hbound]
    exact swappable_iff.1 (h (n + 1)) _ _ hequal (hmn.filter _)
      fun i hi => hequal.mem_iff.1 hi

/-- The same behind some operations of key `n` that follow them. -/
theorem KeysSwappable.run_stage (h : KeysSwappable act key l s) (hnodup : l.Nodup)
    (hl : l.Pairwise fun p q => key q ≤ key p) (hm : m.Pairwise fun p q => key q ≤ key p)
    (hm' : m'.Pairwise fun p q => key q ≤ key p) (hperm : m.Perm m') (hmn : m.Nodup) {n : ℕ}
    (hkeys : ∀ i ∈ m, n ≤ key i) (hsub : m ⊆ l) (hlarger : ∀ i ∈ l, n < key i → i ∈ m) :
    run act m s = run act m' s := by
  have hrun : ∀ u : List ι, m.Perm u → (u.Pairwise fun p q => key q ≤ key p) →
      run act u s = run act (u.filter fun i => key i = n)
        (run act (l.filter fun i => n < key i) s) := by
    intro u hu hus
    have hsplit : u = u.filter (fun i => n < key i) ++ u.filter fun i => key i = n := by
      rw [← filter_le_of_sorted hus]
      exact (List.filter_eq_self.2 fun i hi => by simpa using hkeys i (hu.mem_iff.2 hi)).symm
    have hupper : (u.filter fun i => n < key i).Perm (l.filter fun i => n < key i) := by
      refine (List.perm_ext_iff_of_nodup ((hu.nodup_iff.1 hmn).filter _) (hnodup.filter _)).2 ?_
      intro i
      rw [List.mem_filter, List.mem_filter]
      refine and_congr_left fun hi => ⟨fun hmem => hsub (hu.mem_iff.2 hmem), fun hmem => ?_⟩
      exact hu.mem_iff.1 (hlarger i hmem (of_decide_eq_true hi))
    rw [← h.run_larger hnodup hl (hus.filter _) hupper, ← run_append, ← hsplit]
  rw [hrun m (List.Perm.refl m) hm, hrun m' hperm hm']
  refine swappable_iff.1 (h n) _ _ (hperm.filter _) (hmn.filter _) fun i hi => ?_
  obtain ⟨hmem, hi⟩ := List.mem_filter.1 hi
  exact List.mem_filter.2 ⟨hsub hmem, hi⟩

/-- **Any order**: operations by descending keys lead to one state in whatever order those of equal
keys are taken. -/
theorem KeysSwappable.run_perm (h : KeysSwappable act key l s) (hnodup : l.Nodup)
    (hl : l.Pairwise fun p q => key q ≤ key p) (hm : m.Pairwise fun p q => key q ≤ key p)
    (hperm : l.Perm m) : run act l s = run act m s :=
  h.run_stage hnodup hl hl hm hperm hnodup (fun _ _ => Nat.zero_le _) (List.Subset.refl l)
    fun _ hi _ => hi

end Keys

end Reordering
