import Mathlib.Algebra.GroupWithZero.Nat
import Mathlib.Data.List.Forall2
import Mathlib.Data.List.Nodup
import Mathlib.Algebra.BigOperators.Group.List.Lemmas

/-!
# Rows with a key

A table is a list of rows whose keys are distinct, so a row is found by its key.
-/

namespace Keyed

variable {α κ : Type*} {key : α → κ} {l : List α}

/-- A row with a new key may be added. -/
theorem nodup_concat (hn : (l.map key).Nodup) {a : α} (ha : key a ∉ l.map key) :
    ((l ++ [a]).map key).Nodup := by
  rw [List.map_append, List.nodup_append]
  refine ⟨hn, List.nodup_singleton _, fun b hb c hc => ?_⟩
  rw [List.map_singleton, List.mem_singleton] at hc
  rintro rfl
  exact ha (hc ▸ hb)

/-- The key of a row determines its place. -/
theorem index_unique (hn : (l.map key).Nodup) {i j : ℕ} {a b : α} (hi : l[i]? = some a)
    (hj : l[j]? = some b) (hab : key a = key b) : i = j := by
  have hi' : (l.map key)[i]? = some (key a) := by rw [List.getElem?_map, hi, Option.map_some]
  have hj' : (l.map key)[j]? = some (key a) := by rw [List.getElem?_map, hj, Option.map_some, hab]
  exact (List.getElem?_inj (List.getElem?_eq_some_iff.1 hi').1 hn).1 (hi'.trans hj'.symm)

theorem split_unique (hn : (l.map key).Nodup) {b c b' c' : List α} {a a' : α} (h : l = b ++ a :: c)
    (h' : l = b' ++ a' :: c') (haa' : key a = key a') : b = b' := by
  have hat : ∀ {b c : List α} {a : α}, l = b ++ a :: c → l[b.length]? = some a := by
    intro b c a hl
    rw [hl, List.getElem?_append_right (Nat.le_refl _), Nat.sub_self, List.getElem?_cons_zero]
  exact (List.append_inj (h.symm.trans h') (index_unique hn (hat h) (hat h') haa')).1

/-! ## A table whose rows follow a list -/

section Forall₂

variable {β : Type*} {R : α → β → Prop} {rows : List β}

theorem forall₂_concat {a : α} {b : β} (h : List.Forall₂ R l rows) (hab : R a b) :
    List.Forall₂ R (l ++ [a]) (rows ++ [b]) :=
  List.rel_append h (List.Forall₂.cons hab List.Forall₂.nil)

/-- Every row stands for an element of the list. -/
theorem forall₂_left (h : List.Forall₂ R l rows) {b : β} (hb : b ∈ rows) : ∃ a ∈ l, R a b := by
  induction h with
  | nil => cases hb
  | cons hab _ ih =>
    rcases List.mem_cons.1 hb with rfl | hb
    · exact ⟨_, List.mem_cons_self, hab⟩
    · obtain ⟨a, ha, h⟩ := ih hb
      exact ⟨a, List.mem_cons_of_mem _ ha, h⟩

/-- Every element of the list has a row. -/
theorem forall₂_right (h : List.Forall₂ R l rows) {a : α} (ha : a ∈ l) : ∃ b ∈ rows, R a b :=
  forall₂_left h.flip ha

end Forall₂

/-! ## Counting by groups -/

section Groups

variable [DecidableEq κ]

/-- Among distinct keys, one is equal to a given member. -/
theorem sum_indicator {keys : List κ} (hn : keys.Nodup) {k : κ} (hk : k ∈ keys) :
    (keys.map fun k' => if k = k' then 1 else 0).sum = 1 := by
  induction keys with
  | nil => cases hk
  | cons k' keys ih =>
    obtain ⟨hfresh, hn'⟩ := List.nodup_cons.1 hn
    rw [List.map_cons, List.sum_cons]
    by_cases he : k = k'
    · subst he
      have hzero : (keys.map fun k' => if k = k' then 1 else 0) = keys.map fun _ => 0 := by
        refine List.map_congr_left fun k' hk' => if_neg ?_
        rintro rfl
        exact hfresh hk'
      rw [if_pos rfl, hzero, List.map_const', List.sum_replicate]
      rfl
    · rw [if_neg he, ih hn' ((List.mem_cons.1 hk).resolve_left he)]

/-- **Groups**: rows whose keys are among distinct keys are counted group by group. -/
theorem sum_countP {keys : List κ} (hn : keys.Nodup) (h : ∀ a ∈ l, key a ∈ keys) :
    (keys.map fun k => l.countP fun a => key a = k).sum = l.length := by
  induction l with
  | nil => simp
  | cons a l ih =>
    have hsplit : (keys.map fun k => (a :: l).countP fun b => key b = k) =
        keys.map fun k => (l.countP fun b => key b = k) + if key a = k then 1 else 0 :=
      List.map_congr_left fun k _ => by simp [List.countP_cons]
    rw [hsplit, List.sum_map_add, ih fun b hb => h b (List.mem_cons_of_mem a hb),
      sum_indicator hn (h a List.mem_cons_self), List.length_cons]

end Groups

/-! ## Finding a row -/

variable [DecidableEq κ]

theorem find_of_mem (hn : (l.map key).Nodup) {a : α} (ha : a ∈ l) :
    (l.find? fun b => key b = key a) = some a := by
  induction l with
  | nil => cases ha
  | cons b l ih =>
    rw [List.map_cons, List.nodup_cons] at hn
    rcases List.mem_cons.1 ha with rfl | hmem
    · simp
    · have hne : ¬ key b = key a := fun he => hn.1 (he ▸ List.mem_map_of_mem hmem)
      rw [List.find?_cons_of_neg (by simpa using hne)]
      exact ih hn.2 hmem

theorem find_iff (hn : (l.map key).Nodup) {k : κ} {a : α} :
    (l.find? fun b => key b = k) = some a ↔ a ∈ l ∧ key a = k := by
  constructor
  · intro h
    exact ⟨List.mem_of_find?_eq_some h, by simpa using List.find?_some h⟩
  · rintro ⟨ha, rfl⟩
    exact find_of_mem hn ha

/-- A change of the rows that keeps the keys is seen in the row that is found. -/
theorem find_map {f : α → α} (hf : ∀ a, key (f a) = key a) (l : List α) (k : κ) :
    ((l.map f).find? fun a => key a = k) = (l.find? fun a => key a = k).map f := by
  have hkey : ((fun a => decide (key a = k)) ∘ f) = fun a => decide (key a = k) := by
    funext a
    simp only [Function.comp_apply, hf]
  rw [List.find?_map, hkey]

/-- A key selects one row. -/
theorem filter_of_mem (hn : (l.map key).Nodup) {a : α} (ha : a ∈ l) :
    (l.filter fun b => key b = key a) = [a] := by
  obtain ⟨l1, l2, rfl⟩ := List.append_of_mem ha
  rw [List.map_append, List.map_cons, List.nodup_middle, ← List.map_append, List.nodup_cons] at hn
  have hnone : ∀ b ∈ l1 ++ l2, ¬ decide (key b = key a) = true := by
    intro b hb hk
    exact hn.1 (of_decide_eq_true hk ▸ List.mem_map_of_mem hb)
  have h1 : (l1.filter fun b => key b = key a) = [] :=
    List.filter_eq_nil_iff.2 fun b hb => hnone b (List.mem_append_left l2 hb)
  have h2 : (l2.filter fun b => key b = key a) = [] :=
    List.filter_eq_nil_iff.2 fun b hb => hnone b (List.mem_append_right l1 hb)
  rw [List.filter_append, List.filter_cons_of_pos (by simp), h1, h2, List.nil_append]

/-! ## One key changes -/

section Update

variable {β : Type*} {keys : List κ} {k : κ}

theorem map_update_perm (hn : keys.Nodup) (hk : k ∈ keys) (f : κ → β) (b : β) :
    (keys.map (Function.update f k b)).Perm (b :: (keys.erase k).map f) := by
  refine ((List.perm_cons_erase hk).map _).trans ?_
  rw [List.map_cons, Function.update_self, List.map_congr_left fun k' hk' =>
    Function.update_of_ne (hn.mem_erase_iff.1 hk').1 b f]

theorem sum_map_update (hn : keys.Nodup) (hk : k ∈ keys) (f : κ → ℕ) (n : ℕ) :
    (keys.map (Function.update f k n)).sum + f k = (keys.map f).sum + n := by
  rw [(map_update_perm hn hk f n).sum_eq, ((List.perm_cons_erase hk).map f).sum_eq, List.map_cons,
    List.sum_cons, List.sum_cons]
  omega

/-- The elements after an update at one key. -/
theorem flatMap_update (hn : keys.Nodup) (hk : k ∈ keys) (f : κ → List β) (bs : List β) :
    (f k ++ keys.flatMap (Function.update f k bs)).Perm (bs ++ keys.flatMap f) := by
  have hnew := (map_update_perm hn hk f bs).flatten
  have hold := ((List.perm_cons_erase hk).map f).flatten
  rw [List.map_cons, List.flatten_cons] at hold
  rw [List.flatten_cons] at hnew
  calc (f k ++ (keys.map (Function.update f k bs)).flatten).Perm
          (f k ++ (bs ++ ((keys.erase k).map f).flatten)) := hnew.append_left (f k)
    _ |>.Perm (bs ++ (f k ++ ((keys.erase k).map f).flatten)) := by
        rw [← List.append_assoc, ← List.append_assoc]
        exact List.perm_append_comm.append_right _
    _ |>.Perm (bs ++ (keys.map f).flatten) := hold.symm.append_left bs

end Update

end Keyed
