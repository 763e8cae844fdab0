import Mathlib.Data.Set.Card
import Mathlib.Logic.Function.Basic

/-!
# Finite graphs of partial functions

A finite set of pairs in which every second component occurs once at most is the graph of a partial
function. A table that is kept so can be changed and counted as the function is.
-/

namespace FunctionGraph

variable {α β : Type*}

/-- The pairs of `s` are those `(a, b)` for which `f b` is `a`. -/
def IsGraph (s : Finset (α × β)) (f : β → Option α) : Prop := ∀ a b, (a, b) ∈ s ↔ f b = some a

variable {s : Finset (α × β)} {f : β → Option α} {a : α} {b : β}

/-- A value has one argument. -/
theorem IsGraph.unique (h : IsGraph s f) {r r' : α × β} (hr : r ∈ s) (hr' : r' ∈ s)
    (he : r.2 = r'.2) : r = r' := by
  have h1 : f r.2 = some r.1 := (h r.1 r.2).1 hr
  have h2 : f r'.2 = some r'.1 := (h r'.1 r'.2).1 hr'
  rw [he] at h1
  exact Prod.ext (Option.some.inj (h1.symm.trans h2)) he

/-- A set of pairs is the graph of one function at most. -/
theorem IsGraph.ext {g : β → Option α} (h : IsGraph s f) (hg : IsGraph s g) : f = g := by
  funext b
  cases hf : f b with
  | none =>
    cases hgb : g b with
    | none => rfl
    | some a =>
      have hmem : (a, b) ∈ s := (hg a b).2 hgb
      have hfb : f b = some a := (h a b).1 hmem
      rw [hf] at hfb
      exact hfb
  | some a => exact ((hg a b).1 ((h a b).2 hf)).symm

/-- The function of a finite graph is defined at finitely many places. -/
theorem IsGraph.finite (h : IsGraph s f) : {b | (f b).isSome}.Finite := by
  refine (s.finite_toSet.image Prod.snd).subset ?_
  intro b hb
  obtain ⟨a, ha⟩ := Option.isSome_iff_exists.1 hb
  exact ⟨(a, b), Finset.mem_coe.2 ((h a b).2 ha), rfl⟩

section Tables

variable [DecidableEq β]

/-- Removing the pairs of `b`. -/
theorem IsGraph.erase (h : IsGraph s f) (b : β) :
    IsGraph (s.filter fun r => r.2 ≠ b) (Function.update f b none) := by
  intro a' b'
  rw [Finset.mem_filter]
  by_cases hb : b' = b
  · subst hb
    rw [Function.update_self]
    exact ⟨fun hr => absurd rfl hr.2, fun he => by cases he⟩
  · rw [Function.update_of_ne hb, ← h a' b']
    exact ⟨fun hr => hr.1, fun hr => ⟨hr, hb⟩⟩

variable [DecidableEq α]

/-- Replacing the pairs of `b` by one new pair updates the function. -/
theorem IsGraph.replace (h : IsGraph s f) (a : α) (b : β) :
    IsGraph (insert (a, b) (s.filter fun r => r.2 ≠ b)) (Function.update f b (some a)) := by
  intro a' b'
  rw [Finset.mem_insert, Finset.mem_filter, Prod.mk.injEq]
  by_cases hb : b' = b
  · subst hb
    rw [Function.update_self, Option.some.injEq]
    constructor
    · rintro (⟨rfl, -⟩ | ⟨-, hne⟩)
      · rfl
      · exact absurd rfl hne
    · exact fun ha => Or.inl ⟨ha.symm, rfl⟩
  · rw [Function.update_of_ne hb, ← h a' b']
    constructor
    · rintro (⟨-, he⟩ | ⟨hmem, -⟩)
      · exact absurd he hb
      · exact hmem
    · exact fun hmem => Or.inr ⟨hmem, hb⟩

/-- Removing the one pair of `b` removes all of them. -/
theorem IsGraph.filter_pair (h : IsGraph s f) (hf : f b = some a) :
    (s.filter fun r => ¬ (r.1 = a ∧ r.2 = b)) = s.filter fun r => r.2 ≠ b := by
  refine Finset.filter_congr fun r hr => not_congr ⟨fun hab => hab.2, fun hb => ⟨?_, hb⟩⟩
  have hmem : (a, b) ∈ s := (h a b).2 hf
  rw [h.unique hr hmem hb]

/-- The pairs of `a` are as many as the arguments with value `a`. -/
theorem IsGraph.card_fibre (h : IsGraph s f) (a : α) :
    (s.filter fun r => r.1 = a).card = {b | f b = some a}.ncard := by
  have hinj : Set.InjOn Prod.snd ((s.filter fun r => r.1 = a : Finset (α × β)) : Set (α × β)) := by
    intro r hr r' hr' he
    exact h.unique (Finset.mem_filter.1 hr).1 (Finset.mem_filter.1 hr').1 he
  rw [← Finset.card_image_of_injOn hinj, ← Set.ncard_coe_finset]
  congr 1
  ext b
  simp only [Finset.coe_image, Finset.coe_filter, Set.mem_image, Set.mem_ofPred_eq]
  constructor
  · rintro ⟨⟨a', b'⟩, ⟨hmem, rfl⟩, rfl⟩
    exact (h a' b').1 hmem
  · exact fun hb => ⟨(a, b), ⟨(h a b).2 hb, rfl⟩, rfl⟩

end Tables

/-! ## Counting arguments -/

variable [DecidableEq β]

/-- An update that sets `a` adds one argument with value `a` at most, and none with another one. -/
theorem ncard_update_le [DecidableEq α] (hfin : {b | (f b).isSome}.Finite) (a a' : α) (b : β) :
    {c | Function.update f b (some a) c = some a'}.ncard ≤
      {c | f c = some a'}.ncard + if a' = a then 1 else 0 := by
  have hfibre : {c | f c = some a'}.Finite :=
    hfin.subset fun c hc => Option.isSome_iff_exists.2 ⟨a', hc⟩
  by_cases ha : a' = a
  · subst ha
    rw [if_pos rfl]
    refine (Set.ncard_le_ncard ?_ (hfibre.insert b)).trans (Set.ncard_insert_le _ _)
    intro c hc
    by_cases hcb : c = b
    · exact Or.inl hcb
    · rw [Set.mem_ofPred_eq, Function.update_of_ne hcb] at hc
      exact Or.inr hc
  · rw [if_neg ha, Nat.add_zero]
    refine Set.ncard_le_ncard ?_ hfibre
    intro c hc
    by_cases hcb : c = b
    · subst hcb
      rw [Set.mem_ofPred_eq, Function.update_self] at hc
      exact absurd (Option.some.inj hc).symm ha
    · rwa [Set.mem_ofPred_eq, Function.update_of_ne hcb] at hc

/-- Forgetting a value adds no argument to any value. -/
theorem ncard_update_none_le (hfin : {b | (f b).isSome}.Finite) (a : α) (b : β) :
    {c | Function.update f b none c = some a}.ncard ≤ {c | f c = some a}.ncard := by
  refine Set.ncard_le_ncard ?_ (hfin.subset fun c hc => Option.isSome_iff_exists.2 ⟨a, hc⟩)
  intro c hc
  by_cases hcb : c = b
  · subst hcb
    rw [Set.mem_ofPred_eq, Function.update_self] at hc
    cases hc
  · rwa [Set.mem_ofPred_eq, Function.update_of_ne hcb] at hc

/-- An update keeps a partial function finite. -/
theorem finite_update (hfin : {b | (f b).isSome}.Finite) (b : β) (o : Option α) :
    {c | (Function.update f b o c).isSome}.Finite := by
  refine (hfin.insert b).subset ?_
  intro c hc
  by_cases hcb : c = b
  · exact Or.inl hcb
  · rw [Set.mem_ofPred_eq, Function.update_of_ne hcb] at hc
    exact Or.inr hc

end FunctionGraph
