import Mathlib.Data.List.Basic

/-!
# Lists put together with separators
-/

namespace Separators

variable {α : Type*}

/-- A text is cut at the first separator in one way only. -/
theorem append_sep_inj {a : α} {x x' z z' : List α} (hx : a ∉ x) (hx' : a ∉ x')
    (h : x ++ a :: z = x' ++ a :: z') : x = x' ∧ z = z' := by
  induction x generalizing x' with
  | nil =>
    cases x' with
    | nil => exact ⟨rfl, (List.cons.inj h).2⟩
    | cons b x' => exact absurd ((List.cons.inj h).1 ▸ List.mem_cons_self) hx'
  | cons b x ih =>
    cases x' with
    | nil => exact absurd ((List.cons.inj h).1 ▸ List.mem_cons_self) hx
    | cons b' x' =>
      obtain ⟨rfl, h'⟩ := List.cons.inj h
      obtain ⟨rfl, rfl⟩ := ih (fun hm => hx (List.mem_cons_of_mem _ hm))
        (fun hm => hx' (List.mem_cons_of_mem _ hm)) h'
      exact ⟨rfl, rfl⟩

/-- The same for the last separator. -/
theorem append_last_sep_inj {a : α} {x x' z z' : List α} (hz : a ∉ z) (hz' : a ∉ z')
    (h : x ++ a :: z = x' ++ a :: z') : x = x' ∧ z = z' := by
  have hrev := congrArg List.reverse h
  simp only [List.reverse_append, List.reverse_cons, List.append_assoc, List.singleton_append] at hrev
  obtain ⟨h1, h2⟩ := append_sep_inj (by simpa using hz) (by simpa using hz') hrev
  exact ⟨List.reverse_injective h2, List.reverse_injective h1⟩

theorem mem_intercalate {a c : α} {ls : List (List α)} (h : c ∈ [a].intercalate ls) :
    c = a ∨ ∃ l ∈ ls, c ∈ l := by
  induction ls with
  | nil => cases h
  | cons l ls ih =>
    cases ls with
    | nil =>
      rw [List.intercalate_singleton] at h
      exact Or.inr ⟨l, List.mem_singleton_self l, h⟩
    | cons l' ls =>
      rw [List.intercalate_cons_cons, List.mem_append, List.mem_append, List.mem_singleton] at h
      rcases h with (h | h) | h
      · exact Or.inr ⟨l, List.mem_cons_self, h⟩
      · exact Or.inl h
      · rcases ih h with h | ⟨l'', hl, hc⟩
        · exact Or.inl h
        · exact Or.inr ⟨l'', List.mem_cons_of_mem _ hl, hc⟩

end Separators
