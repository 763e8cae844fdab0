import Mathlib.Data.List.Sort

/-!
# Rows in an order

A query sorts the rows and takes the first one, or the first one with a property: it is a least one
of the rows, or of those with the property.
-/

namespace OrderedRows

variable {α : Type*} {r : α → α → Prop}

/-- The first element with a property in a sorted list is a least one. -/
theorem find_least {l : List α} (hl : l.Pairwise r) (hr : ∀ a, r a a) {p : α → Bool} {a : α}
    (h : l.find? p = some a) : p a = true ∧ a ∈ l ∧ ∀ b ∈ l, p b = true → r a b := by
  obtain ⟨hp, before, later, rfl, hbefore⟩ := List.find?_eq_some_iff_append.1 h
  refine ⟨hp, List.mem_append_right _ List.mem_cons_self, fun b hb hpb => ?_⟩
  rcases List.mem_append.1 hb with hb | hb
  · have hnot := hbefore b hb
    rw [hpb] at hnot
    cases hnot
  · rcases List.mem_cons.1 hb with rfl | hb
    · exact hr b
    · have hrest := (List.pairwise_append.1 hl).2.1
      exact (List.pairwise_cons.1 hrest).1 b hb

variable [DecidableRel r]

/-- There is a first row if there is a row. -/
theorem head_insertionSort_isSome_iff {l : List α} :
    (l.insertionSort r).head?.isSome = true ↔ ∃ a, a ∈ l := by
  rw [List.isSome_head?, ← List.length_pos_iff, List.length_insertionSort,
    List.length_pos_iff_exists_mem]

variable [Std.Total r] [IsTrans α r]

theorem find_insertionSort_least {l : List α} {p : α → Bool} {a : α}
    (h : (l.insertionSort r).find? p = some a) :
    p a = true ∧ a ∈ l ∧ ∀ b ∈ l, p b = true → r a b := by
  have hrefl : ∀ a, r a a := fun a => (or_self_iff).1 (Std.Total.total a a)
  obtain ⟨hp, ha, hleast⟩ := find_least (List.pairwise_insertionSort r l) hrefl h
  refine ⟨hp, (List.mem_insertionSort r).1 ha, fun b hb => ?_⟩
  exact hleast b ((List.mem_insertionSort r).2 hb)

/-- The first row in the order. -/
theorem head_insertionSort_least {l : List α} {a : α} (h : (l.insertionSort r).head? = some a) :
    a ∈ l ∧ ∀ b ∈ l, r a b := by
  have hfind : (l.insertionSort r).find? (fun _ => true) = some a := by
    cases hl : l.insertionSort r with
    | nil =>
      rw [hl] at h
      cases h
    | cons b rest =>
      rw [hl] at h
      exact h
  obtain ⟨-, ha, hleast⟩ := find_insertionSort_least hfind
  exact ⟨ha, fun b hb => hleast b hb rfl⟩

end OrderedRows
