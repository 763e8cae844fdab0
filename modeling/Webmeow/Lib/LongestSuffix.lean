import Mathlib.Algebra.Order.Group.Int

/-!
# The longest suffix within a budget

A list whose items have weights, cut from the front until the weights add up to at most a bound.
Cutting after every item that is appended is the same as cutting once at the end.
-/

namespace LongestSuffix

variable {α : Type*} (weight : α → ℕ) (bound : Int)

/-- The weights of a list, added up. -/
def total : List α → ℕ
  | [] => 0
  | a :: l => weight a + total l

/-- Drop items from the front while the rest is above the bound. -/
def recent : List α → List α
  | [] => []
  | a :: l => if bound < total weight (a :: l) then recent l else a :: l

/-- `s` is the longest of the suffixes of `l` that are within the bound. -/
structure IsLongest (l s : List α) : Prop where
  /-- It is a suffix. -/
  suffix : s <:+ l
  /-- Its weight is within the bound. -/
  within : total weight s ≤ bound
  /-- No other such suffix is longer. -/
  longest : ∀ s', s' <:+ l → total weight s' ≤ bound → s'.length ≤ s.length

variable {weight bound}

@[simp]
theorem total_nil : total weight [] = 0 := rfl

@[simp]
theorem total_cons (a : α) (l : List α) : total weight (a :: l) = weight a + total weight l := rfl

@[simp]
theorem total_append (l l' : List α) :
    total weight (l ++ l') = total weight l + total weight l' := by
  induction l with
  | nil => rw [List.nil_append, total_nil, Nat.zero_add]
  | cons a l ih => rw [List.cons_append, total_cons, total_cons, ih, Nat.add_assoc]

/-- What is kept is a suffix. -/
theorem recent_suffix (l : List α) : recent weight bound l <:+ l := by
  induction l with
  | nil => exact List.suffix_rfl
  | cons a l ih =>
    rw [recent]
    split_ifs with h
    · exact ih.trans (List.suffix_cons a l)
    · exact List.suffix_rfl

/-- What is kept is within the bound. -/
theorem recent_within (hb : 0 ≤ bound) (l : List α) :
    total weight (recent weight bound l) ≤ bound := by
  induction l with
  | nil => exact hb
  | cons a l ih =>
    rw [recent]
    split_ifs with h
    · exact ih
    · exact not_lt.1 h

/-- Every suffix within the bound is a suffix of what is kept. -/
theorem suffix_recent {l s : List α} (hs : s <:+ l) (hw : total weight s ≤ bound) :
    s <:+ recent weight bound l := by
  induction l with
  | nil => exact hs
  | cons a l ih =>
    rw [recent]
    split_ifs with h
    · rcases List.suffix_cons_iff.1 hs with rfl | hs
      · exact absurd hw (not_le.2 h)
      · exact ih hs
    · exact hs

/-- **What is kept** is the longest suffix within the bound. -/
theorem recent_isLongest (hb : 0 ≤ bound) (l : List α) :
    IsLongest weight bound l (recent weight bound l) where
  suffix := recent_suffix l
  within := recent_within hb l
  longest _ hs hw := (suffix_recent hs hw).length_le

/-- **Cutting early changes nothing**: items that are cut now would be cut later. -/
theorem recent_append (l l' : List α) :
    recent weight bound (recent weight bound l ++ l') = recent weight bound (l ++ l') := by
  induction l with
  | nil => rfl
  | cons a l ih =>
    rw [recent]
    split_ifs with h
    · have h' : bound < total weight (a :: (l ++ l')) := by
        rw [← List.cons_append, total_append]
        push_cast
        omega
      rw [ih, List.cons_append, recent, if_pos h']
    · rfl

end LongestSuffix
