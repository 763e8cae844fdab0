import Mathlib.Data.Nat.ModEq
import Mathlib.Data.List.Nodup
import Mathlib.Data.List.Perm.Subperm

/-!
# Turns by a counter that wraps

A counter below `m` goes round, and a turn goes to its remainder modulo `n`. Any `n` turns in a row go
to each place once if the counter does not wrap among them, or if `n` divides `m`; otherwise some place
has two of them.
-/

namespace RoundRobin

/-- The place whose turn it is when the counter has been read `t` times before. -/
def turn (m n t : ℕ) : ℕ := t % m % n

/-- The `n` turns from the `i`-th on. -/
def turns (m n i : ℕ) : List ℕ := (List.range n).map fun d => turn m n (i + d)

variable {m n i : ℕ}

theorem turn_lt (hn : 0 < n) (t : ℕ) : turn m n t < n := Nat.mod_lt _ hn

/-- Two numbers less than `n` apart have different remainders. -/
theorem mod_ne_of_lt {a b : ℕ} (hab : a < b) (hbn : b < a + n) : a % n ≠ b % n := by
  intro h
  have hdvd : n ∣ b - a := (Nat.modEq_iff_dvd' hab.le).1 h
  have := Nat.le_of_dvd (by omega) hdvd
  omega

/-- Without a wrap among them, or with a whole number of rounds before it, the turns are different. -/
theorem turn_ne (h : n ∣ m ∨ i % m + n ≤ m) {d e : ℕ} (hde : d < e) (he : e < n) :
    turn m n (i + d) ≠ turn m n (i + e) := by
  unfold turn
  rcases h with hdvd | hroom
  · rw [Nat.mod_mod_of_dvd _ hdvd, Nat.mod_mod_of_dvd _ hdvd]
    exact mod_ne_of_lt (by omega) (by omega)
  · have hread : ∀ x < n, (i + x) % m = i % m + x := by
      intro x hx
      rw [Nat.add_mod, Nat.mod_eq_of_lt (show x < m by omega), Nat.mod_eq_of_lt (by omega)]
    rw [hread d (by omega), hread e he]
    exact mod_ne_of_lt (by omega) (by omega)

/-- The turns before the wrap end with the remainder of `m` less one, those after it begin with zero. -/
theorem exists_turn_eq (hm : 0 < m) (hn : 0 < n) (hdvd : ¬n ∣ m) (hwrap : m < i % m + n) :
    ∃ d e, d < e ∧ e < n ∧ turn m n (i + d) = turn m n (i + e) := by
  obtain ⟨a, ha⟩ : ∃ a, a = m - i % m := ⟨_, rfl⟩
  obtain ⟨r, hr⟩ : ∃ r, r = m % n := ⟨_, rfl⟩
  have hi : i % m < m := Nat.mod_lt _ hm
  have hrpos : 0 < r := by
    rw [hr]
    exact Nat.pos_of_ne_zero fun h => hdvd (Nat.dvd_of_mod_eq_zero h)
  have hrn : r < n := hr ▸ Nat.mod_lt _ hn
  have hrm : r ≤ m := hr ▸ Nat.mod_le _ _
  have hdiv := Nat.div_add_mod i m
  -- the counter is `m - x` at the first of the two turns and `r - x` at the second
  obtain ⟨x, hx1, hxa, hxr, hxn⟩ : ∃ x, 1 ≤ x ∧ x ≤ a ∧ x ≤ r ∧ a + r - x < n := by
    refine ⟨min a r, ?_, min_le_left a r, min_le_right a r, ?_⟩ <;> omega
  refine ⟨a - x, a + (r - x), by omega, by omega, ?_⟩
  have hfirst : (i + (a - x)) % m = m - x := by
    have he : i + (a - x) = m - x + m * (i / m) := by omega
    rw [he, Nat.add_mul_mod_self_left, Nat.mod_eq_of_lt (by omega)]
  have hsecond : (i + (a + (r - x))) % m = r - x := by
    have he : i + (a + (r - x)) = r - x + m * (i / m + 1) := by
      rw [Nat.mul_add, Nat.mul_one]
      omega
    rw [he, Nat.add_mul_mod_self_left, Nat.mod_eq_of_lt (by omega)]
  have hrounds : m - x = r - x + n * (m / n) := by
    have := Nat.div_add_mod m n
    omega
  unfold turn
  rw [hfirst, hsecond, hrounds, Nat.add_mul_mod_self_left]

/-- Turns repeat only where the counter goes round, and not if its range is a multiple. -/
theorem turns_nodup_iff (hm : 0 < m) (hn : 0 < n) :
    (turns m n i).Nodup ↔ n ∣ m ∨ i % m + n ≤ m := by
  unfold turns
  constructor
  · intro hnodup
    by_contra hnot
    obtain ⟨hdvd, hwrap⟩ := not_or.1 hnot
    obtain ⟨d, e, hde, hen, heq⟩ := exists_turn_eq hm hn hdvd (not_le.1 hwrap)
    have hinj := List.inj_on_of_nodup_map hnodup
    exact hde.ne (hinj (List.mem_range.2 (by omega)) (List.mem_range.2 hen) heq)
  · intro h
    refine List.Nodup.map_on (fun d hd e he heq => ?_) List.nodup_range
    rw [List.mem_range] at hd he
    rcases Nat.lt_trichotomy d e with hlt | rfl | hlt
    · exact absurd heq (turn_ne h hlt he)
    · rfl
    · exact absurd heq.symm (turn_ne h hlt hd)

/-- Turns without repetition are everybody's. -/
theorem turns_perm_range (hn : 0 < n) (h : (turns m n i).Nodup) :
    (turns m n i).Perm (List.range n) := by
  refine (List.subperm_of_subset h fun j hj => ?_).perm_of_length_le (by simp [turns])
  obtain ⟨d, -, rfl⟩ := List.mem_map.1 hj
  exact List.mem_range.2 (turn_lt hn _)

/-- **Round robin**: the `n` turns from the `i`-th on go to each of the `n` places once if and only if
`n` divides `m` or the counter does not wrap among them. -/
theorem turns_fair_iff (hm : 0 < m) (hn : 0 < n) :
    (∀ j < n, (turns m n i).count j = 1) ↔ n ∣ m ∨ i % m + n ≤ m := by
  rw [← turns_nodup_iff hm hn]
  constructor
  · intro hone
    refine List.nodup_iff_count_le_one.2 fun j => ?_
    by_cases hj : j ∈ turns m n i
    · obtain ⟨d, -, rfl⟩ := List.mem_map.1 hj
      exact (hone _ (turn_lt hn _)).le
    · rw [List.count_eq_zero_of_not_mem hj]
      exact Nat.zero_le _
  · intro hnodup j hj
    rw [(turns_perm_range hn hnodup).count_eq]
    exact List.count_eq_one_of_mem List.nodup_range (List.mem_range.2 hj)

end RoundRobin
