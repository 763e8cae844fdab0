import Mathlib.Data.List.Count
import Webmeow.Gateway.Pool
import Webmeow.Lib.RoundRobin

/-!
# When a pool takes turns

The counter of a pool has 32 bits. It hands out the turns fairly until it wraps, and for ever if the
number of backends divides 2^32.
-/

namespace Gateway

open Url RoundRobin

variable {p : ProxyPool}

@[simp]
theorem pick_targets (p : ProxyPool) : p.pick.1.targets = p.targets := rfl

@[simp]
theorem pick_next (p : ProxyPool) : p.pick.1.next = p.next + 1 := rfl

/-- Picking leaves the targets alone. -/
@[simp]
theorem after_targets (p : ProxyPool) (k : ℕ) : (p.after k).targets = p.targets := by
  induction k with
  | zero => rfl
  | succ k ih => rw [ProxyPool.after, pick_targets, ih]

/-- The counter of a new pool is the number of picks, as far as it has bits for it. -/
theorem after_next (targets : List ByteURL) (k : ℕ) :
    ((newProxyPool targets).after k).next.toNat = k % 2 ^ 32 := by
  induction k with
  | zero => rfl
  | succ k ih =>
    rw [ProxyPool.after, pick_next, UInt32.toNat_add, ih]
    simp

/-- What a pick returns: the turn of the counter, if the number of backends fits into 32 bits. -/
theorem pick_turn (h : p.targets.length % 2 ^ 32 ≠ 0) :
    p.pick.2 = some (p.next.toNat % (p.targets.length % 2 ^ 32)) := by
  have hsize : (UInt32.ofNat p.targets.length).toNat = p.targets.length % 2 ^ 32 :=
    UInt32.toNat_ofNat
  have hne : UInt32.ofNat p.targets.length ≠ 0 := by
    intro h0
    rw [h0] at hsize
    exact h hsize.symm
  simp only [ProxyPool.pick, if_neg hne, UInt32.add_sub_cancel, UInt32.toNat_mod, hsize]

/-- An empty pool panics, and so does one whose size is zero in 32 bits. -/
theorem pick_panics (h : p.targets.length % 2 ^ 32 = 0) : p.pick.2 = none := by
  have hzero : UInt32.ofNat p.targets.length = 0 := by
    refine UInt32.toNat_inj.1 ?_
    rw [UInt32.toNat_ofNat']
    exact h
  simp only [ProxyPool.pick, if_pos hzero]

/-- A pick that returns, returns the index of a backend. -/
theorem pick_lt {i : ℕ} (h : p.pick.2 = some i) : i < p.targets.length := by
  by_cases hzero : p.targets.length % 2 ^ 32 = 0
  · rw [pick_panics hzero] at h
    cases h
  · rw [pick_turn hzero] at h
    have hlt : p.next.toNat % (p.targets.length % 2 ^ 32) < p.targets.length % 2 ^ 32 :=
      Nat.mod_lt _ (Nat.pos_of_ne_zero hzero)
    have hle := Nat.mod_le p.targets.length (2 ^ 32)
    rw [Option.some.inj h] at hlt
    omega

/-- The picks of a pool whose number of backends has 32 bits are its turns. -/
theorem picks_eq_turns {targets : List ByteURL} (hpos : 0 < targets.length)
    (hsize : targets.length < 2 ^ 32) (i : ℕ) :
    (newProxyPool targets).picks i targets.length =
      (turns (2 ^ 32) targets.length i).map some := by
  have hmod : targets.length % 2 ^ 32 = targets.length := Nat.mod_eq_of_lt hsize
  unfold ProxyPool.picks turns
  rw [List.map_map]
  refine List.map_congr_left fun d _ => ?_
  have hturn := @pick_turn ((newProxyPool targets).after (i + d))
  rw [after_targets] at hturn
  have hne : (newProxyPool targets).targets.length % 2 ^ 32 ≠ 0 := by
    show targets.length % 2 ^ 32 ≠ 0
    omega
  rw [hturn hne, after_next]
  show some ((i + d) % 2 ^ 32 % (targets.length % 2 ^ 32)) = _
  rw [hmod]
  rfl

/-- With more backends than the counter has values, the last one never has a turn. -/
theorem last_never_picked {targets : List ByteURL} (hsize : 2 ^ 32 ≤ targets.length) (i count : ℕ) :
    some (targets.length - 1) ∉ (newProxyPool targets).picks i count := by
  intro hin
  obtain ⟨d, -, hd⟩ := List.mem_map.1 hin
  by_cases hzero : targets.length % 2 ^ 32 = 0
  · have hpanic := @pick_panics ((newProxyPool targets).after (i + d))
    rw [after_targets] at hpanic
    rw [hpanic hzero] at hd
    cases hd
  · have hturn := @pick_turn ((newProxyPool targets).after (i + d))
    rw [after_targets] at hturn
    rw [hturn hzero] at hd
    have hlt : ((newProxyPool targets).after (i + d)).next.toNat %
        ((newProxyPool targets).targets.length % 2 ^ 32) < targets.length % 2 ^ 32 :=
      Nat.mod_lt _ (Nat.pos_of_ne_zero hzero)
    have hbound : targets.length % 2 ^ 32 < 2 ^ 32 := Nat.mod_lt _ (by decide)
    rw [Option.some.inj hd] at hlt
    omega

/-- Among the picks from the `i`-th on, as many as there are backends, each backend is picked once,
and nothing else happens. -/
def FairFrom (targets : List ByteURL) (i : ℕ) : Prop :=
  (∀ r ∈ (newProxyPool targets).picks i targets.length, ∃ j < targets.length, r = some j) ∧
    ∀ j < targets.length, ((newProxyPool targets).picks i targets.length).count (some j) = 1

/-- **Round robin**: from the `i`-th pick on, each of the backends is picked once if and only if there
are fewer than 2^32 of them and their number divides 2^32 or the counter does not wrap among these
picks. -/
theorem fairFrom_iff (targets : List ByteURL) (hpos : targets ≠ []) (i : ℕ) :
    FairFrom targets i ↔ targets.length < 2 ^ 32 ∧
      (targets.length ∣ 2 ^ 32 ∨ i % 2 ^ 32 + targets.length ≤ 2 ^ 32) := by
  have hlength : 0 < targets.length := List.length_pos_iff.2 hpos
  by_cases hsize : targets.length < 2 ^ 32
  · have hpicks := picks_eq_turns hlength hsize i
    have hcount : ∀ j, ((turns (2 ^ 32) targets.length i).map some).count (some j) =
        (turns (2 ^ 32) targets.length i).count j := fun j =>
      List.count_map_of_injective _ some (Option.some_injective ℕ) j
    unfold FairFrom
    rw [hpicks, ← turns_fair_iff (by decide) hlength]
    simp only [hcount, hsize, true_and]
    refine ⟨fun h => h.2, fun h => ⟨fun r hr => ?_, h⟩⟩
    obtain ⟨j, hj, rfl⟩ := List.mem_map.1 hr
    obtain ⟨d, -, rfl⟩ := List.mem_map.1 hj
    exact ⟨_, turn_lt hlength _, rfl⟩
  · refine ⟨fun h => ?_, fun h => absurd h.1 hsize⟩
    have hlast := h.2 (targets.length - 1) (by omega)
    rw [List.count_eq_zero_of_not_mem (last_never_picked (not_lt.1 hsize) _ _)] at hlast
    cases hlast

/-- The number of two backends divides 2^32, so they take turns at the wrap, too. -/
theorem two_backends_at_wrap : FairFrom [bareTarget, bareTarget] (2 ^ 32 - 1) :=
  (fairFrom_iff [bareTarget, bareTarget] (List.cons_ne_nil _ _) (2 ^ 32 - 1)).2
    ⟨by decide, Or.inl (by decide)⟩

/-- The last pick before the wrap and the first one after it go to the same one of three backends. -/
theorem wrapped_counter_repeats :
    (newProxyPool (List.replicate 3 bareTarget)).picks (2 ^ 32 - 2) 3 = [some 2, some 0, some 0] ∧
      ¬FairFrom (List.replicate 3 bareTarget) (2 ^ 32 - 2) := by
  have hpicks : (newProxyPool (List.replicate 3 bareTarget)).picks (2 ^ 32 - 2) 3 =
      [some 2, some 0, some 0] :=
    @picks_eq_turns (List.replicate 3 bareTarget) (by decide) (by decide) (2 ^ 32 - 2)
  refine ⟨hpicks, fun h => ?_⟩
  have hsecond := h.2 1 (by decide)
  rw [List.length_replicate, hpicks] at hsecond
  exact absurd hsecond (by decide)

end Gateway
