import Webmeow.Airport.Proofs.AssignmentProofs
import Webmeow.Airport.Proofs.StepProofs
import Webmeow.Lib.LeastLoaded

/-!
# The balance of the queues

When arrivals come one at a time and no worker takes anybody away, each guest goes to a gate that is a
shortest one among those that the guest may use. This keeps the gates of one type within one of each
other, and no EU gate gets more than one ahead of an ALL gate.
-/

namespace Airport

open LeastLoaded Runs

/-- The gate is configured and has the type. -/
def Config.Has (cfg : Config) (type : GateType) (g : GateId) : Prop := g ∈ cfg.gateIds ∧ g.type = type

/-- The length of each queue. -/
def Gates.load (gates : Gates) (g : GateId) : ℕ := (gates g).queue.length

/-- The loads of the gates, compared within a type and between the types. -/
structure Balanced (cfg : Config) (gates : Gates) : Prop where
  /-- Two gates of one type differ by at most one. -/
  sameType : ∀ type, WithinOne (cfg.Has type) (cfg.Has type) gates.load
  /-- No EU gate is more than one longer than an ALL gate. -/
  spill : WithinOne (cfg.Has .EU) (cfg.Has .ALL) gates.load

variable {cfg : Config} {gates : Gates}

/-! ## The choice -/

/-- The chosen gate has the least load of its type. -/
theorem shortestQueueGate_le {type : GateType} {g g' : GateId}
    (h : shortestQueueGate cfg gates type = some g) (hg' : cfg.Has type g') :
    gates.load g ≤ gates.load g' := by
  refine List.le_of_mem_argmin (f := gates.load) ?_ h
  exact List.mem_filter.2 ⟨hg'.1, decide_eq_true hg'.2⟩

/-- There is a gate of the type, so there is a shortest one. -/
theorem shortestQueueGate_isSome (gates : Gates) {type : GateType} {g : GateId} (hg : cfg.Has type g) :
    ∃ g', shortestQueueGate cfg gates type = some g' := by
  rw [← Option.ne_none_iff_exists']
  intro hnone
  have hempty := List.argmin_eq_none.1 hnone
  have hmem : g ∈ cfg.gateIds.filter fun g => g.type = type :=
    List.mem_filter.2 ⟨hg.1, decide_eq_true hg.2⟩
  rw [hempty] at hmem
  cases hmem

/-- A type that is configured has a first gate. -/
theorem Config.has_first_eu (h : 1 ≤ cfg.euGates) : cfg.Has .EU ⟨.EU, 1⟩ := by
  refine ⟨List.mem_append_left _ (List.mem_map_of_mem ?_), rfl⟩
  rw [List.mem_range'_1]
  omega

theorem Config.has_first_all (h : 1 ≤ cfg.allGates) : cfg.Has .ALL ⟨.ALL, 1⟩ := by
  refine ⟨List.mem_append_right _ (List.mem_map_of_mem ?_), rfl⟩
  rw [List.mem_range'_1]
  omega

/-- With a gate of each type every traveller gets a gate. -/
theorem chooseGate_isSome (gates : Gates) (heu : 1 ≤ cfg.euGates) (hall : 1 ≤ cfg.allGates) (t : Traveller) :
    ∃ g, chooseGate cfg gates t = some g := by
  obtain ⟨euGate, hE⟩ := shortestQueueGate_isSome gates (cfg.has_first_eu heu)
  obtain ⟨allGate, hA⟩ := shortestQueueGate_isSome gates (cfg.has_first_all hall)
  unfold chooseGate
  cases t.passportType with
  | EU =>
    simp only [hE, hA, Option.bind_eq_bind, Option.bind_some]
    by_cases hlt : (gates allGate).queue.length < (gates euGate).queue.length
    · exact ⟨allGate, if_pos hlt⟩
    · exact ⟨euGate, if_neg hlt⟩
  | nonEU => exact ⟨allGate, hA⟩

/-- The chosen gate is a shortest one of its type, and an EU gate is not longer than an ALL gate. -/
theorem chooseGate_least {t : Traveller} {g : GateId} (h : chooseGate cfg gates t = some g) :
    (∀ g', cfg.Has g.type g' → gates.load g ≤ gates.load g') ∧
      (g.type = .EU → ∀ g', cfg.Has .ALL g' → gates.load g ≤ gates.load g') := by
  unfold chooseGate at h
  cases hp : t.passportType with
  | EU =>
    rw [hp] at h
    obtain ⟨euGate, hE, h⟩ := Option.bind_eq_some_iff.1 h
    obtain ⟨allGate, hA, h⟩ := Option.bind_eq_some_iff.1 h
    have htypeE := (shortestQueueGate_spec hE).2
    have htypeA := (shortestQueueGate_spec hA).2
    split_ifs at h with hlt
    · obtain rfl := Option.some.inj h
      rw [htypeA]
      exact ⟨fun g' hg' => shortestQueueGate_le hA hg', fun htype => by cases htype⟩
    · obtain rfl := Option.some.inj h
      rw [htypeE]
      refine ⟨fun g' hg' => shortestQueueGate_le hE hg', fun _ g' hg' => ?_⟩
      exact Nat.le_trans (not_lt.1 hlt) (shortestQueueGate_le hA hg')
  | nonEU =>
    rw [hp] at h
    have htype := (shortestQueueGate_spec h).2
    rw [htype]
    exact ⟨fun g' hg' => shortestQueueGate_le h hg', fun heu => by cases heu⟩

/-! ## A call that runs alone -/

/-- A guest more in the queue of a gate. -/
theorem enqueue_load (s : Shared) (guest : Guest) :
    (s.enqueue guest).gates.load = add s.gates.load guest.gate := by
  funext g
  by_cases hg : g = guest.gate
  · subst hg
    rw [add_self]
    simp only [Gates.load, Shared.enqueue, Function.update_self, Gate.enqueue]
    exact (StableQueue.insert_perm guest (s.gates guest.gate).queue).length_eq
  · rw [add_of_ne _ hg]
    simp only [Gates.load, Shared.enqueue, Function.update_of_ne hg]

/-- An arrival adds one guest to the gate that is chosen. -/
theorem arriveAlone_cases {s s' : Shared} {c : Traveller × ℚ} (h : arriveAlone cfg s c = some s') :
    ∃ g, chooseGate cfg s.gates c.1 = some g ∧ s'.gates.load = add s.gates.load g := by
  obtain ⟨q, hq, rfl⟩ := Option.map_eq_some_iff.1 h
  obtain ⟨g, hg, rfl⟩ := Option.map_eq_some_iff.1 hq
  exact ⟨g, hg, enqueue_load (s.addRow c.1 g c.2) _⟩

/-- The choice of a shortest queue keeps the balance. -/
theorem step_balanced (s : Shared) (c : Traveller × ℚ) (s' : Shared) (h : Balanced cfg s.gates)
    (hs : arriveAlone cfg s c = some s') : Balanced cfg s'.gates := by
  obtain ⟨g, hg, hload⟩ := arriveAlone_cases hs
  obtain ⟨hsame, hspill⟩ := chooseGate_least hg
  refine ⟨fun type => ?_, ?_⟩
  · rw [hload]
    refine (h.sameType type).add fun hp g' hg' => hsame g' ?_
    rw [hp.2]
    exact hg'
  · rw [hload]
    exact h.spill.add fun hp g' hg' => hspill hp.2 g' hg'

/-- With gates of both types every arrival goes through. -/
theorem run_arriveAlone_isSome (heu : 1 ≤ cfg.euGates) (hall : 1 ≤ cfg.allGates) (s : Shared)
    (cs : List (Traveller × ℚ)) : ∃ s', run (arriveAlone cfg) s cs = some s' := by
  induction cs generalizing s with
  | nil => exact ⟨s, rfl⟩
  | cons c cs ih =>
    obtain ⟨g, hg⟩ := chooseGate_isSome s.gates heu hall c.1
    obtain ⟨s', hs'⟩ : ∃ s', arriveAlone cfg s c = some s' :=
      ⟨_, by rw [arriveAlone, assignAndEnqueue, hg]; rfl⟩
    obtain ⟨t, ht⟩ := ih s'
    exact ⟨t, run_cons_iff.2 ⟨s', hs', ht⟩⟩

/-- **Sequential balancing**: for every number of EU and ALL gates, at least one of each, and every
sequence of arrivals that come one at a time from empty queues, no call raises, and at every point
the queues of two gates of one type differ by at most one and no EU gate is more than one longer
than an ALL gate. -/
theorem sequential_arrivals_balanced (cfg : Config) (heu : 1 ≤ cfg.euGates) (hall : 1 ≤ cfg.allGates)
    (s0 : Shared) (hempty : ∀ g, (s0.gates g).queue = []) (cs : List (Traveller × ℚ)) :
    (∃ s, run (arriveAlone cfg) s0 cs = some s) ∧
      Always (arriveAlone cfg) (fun s => Balanced cfg s.gates) s0 cs := by
  have hload : s0.gates.load = fun _ => 0 := funext fun g => by rw [Gates.load, hempty]; rfl
  have h0 : Balanced cfg s0.gates :=
    ⟨fun type => by rw [hload]; exact withinOne_const _ _ 0, by rw [hload]; exact withinOne_const _ _ 0⟩
  exact ⟨run_arriveAlone_isSome heu hall s0 cs, always_of_invariant step_balanced h0⟩

/-- Two EU guests, and between them one who may only use the ALL gates. -/
def threeArrivals : List (Traveller × ℚ) :=
  [(⟨"ann", "Ann", "Lee", 40, .EU, .standard, false⟩, 1),
    (⟨"eve", "Eve", "Lee", 42, .nonEU, .fast, false⟩, 2),
    (⟨"bob", "Bob", "Lee", 41, .EU, .standard, true⟩, 3)]

theorem threeArrivals_balanced :
    1 ≤ (Config.mk 3 2).euGates ∧ 1 ≤ (Config.mk 3 2).allGates ∧
      Always (arriveAlone ⟨3, 2⟩) (fun s => Balanced ⟨3, 2⟩ s.gates)
        ⟨Db.empty, fun _ => Gate.empty⟩ threeArrivals :=
  ⟨by decide, by decide,
    (sequential_arrivals_balanced ⟨3, 2⟩ (by decide) (by decide) ⟨Db.empty, fun _ => Gate.empty⟩
      (fun _ => rfl) threeArrivals).2⟩

end Airport
