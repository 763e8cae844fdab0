import Webmeow.Airport.Proofs.StepProofs

/-!
# Whom a restart finds again

The loop over the rows skips those whose gate the new configuration does not have; every other row goes
into the queue of its gate, once.
-/

namespace Airport

variable {cfg : Config}

/-- The guest of the row waits at exactly one gate, once, and that gate may serve it. -/
def WaitsOnce (cfg : Config) (gates : Gates) (row : Arrival) : Prop :=
  ∃ g, Allowed cfg row.traveller g ∧
    ((gates g).queue.filter fun guest => guest.arrivalId = row.id) = [row.rehydrated] ∧
    ∀ g' ≠ g, ((gates g').queue.filter fun guest => guest.arrivalId = row.id) = []

/-- Rows of unknown gates are skipped. -/
theorem rehydrate_known (rows : List Arrival) :
    rehydrate cfg rows = rehydrate cfg (rows.filter fun row => row.gate ∈ cfg.gateIds) := by
  have hgen : ∀ (rows : List Arrival) (gates : Gates), rows.foldl (rehydrateRow cfg) gates =
      (rows.filter fun row => row.gate ∈ cfg.gateIds).foldl (rehydrateRow cfg) gates := by
    intro rows
    induction rows with
    | nil => exact fun _ => rfl
    | cons row rows ih =>
      intro gates
      by_cases hgate : row.gate ∈ cfg.gateIds
      · rw [List.filter_cons_of_pos (by simpa using hgate), List.foldl_cons, List.foldl_cons, ih]
      · have hskip : rehydrateRow cfg gates row = gates := by
          unfold rehydrateRow
          rw [if_neg hgate]
        rw [List.filter_cons_of_neg (by simpa using hgate), List.foldl_cons, hskip, ih]
  exact hgen rows _

/-- The queue of a gate after the loop: the rows of the gate, if it is configured. -/
theorem rehydrate_queue_known {rows : List Arrival} (h : ∀ row ∈ rows, row.status ≠ .processed)
    (g : GateId) :
    ((rehydrate cfg rows g).queue).Perm
      ((rows.filter fun row => row.gate ∈ cfg.gateIds ∧ row.gate = g).map Arrival.rehydrated) := by
  rw [rehydrate_known]
  refine (rehydrate_queue (fun row hrow => ?_) g).trans (List.Perm.of_eq ?_)
  · obtain ⟨hmem, hgate⟩ := List.mem_filter.1 hrow
    exact ⟨of_decide_eq_true hgate, h row hmem⟩
  · rw [List.filter_filter]
    refine congrArg _ (List.filter_congr fun row _ => ?_)
    simp [and_comm]

/-- The guests of one row in a queue after the loop. -/
theorem rehydrate_filter {rows : List Arrival} (hkey : (rows.map Arrival.id).Nodup)
    (h : ∀ row ∈ rows, row.status ≠ .processed) {row : Arrival} (hrow : row ∈ rows) (g : GateId) :
    ((rehydrate cfg rows g).queue.filter fun guest => guest.arrivalId = row.id) =
      if row.gate ∈ cfg.gateIds ∧ row.gate = g then [row.rehydrated] else [] := by
  have hperm := (@rehydrate_queue_known cfg rows h g).filter fun guest => guest.arrivalId = row.id
  have hone : ((rows.filter fun r => r.gate ∈ cfg.gateIds ∧ r.gate = g).map Arrival.rehydrated).filter
      (fun guest => guest.arrivalId = row.id) =
        if row.gate ∈ cfg.gateIds ∧ row.gate = g then [row.rehydrated] else [] := by
    have hswap : (rows.filter fun r => r.gate ∈ cfg.gateIds ∧ r.gate = g).filter
        ((fun guest : Guest => decide (guest.arrivalId = row.id)) ∘ Arrival.rehydrated) =
          [row].filter fun r => r.gate ∈ cfg.gateIds ∧ r.gate = g := by
      rw [← Keyed.filter_of_mem hkey hrow, List.filter_filter, List.filter_filter]
      exact List.filter_congr fun r _ => Bool.and_comm _ _
    rw [List.filter_map, hswap]
    by_cases hc : row.gate ∈ cfg.gateIds ∧ row.gate = g
    · rw [List.filter_cons_of_pos (by simpa using hc), if_pos hc]
      rfl
    · rw [List.filter_cons_of_neg (by simpa using hc), if_neg hc]
      rfl
  rw [hone] at hperm
  split_ifs at hperm ⊢ with hc
  · exact List.perm_singleton.1 hperm
  · exact List.perm_nil.1 hperm

/-- **Restart**: for every table, every new configuration and every order in which the query returns the
rows, all guests that were queued or being processed wait at exactly one gate, once, and at one that
may serve them, if and only if every such row names a gate that is still configured and may serve
its passport. -/
theorem restart_strands_nobody_iff (cfg : Config) (s s' : System) (rows : List Arrival)
    (h : s.restartStep cfg rows = some s') :
    (∀ row ∈ s.db.pending, WaitsOnce cfg s'.gates row) ↔
      ∀ row ∈ s.db.pending, Allowed cfg row.traveller row.gate := by
  obtain ⟨hperm, -, rfl⟩ := restartStep_cases h
  have hkey : (rows.map Arrival.id).Nodup :=
    (hperm.map Arrival.id).nodup_iff.2 (s.db.key.sublist (List.filter_sublist.map _))
  have hstatus : ∀ row ∈ rows, row.status ≠ .processed := fun row hrow =>
    (mem_pending.1 (hperm.mem_iff.1 hrow)).2
  refine forall₂_congr fun row hrow => ?_
  have hfilter := @rehydrate_filter cfg rows hkey hstatus row (hperm.mem_iff.2 hrow)
  constructor
  · rintro ⟨g, hallowed, hone, -⟩
    have hq := (hfilter g).symm.trans hone
    split_ifs at hq with hc
    exact hc.2 ▸ hallowed
  · intro hallowed
    refine ⟨row.gate, hallowed, ?_, fun g' hg' => ?_⟩
    · exact (hfilter row.gate).trans (if_pos ⟨hallowed.1, rfl⟩)
    · exact (hfilter g').trans (if_neg fun hc => hg' hc.2.symm)

/-- A table with one guest in the queue of the gate. -/
def oneGuestAt (gate : GateId) : System :=
  { System.initial with
    db := Db.empty.insert
      (newRow ⟨"g1", "Ada", "Lovelace", 36, .EU, .standard, false⟩ gate 10) (newRow_id _ gate 10) }

/-- A restart with fewer gates that keeps the gate of the guest. -/
theorem restart_keeps_gate :
    ∃ s', (oneGuestAt ⟨.EU, 1⟩).restartStep ⟨2, 1⟩ (oneGuestAt ⟨.EU, 1⟩).db.pending = some s' ∧
      ∀ row ∈ (oneGuestAt ⟨.EU, 1⟩).db.pending, WaitsOnce ⟨2, 1⟩ s'.gates row := by
  refine ⟨_, rfl, (restart_strands_nobody_iff ⟨2, 1⟩ (oneGuestAt ⟨.EU, 1⟩) _
    (oneGuestAt ⟨.EU, 1⟩).db.pending rfl).2 ?_⟩
  intro row hrow
  rw [List.mem_singleton.1 hrow]
  exact ⟨by decide, fun hne => by cases hne⟩

/-- A restart with one EU gate less, where a guest was waiting: nobody calls the guest again. -/
theorem restart_strands_guest :
    ∃ s', (oneGuestAt ⟨.EU, 3⟩).restartStep ⟨2, 2⟩ (oneGuestAt ⟨.EU, 3⟩).db.pending = some s' ∧
      (∀ g, (s'.gates g).queue = []) ∧
      ¬∀ row ∈ (oneGuestAt ⟨.EU, 3⟩).db.pending, WaitsOnce ⟨2, 2⟩ s'.gates row := by
  refine ⟨_, rfl, fun g => rfl, fun h => ?_⟩
  obtain ⟨g, -, hone, -⟩ := h _ (List.mem_singleton_self _)
  cases hone

end Airport
