import Webmeow.Airport.System

/-!
# What each step of the airport does

One inversion for each step, what the table operations do to rows, and the queues that a rehydration
builds.
-/

namespace Airport

variable {cfg : Config} {s s' : System}

/-! ## Steps -/

/-- A choice finds a gate or raises. -/
theorem chooseStep_cases {i : ℕ} {now : ℚ} (h : s.chooseStep cfg i now = some s') :
    ∃ t, s.calls[i]? = some (.choose t) ∧
      (s' = s.setCall i .raised ∨
        ∃ g, chooseGate cfg s.gates t = some g ∧ s' = s.setCall i (.commit t g now)) := by
  unfold System.chooseStep at h
  split at h
  · rename_i t ht
    refine ⟨t, ht, ?_⟩
    split at h
    · exact Or.inl (Option.some.inj h).symm
    · rename_i g hg
      exact Or.inr ⟨g, hg, (Option.some.inj h).symm⟩
  · cases h

/-- A commit adds the row. -/
theorem commitStep_cases {i : ℕ} (h : s.commitStep i = some s') :
    ∃ t g now, s.calls[i]? = some (.commit t g now) ∧
      s' = (s.addRow t g now).setCall i (.enqueue (newRow t g now s.db.nextId).dump) := by
  unfold System.commitStep at h
  split at h
  · rename_i t g now ht
    exact ⟨t, g, now, ht, (Option.some.inj h).symm⟩
  · cases h

/-- The guest goes to the queue of the gate. -/
theorem enqueueStep_cases {i : ℕ} (h : s.enqueueStep i = some s') :
    ∃ guest, s.calls[i]? = some (.enqueue guest) ∧
      s' = (s.setGate guest.gate ((s.gates guest.gate).enqueue guest).1).setCall i
        (.respond guest ((s.gates guest.gate).enqueue guest).2) := by
  unfold System.enqueueStep at h
  split at h
  · rename_i guest hg
    exact ⟨guest, hg, (Option.some.inj h).symm⟩
  · cases h

/-- An answer changes the call alone. -/
theorem respondStep_cases {i : ℕ} (h : s.respondStep i = some s') :
    ∃ guest position answer, s.calls[i]? = some (.respond guest position) ∧
      s' = s.setCall i (.done answer) := by
  unfold System.respondStep at h
  split at h
  · rename_i guest position hg
    exact ⟨guest, position, _, hg, (Option.some.inj h).symm⟩
  · cases h

/-- A worker who is free takes the head. -/
theorem popStep_cases {g : GateId} (h : s.popStep g = some s') :
    ∃ guest queue, (s.gates g).current = none ∧ (s.gates g).queue = guest :: queue ∧
      s' = s.setGate g ⟨queue, some (.popped, { guest with status := .processing })⟩ := by
  unfold System.popStep at h
  split at h
  · rename_i guest queue hc hq
    exact ⟨guest, queue, hc, hq, (Option.some.inj h).symm⟩
  · cases h

/-- The row says `processing`. -/
theorem commitProcessingStep_cases {g : GateId} (h : s.commitProcessingStep g = some s') :
    ∃ guest, (s.gates g).current = some (.popped, guest) ∧
      s' = (s.modifyRows (Arrival.startIf guest.arrivalId) (Arrival.startIf_id _)).setGate g
        { s.gates g with current := some (.delayed, guest) } := by
  unfold System.commitProcessingStep at h
  split at h
  · rename_i guest hc
    exact ⟨guest, hc, (Option.some.inj h).symm⟩
  · cases h

/-- The row says `processed`, with the wait. -/
theorem commitProcessedStep_cases {g : GateId} {now : ℚ} (h : s.commitProcessedStep g now = some s') :
    ∃ guest, (s.gates g).current = some (.delayed, guest) ∧
      s' = (s.modifyRows (Arrival.finishIf guest.arrivalId now (now - guest.queuedAt))
        (Arrival.finishIf_id _ _ _)).setGate g
          { s.gates g with current := some (.stored, guest.finish now) } := by
  unfold System.commitProcessedStep at h
  split at h
  · rename_i guest hc
    exact ⟨guest, hc, (Option.some.inj h).symm⟩
  · cases h

theorem publishStep_cases {g : GateId} (h : s.publishStep g = some s') :
    ∃ guest, (s.gates g).current = some (.stored, guest) ∧
      s' = s.setGate g { s.gates g with current := some (.published, guest) } := by
  unfold System.publishStep at h
  split at h
  · rename_i guest hc
    exact ⟨guest, hc, (Option.some.inj h).symm⟩
  · cases h

theorem clearStep_cases {g : GateId} (h : s.clearStep g = some s') :
    ∃ guest, (s.gates g).current = some (.published, guest) ∧
      s' = s.setGate g { s.gates g with current := none } := by
  unfold System.clearStep at h
  split at h
  · rename_i guest hc
    exact ⟨guest, hc, (Option.some.inj h).symm⟩
  · cases h

/-- A restart reads all unprocessed rows. -/
theorem restartStep_cases {rows : List Arrival} (h : s.restartStep cfg rows = some s') :
    rows.Perm s.db.pending ∧ rows.Pairwise (fun a b => a.queuedAt ≤ b.queuedAt) ∧
      s' = ⟨s.db.modify (Arrival.requeue cfg) (Arrival.requeue_id cfg), rehydrate cfg rows, []⟩ := by
  unfold System.restartStep at h
  split at h
  · rename_i hc
    exact ⟨hc.1, hc.2, (Option.some.inj h).symm⟩
  · cases h

/-! ## Choice of a gate -/

/-- The gate exists and lets the guest in. -/
def Allowed (cfg : Config) (t : Traveller) (g : GateId) : Prop :=
  g ∈ cfg.gateIds ∧ (t.passportType = .nonEU → g.type = .ALL)

/-- The gate is a configured one of the type. -/
theorem shortestQueueGate_spec {gates : Gates} {type : GateType} {g : GateId}
    (h : shortestQueueGate cfg gates type = some g) : g ∈ cfg.gateIds ∧ g.type = type := by
  have hmem := List.argmin_mem h
  rw [List.mem_filter] at hmem
  exact ⟨hmem.1, of_decide_eq_true hmem.2⟩

/-- The gate is one for the passport. -/
theorem chooseGate_allowed {gates : Gates} {t : Traveller} {g : GateId}
    (h : chooseGate cfg gates t = some g) : Allowed cfg t g := by
  unfold chooseGate at h
  cases hp : t.passportType with
  | EU =>
    rw [hp] at h
    obtain ⟨euGate, heu, h⟩ := Option.bind_eq_some_iff.1 h
    obtain ⟨allGate, hall, h⟩ := Option.bind_eq_some_iff.1 h
    refine ⟨?_, fun hne => absurd (hp.symm.trans hne) nofun⟩
    split_ifs at h
    · exact Option.some.inj h ▸ (shortestQueueGate_spec hall).1
    · exact Option.some.inj h ▸ (shortestQueueGate_spec heu).1
  | nonEU =>
    rw [hp] at h
    have := shortestQueueGate_spec h
    exact ⟨this.1, fun _ => this.2⟩

/-! ## Rows -/

/-- `id` is the primary key. -/
theorem Db.row_unique (db : Db) {a b : Arrival} (ha : a ∈ db.rows) (hb : b ∈ db.rows)
    (h : a.id = b.id) : a = b :=
  List.inj_on_of_nodup_map db.key ha hb h

/-- The rows agree on all that does not change in the life of an arrival. -/
structure Arrival.SameGuest (a b : Arrival) : Prop where
  /-- The same row. -/
  id : a.id = b.id
  /-- Of the same guest. -/
  traveller : a.traveller = b.traveller
  /-- At the same gate. -/
  gate : a.gate = b.gate
  /-- Since the same time. -/
  queuedAt : a.queuedAt = b.queuedAt

theorem startIf_sameGuest (id : ℕ) (row : Arrival) : (row.startIf id).SameGuest row := by
  unfold Arrival.startIf
  split_ifs
  · exact ⟨rfl, rfl, rfl, rfl⟩
  · exact ⟨rfl, rfl, rfl, rfl⟩

theorem finishIf_sameGuest (id : ℕ) (p w : ℚ) (row : Arrival) :
    (row.finishIf id p w).SameGuest row := by
  unfold Arrival.finishIf
  split_ifs
  · exact ⟨rfl, rfl, rfl, rfl⟩
  · exact ⟨rfl, rfl, rfl, rfl⟩

/-- A restart changes the status only. -/
theorem requeue_sameGuest (cfg : Config) (row : Arrival) : (row.requeue cfg).SameGuest row := by
  unfold Arrival.requeue
  split_ifs
  · exact ⟨rfl, rfl, rfl, rfl⟩
  · exact ⟨rfl, rfl, rfl, rfl⟩

/-- Processed rows stay so. -/
theorem finishIf_processed {id : ℕ} {p w : ℚ} {row : Arrival} (h : row.status = .processed) :
    (row.finishIf id p w).status = .processed := by
  unfold Arrival.finishIf
  split_ifs
  · rfl
  · exact h

theorem requeue_processed_iff (row : Arrival) :
    (row.requeue cfg).status = .processed ↔ row.status = .processed := by
  unfold Arrival.requeue
  split_ifs with hc
  · simp [hc.2]
  · exact Iff.rfl

/-- A guest in memory and the row of the guest. -/
def Mirrors (db : Db) (guest : Guest) (g : GateId) (status : Status) : Prop :=
  ∃ row ∈ db.rows, row.id = guest.arrivalId ∧ row.traveller = guest.traveller ∧ row.gate = g ∧
    row.queuedAt = guest.queuedAt ∧ row.status = status

/-- A new row does not disturb the copies of others. -/
theorem Mirrors.insert {db : Db} {guest : Guest} {g : GateId} {status : Status}
    (h : Mirrors db guest g status) (row : ℕ → Arrival) (hid : ∀ n, (row n).id = n) :
    Mirrors (db.insert row hid) guest g status := by
  obtain ⟨r, hr, hrest⟩ := h
  exact ⟨r, List.mem_append_left _ hr, hrest⟩

theorem startIf_of_ne {id : ℕ} {row : Arrival} (h : row.id ≠ id) : row.startIf id = row := if_neg h

theorem finishIf_of_ne {id : ℕ} {p w : ℚ} {row : Arrival} (h : row.id ≠ id) :
    row.finishIf id p w = row := if_neg h

/-- The update of a row makes its copy one that is being processed. -/
theorem Mirrors.start {db : Db} {guest : Guest} {g : GateId} {status : Status}
    (h : Mirrors db guest g status) :
    Mirrors (db.modify (Arrival.startIf guest.arrivalId) (Arrival.startIf_id _)) guest g
      .processing := by
  obtain ⟨r, hr, hid, ht, hg, hq, -⟩ := h
  exact ⟨r.startIf guest.arrivalId, List.mem_map_of_mem hr,
    by simp only [Arrival.startIf, hid, if_true, ht, hg, hq, and_self]⟩

/-- And then a processed one. -/
theorem Mirrors.finish {db : Db} {guest : Guest} {g : GateId} {status : Status}
    (h : Mirrors db guest g status) (now w : ℚ) :
    Mirrors (db.modify (Arrival.finishIf guest.arrivalId now w) (Arrival.finishIf_id _ _ _))
      (guest.finish now) g .processed := by
  obtain ⟨r, hr, hid, ht, hg, hq, -⟩ := h
  exact ⟨r.finishIf guest.arrivalId now w, List.mem_map_of_mem hr,
    by simp only [Arrival.finishIf, Guest.finish, hid, if_true, ht, hg, hq, and_self]⟩

/-! ## Rehydration -/

/-- The guest that a pending row becomes. -/
def Arrival.rehydrated (row : Arrival) : Guest := { row.dump with status := .queued }

theorem rehydrated_of_queued {row : Arrival} (h : row.status = .queued) : row.dump = row.rehydrated := by
  simp only [Arrival.rehydrated, Arrival.dump, h]

theorem mem_pending {db : Db} {row : Arrival} :
    row ∈ db.pending ↔ row ∈ db.rows ∧ row.status ≠ .processed := by
  simp [Db.pending]

theorem rehydrateRow_current (gates : Gates) (row : Arrival) (g : GateId) :
    (rehydrateRow cfg gates row g).current = (gates g).current := by
  unfold rehydrateRow
  split_ifs
  · by_cases h : g = row.gate
    · subst h
      rw [Function.update_self]
    · rw [Function.update_of_ne h]
  · by_cases h : g = row.gate
    · subst h
      rw [Function.update_self]
      rfl
    · rw [Function.update_of_ne h]
  · rfl

/-- A row goes into the queue of its gate. -/
theorem rehydrateRow_queue (gates : Gates) {row : Arrival} (hgate : row.gate ∈ cfg.gateIds)
    (hstatus : row.status ≠ .processed) (g : GateId) :
    ((rehydrateRow cfg gates row g).queue).Perm
      (if row.gate = g then row.rehydrated :: (gates g).queue else (gates g).queue) := by
  unfold rehydrateRow
  rw [if_pos hgate]
  by_cases h : row.gate = g
  · subst h
    rw [if_pos rfl]
    split_ifs with hp
    · rw [Function.update_self]
      exact List.Perm.refl _
    · rw [Function.update_self]
      have hq : row.status = .queued := by
        cases hs : row.status
        · rfl
        · exact absurd hs hp
        · exact absurd hs hstatus
      rw [← rehydrated_of_queued hq]
      exact StableQueue.insert_perm _ _
  · rw [if_neg h]
    split_ifs with hp
    · rw [Function.update_of_ne (Ne.symm h)]
    · rw [Function.update_of_ne (Ne.symm h)]

/-- After a restart no worker has anybody. -/
theorem rehydrate_current (rows : List Arrival) (g : GateId) : (rehydrate cfg rows g).current = none := by
  have hgen : ∀ (rows : List Arrival) (gates : Gates),
      (rows.foldl (rehydrateRow cfg) gates g).current = (gates g).current := by
    intro rows
    induction rows with
    | nil => exact fun _ => rfl
    | cons row rows ih =>
      intro gates
      rw [List.foldl_cons, ih, rehydrateRow_current]
  exact hgen rows _

/-- The loop puts every row into the queue of its gate, once. -/
theorem rehydrate_queue {rows : List Arrival}
    (h : ∀ row ∈ rows, row.gate ∈ cfg.gateIds ∧ row.status ≠ .processed) (g : GateId) :
    ((rehydrate cfg rows g).queue).Perm
      ((rows.filter fun row => row.gate = g).map Arrival.rehydrated) := by
  have hgen : ∀ (rows : List Arrival) (gates : Gates),
      (∀ row ∈ rows, row.gate ∈ cfg.gateIds ∧ row.status ≠ .processed) →
      ((rows.foldl (rehydrateRow cfg) gates g).queue).Perm
        ((rows.filter fun row => row.gate = g).map Arrival.rehydrated ++ (gates g).queue) := by
    intro rows
    induction rows with
    | nil => exact fun _ _ => List.Perm.refl _
    | cons row rows ih =>
      intro gates hrows
      have hrow := hrows row List.mem_cons_self
      rw [List.foldl_cons]
      refine (ih _ fun r hr => hrows r (List.mem_cons_of_mem row hr)).trans ?_
      refine ((rehydrateRow_queue gates hrow.1 hrow.2 g).append_left _).trans ?_
      by_cases hg : row.gate = g
      · rw [if_pos hg, List.filter_cons_of_pos (by simpa using hg), List.map_cons, List.cons_append]
        exact List.perm_middle
      · rw [if_neg hg, List.filter_cons_of_neg (by simpa using hg)]
  have := hgen rows (fun _ => Gate.empty) h
  rwa [show (Gate.empty).queue = [] from rfl, List.append_nil] at this

end Airport
