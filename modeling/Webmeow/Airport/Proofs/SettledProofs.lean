import Webmeow.Airport.Proofs.OrderProofs

/-!
# Settled states

When no call is in progress and every worker is idle or waits out a delay, memory and table say the
same: the queue of a gate holds a copy of each of its queued rows, and its worker a copy of the row
that is being processed.
-/

namespace Airport

open Placement Runs

/-- The call has answered or raised. -/
def Call.isOver : Call → Bool
  | .done _ => true
  | .raised => true
  | _ => false

/-- No call is in progress, and every worker is idle or waits out the delay of a guest whose row is
committed as processing. -/
structure Settled (s : System) : Prop where
  /-- No call is under way. -/
  calls : ∀ call ∈ s.calls, call.isOver = true
  /-- A worker with a guest is asleep. -/
  workers : ∀ g stage guest, (s.gates g).current = some (stage, guest) → stage = .delayed

/-- The guest is a copy of a row. -/
def Copied (db : Db) (guest : Guest) : Prop := ∃ row ∈ db.rows, row.dump = guest

/-- The guests in memory are copies of their rows. A guest who has just been popped is ahead of the row. -/
structure Copies (s : System) : Prop where
  /-- The guests who are to be queued. -/
  calls : ∀ guest, Call.enqueue guest ∈ s.calls → Copied s.db guest
  /-- Those in the queues. -/
  queues : ∀ g, ∀ guest ∈ (s.gates g).queue, Copied s.db guest
  /-- A guest just taken is marked in memory first. -/
  popped : ∀ g guest, (s.gates g).current = some (.popped, guest) →
    ∃ row ∈ s.db.rows, { row.dump with status := .processing } = guest
  /-- The worker's guest, once the row says so, too. -/
  delayed : ∀ g guest, (s.gates g).current = some (.delayed, guest) → Copied s.db guest

variable {cfg : Config} {s s' : System}

/-! ## Copies -/

/-- A new row does not disturb the copies of others. -/
theorem Copied.insert {db : Db} {guest : Guest} (h : Copied db guest) (row : ℕ → Arrival)
    (hid : ∀ n, (row n).id = n) : Copied (db.insert row hid) guest := by
  obtain ⟨r, hr, hdump⟩ := h
  exact ⟨r, List.mem_append_left _ hr, hdump⟩

/-- A change of another row leaves the row of the guest. -/
theorem Copied.modify {db : Db} {guest : Guest} (h : Copied db guest) {f : Arrival → Arrival}
    (hid : ∀ row, (f row).id = row.id) {id : ℕ} (hf : ∀ row, row.id ≠ id → f row = row)
    (hne : guest.arrivalId ≠ id) : Copied (db.modify f hid) guest := by
  obtain ⟨r, hr, rfl⟩ := h
  exact ⟨r, List.mem_map.2 ⟨r, hr, hf r hne⟩, rfl⟩

theorem initial_copies : Copies System.initial where
  calls guest hc := absurd hc List.not_mem_nil
  queues g guest hg := absurd hg List.not_mem_nil
  popped g guest hc := by cases hc
  delayed g guest hc := by cases hc

/-- A call that goes on without a guest. -/
theorem copies_setCall (h : Copies s) {i : ℕ} {call : Call} (hcall : call.guest = none) :
    Copies (s.setCall i call) := by
  refine ⟨fun guest hc => ?_, h.queues, h.popped, h.delayed⟩
  rcases List.mem_or_eq_of_mem_set hc with hc | rfl
  · exact h.calls guest hc
  · cases hcall

/-- The copy is made of the new row. -/
theorem copies_commit (h : Copies s) {i : ℕ} (hs : s.commitStep i = some s') : Copies s' := by
  obtain ⟨t, g, now, hi, rfl⟩ := commitStep_cases hs
  have hid := newRow_id t g now
  refine ⟨fun guest hc => ?_, fun g' guest hg => (h.queues g' guest hg).insert _ hid,
    fun g' guest hc => ?_, fun g' guest hc => (h.delayed g' guest hc).insert _ hid⟩
  · rcases List.mem_or_eq_of_mem_set hc with hc | hc
    · exact (h.calls guest hc).insert _ hid
    · cases hc
      exact ⟨newRow t g now s.db.nextId, List.mem_append_right _ (List.mem_singleton_self _), rfl⟩
  · obtain ⟨row, hrow, hdump⟩ := h.popped g' guest hc
    exact ⟨row, List.mem_append_left _ hrow, hdump⟩

theorem copies_enqueue (h : Copies s) {i : ℕ} (hs : s.enqueueStep i = some s') : Copies s' := by
  obtain ⟨guest, hi, rfl⟩ := enqueueStep_cases hs
  have hnew := h.calls guest (List.mem_of_getElem? hi)
  refine copies_setCall (s := s.setGate guest.gate ((s.gates guest.gate).enqueue guest).1)
    ⟨h.calls, fun g x hx => ?_, fun g x hc => ?_, fun g x hc => ?_⟩ rfl
  · rcases mem_setGate_queue hx with ⟨-, hx⟩ | ⟨-, hx⟩
    · rcases StableQueue.mem_insert.1 hx with rfl | hx
      · exact hnew
      · exact h.queues _ x hx
    · exact h.queues g x hx
  · rcases setGate_current hc with ⟨-, hc⟩ | ⟨-, hc⟩
    · exact h.popped _ x hc
    · exact h.popped g x hc
  · rcases setGate_current hc with ⟨-, hc⟩ | ⟨-, hc⟩
    · exact h.delayed _ x hc
    · exact h.delayed g x hc

/-- The copy is marked before the row. -/
theorem copies_pop (h : Copies s) {g : GateId} (hs : s.popStep g = some s') : Copies s' := by
  obtain ⟨guest, queue, -, hq, rfl⟩ := popStep_cases hs
  refine ⟨h.calls, fun g' x hx => ?_, fun g' x hc => ?_, fun g' x hc => ?_⟩
  · rcases mem_setGate_queue hx with ⟨-, hx⟩ | ⟨-, hx⟩
    · exact h.queues g x (by rw [hq]; exact List.mem_cons_of_mem guest hx)
    · exact h.queues g' x hx
  · rcases setGate_current hc with ⟨-, hc⟩ | ⟨-, hc⟩
    · cases hc
      obtain ⟨row, hrow, rfl⟩ := h.queues g guest (by rw [hq]; exact List.mem_cons_self)
      exact ⟨row, hrow, rfl⟩
    · exact h.popped g' x hc
  · rcases setGate_current hc with ⟨-, hc⟩ | ⟨-, hc⟩
    · cases hc
    · exact h.delayed g' x hc

/-- The worker goes on with its guest and changes at most the row of the guest. -/
theorem copies_setCurrent (hinv : Inv cfg s) (h : Copies s) {g : GateId} {stage : Stage}
    {guest : Guest} (hcur : (s.gates g).current = some (stage, guest)) {f : Arrival → Arrival}
    (hid : ∀ row, (f row).id = row.id) (hf : ∀ row, row.id ≠ guest.arrivalId → f row = row)
    {c : Option (Stage × Guest)} (hpopped : ∀ x, c ≠ some (.popped, x))
    (hdelayed : ∀ x, c = some (.delayed, x) → Copied (s.db.modify f hid) x) :
    Copies ((s.modifyRows f hid).setGate g { s.gates g with current := c }) := by
  -- every other guest in memory is another arrival
  have hne : ∀ (x : Guest) (p : Place), p ≠ .processing g → 0 < s.occurrences x.arrivalId p →
      x.arrivalId ≠ guest.arrivalId := by
    intro x p hp hpos he
    rw [he] at hpos
    exact hp (hinv.current_place hcur hpos)
  refine ⟨fun x hc => ?_, fun g' x hx => ?_, fun g' x hc => ?_, fun g' x hc => ?_⟩
  · obtain ⟨i, hi⟩ := List.mem_iff_getElem?.1 hc
    exact (h.calls x hc).modify hid hf
      (hne x (.call i) (by simp) (occurrences_call_pos.2 ⟨x, hi, rfl⟩))
  · have hx' : x ∈ (s.gates g').queue := by
      rcases mem_setGate_queue hx with ⟨rfl, hx⟩ | ⟨-, hx⟩
      · exact hx
      · exact hx
    exact (h.queues g' x hx').modify hid hf
      (hne x (.queue g') (by simp) (occurrences_queue_pos.2 ⟨x, hx', rfl⟩))
  · rcases setGate_current (s := s.modifyRows f hid) hc with ⟨-, hc⟩ | ⟨hg, hc⟩
    · exact absurd hc (hpopped x)
    · obtain ⟨row, hrow, hdump⟩ := h.popped g' x hc
      have hxne := hne x (.processing g') (by simpa using hg)
        (occurrences_processing_pos.2 ⟨_, x, hc, rfl⟩)
      refine ⟨row, List.mem_map.2 ⟨row, hrow, hf row ?_⟩, hdump⟩
      rw [← hdump] at hxne
      exact hxne
  · rcases setGate_current (s := s.modifyRows f hid) hc with ⟨-, hc⟩ | ⟨hg, hc⟩
    · exact hdelayed x hc
    · exact (h.delayed g' x hc).modify hid hf
        (hne x (.processing g') (by simpa using hg) (occurrences_processing_pos.2 ⟨_, x, hc, rfl⟩))

/-- Then the row is. -/
theorem copies_commitProcessing (hinv : Inv cfg s) (h : Copies s) {g : GateId}
    (hs : s.commitProcessingStep g = some s') : Copies s' := by
  obtain ⟨guest, hc, rfl⟩ := commitProcessingStep_cases hs
  refine copies_setCurrent hinv h hc (Arrival.startIf_id _) (fun row => startIf_of_ne)
    (fun x he => by cases he) fun x he => ?_
  cases he
  obtain ⟨row, hrow, rfl⟩ := h.popped g guest hc
  exact ⟨row.startIf row.id, List.mem_map_of_mem hrow, by rw [Arrival.startIf, if_pos rfl]; rfl⟩

/-- A processed guest needs no copy. -/
theorem copies_commitProcessed (hinv : Inv cfg s) (h : Copies s) {g : GateId} {now : ℚ}
    (hs : s.commitProcessedStep g now = some s') : Copies s' := by
  obtain ⟨guest, hc, rfl⟩ := commitProcessedStep_cases hs
  exact copies_setCurrent hinv h hc (Arrival.finishIf_id _ _ _) (fun row => finishIf_of_ne)
    (fun x he => by cases he) (fun x he => by cases he)

/-- A worker that is past the delay. -/
theorem copies_clearCurrent (h : Copies s) {g : GateId} {c : Option (Stage × Guest)}
    (hc : ∀ stage x, c = some (stage, x) → stage.rowStatus = .processed) :
    Copies (s.setGate g { s.gates g with current := c }) := by
  refine ⟨h.calls, fun g' x hx => ?_, fun g' x hx => ?_, fun g' x hx => ?_⟩
  · rcases mem_setGate_queue hx with ⟨rfl, hx⟩ | ⟨-, hx⟩
    · exact h.queues g' x hx
    · exact h.queues g' x hx
  · rcases setGate_current hx with ⟨-, hx⟩ | ⟨-, hx⟩
    · cases hc _ _ hx
    · exact h.popped g' x hx
  · rcases setGate_current hx with ⟨-, hx⟩ | ⟨-, hx⟩
    · cases hc _ _ hx
    · exact h.delayed g' x hx

/-- What a rehydration puts into the queues are copies of the rows that it leaves. -/
theorem requeue_dump {row : Arrival} (hgate : row.gate ∈ cfg.gateIds) (hst : row.status ≠ .processed) :
    (row.requeue cfg).dump = row.rehydrated := by
  unfold Arrival.requeue Arrival.rehydrated Arrival.dump
  cases hs : row.status with
  | queued => simp [hs]
  | processing => simp [hgate]
  | processed => exact absurd hs hst

theorem copies_restart (hinv : Inv cfg s) {rows : List Arrival}
    (hs : s.restartStep cfg rows = some s') : Copies s' := by
  obtain ⟨hperm, -, rfl⟩ := restartStep_cases hs
  have hmem : ∀ row ∈ rows, row ∈ s.db.rows ∧ row.status ≠ .processed := fun row hrow =>
    mem_pending.1 (hperm.mem_iff.1 hrow)
  have hok : ∀ row ∈ rows, row.gate ∈ cfg.gateIds ∧ row.status ≠ .processed := fun row hrow =>
    ⟨(hinv.rows row (hmem row hrow).1).1, (hmem row hrow).2⟩
  have hnone : ∀ g c, (rehydrate cfg rows g).current = some c → False := by
    intro g c hc
    rw [rehydrate_current] at hc
    cases hc
  refine ⟨fun guest hc => absurd hc List.not_mem_nil, fun g guest hg => ?_,
    fun g guest hc => (hnone g _ hc).elim, fun g guest hc => (hnone g _ hc).elim⟩
  obtain ⟨row, hrow, rfl⟩ := List.mem_map.1 ((rehydrate_queue hok g).mem_iff.1 hg)
  have hrow := (List.mem_filter.1 hrow).1
  exact ⟨row.requeue cfg, List.mem_map_of_mem (hmem row hrow).1,
    requeue_dump (hok row hrow).1 (hok row hrow).2⟩

/-- **The guests stay copies of their rows.** -/
theorem step_copies (s : System) (e : Event) (s' : System) (h : Inv cfg s ∧ Copies s)
    (hs : s.step cfg e = some s') : Inv cfg s' ∧ Copies s' := by
  obtain ⟨hinv, h⟩ := h
  refine ⟨step_inv s e s' hinv hs, ?_⟩
  cases e with
  | arrive t =>
    cases hs
    refine ⟨fun guest hc => ?_, h.queues, h.popped, h.delayed⟩
    rcases List.mem_append.1 hc with hc | hc
    · exact h.calls guest hc
    · cases List.mem_singleton.1 hc
  | choose i now =>
    obtain ⟨t, -, rfl | ⟨g, -, rfl⟩⟩ := chooseStep_cases hs
    · exact copies_setCall h rfl
    · exact copies_setCall h rfl
  | commit i => exact copies_commit h hs
  | enqueue i => exact copies_enqueue h hs
  | respond i =>
    obtain ⟨guest, position, answer, -, rfl⟩ := respondStep_cases hs
    exact copies_setCall h rfl
  | pop g => exact copies_pop h hs
  | commitProcessing g => exact copies_commitProcessing hinv h hs
  | commitProcessed g now => exact copies_commitProcessed hinv h hs
  | publish g =>
    obtain ⟨guest, -, rfl⟩ := publishStep_cases hs
    exact copies_clearCurrent h fun stage x he => by cases he; rfl
  | clear g =>
    obtain ⟨guest, -, rfl⟩ := clearStep_cases hs
    exact copies_clearCurrent h fun stage x he => by cases he
  | restart rows => exact copies_restart hinv hs

/-- In every state of every run the invariant holds and the guests are copies of their rows. -/
theorem always_copies (cfg : Config) (es : List Event) :
    Always (System.step cfg) (fun s => Inv cfg s ∧ Copies s) System.initial es :=
  always_of_invariant step_copies ⟨initial_inv, initial_copies⟩

/-! ## Idle workers -/

/-- The gate whose worker takes a guest. -/
def Event.popped : Event → Option GateId
  | .pop g => some g
  | _ => none

theorem idle_setGate {g g' : GateId} {gate : Gate} (h : (s.gates g).current = none)
    (hgate : g = g' → gate.current = none) : ((s.setGate g' gate).gates g).current = none := by
  by_cases hg : g = g'
  · subst hg
    simpa [System.setGate] using hgate rfl
  · simpa [System.setGate, hg] using h

/-- An idle worker gets a guest only by a pop. -/
theorem step_idle {g : GateId} {e : Event} (h : (s.gates g).current = none)
    (hpop : e.popped ≠ some g) (hs : s.step cfg e = some s') : (s'.gates g).current = none := by
  have hbusy : ∀ {g' c}, (s.gates g').current = some c → g ≠ g' := by
    rintro g' c hc rfl
    rw [h] at hc
    cases hc
  cases e with
  | arrive t =>
    cases hs
    exact h
  | choose i now =>
    obtain ⟨t, -, rfl | ⟨g', -, rfl⟩⟩ := chooseStep_cases hs
    · exact h
    · exact h
  | commit i =>
    obtain ⟨t, g', now, -, rfl⟩ := commitStep_cases hs
    exact h
  | enqueue i =>
    obtain ⟨guest, -, rfl⟩ := enqueueStep_cases hs
    exact idle_setGate h fun hg => hg ▸ h
  | respond i =>
    obtain ⟨guest, position, answer, -, rfl⟩ := respondStep_cases hs
    exact h
  | pop g' =>
    obtain ⟨guest, queue, -, -, rfl⟩ := popStep_cases hs
    exact idle_setGate h fun hg => absurd (congrArg some hg.symm) hpop
  | commitProcessing g' =>
    obtain ⟨guest, hc, rfl⟩ := commitProcessingStep_cases hs
    exact idle_setGate h fun hg => absurd hg (hbusy hc)
  | commitProcessed g' now =>
    obtain ⟨guest, hc, rfl⟩ := commitProcessedStep_cases hs
    exact idle_setGate h fun hg => absurd hg (hbusy hc)
  | publish g' =>
    obtain ⟨guest, hc, rfl⟩ := publishStep_cases hs
    exact idle_setGate h fun hg => absurd hg (hbusy hc)
  | clear g' =>
    obtain ⟨guest, hc, rfl⟩ := clearStep_cases hs
    exact idle_setGate h fun hg => absurd hg (hbusy hc)
  | restart rows =>
    obtain ⟨-, -, rfl⟩ := restartStep_cases hs
    exact rehydrate_current rows g

/-- A worker who takes nobody has nobody. -/
theorem run_idle {g : GateId} {es : List Event} (h : (s.gates g).current = none)
    (hpop : ∀ e ∈ es, e.popped ≠ some g) (hr : run (System.step cfg) s es = some s') :
    (s'.gates g).current = none := by
  induction es generalizing s with
  | nil =>
    cases hr
    exact h
  | cons e es ih =>
    obtain ⟨u, hs, hr'⟩ := run_cons_iff.1 hr
    exact ih (step_idle h (hpop e List.mem_cons_self) hs)
      (fun e' he' => hpop e' (List.mem_cons_of_mem e he')) hr'

/-- The worker waits out a delay, or has no guest. -/
def Gate.waitsOut (gate : Gate) : Bool := gate.current.all fun c => decide (c.1 = .delayed)

/-- The calls are over, and every gate that has popped somebody waits out a delay. -/
theorem settled_of_run (cfg : Config) (es : List Event)
    (hr : run (System.step cfg) System.initial es = some s)
    (hpop : ∀ e ∈ es, ∀ g ∈ e.popped, (s.gates g).waitsOut = true)
    (hcalls : ∀ call ∈ s.calls, call.isOver = true) : Settled s := by
  refine ⟨hcalls, fun g stage guest hc => ?_⟩
  by_cases hg : ∃ e ∈ es, e.popped = some g
  · obtain ⟨e, he, hpopped⟩ := hg
    have hwaits := hpop e he g hpopped
    rw [Gate.waitsOut, hc] at hwaits
    exact of_decide_eq_true hwaits
  · have hnone := run_idle (s := System.initial) (g := g) rfl (fun e he hp => hg ⟨e, he, hp⟩) hr
    rw [hnone] at hc
    cases hc

/-! ## What a settled state holds -/

/-- An unprocessed row of a settled state is in its queue or with the worker of its gate. -/
theorem Settled.place_cases (hsettled : Settled s) (hinv : Inv cfg s) {row : Arrival}
    (hrow : row ∈ s.db.rows) (hst : row.status ≠ .processed) :
    (row.status = .queued ∧ ∃ guest ∈ (s.gates row.gate).queue, guest.arrivalId = row.id) ∨
      (row.status = .processing ∧
        ∃ guest, (s.gates row.gate).current = some (.delayed, guest) ∧ guest.arrivalId = row.id) := by
  obtain ⟨p, hp⟩ := hinv.total row hrow hst
  obtain ⟨r, hr, hid, hplace⟩ := hinv.row_of_pos hp
  rw [s.db.row_unique hr hrow hid] at hplace
  cases p with
  | call i =>
    obtain ⟨guest, hi, -⟩ := hplace
    have hover := hsettled.calls _ (List.mem_of_getElem? hi)
    cases hover
  | queue g =>
    obtain ⟨rfl, hqueued⟩ := hplace
    exact Or.inl ⟨hqueued, occurrences_queue_pos.1 hp⟩
  | processing g =>
    obtain ⟨rfl, stage, guest, hc, hstage⟩ := hplace
    obtain ⟨stage', guest', hc', hid'⟩ := occurrences_processing_pos.1 hp
    rw [hc] at hc'
    cases hc'
    obtain rfl := hsettled.workers _ _ _ hc
    exact Or.inr ⟨hstage, guest, hc, hid'⟩

/-- A guest of a queue is a copy of a queued row of the gate. -/
theorem Copies.queue_row (hinv : Inv cfg s) (h : Copies s) {g : GateId} {guest : Guest}
    (hg : guest ∈ (s.gates g).queue) :
    ∃ row ∈ s.db.rows, row.dump = guest ∧ row.gate = g ∧ row.status = .queued := by
  obtain ⟨row, hrow, rfl⟩ := h.queues g guest hg
  obtain ⟨r, hr, hid, -, hgate, -, hst⟩ := hinv.queues g _ hg
  rw [s.db.row_unique hr hrow hid] at hgate hst
  exact ⟨row, hrow, rfl, hgate, hst⟩

/-- The guest of a worker is a copy of a row of the gate that is being processed. -/
theorem Copies.current_row (hinv : Inv cfg s) (h : Copies s) {g : GateId} {guest : Guest}
    (hc : (s.gates g).current = some (.delayed, guest)) :
    ∃ row ∈ s.db.rows, row.dump = guest ∧ row.gate = g ∧ row.status = .processing := by
  obtain ⟨row, hrow, rfl⟩ := h.delayed g guest hc
  obtain ⟨r, hr, hid, -, hgate, -, hst⟩ := hinv.current g _ _ hc
  rw [s.db.row_unique hr hrow hid] at hgate hst
  exact ⟨row, hrow, rfl, hgate, hst⟩

/-- No arrival is in a queue twice. -/
theorem Inv.queue_nodup (hinv : Inv cfg s) (g : GateId) :
    ((s.gates g).queue.map Guest.arrivalId).Nodup := by
  rw [List.nodup_iff_count_le_one]
  intro id
  have hcount : ((s.gates g).queue.map Guest.arrivalId).count id = s.occurrences id (.queue g) := by
    rw [List.count, List.countP_map]
    exact List.countP_congr fun guest _ => by simp [beq_iff_eq]
  rw [hcount]
  rcases hinv.once id with hno | ⟨p, hp⟩
  · rw [hno]
    exact Nat.zero_le 1
  · rw [hp]
    split_ifs
    · exact le_rfl
    · exact Nat.zero_le 1

end Airport
