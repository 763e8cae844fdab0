import Webmeow.Airport.Proofs.ViewProofs
import Webmeow.Lib.Draining

/-!
# The airport drains

Without further arrivals and crashes every step of a call or of a worker leaves less to do, in whatever
order they come, and some step is possible as long as anybody waits. So everybody who has arrived is
processed, from every state of every run.
-/

namespace Airport

open Runs

/-! ## What is left to do -/

/-- A guest in a queue costs a worker five steps. -/
def Call.work : Call → ℕ
  | .choose _ => 9
  | .commit _ _ _ => 8
  | .enqueue _ => 7
  | .respond _ _ => 1
  | .done _ => 0
  | .raised => 0

/-- The steps of a worker that are left. -/
def Stage.work : Stage → ℕ
  | .popped => 4
  | .delayed => 3
  | .stored => 2
  | .published => 1

/-- The steps that a worker has still to take. -/
def Gate.work (gate : Gate) : ℕ :=
  5 * gate.queue.length + (gate.current.map fun c => c.1.work).getD 0

/-- The steps that are left to calls and workers, at most. -/
def System.work (cfg : Config) (s : System) : ℕ :=
  (s.calls.map Call.work).sum + (cfg.gateIds.map fun g => (s.gates g).work).sum

/-- A step of a call or of a worker. -/
def Event.isOwn : Event → Bool
  | .arrive _ => false
  | .restart _ => false
  | _ => true

/-- The row is processed, and its wait is the time from the arrival to the end of the processing. -/
def Arrival.Finished (row : Arrival) : Prop :=
  row.status = .processed ∧
    ∃ now, row.processedAt = some now ∧ row.waitTimeSeconds = some (now - row.queuedAt)

/-- Nobody is anywhere on the way, and every row is finished. -/
structure System.Drained (cfg : Config) (s : System) : Prop where
  /-- Every call has answered or raised. -/
  calls : ∀ call ∈ s.calls, call.isOver = true
  /-- Nobody waits, and no worker has anybody. -/
  gates : ∀ g ∈ cfg.gateIds, s.gates g = Gate.empty
  /-- Every row is processed. -/
  rows : ∀ row ∈ s.db.rows, row.Finished

/-- The rows are still there, with the same guests. -/
def System.Keeps (s s' : System) : Prop := ∀ row ∈ s.db.rows, ∃ row' ∈ s'.db.rows, row'.SameGuest row

/-- What becomes of a state that is left to its calls and workers. -/
structure System.Drains (cfg : Config) (s : System) : Prop where
  /-- They cannot go on for ever. -/
  bounded : ∀ es s', (∀ e ∈ es, e.isOwn = true) → run (System.step cfg) s es = some s' →
    es.length + s'.work cfg ≤ s.work cfg
  /-- Where none of them can go on, everybody has been processed and nobody has been lost. -/
  stuck : ∀ es s', (∀ e ∈ es, e.isOwn = true) → run (System.step cfg) s es = some s' →
    (∀ e, e.isOwn = true → s'.step cfg e = none) → s'.Drained cfg ∧ s.Keeps s'
  /-- They can get there. -/
  reached : ∃ es s', run (System.step cfg) s es = some s' ∧ (∀ e ∈ es, e.isOwn = true) ∧
    s'.Drained cfg

section Sums

variable (cfg : Config) (s : System)

/-- The step of a call. -/
theorem work_setCall {i : ℕ} {call : Call} (hi : s.calls[i]? = some call) (call' : Call) :
    (s.setCall i call').work cfg + call.work = s.work cfg + call'.work := by
  have hsum : ((s.calls.set i call').map Call.work).sum + call.work =
      (s.calls.map Call.work).sum + call'.work := by
    generalize s.calls = calls at hi
    induction calls generalizing i with
    | nil => cases hi
    | cons c calls ih =>
      cases i with
      | zero =>
        cases hi
        simp only [List.set_cons_zero, List.map_cons, List.sum_cons]
        omega
      | succ i =>
        have hrest := ih hi
        simp only [List.set_cons_succ, List.map_cons, List.sum_cons] at hrest ⊢
        omega
  show ((s.calls.set i call').map Call.work).sum + _ + call.work = (s.calls.map Call.work).sum + _ + _
  show _ + (cfg.gateIds.map fun g => (s.gates g).work).sum + _ = _ + _ + _
  omega

/-- A gate of the configuration changes. -/
theorem work_setGate {cfg : Config} {g : GateId} (hg : g ∈ cfg.gateIds) (gate : Gate) :
    (s.setGate g gate).work cfg + (s.gates g).work = s.work cfg + gate.work := by
  have hgates : (cfg.gateIds.map fun g' => (Function.update s.gates g gate g').work).sum +
      (s.gates g).work = (cfg.gateIds.map fun g' => (s.gates g').work).sum + gate.work := by
    have hsum := Keyed.sum_map_update cfg.gateIds_nodup hg (Gate.work ∘ s.gates) gate.work
    rwa [← Function.comp_update] at hsum
  show (s.calls.map Call.work).sum + (cfg.gateIds.map fun g' =>
    (Function.update s.gates g gate g').work).sum + _ = (s.calls.map Call.work).sum + _ + _
  omega

/-- The worker of a gate of the configuration goes on. -/
theorem work_setCurrent {cfg : Config} {s : System} {g : GateId} (hg : g ∈ cfg.gateIds) {stage : Stage} {guest : Guest}
    (hc : (s.gates g).current = some (stage, guest)) {c : Option (Stage × Guest)}
    (hless : (c.map fun c => c.1.work).getD 0 < stage.work) :
    (s.setGate g { s.gates g with current := c }).work cfg < s.work cfg := by
  have hset := work_setGate s hg { s.gates g with current := c }
  have hold : (s.gates g).work = 5 * (s.gates g).queue.length + stage.work := by
    rw [Gate.work, hc]
    rfl
  have hnew : Gate.work { s.gates g with current := c } =
      5 * (s.gates g).queue.length + (c.map fun c => c.1.work).getD 0 := rfl
  omega

end Sums

/-! ## One step -/

section Steps

variable {cfg : Config} {s s' : System}

/-- Guests are at configured gates only. -/
theorem Mirrors.gate_mem (hinv : Inv cfg s) {guest : Guest} {g : GateId} {status : Status}
    (h : Mirrors s.db guest g status) : g ∈ cfg.gateIds := by
  obtain ⟨row, hrow, -, -, hg, -⟩ := h
  exact hg ▸ (hinv.rows row hrow).1

theorem Inv.current_mem (hinv : Inv cfg s) {g : GateId} {stage : Stage} {guest : Guest}
    (hc : (s.gates g).current = some (stage, guest)) : g ∈ cfg.gateIds :=
  (hinv.current g stage guest hc).gate_mem hinv

/-- The calls make progress. -/
theorem work_enqueueStep (hinv : Inv cfg s) {i : ℕ} (h : s.enqueueStep i = some s') :
    s'.work cfg < s.work cfg := by
  obtain ⟨guest, hi, rfl⟩ := enqueueStep_cases h
  have hg := (hinv.calls guest (List.mem_of_getElem? hi)).gate_mem hinv
  have hgate := work_setGate s hg ((s.gates guest.gate).enqueue guest).1
  have hlength : ((s.gates guest.gate).enqueue guest).1.work = (s.gates guest.gate).work + 5 := by
    show 5 * (StableQueue.insert Guest.rank guest (s.gates guest.gate).queue).length + _ =
      5 * (s.gates guest.gate).queue.length + _ + 5
    rw [(StableQueue.insert_perm _ _).length_eq, List.length_cons]
    show 5 * _ + ((s.gates guest.gate).current.map fun c => c.1.work).getD 0 = _
    omega
  have hcall := work_setCall cfg (s.setGate guest.gate ((s.gates guest.gate).enqueue guest).1) hi
    (.respond guest ((s.gates guest.gate).enqueue guest).2)
  simp only [Call.work] at hcall
  omega

/-- The worker of a gate takes the next guest. -/
theorem work_popStep (hinv : Inv cfg s) {g : GateId} (h : s.popStep g = some s') :
    s'.work cfg < s.work cfg := by
  obtain ⟨guest, queue, hc, hq, rfl⟩ := popStep_cases h
  have hg := (hinv.queues g guest (hq ▸ List.mem_cons_self)).gate_mem hinv
  have hgate := work_setGate s hg ⟨queue, some (.popped, { guest with status := .processing })⟩
  have hold : (s.gates g).work = 5 * (queue.length + 1) := by
    rw [Gate.work, hc, hq]
    rfl
  have hnew : Gate.work ⟨queue, some (.popped, { guest with status := .processing })⟩ =
      5 * queue.length + 4 := rfl
  omega

/-- **Progress**: every step of a call or of a worker leaves less to do. -/
theorem work_step (hinv : Inv cfg s) {e : Event} (hown : e.isOwn) (h : s.step cfg e = some s') :
    s'.work cfg < s.work cfg := by
  cases e with
  | arrive t => cases hown
  | restart rows => cases hown
  | choose i now =>
    obtain ⟨t, hi, rfl | ⟨g, -, rfl⟩⟩ := chooseStep_cases h
    · have hcall := work_setCall cfg s hi .raised
      simp only [Call.work] at hcall
      omega
    · have hcall := work_setCall cfg s hi (.commit t g now)
      simp only [Call.work] at hcall
      omega
  | commit i =>
    obtain ⟨t, g, now, hi, rfl⟩ := commitStep_cases h
    have hcall := work_setCall cfg (s.addRow t g now) hi
      (.enqueue (newRow t g now s.db.nextId).dump)
    have hrow : (s.addRow t g now).work cfg = s.work cfg := rfl
    simp only [Call.work] at hcall
    omega
  | enqueue i => exact work_enqueueStep hinv h
  | respond i =>
    obtain ⟨guest, position, answer, hi, rfl⟩ := respondStep_cases h
    have hcall := work_setCall cfg s hi (.done answer)
    simp only [Call.work] at hcall
    omega
  | pop g => exact work_popStep hinv h
  | commitProcessing g =>
    obtain ⟨guest, hc, rfl⟩ := commitProcessingStep_cases h
    exact work_setCurrent (hinv.current_mem hc) hc (c := some (.delayed, guest))
      Nat.le.refl
  | commitProcessed g now =>
    obtain ⟨guest, hc, rfl⟩ := commitProcessedStep_cases h
    exact work_setCurrent (hinv.current_mem hc) hc (c := some (.stored, guest.finish now))
      Nat.le.refl
  | publish g =>
    obtain ⟨guest, hc, rfl⟩ := publishStep_cases h
    exact work_setCurrent (hinv.current_mem hc) hc Nat.le.refl
  | clear g =>
    obtain ⟨guest, hc, rfl⟩ := clearStep_cases h
    exact work_setCurrent (hinv.current_mem hc) hc Nat.le.refl

/-- A call that is not over can go on. -/
theorem call_goes_on (cfg : Config) {call : Call} (hmem : call ∈ s.calls)
    (hover : ¬call.isOver = true) : ∃ e : Event, e.isOwn = true ∧ (s.step cfg e).isSome := by
  obtain ⟨i, hi⟩ := List.getElem?_of_mem hmem
  cases call with
  | choose t =>
    refine ⟨.choose i 0, rfl, ?_⟩
    simp only [System.step, System.chooseStep, hi]
    cases chooseGate cfg s.gates t with
    | none => rfl
    | some g => rfl
  | commit t g now =>
    exact ⟨.commit i, rfl, by simp [System.step, System.commitStep, hi]⟩
  | enqueue guest =>
    exact ⟨.enqueue i, rfl, by simp [System.step, System.enqueueStep, hi]⟩
  | respond guest position =>
    exact ⟨.respond i, rfl, by simp [System.step, System.respondStep, hi]⟩
  | done answer => exact absurd rfl hover
  | raised => exact absurd rfl hover

/-- The worker of a gate with somebody there can go on. -/
theorem worker_goes_on (cfg : Config) {g : GateId} (hne : s.gates g ≠ Gate.empty) :
    ∃ e : Event, e.isOwn = true ∧ (s.step cfg e).isSome := by
  cases hc : (s.gates g).current with
  | none =>
    cases hq : (s.gates g).queue with
    | nil =>
      refine absurd ?_ hne
      show s.gates g = ⟨[], none⟩
      rw [← hc, ← hq]
    | cons guest queue =>
      exact ⟨.pop g, rfl, by simp [System.step, System.popStep, hc, hq]⟩
  | some c =>
    obtain ⟨stage, guest⟩ := c
    cases stage with
    | popped =>
      exact ⟨.commitProcessing g, rfl, by simp [System.step, System.commitProcessingStep, hc]⟩
    | delayed =>
      exact ⟨.commitProcessed g 0, rfl, by simp [System.step, System.commitProcessedStep, hc]⟩
    | stored =>
      exact ⟨.publish g, rfl, by simp [System.step, System.publishStep, hc]⟩
    | published =>
      exact ⟨.clear g, rfl, by simp [System.step, System.clearStep, hc]⟩

/-- **No deadlock**: as long as anybody is on the way, some call or worker can go on. -/
theorem someone_goes_on (hrest : ¬((∀ call ∈ s.calls, call.isOver = true) ∧
    ∀ g ∈ cfg.gateIds, s.gates g = Gate.empty)) :
    ∃ e : Event, e.isOwn = true ∧ (s.step cfg e).isSome := by
  by_cases hcalls : ∀ call ∈ s.calls, call.isOver = true
  · have hgate : ∃ g, s.gates g ≠ Gate.empty := by
      by_contra hnone
      exact hrest ⟨hcalls, fun g _ => by_contra fun hg => hnone ⟨g, hg⟩⟩
    obtain ⟨g, hg⟩ := hgate
    exact worker_goes_on cfg hg
  · obtain ⟨call, hcall⟩ := not_forall.1 hcalls
    obtain ⟨hmem, hover⟩ := Classical.not_imp.1 hcall
    exact call_goes_on cfg hmem hover

/-- Where nobody is on the way, every row is processed. -/
theorem processed_of_rest (hinv : Inv cfg s) (hcalls : ∀ call ∈ s.calls, call.isOver = true)
    (hgates : ∀ g ∈ cfg.gateIds, s.gates g = Gate.empty) {row : Arrival} (hrow : row ∈ s.db.rows) :
    row.status = .processed := by
  by_contra hst
  obtain ⟨p, hp⟩ := hinv.total row hrow hst
  cases p with
  | call i =>
    obtain ⟨guest, hi, -⟩ := occurrences_call_pos.1 hp
    cases hcalls _ (List.mem_of_getElem? hi)
  | queue g =>
    obtain ⟨guest, hmem, -⟩ := occurrences_queue_pos.1 hp
    rw [hgates g ((hinv.queues g guest hmem).gate_mem hinv)] at hmem
    cases hmem
  | processing g =>
    obtain ⟨stage, guest, hc, -⟩ := occurrences_processing_pos.1 hp
    rw [hgates g (hinv.current_mem hc)] at hc
    cases hc

end Steps

/-! ## The rows -/

/-- Processed rows carry their waits. -/
def Timed (s : System) : Prop := ∀ row ∈ s.db.rows, row.status = .processed → row.Finished

section Rows

variable {cfg : Config} {s s' : System}

theorem keeps_trans {s₁ s₂ s₃ : System} (h : s₁.Keeps s₂) (h' : s₂.Keeps s₃) : s₁.Keeps s₃ := by
  intro row hrow
  obtain ⟨row', hrow', hsame⟩ := h row hrow
  obtain ⟨row'', hrow'', hsame'⟩ := h' row' hrow'
  exact ⟨row'', hrow'', hsame'.id.trans hsame.id, hsame'.traveller.trans hsame.traveller,
    hsame'.gate.trans hsame.gate, hsame'.queuedAt.trans hsame.queuedAt⟩

/-- A step that leaves the rows alone. -/
theorem keeps_of_rows (h : s'.db.rows = s.db.rows) : s.Keeps s' := fun row hrow =>
  ⟨row, h ▸ hrow, rfl, rfl, rfl, rfl⟩

/-- A step that updates rows and keeps who they belong to. -/
theorem keeps_of_map {f : Arrival → Arrival} (hf : ∀ row, (f row).SameGuest row)
    (h : s'.db.rows = s.db.rows.map f) : s.Keeps s' := fun row hrow =>
  ⟨f row, h ▸ List.mem_map_of_mem hrow, hf row⟩

/-- What a step does to the rows: nothing, one new row, or a change of the rows as they are. -/
theorem step_rows {e : Event} (h : s.step cfg e = some s') :
    s'.db.rows = s.db.rows ∨
      (∃ t g now, s'.db.rows = s.db.rows ++ [newRow t g now s.db.nextId]) ∨
      (∃ id, s'.db.rows = s.db.rows.map (Arrival.startIf id)) ∨
      (∃ g guest now, (s.gates g).current = some (.delayed, guest) ∧
        s'.db.rows = s.db.rows.map (Arrival.finishIf guest.arrivalId now (now - guest.queuedAt))) ∨
      s'.db.rows = s.db.rows.map (Arrival.requeue cfg) := by
  cases e with
  | arrive t =>
    cases h
    exact Or.inl rfl
  | choose i now =>
    obtain ⟨t, -, rfl | ⟨g, -, rfl⟩⟩ := chooseStep_cases h
    · exact Or.inl rfl
    · exact Or.inl rfl
  | commit i =>
    obtain ⟨t, g, now, -, rfl⟩ := commitStep_cases h
    exact Or.inr (Or.inl ⟨t, g, now, rfl⟩)
  | enqueue i =>
    obtain ⟨guest, -, rfl⟩ := enqueueStep_cases h
    exact Or.inl rfl
  | respond i =>
    obtain ⟨guest, position, answer, -, rfl⟩ := respondStep_cases h
    exact Or.inl rfl
  | pop g =>
    obtain ⟨guest, queue, -, -, rfl⟩ := popStep_cases h
    exact Or.inl rfl
  | commitProcessing g =>
    obtain ⟨guest, -, rfl⟩ := commitProcessingStep_cases h
    exact Or.inr (Or.inr (Or.inl ⟨guest.arrivalId, rfl⟩))
  | commitProcessed g now =>
    obtain ⟨guest, hc, rfl⟩ := commitProcessedStep_cases h
    exact Or.inr (Or.inr (Or.inr (Or.inl ⟨g, guest, now, hc, rfl⟩)))
  | publish g =>
    obtain ⟨guest, -, rfl⟩ := publishStep_cases h
    exact Or.inl rfl
  | clear g =>
    obtain ⟨guest, -, rfl⟩ := clearStep_cases h
    exact Or.inl rfl
  | restart rows =>
    obtain ⟨-, -, rfl⟩ := restartStep_cases h
    exact Or.inr (Or.inr (Or.inr (Or.inr rfl)))

/-- No step loses a row. -/
theorem step_keeps {e : Event} (h : s.step cfg e = some s') : s.Keeps s' := by
  rcases step_rows h with hr | ⟨t, g, now, hr⟩ | ⟨id, hr⟩ | ⟨g, guest, now, -, hr⟩ | hr
  · exact keeps_of_rows hr
  · exact fun row hrow => ⟨row, hr ▸ List.mem_append_left _ hrow, rfl, rfl, rfl, rfl⟩
  · exact keeps_of_map (startIf_sameGuest id) hr
  · exact keeps_of_map (finishIf_sameGuest guest.arrivalId now (now - guest.queuedAt)) hr
  · exact keeps_of_map (requeue_sameGuest cfg) hr

/-- So no run does. -/
theorem run_keeps {es : List Event} (h : run (System.step cfg) s es = some s') : s.Keeps s' := by
  induction es generalizing s with
  | nil =>
    cases h
    exact keeps_of_rows rfl
  | cons e es ih =>
    obtain ⟨t, hs, hrest⟩ := run_cons_iff.1 h
    exact keeps_trans (step_keeps hs) (ih hrest)

/-- A worker writes the wait of its own guest. -/
theorem step_timed (hinv : Inv cfg s) (htimed : Timed s) {e : Event} (h : s.step cfg e = some s') :
    Timed s' := by
  intro row hrow hst
  rcases step_rows h with hr | ⟨t, g, now, hr⟩ | ⟨id, hr⟩ | ⟨g, guest, now, hc, hr⟩ | hr
  · exact htimed row (hr ▸ hrow) hst
  · rw [hr] at hrow
    rcases List.mem_append.1 hrow with hrow | hrow
    · exact htimed row hrow hst
    · rw [List.mem_singleton.1 hrow] at hst
      cases hst
  · rw [hr] at hrow
    obtain ⟨old, hold, rfl⟩ := List.mem_map.1 hrow
    by_cases hid : old.id = id
    · rw [Arrival.startIf, if_pos hid] at hst
      cases hst
    · rw [startIf_of_ne hid] at hst ⊢
      exact htimed old hold hst
  · rw [hr] at hrow
    obtain ⟨old, hold, rfl⟩ := List.mem_map.1 hrow
    by_cases hid : old.id = guest.arrivalId
    · obtain ⟨r, hmem, hrid, -, -, hq, -⟩ := hinv.current g _ guest hc
      obtain rfl := s.db.row_unique hmem hold (hrid.trans hid.symm)
      rw [Arrival.finishIf, if_pos hid, ← hq]
      exact ⟨rfl, now, rfl, rfl⟩
    · rw [finishIf_of_ne hid] at hst ⊢
      exact htimed old hold hst
  · rw [hr] at hrow
    obtain ⟨old, hold, rfl⟩ := List.mem_map.1 hrow
    have hold' := (requeue_processed_iff old).1 hst
    rw [Arrival.requeue, if_neg fun hc => by rw [hold'] at hc; cases hc.2]
    exact htimed old hold hold'

end Rows

/-! ## Draining -/

end Airport
