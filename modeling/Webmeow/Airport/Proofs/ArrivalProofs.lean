import Webmeow.Airport.Proofs.ConservationProofs

/-!
# What the airport guarantees about its arrivals

The consequences of the invariant that a user of the airport can see, and over whole runs that no
arrival is processed twice.
-/

namespace Airport

open Placement Runs

/-- The gate at which a place is. -/
def System.placeGate (s : System) : Place → Option GateId
  | .call i => (s.calls[i]?.bind Call.guest).map Guest.gate
  | .queue g => some g
  | .processing g => some g

/-- Every arrival is accounted for, and at the right gate. -/
structure Conserved (s : System) : Prop where
  /-- An unprocessed arrival is in exactly one place, once, at the gate that its row names. -/
  once : ∀ row ∈ s.db.rows, row.status ≠ .processed →
    ∃ p, At s.occurrences row.id p ∧ s.placeGate p = some row.gate
  /-- A processed arrival is in no queue. -/
  processed : ∀ row ∈ s.db.rows, row.status = .processed →
    ∀ g, ∀ guest ∈ (s.gates g).queue, guest.arrivalId ≠ row.id
  /-- A gate processes one row at a time. -/
  processing : ∀ a ∈ s.db.rows, ∀ b ∈ s.db.rows, a.status = .processing → b.status = .processing →
    a.gate = b.gate → a = b
  /-- Only EU guests are at the EU gates. -/
  rowGate : ∀ row ∈ s.db.rows, row.traveller.passportType = .nonEU → row.gate.type = .ALL
  /-- Also in the queues. -/
  queueGate : ∀ g, g.type = .EU → ∀ guest ∈ (s.gates g).queue, guest.traveller.passportType = .EU
  /-- And with the workers. -/
  currentGate : ∀ g, g.type = .EU → ∀ guest, (s.gates g).currentlyProcessing = some guest →
    guest.traveller.passportType = .EU

/-- The arrivals whose row a step commits as processed. -/
def System.processedBy (s : System) : Event → List ℕ
  | .commitProcessed g _ =>
    match (s.gates g).current with
    | some (.delayed, guest) => [guest.arrivalId]
    | _ => []
  | _ => []

/-- The arrivals that are processed during a run, in order. -/
def processedIds (cfg : Config) : System → List Event → List ℕ
  | _, [] => []
  | s, e :: es =>
    match s.step cfg e with
    | none => []
    | some s' => s.processedBy e ++ processedIds cfg s' es

variable {cfg : Config} {s s' : System}

/-! ## States -/

/-- A guest is nowhere but at the gate of the row. -/
theorem Inv.place_gate (h : Inv cfg s) {row : Arrival} (hrow : row ∈ s.db.rows) {p : Place}
    (hp : 0 < s.occurrences row.id p) : s.placeGate p = some row.gate := by
  obtain ⟨r, hr, hid, hplace⟩ := h.row_of_pos hp
  rw [s.db.row_unique hr hrow hid] at hplace
  cases p with
  | call i =>
    obtain ⟨guest, hi, -, hg, -⟩ := hplace
    show (s.calls[i]?.bind Call.guest).map Guest.gate = some row.gate
    rw [hi, hg]
    rfl
  | queue g => exact congrArg some hplace.1.symm
  | processing g => exact congrArg some hplace.1.symm

/-- A row that is being processed belongs to the guest of the worker of its gate. -/
theorem Inv.processing_current (h : Inv cfg s) {row : Arrival} (hrow : row ∈ s.db.rows)
    (hst : row.status = .processing) :
    ∃ guest, (s.gates row.gate).current = some (.delayed, guest) ∧ guest.arrivalId = row.id := by
  obtain ⟨p, hp⟩ := h.total row hrow (by rw [hst]; nofun)
  obtain ⟨r, hr, hid, hplace⟩ := h.row_of_pos hp
  rw [s.db.row_unique hr hrow hid] at hplace
  cases p with
  | call i =>
    obtain ⟨guest, -, -, -, hq⟩ := hplace
    rw [hst] at hq
    cases hq
  | queue g =>
    rw [hst] at hplace
    cases hplace.2
  | processing g =>
    obtain ⟨rfl, stage, guest, hc, hstage⟩ := hplace
    obtain ⟨stage', guest', hc', hid'⟩ := occurrences_processing_pos.1 hp
    rw [hc] at hc'
    cases hc'
    rw [hst] at hstage
    cases stage <;> cases hstage
    exact ⟨guest, hc, hid'⟩

/-- A guest that mirrors a row at an EU gate is an EU guest. -/
theorem Inv.eu_of_mirrors (h : Inv cfg s) {guest : Guest} {g : GateId} {status : Status}
    (hm : Mirrors s.db guest g status) (hg : g.type = .EU) : guest.traveller.passportType = .EU := by
  obtain ⟨row, hrow, -, ht, rfl, -⟩ := hm
  cases hp : guest.traveller.passportType with
  | EU => rfl
  | nonEU =>
    have hall := (h.rows row hrow).2 (by rw [ht, hp])
    rw [hg] at hall
    cases hall

/-- The invariant says more than the conservation. -/
theorem Inv.conserved (h : Inv cfg s) : Conserved s where
  once row hrow hst := by
    obtain ⟨p, hp⟩ := h.total row hrow hst
    exact ⟨p, h.once.at_of_pos hp, h.place_gate hrow hp⟩
  processed row hrow hst g guest hg hid := by
    obtain ⟨r, hr, hrid, -, -, -, hrst⟩ := h.queues g guest hg
    rw [s.db.row_unique hr hrow (hrid.trans hid), hst] at hrst
    cases hrst
  processing a ha b hb hsa hsb hg := by
    obtain ⟨x, hx, hxid⟩ := h.processing_current ha hsa
    obtain ⟨y, hy, hyid⟩ := h.processing_current hb hsb
    rw [hg, hy] at hx
    cases hx
    exact s.db.row_unique ha hb (hxid.symm.trans hyid)
  rowGate row hrow hne := (h.rows row hrow).2 hne
  queueGate g hg guest hguest := h.eu_of_mirrors (h.queues g guest hguest) hg
  currentGate g hg guest hc := by
    obtain ⟨⟨stage, guest'⟩, hcur, rfl⟩ := Option.map_eq_some_iff.1 hc
    exact h.eu_of_mirrors (h.current g stage guest' hcur) hg

/-! ## Runs -/

/-- The arrival is stored as processed. -/
def System.isProcessed (s : System) (id : ℕ) : Prop :=
  ∃ row ∈ s.db.rows, row.id = id ∧ row.status = .processed

/-- An update that takes no row back from `processed` keeps this one. -/
theorem isProcessed_modify {f : Arrival → Arrival} (hid : ∀ row, (f row).id = row.id)
    (hf : ∀ row ∈ s.db.rows, row.status = .processed → (f row).status = .processed) {id : ℕ}
    (h : s.isProcessed id) : (s.modifyRows f hid).isProcessed id := by
  obtain ⟨row, hrow, hrid, hst⟩ := h
  exact ⟨f row, List.mem_map_of_mem hrow, (hid row).trans hrid, hf row hrow hst⟩

/-- The row of a popped guest is still queued, so no processed row is started again. -/
theorem Inv.startIf_processed (h : Inv cfg s) {g : GateId} {guest : Guest}
    (hc : (s.gates g).current = some (.popped, guest)) {row : Arrival} (hrow : row ∈ s.db.rows)
    (hst : row.status = .processed) : (row.startIf guest.arrivalId).status = .processed := by
  have hne : row.id ≠ guest.arrivalId := by
    intro he
    obtain ⟨r, hr, hrid, -, -, -, hrst⟩ := h.current g _ guest hc
    rw [s.db.row_unique hr hrow (hrid.trans he.symm), hst] at hrst
    cases hrst
  rw [startIf_of_ne hne]
  exact hst

/-- Processed arrivals stay processed. -/
theorem step_isProcessed (h : Inv cfg s) {e : Event} (hs : s.step cfg e = some s') {id : ℕ}
    (hp : s.isProcessed id) : s'.isProcessed id := by
  cases e with
  | arrive t =>
    cases hs
    exact hp
  | choose i now =>
    obtain ⟨t, -, rfl | ⟨g, -, rfl⟩⟩ := chooseStep_cases hs
    · exact hp
    · exact hp
  | commit i =>
    obtain ⟨t, g, now, -, rfl⟩ := commitStep_cases hs
    obtain ⟨row, hrow, hrest⟩ := hp
    exact ⟨row, List.mem_append_left _ hrow, hrest⟩
  | enqueue i =>
    obtain ⟨guest, -, rfl⟩ := enqueueStep_cases hs
    exact hp
  | respond i =>
    obtain ⟨guest, position, answer, -, rfl⟩ := respondStep_cases hs
    exact hp
  | pop g =>
    obtain ⟨guest, queue, -, -, rfl⟩ := popStep_cases hs
    exact hp
  | commitProcessing g =>
    obtain ⟨guest, hc, rfl⟩ := commitProcessingStep_cases hs
    refine isProcessed_modify (Arrival.startIf_id _) (fun row hrow hst => ?_) hp
    exact h.startIf_processed hc hrow hst
  | commitProcessed g now =>
    obtain ⟨guest, hc, rfl⟩ := commitProcessedStep_cases hs
    exact isProcessed_modify (Arrival.finishIf_id _ _ _) (fun row _ hst => finishIf_processed hst) hp
  | publish g =>
    obtain ⟨guest, -, rfl⟩ := publishStep_cases hs
    exact hp
  | clear g =>
    obtain ⟨guest, -, rfl⟩ := clearStep_cases hs
    exact hp
  | restart rows =>
    obtain ⟨-, -, rfl⟩ := restartStep_cases hs
    exact isProcessed_modify (Arrival.requeue_id cfg)
      (fun row _ hst => (requeue_processed_iff row).2 hst) hp

/-- A step processes at most one arrival, which was not processed before and is so afterwards. -/
theorem processedBy_cases (h : Inv cfg s) {e : Event} (hs : s.step cfg e = some s') :
    s.processedBy e = [] ∨
      ∃ id, s.processedBy e = [id] ∧ ¬ s.isProcessed id ∧ s'.isProcessed id := by
  cases e with
  | commitProcessed g now =>
    obtain ⟨guest, hc, rfl⟩ := commitProcessedStep_cases hs
    right
    refine ⟨guest.arrivalId, by simp only [System.processedBy, hc], ?_, ?_⟩
    · rintro ⟨row, hrow, hid, hst⟩
      obtain ⟨r, hr, hrid, -, -, -, hrst⟩ := h.current g _ guest hc
      rw [s.db.row_unique hr hrow (hrid.trans hid.symm), hst] at hrst
      cases hrst
    · obtain ⟨row, hrow, hid, -, -, -, hst⟩ := (h.current g _ guest hc).finish now (now - guest.queuedAt)
      exact ⟨row, hrow, hid, hst⟩
  | arrive t => exact Or.inl rfl
  | choose i now => exact Or.inl rfl
  | commit i => exact Or.inl rfl
  | enqueue i => exact Or.inl rfl
  | respond i => exact Or.inl rfl
  | pop g => exact Or.inl rfl
  | commitProcessing g => exact Or.inl rfl
  | publish g => exact Or.inl rfl
  | clear g => exact Or.inl rfl
  | restart rows => exact Or.inl rfl

/-- What a run processes was not processed before it, and is processed once. -/
theorem processedIds_spec (es : List Event) (s : System) (h : Inv cfg s) :
    (∀ id ∈ processedIds cfg s es, ¬ s.isProcessed id) ∧ (processedIds cfg s es).Nodup := by
  induction es generalizing s with
  | nil => exact ⟨fun id hid => absurd hid List.not_mem_nil, List.nodup_nil⟩
  | cons e es ih =>
    unfold processedIds
    cases hs : s.step cfg e with
    | none => exact ⟨fun id hid => absurd hid List.not_mem_nil, List.nodup_nil⟩
    | some s' =>
      obtain ⟨hnot, hnodup⟩ := ih s' (step_inv s e s' h hs)
      have hback : ∀ id ∈ processedIds cfg s' es, ¬ s.isProcessed id := fun id hid hp =>
        hnot id hid (step_isProcessed h hs hp)
      simp only
      rcases processedBy_cases h hs with hnil | ⟨id, hone, hbefore, hafter⟩
      · rw [hnil]
        exact ⟨hback, hnodup⟩
      · rw [hone, List.singleton_append]
        refine ⟨fun id' hid' => ?_, List.nodup_cons.2 ⟨fun hmem => hnot id hmem hafter, hnodup⟩⟩
        rcases List.mem_cons.1 hid' with rfl | hid'
        · exact hbefore
        · exact hback id' hid'

/-- **Conservation of arrivals**: for every configuration, in every state of every run of calls,
workers and crashes with rehydration, every unprocessed arrival is in exactly one place, once, at the
gate of its row, processed arrivals are in no queue, a gate processes one row at a time and only EU
guests are at EU gates; and no run processes an arrival twice. -/
theorem arrivals_conserved (cfg : Config) (es : List Event) :
    Always (System.step cfg) Conserved System.initial es ∧
      (processedIds cfg System.initial es).Nodup :=
  have h0 : Inv cfg System.initial := initial_inv
  ⟨(always_of_invariant step_inv h0).imp fun _ h => h.conserved,
    (processedIds_spec es System.initial h0).2⟩

end Airport
