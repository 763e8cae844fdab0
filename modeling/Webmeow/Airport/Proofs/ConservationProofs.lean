import Webmeow.Airport.Proofs.StepProofs
import Webmeow.Lib.Keyed
import Webmeow.Lib.Placement
import Webmeow.Lib.Runs

/-!
# Conservation of arrivals

Every row that is not processed is in exactly one place: with the call that is about to enqueue it,
in the queue of its gate, or with the worker of its gate. A step moves one arrival, and the guests in
memory mirror their rows, so that a rehydration puts everybody back.
-/

namespace Airport

open Placement Runs

/-- Where an arrival can be. -/
inductive Place where
  /-- With a call that is to queue the guest. -/
  | call (i : ℕ)
  /-- In the queue of a gate. -/
  | queue (g : GateId)
  /-- With the worker of a gate. -/
  | processing (g : GateId)
deriving DecidableEq

/-- The guest that a call is about to enqueue. -/
def Call.guest : Call → Option Guest
  | .enqueue guest => some guest
  | _ => none

/-- One if the guest is the one with this id. -/
def countGuest (id : ℕ) : Option Guest → ℕ
  | some guest => if guest.arrivalId = id then 1 else 0
  | none => 0

/-- How often an arrival is in a place. -/
def System.occurrences (s : System) (id : ℕ) : Place → ℕ
  | .call i => countGuest id (s.calls[i]?.bind Call.guest)
  | .queue g => (s.gates g).queue.countP fun guest => guest.arrivalId = id
  | .processing g => countGuest id (s.gates g).currentlyProcessing

/-- The status of the row while the worker is at a stage. -/
def Stage.rowStatus : Stage → Status
  | .popped => .queued
  | .delayed => .processing
  | .stored => .processed
  | .published => .processed

/-- The invariant of the whole system: who is where, and what the rows say about it. -/
structure Inv (cfg : Config) (s : System) : Prop where
  /-- Every row names a gate for its passport. -/
  rows : ∀ row ∈ s.db.rows, Allowed cfg row.traveller row.gate
  /-- So does every choice. -/
  chosen : ∀ t g now, Call.commit t g now ∈ s.calls → Allowed cfg t g
  /-- A guest who is to be queued is a copy of a row that says `queued`. -/
  calls : ∀ guest, Call.enqueue guest ∈ s.calls → Mirrors s.db guest guest.gate .queued
  /-- So is a guest in a queue. -/
  queues : ∀ g, ∀ guest ∈ (s.gates g).queue, Mirrors s.db guest g .queued
  /-- A worker's guest is the copy of a row whose status the stage tells. -/
  current : ∀ g stage guest, (s.gates g).current = some (stage, guest) →
    Mirrors s.db guest g stage.rowStatus
  /-- Nobody is in two places or twice in one. -/
  once : AtMostOnce s.occurrences
  /-- Who is not processed is somewhere. -/
  total : ∀ row ∈ s.db.rows, row.status ≠ .processed → ∃ p, 0 < s.occurrences row.id p

/-! ## Occurrences -/

section Occurrences

variable {s : System} {id : ℕ}

/-- The count says who is there. -/
theorem countGuest_pos {o : Option Guest} :
    0 < countGuest id o ↔ ∃ guest, o = some guest ∧ guest.arrivalId = id := by
  cases o with
  | none => simp [countGuest]
  | some guest =>
    by_cases h : guest.arrivalId = id
    · simp [countGuest, h]
    · simp [countGuest, h]

/-- Somebody with a call. -/
theorem occurrences_call_pos {i : ℕ} :
    0 < s.occurrences id (.call i) ↔
      ∃ guest, s.calls[i]? = some (.enqueue guest) ∧ guest.arrivalId = id := by
  unfold System.occurrences
  rw [countGuest_pos]
  constructor
  · rintro ⟨guest, hg, hid⟩
    obtain ⟨call, hc, hcg⟩ := Option.bind_eq_some_iff.1 hg
    cases call <;> cases hcg
    exact ⟨guest, hc, hid⟩
  · rintro ⟨guest, hg, hid⟩
    exact ⟨guest, by rw [hg]; rfl, hid⟩

/-- Somebody in a queue. -/
theorem occurrences_queue_pos {g : GateId} :
    0 < s.occurrences id (.queue g) ↔ ∃ guest ∈ (s.gates g).queue, guest.arrivalId = id := by
  unfold System.occurrences
  rw [List.countP_pos_iff]
  simp

/-- Somebody with a worker. -/
theorem occurrences_processing_pos {g : GateId} :
    0 < s.occurrences id (.processing g) ↔
      ∃ stage guest, (s.gates g).current = some (stage, guest) ∧ guest.arrivalId = id := by
  unfold System.occurrences
  rw [countGuest_pos]
  constructor
  · rintro ⟨guest, hg, hid⟩
    obtain ⟨⟨stage, guest'⟩, hc, rfl⟩ := Option.map_eq_some_iff.1 hg
    exact ⟨stage, _, hc, hid⟩
  · rintro ⟨stage, guest, hc, hid⟩
    exact ⟨guest, by rw [Gate.currentlyProcessing, hc]; rfl, hid⟩

/-- A new stage of a call changes what is counted at the call. -/
theorem occurrences_setCall {i : ℕ} {call call' : Call} (hi : s.calls[i]? = some call) :
    (s.setCall i call').occurrences id =
      Function.update (s.occurrences id) (.call i) (countGuest id call'.guest) := by
  have hlt : i < s.calls.length := (List.getElem?_eq_some_iff.1 hi).1
  funext p
  cases p with
  | call j =>
    by_cases hj : j = i
    · subst hj
      rw [Function.update_self]
      simp [System.occurrences, System.setCall, List.getElem?_set_self hlt]
    · rw [Function.update_of_ne (by simpa using hj)]
      simp [System.occurrences, System.setCall, List.getElem?_set_ne (Ne.symm hj)]
  | queue g => rw [Function.update_of_ne (by simp)]; rfl
  | processing g => rw [Function.update_of_ne (by simp)]; rfl

/-- A new gate changes what is counted at its queue and at its worker. -/
theorem occurrences_setGate {g : GateId} {gate : Gate} :
    (s.setGate g gate).occurrences id =
      Function.update (Function.update (s.occurrences id) (.queue g)
        (gate.queue.countP fun guest => guest.arrivalId = id))
        (.processing g) (countGuest id gate.currentlyProcessing) := by
  funext p
  cases p with
  | call i =>
    rw [Function.update_of_ne (by simp), Function.update_of_ne (by simp)]
    rfl
  | queue g' =>
    rw [Function.update_of_ne (by simp)]
    by_cases hg : g' = g
    · subst hg
      rw [Function.update_self]
      simp [System.occurrences, System.setGate]
    · rw [Function.update_of_ne (by simpa using hg)]
      simp [System.occurrences, System.setGate, hg]
  | processing g' =>
    by_cases hg : g' = g
    · subst hg
      rw [Function.update_self]
      simp [System.occurrences, System.setGate]
    · rw [Function.update_of_ne (by simpa using hg), Function.update_of_ne (by simp)]
      simp [System.occurrences, System.setGate, hg]

theorem update_queue_self (g : GateId) :
    Function.update (s.occurrences id) (.queue g)
      ((s.gates g).queue.countP fun guest => guest.arrivalId = id) = s.occurrences id :=
  Function.update_eq_self (Place.queue g) (s.occurrences id)

/-- A change of the worker's guest counts at one place only. -/
theorem occurrences_setCurrent {g : GateId} {c : Option (Stage × Guest)} :
    (s.setGate g { s.gates g with current := c }).occurrences id =
      Function.update (s.occurrences id) (.processing g) (countGuest id (c.map Prod.snd)) := by
  rw [occurrences_setGate]
  exact congrArg (fun f => Function.update f _ _) (update_queue_self g)

/-- Rows do not matter for what is counted. -/
theorem occurrences_addRow (t : Traveller) (g : GateId) (now : ℚ) :
    (s.addRow t g now).occurrences = s.occurrences := by
  funext id p
  cases p <;> rfl

end Occurrences

/-! ## Consequences of the invariant -/

section Consequences

variable {cfg : Config} {s : System}

/-- A guest somewhere in memory has a row, and the row names the gate of the place. -/
theorem Inv.row_of_pos (h : Inv cfg s) {id : ℕ} {p : Place} (hp : 0 < s.occurrences id p) :
    ∃ row ∈ s.db.rows, row.id = id ∧
      match p with
      | .call i => ∃ guest, s.calls[i]? = some (.enqueue guest) ∧ guest.arrivalId = id ∧
          row.gate = guest.gate ∧ row.status = .queued
      | .queue g => row.gate = g ∧ row.status = .queued
      | .processing g => row.gate = g ∧ ∃ stage guest,
          (s.gates g).current = some (stage, guest) ∧ row.status = stage.rowStatus := by
  cases p with
  | call i =>
    obtain ⟨guest, hg, hid⟩ := occurrences_call_pos.1 hp
    obtain ⟨row, hrow, h1, -, h3, -, h5⟩ := h.calls guest (List.mem_of_getElem? hg)
    exact ⟨row, hrow, h1.trans hid, guest, hg, hid, h3, h5⟩
  | queue g =>
    obtain ⟨guest, hg, hid⟩ := occurrences_queue_pos.1 hp
    obtain ⟨row, hrow, h1, -, h3, -, h5⟩ := h.queues g guest hg
    exact ⟨row, hrow, h1.trans hid, h3, h5⟩
  | processing g =>
    obtain ⟨stage, guest, hg, hid⟩ := occurrences_processing_pos.1 hp
    obtain ⟨row, hrow, h1, -, h3, -, h5⟩ := h.current g stage guest hg
    exact ⟨row, hrow, h1.trans hid, h3, stage, guest, hg, h5⟩

/-- Ids that are not given out yet are nowhere. -/
theorem Inv.fresh_nowhere (h : Inv cfg s) : Nowhere s.occurrences s.db.nextId := by
  intro p
  by_contra hne
  obtain ⟨row, hrow, hid, -⟩ := h.row_of_pos (Nat.pos_of_ne_zero hne)
  have := s.db.fresh row hrow
  omega

/-- The guest of a worker is nowhere else. -/
theorem Inv.current_place (h : Inv cfg s) {g : GateId} {stage : Stage} {guest : Guest}
    (hc : (s.gates g).current = some (stage, guest)) {p : Place}
    (hp : 0 < s.occurrences guest.arrivalId p) : p = .processing g :=
  h.once.place_eq hp (occurrences_processing_pos.2 ⟨stage, guest, hc, rfl⟩)

end Consequences

/-! ## Steps that move nobody -/

section Steps

variable {cfg : Config} {s : System}

theorem initial_inv : Inv cfg System.initial where
  rows row hrow := absurd hrow List.not_mem_nil
  chosen t g now hc := absurd hc List.not_mem_nil
  calls guest hc := absurd hc List.not_mem_nil
  queues g guest hg := absurd hg List.not_mem_nil
  current g stage guest hc := nomatch hc
  once id := by
    refine Or.inl fun p => ?_
    cases p <;> rfl
  total row hrow := absurd hrow List.not_mem_nil

/-- A new call has nobody yet. -/
theorem inv_arrive (h : Inv cfg s) (t : Traveller) :
    Inv cfg { s with calls := s.calls ++ [.choose t] } := by
  have hocc : System.occurrences { s with calls := s.calls ++ [.choose t] } = s.occurrences := by
    funext id p
    cases p with
    | call i =>
      by_cases hi : i < s.calls.length
      · simp only [System.occurrences, List.getElem?_append_left hi]
      · have hle : s.calls.length ≤ i := by omega
        simp only [System.occurrences, List.getElem?_append_right hle, List.getElem?_eq_none hle]
        cases hc : ([Call.choose t])[i - s.calls.length]? with
        | none => rfl
        | some call =>
          rw [List.mem_singleton.1 (List.mem_of_getElem? hc)]
          rfl
    | queue g => rfl
    | processing g => rfl
  refine ⟨h.rows, fun t' g now hc => ?_, fun guest hc => ?_, h.queues, h.current, ?_, ?_⟩
  · rcases List.mem_append.1 hc with hc | hc
    · exact h.chosen t' g now hc
    · cases List.mem_singleton.1 hc
  · rcases List.mem_append.1 hc with hc | hc
    · exact h.calls guest hc
    · cases List.mem_singleton.1 hc
  · rw [hocc]
    exact h.once
  · rw [hocc]
    exact h.total

/-- A call that holds no guest before and after. -/
theorem inv_setCall (h : Inv cfg s) {i : ℕ} {call call' : Call} (hi : s.calls[i]? = some call)
    (hno : call.guest = none) (hno' : call'.guest = none)
    (hchosen : ∀ t g now, call' = .commit t g now → Allowed cfg t g) :
    Inv cfg (s.setCall i call') := by
  have hocc : (s.setCall i call').occurrences = s.occurrences := by
    funext id
    rw [occurrences_setCall hi, Function.update_eq_self_iff]
    simp only [System.occurrences, hi, Option.bind_some, hno, hno']
  refine ⟨h.rows, fun t g now hc => ?_, fun guest hc => ?_, h.queues, h.current, ?_, ?_⟩
  · rcases List.mem_or_eq_of_mem_set hc with hc | hc
    · exact h.chosen t g now hc
    · exact hchosen t g now hc.symm
  · rcases List.mem_or_eq_of_mem_set hc with hc | hc
    · exact h.calls guest hc
    · rw [← hc] at hno'
      cases hno'
  · rw [hocc]
    exact h.once
  · rw [hocc]
    exact h.total

/-- The choice moves nobody. -/
theorem inv_choose (h : Inv cfg s) {i : ℕ} {now : ℚ} {s' : System}
    (hs : s.chooseStep cfg i now = some s') : Inv cfg s' := by
  obtain ⟨t, hi, rfl | ⟨g, hg, rfl⟩⟩ := chooseStep_cases hs
  · exact inv_setCall h hi rfl rfl nofun
  · refine inv_setCall h hi rfl rfl fun t' g' now' he => ?_
    cases he
    exact chooseGate_allowed hg

/-- The answer moves nobody. -/
theorem inv_respond (h : Inv cfg s) {i : ℕ} {s' : System} (hs : s.respondStep i = some s') :
    Inv cfg s' := by
  obtain ⟨guest, position, answer, hi, rfl⟩ := respondStep_cases hs
  exact inv_setCall h hi rfl rfl nofun

/-! ## Commit and enqueue -/

/-- The new row and its copy come together. -/
theorem inv_commit (h : Inv cfg s) {i : ℕ} {s' : System} (hs : s.commitStep i = some s') :
    Inv cfg s' := by
  obtain ⟨t, g, now, hi, rfl⟩ := commitStep_cases hs
  have hocc : ∀ id, ((s.addRow t g now).setCall i
      (.enqueue (newRow t g now s.db.nextId).dump)).occurrences id =
        Function.update (s.occurrences id) (.call i) (if s.db.nextId = id then 1 else 0) := by
    intro id
    rw [occurrences_setCall (s := s.addRow t g now) hi, occurrences_addRow]
    rfl
  have hothers : ∀ id, id ≠ s.db.nextId → ((s.addRow t g now).setCall i
      (.enqueue (newRow t g now s.db.nextId).dump)).occurrences id = s.occurrences id := by
    intro id hid
    rw [hocc, if_neg (Ne.symm hid), Function.update_eq_self_iff]
    simp only [System.occurrences, hi, Option.bind_some, Call.guest, countGuest]
  have hself : At ((s.addRow t g now).setCall i
      (.enqueue (newRow t g now s.db.nextId).dump)).occurrences s.db.nextId (.call i) := by
    intro q
    rw [hocc, if_pos rfl]
    by_cases hq : q = .call i
    · rw [hq, Function.update_self, if_pos rfl]
    · rw [Function.update_of_ne hq, if_neg hq]
      exact h.fresh_nowhere q
  have hallowed : Allowed cfg t g := h.chosen t g now (List.mem_of_getElem? hi)
  refine ⟨fun row hrow => ?_, fun t' g' now' hc => ?_, fun guest' hc => ?_,
    fun g' x hx => (h.queues g' x hx).insert _ (newRow_id t g now),
    fun g' stage x hx => (h.current g' stage x hx).insert _ (newRow_id t g now),
    h.once.of_others (Or.inr ⟨_, hself⟩) hothers, fun row hrow hst => ?_⟩
  · rcases List.mem_append.1 hrow with hrow | hrow
    · exact h.rows row hrow
    · rw [List.mem_singleton.1 hrow]
      exact hallowed
  · rcases List.mem_or_eq_of_mem_set hc with hc | hc
    · exact h.chosen t' g' now' hc
    · cases hc
  · rcases List.mem_or_eq_of_mem_set hc with hc | hc
    · exact (h.calls guest' hc).insert _ (newRow_id t g now)
    · cases hc
      exact ⟨newRow t g now s.db.nextId, List.mem_append_right _ (List.mem_singleton_self _), rfl, rfl,
        rfl, rfl, rfl⟩
  · rcases List.mem_append.1 hrow with hrow | hrow
    · obtain ⟨p, hp⟩ := h.total row hrow hst
      have hne : row.id ≠ s.db.nextId := Nat.ne_of_lt (s.db.fresh row hrow)
      exact ⟨p, by rw [hothers row.id hne]; exact hp⟩
    · rw [List.mem_singleton.1 hrow]
      refine ⟨.call i, ?_⟩
      show 0 < System.occurrences _ s.db.nextId _
      rw [hself.self]
      exact Nat.one_pos

theorem mem_setGate_queue {g g' : GateId} {gate : Gate} {guest : Guest}
    (h : guest ∈ ((s.setGate g gate).gates g').queue) :
    (g' = g ∧ guest ∈ gate.queue) ∨ (g' ≠ g ∧ guest ∈ (s.gates g').queue) := by
  by_cases hg : g' = g
  · subst hg
    left
    simpa [System.setGate] using h
  · right
    simpa [System.setGate, hg] using h

/-- Whom a worker has after one gate has changed. -/
theorem setGate_current {g g' : GateId} {gate : Gate} {c : Option (Stage × Guest)}
    (h : ((s.setGate g gate).gates g').current = c) :
    (g' = g ∧ gate.current = c) ∨ (g' ≠ g ∧ (s.gates g').current = c) := by
  by_cases hg : g' = g
  · subst hg
    left
    simpa [System.setGate] using h
  · right
    simpa [System.setGate, hg] using h

/-- The guest moves from the call to the queue. -/
theorem inv_enqueue (h : Inv cfg s) {i : ℕ} {s' : System} (hs : s.enqueueStep i = some s') :
    Inv cfg s' := by
  obtain ⟨guest, hi, rfl⟩ := enqueueStep_cases hs
  set g := guest.gate with hg
  have hperm : ((s.gates g).enqueue guest).1.queue.Perm (guest :: (s.gates g).queue) :=
    StableQueue.insert_perm guest (s.gates g).queue
  have hcall : ∀ id, s.occurrences id (.call i) = if guest.arrivalId = id then 1 else 0 := by
    intro id
    simp only [System.occurrences, hi, Option.bind_some]
    rfl
  have hocc : ∀ id, ((s.setGate g ((s.gates g).enqueue guest).1).setCall i
      (.respond guest ((s.gates g).enqueue guest).2)).occurrences id =
        Function.update (Function.update (s.occurrences id) (.queue g)
          ((guest :: (s.gates g).queue).countP fun x => x.arrivalId = id)) (.call i) 0 := by
    intro id
    rw [occurrences_setCall (s := s.setGate g _) hi, occurrences_setGate, hperm.countP_eq]
    congr 1
    rw [Function.update_eq_self_iff]
    rfl
  have hothers : ∀ id, id ≠ guest.arrivalId →
      ((s.setGate g ((s.gates g).enqueue guest).1).setCall i
        (.respond guest ((s.gates g).enqueue guest).2)).occurrences id = s.occurrences id := by
    intro id hid
    rw [hocc, List.countP_cons_of_neg (by simpa using Ne.symm hid)]
    have h0 : s.occurrences id (.call i) = 0 := by rw [hcall, if_neg (Ne.symm hid)]
    rw [update_queue_self, Function.update_eq_self_iff, h0]
  have hat : At s.occurrences guest.arrivalId (.call i) :=
    h.once.at_of_pos (by rw [hcall, if_pos rfl]; exact Nat.one_pos)
  have hself : At ((s.setGate g ((s.gates g).enqueue guest).1).setCall i
      (.respond guest ((s.gates g).enqueue guest).2)).occurrences guest.arrivalId (.queue g) := by
    refine hat.move nofun ?_
    have h0 : ((s.gates g).queue.countP fun x => x.arrivalId = guest.arrivalId) = 0 := hat (.queue g)
    rw [hocc, List.countP_cons_of_pos (by simp), h0]
  refine ⟨h.rows, fun t' g' now' hc => ?_, fun guest' hc => ?_, fun g' x hx => ?_,
    fun g' stage x hx => ?_, h.once.of_others (Or.inr ⟨_, hself⟩) hothers, fun row hrow hst => ?_⟩
  · rcases List.mem_or_eq_of_mem_set hc with hc | hc
    · exact h.chosen t' g' now' hc
    · cases hc
  · rcases List.mem_or_eq_of_mem_set hc with hc | hc
    · exact h.calls guest' hc
    · cases hc
  · rcases mem_setGate_queue (s := s) hx with ⟨hg', hq⟩ | ⟨-, hq⟩
    · rw [hg']
      rcases List.mem_cons.1 (hperm.mem_iff.1 hq) with rfl | hq
      · exact h.calls x (List.mem_of_getElem? hi)
      · exact h.queues g x hq
    · exact h.queues g' x hq
  · rcases setGate_current (s := s) hx with ⟨hg', hcur⟩ | ⟨-, hcur⟩
    · rw [hg']
      exact h.current g stage x hcur
    · exact h.current g' stage x hcur
  · by_cases hid : row.id = guest.arrivalId
    · exact ⟨.queue g, by rw [hid, hself.self]; exact Nat.one_pos⟩
    · obtain ⟨p, hp⟩ := h.total row hrow hst
      exact ⟨p, by rw [hothers row.id hid]; exact hp⟩

/-! ## The worker -/

/-- The guest moves from the queue to the worker. -/
theorem inv_pop (h : Inv cfg s) {g : GateId} {s' : System} (hs : s.popStep g = some s') :
    Inv cfg s' := by
  obtain ⟨guest, queue, hc, hq, rfl⟩ := popStep_cases hs
  have hocc : ∀ id, (s.setGate g ⟨queue, some (.popped, { guest with status := .processing })⟩).occurrences
      id = Function.update (Function.update (s.occurrences id) (.processing g)
        (if guest.arrivalId = id then 1 else 0)) (.queue g) (queue.countP fun x => x.arrivalId = id) := by
    intro id
    rw [occurrences_setGate, Function.update_comm (by simp)]
    rfl
  have hqueue : ∀ id, s.occurrences id (.queue g) =
      (guest :: queue).countP fun x => x.arrivalId = id := by
    intro id
    simp only [System.occurrences, hq]
  have hothers : ∀ id, id ≠ guest.arrivalId →
      (s.setGate g ⟨queue, some (.popped, { guest with status := .processing })⟩).occurrences id =
        s.occurrences id := by
    intro id hid
    have h0 : s.occurrences id (.processing g) = 0 := by
      simp only [System.occurrences, Gate.currentlyProcessing, hc]
      rfl
    have h1 : (queue.countP fun x => x.arrivalId = id) = s.occurrences id (.queue g) := by
      rw [hqueue, List.countP_cons_of_neg (by simpa using Ne.symm hid)]
    rw [hocc, if_neg (Ne.symm hid), ← h0, Function.update_eq_self, h1, Function.update_eq_self]
  have hcons : s.occurrences guest.arrivalId (.queue g) =
      (queue.countP fun x => x.arrivalId = guest.arrivalId) + 1 := by
    rw [hqueue, List.countP_cons_of_pos (by simp)]
  have hat : At s.occurrences guest.arrivalId (.queue g) :=
    h.once.at_of_pos (by rw [hcons]; omega)
  have hself : At (s.setGate g
      ⟨queue, some (.popped, { guest with status := .processing })⟩).occurrences guest.arrivalId
        (.processing g) := by
    refine hat.move nofun ?_
    have h0 : (queue.countP fun x => x.arrivalId = guest.arrivalId) = 0 := by
      have := hat.self
      omega
    rw [hocc, if_pos rfl, h0]
  refine ⟨h.rows, h.chosen, h.calls, fun g' x hx => ?_, fun g' stage x hx => ?_,
    h.once.of_others (Or.inr ⟨_, hself⟩) hothers, fun row hrow hst => ?_⟩
  · rcases mem_setGate_queue hx with ⟨hg', hmem⟩ | ⟨-, hmem⟩
    · rw [hg']
      exact h.queues g x (by rw [hq]; exact List.mem_cons_of_mem guest hmem)
    · exact h.queues g' x hmem
  · rcases setGate_current hx with ⟨hg', hcur⟩ | ⟨-, hcur⟩
    · rw [hg']
      cases hcur
      exact h.queues g guest (by rw [hq]; exact List.mem_cons_self)
    · exact h.current g' stage x hcur
  · by_cases hid : row.id = guest.arrivalId
    · exact ⟨.processing g, by rw [hid, hself.self]; exact Nat.one_pos⟩
    · obtain ⟨p, hp⟩ := h.total row hrow hst
      exact ⟨p, by rw [hothers row.id hid]; exact hp⟩

/-- The worker goes on with its guest: at most the row of the guest changes, and neither its traveller
nor its gate. -/
theorem inv_setCurrent (h : Inv cfg s) {g : GateId} {stage stage' : Stage} {guest : Guest}
    (guest' : Guest)
    (hc : (s.gates g).current = some (stage, guest)) (hid : guest'.arrivalId = guest.arrivalId)
    {db : Db}
    (hrows : ∀ row' ∈ db.rows, ∃ row ∈ s.db.rows, row'.SameGuest row ∧
      (row.id = guest.arrivalId ∨ row' = row))
    (hkeep : ∀ row ∈ s.db.rows, row.id ≠ guest.arrivalId → row ∈ db.rows)
    (hmirror : Mirrors db guest' g stage'.rowStatus) :
    Inv cfg ({ s with db := db }.setGate g { s.gates g with current := some (stage', guest') }) := by
  have hocc : System.occurrences
      ({ s with db := db }.setGate g { s.gates g with current := some (stage', guest') }) =
        s.occurrences := by
    funext id
    have hdb : System.occurrences { s with db := db } id = s.occurrences id := by
      funext p
      cases p <;> rfl
    refine (occurrences_setCurrent (s := { s with db := db })).trans ?_
    rw [hdb, Function.update_eq_self_iff]
    simp only [System.occurrences, Gate.currentlyProcessing, hc, Option.map_some, countGuest, hid]
  have hother : ∀ x g' status p, Mirrors s.db x g' status → 0 < s.occurrences x.arrivalId p →
      p ≠ .processing g → Mirrors db x g' status := by
    rintro x g' status p ⟨row, hrow, hrid, hrest⟩ hp hne
    refine ⟨row, hkeep row hrow fun he => hne ?_, hrid, hrest⟩
    rw [← hrid, he] at hp
    exact h.current_place hc hp
  refine ⟨fun row' hrow' => ?_, h.chosen, fun x hx => ?_, fun g' x hx => ?_,
    fun g' stage'' x hx => ?_, by rw [hocc]; exact h.once, fun row' hrow' hst => ?_⟩
  · obtain ⟨row, hrow, hsame, -⟩ := hrows row' hrow'
    rw [hsame.traveller, hsame.gate]
    exact h.rows row hrow
  · obtain ⟨i, hi⟩ := List.getElem?_of_mem hx
    exact hother x _ _ (.call i) (h.calls x hx) (occurrences_call_pos.2 ⟨x, hi, rfl⟩) nofun
  · have hx' : x ∈ (s.gates g').queue := by
      rcases mem_setGate_queue hx with ⟨hg', hmem⟩ | ⟨-, hmem⟩
      · rw [hg']
        exact hmem
      · exact hmem
    exact hother x _ _ (.queue g') (h.queues g' x hx') (occurrences_queue_pos.2 ⟨x, hx', rfl⟩) nofun
  · rcases setGate_current hx with ⟨hg', hcur⟩ | ⟨hne, hcur⟩
    · rw [hg']
      cases hcur
      exact hmirror
    · exact hother x _ _ (.processing g') (h.current g' stage'' x hcur)
        (occurrences_processing_pos.2 ⟨stage'', x, hcur, rfl⟩) (by simpa using hne)
  · rw [hocc]
    obtain ⟨row, hrow, hsame, hcase⟩ := hrows row' hrow'
    rw [hsame.id]
    rcases hcase with he | rfl
    · exact ⟨.processing g, occurrences_processing_pos.2 ⟨stage, guest, hc, he.symm⟩⟩
    · exact h.total _ hrow hst

/-- The row follows the worker. -/
theorem inv_commitProcessing (h : Inv cfg s) {g : GateId} {s' : System}
    (hs : s.commitProcessingStep g = some s') : Inv cfg s' := by
  obtain ⟨guest, hc, rfl⟩ := commitProcessingStep_cases hs
  refine inv_setCurrent h _ hc rfl (fun row' hrow' => ?_) (fun row hrow hne => ?_)
    (h.current g _ guest hc).start
  · obtain ⟨row, hrow, rfl⟩ := List.mem_map.1 hrow'
    refine ⟨row, hrow, startIf_sameGuest _ row, ?_⟩
    by_cases hid : row.id = guest.arrivalId
    · exact Or.inl hid
    · exact Or.inr (startIf_of_ne hid)
  · exact List.mem_map.2 ⟨row, hrow, startIf_of_ne hne⟩

/-- Who is processed leaves the count. -/
theorem inv_commitProcessed (h : Inv cfg s) {g : GateId} {now : ℚ} {s' : System}
    (hs : s.commitProcessedStep g now = some s') : Inv cfg s' := by
  obtain ⟨guest, hc, rfl⟩ := commitProcessedStep_cases hs
  refine inv_setCurrent h (guest.finish now) hc rfl (fun row' hrow' => ?_)
    (fun row hrow hne => ?_) ((h.current g _ guest hc).finish now _)
  · obtain ⟨row, hrow, rfl⟩ := List.mem_map.1 hrow'
    refine ⟨row, hrow, finishIf_sameGuest _ _ _ row, ?_⟩
    by_cases hid : row.id = guest.arrivalId
    · exact Or.inl hid
    · exact Or.inr (finishIf_of_ne hid)
  · exact List.mem_map.2 ⟨row, hrow, finishIf_of_ne hne⟩

theorem inv_publish (h : Inv cfg s) {g : GateId} {s' : System} (hs : s.publishStep g = some s') :
    Inv cfg s' := by
  obtain ⟨guest, hc, rfl⟩ := publishStep_cases hs
  have hmirror : Mirrors s.db guest g Stage.published.rowStatus := h.current g .stored guest hc
  exact inv_setCurrent h _ hc rfl (fun row hrow => ⟨row, hrow, ⟨rfl, rfl, rfl, rfl⟩, Or.inr rfl⟩)
    (fun row hrow _ => hrow) hmirror

theorem inv_clear (h : Inv cfg s) {g : GateId} {s' : System} (hs : s.clearStep g = some s') :
    Inv cfg s' := by
  obtain ⟨guest, hc, rfl⟩ := clearStep_cases hs
  have hocc : ∀ id, (s.setGate g { s.gates g with current := none }).occurrences id =
      Function.update (s.occurrences id) (.processing g) 0 := by
    intro id
    rw [occurrences_setCurrent]
    rfl
  have hprocessing : ∀ id, s.occurrences id (.processing g) = if guest.arrivalId = id then 1 else 0 := by
    intro id
    simp only [System.occurrences, Gate.currentlyProcessing, hc]
    rfl
  have hothers : ∀ id, id ≠ guest.arrivalId →
      (s.setGate g { s.gates g with current := none }).occurrences id = s.occurrences id := by
    intro id hid
    rw [hocc, Function.update_eq_self_iff, hprocessing, if_neg (Ne.symm hid)]
  have hat : At s.occurrences guest.arrivalId (.processing g) :=
    h.once.at_of_pos (by rw [hprocessing, if_pos rfl]; exact Nat.one_pos)
  refine ⟨h.rows, h.chosen, h.calls, fun g' x hx => ?_, fun g' stage x hx => ?_,
    h.once.of_others (Or.inl (hat.remove (hocc _))) hothers, fun row hrow hst => ?_⟩
  · rcases mem_setGate_queue hx with ⟨hg', hmem⟩ | ⟨-, hmem⟩
    · rw [hg']
      exact h.queues g x hmem
    · exact h.queues g' x hmem
  · rcases setGate_current hx with ⟨-, hcur⟩ | ⟨-, hcur⟩
    · cases hcur
    · exact h.current g' stage x hcur
  · -- the row of the guest is processed by now
    obtain ⟨r, hr, hrid, -, -, -, hrst⟩ := h.current g _ guest hc
    have hne : row.id ≠ guest.arrivalId := by
      intro he
      rw [s.db.row_unique hrow hr (he.trans hrid.symm)] at hst
      exact hst hrst
    obtain ⟨p, hp⟩ := h.total row hrow hst
    exact ⟨p, by rw [hothers row.id hne]; exact hp⟩

/-! ## Restart -/

/-- A restart leaves no row at `processing`. -/
theorem requeue_status {row : Arrival} (hgate : row.gate ∈ cfg.gateIds)
    (hst : row.status ≠ .processed) : (row.requeue cfg).status = .queued := by
  unfold Arrival.requeue
  cases hs : row.status with
  | queued => simp [hs]
  | processing => simp [hgate]
  | processed => exact absurd hs hst

/-- After the loop an arrival is in a queue once if its row was read, and nowhere if not. -/
theorem rehydrate_count {rows : List Arrival} {id : ℕ} {g : GateId}
    (h : ∀ row ∈ rows, row.gate ∈ cfg.gateIds ∧ row.status ≠ .processed) :
    ((rehydrate cfg rows g).queue.countP fun guest => guest.arrivalId = id) =
      (rows.filter fun row => row.id = id).countP fun row => row.gate = g := by
  rw [(rehydrate_queue h g).countP_eq, List.countP_map, List.countP_filter, List.countP_filter]
  refine List.countP_congr fun row _ => ?_
  show (decide (row.id = id) && decide (row.gate = g)) = true ↔
    (decide (row.gate = g) && decide (row.id = id)) = true
  rw [Bool.and_comm]

/-- The queues are made anew from the unprocessed rows. -/
theorem inv_restart (h : Inv cfg s) {rows : List Arrival} {s' : System}
    (hs : s.restartStep cfg rows = some s') : Inv cfg s' := by
  obtain ⟨hperm, -, rfl⟩ := restartStep_cases hs
  have hmem : ∀ row, row ∈ rows ↔ row ∈ s.db.rows ∧ row.status ≠ .processed := fun row => by
    rw [hperm.mem_iff, mem_pending]
  have hok : ∀ row ∈ rows, row.gate ∈ cfg.gateIds ∧ row.status ≠ .processed := fun row hrow =>
    ⟨(h.rows row ((hmem row).1 hrow).1).1, ((hmem row).1 hrow).2⟩
  have hkey : (rows.map Arrival.id).Nodup :=
    (hperm.map Arrival.id).nodup_iff.2 (s.db.key.sublist (List.filter_sublist.map _))
  have hrow_at : ∀ row ∈ rows, At
      (System.mk (s.db.modify (Arrival.requeue cfg) (Arrival.requeue_id cfg)) (rehydrate cfg rows)
        []).occurrences row.id (.queue row.gate) := by
    intro row hrow q
    cases q with
    | call i => rfl
    | queue g =>
      show List.countP _ _ = _
      rw [rehydrate_count hok, Keyed.filter_of_mem hkey hrow]
      by_cases hg : row.gate = g
      · simp [hg]
      · simp [hg, Ne.symm hg]
    | processing g =>
      show countGuest _ ((rehydrate cfg rows g).current.map Prod.snd) = _
      rw [rehydrate_current]
      rfl
  refine ⟨fun row' hrow' => ?_, fun t g now hc => absurd hc List.not_mem_nil,
    fun guest hc => absurd hc List.not_mem_nil, fun g guest hg => ?_, fun g stage guest hc => ?_,
    fun id => ?_, fun row' hrow' hst => ?_⟩
  · obtain ⟨row, hrow, rfl⟩ := List.mem_map.1 hrow'
    rw [(requeue_sameGuest cfg row).traveller, (requeue_sameGuest cfg row).gate]
    exact h.rows row hrow
  · obtain ⟨row, hrow, rfl⟩ := List.mem_map.1 ((rehydrate_queue hok g).mem_iff.1 hg)
    obtain ⟨hrow, hgate⟩ := List.mem_filter.1 hrow
    have hsame := requeue_sameGuest cfg row
    exact ⟨row.requeue cfg, List.mem_map_of_mem ((hmem row).1 hrow).1, hsame.id, hsame.traveller,
      hsame.gate.trans (of_decide_eq_true hgate), hsame.queuedAt,
      requeue_status (hok row hrow).1 (hok row hrow).2⟩
  · have hnone : (rehydrate cfg rows g).current = some (stage, guest) := hc
    rw [rehydrate_current] at hnone
    cases hnone
  · by_cases hex : ∃ row ∈ rows, row.id = id
    · obtain ⟨row, hrow, rfl⟩ := hex
      exact Or.inr ⟨_, hrow_at row hrow⟩
    · refine Or.inl fun q => ?_
      cases q with
      | call i => rfl
      | queue g =>
        show List.countP _ _ = _
        rw [rehydrate_count hok, List.countP_eq_zero]
        intro row hrow
        obtain ⟨hrow, hid⟩ := List.mem_filter.1 hrow
        exact absurd ⟨row, hrow, of_decide_eq_true hid⟩ hex
      | processing g =>
        show countGuest _ ((rehydrate cfg rows g).current.map Prod.snd) = _
        rw [rehydrate_current]
        rfl
  · obtain ⟨row, hrow, rfl⟩ := List.mem_map.1 hrow'
    have hpend : row.status ≠ .processed := fun hp => hst ((requeue_processed_iff row).2 hp)
    refine ⟨.queue row.gate, ?_⟩
    rw [Arrival.requeue_id, (hrow_at row ((hmem row).2 ⟨hrow, hpend⟩)).self]
    exact Nat.one_pos

/-- **The invariant holds after every step.** -/
theorem step_inv (s : System) (e : Event) (s' : System) (h : Inv cfg s)
    (hs : s.step cfg e = some s') : Inv cfg s' := by
  cases e with
  | arrive t =>
    cases hs
    exact inv_arrive h t
  | choose i now => exact inv_choose h hs
  | commit i => exact inv_commit h hs
  | enqueue i => exact inv_enqueue h hs
  | respond i => exact inv_respond h hs
  | pop g => exact inv_pop h hs
  | commitProcessing g => exact inv_commitProcessing h hs
  | commitProcessed g now => exact inv_commitProcessed h hs
  | publish g => exact inv_publish h hs
  | clear g => exact inv_clear h hs
  | restart rows => exact inv_restart h hs

end Steps

end Airport
