import Webmeow.Airport.Proofs.ViewProofs
import Webmeow.Lib.OrderedRows

/-!
# Status and position of a guest

The status of `GET /arrivals/<guest_id>` comes from the latest row of the guest, the position from the
first guest with that id at the gate of the row. They describe one arrival unless the latest arrival
waits behind another one of the same guest.
-/

namespace Airport

open Runs

/-- The position of the response is that of the arrival whose status the response reports. -/
structure PositionAgrees (s : Service) (guestId : String) : Prop where
  /-- No position is for those who are through or have never come. -/
  null : (s.getArrival guestId).position = none ↔
    (s.getArrival guestId).status = "processed" ∨ (s.getArrival guestId).status = "not_started"
  /-- Zero is for the guest whom a worker has. -/
  zero : (s.getArrival guestId).position = some 0 ↔ (s.getArrival guestId).status = "processing"
  /-- Otherwise it is the index, from one, of the reported arrival in the queue of its gate. -/
  index : ∀ row, s.system.db.getGuest guestId = some row → row.status = .queued →
    ∃ i, ((s.system.gates row.gate).queue[i]?).map Guest.arrivalId = some row.id ∧
      (s.getArrival guestId).position = some (i + 1)

/-- The row is queued, and another arrival of the same guest is with the worker of the gate or stands
ahead of it in the queue. -/
def System.WaitsBehindItself (s : System) (row : Arrival) : Prop :=
  row.status = .queued ∧
    ((s.gates row.gate).currentlyProcessing.any (Guest.isOf row.traveller.guestId) = true ∨
      ∃ before guest after, (s.gates row.gate).queue = before ++ guest :: after ∧
        guest.arrivalId = row.id ∧ before.any (Guest.isOf row.traveller.guestId) = true)

/-- The step commits an arrival of a guest who has an unprocessed arrival at the same gate. -/
def arrivesAgain (s : System) : Event → Bool
  | .commit i =>
    match s.calls[i]? with
    | some (.commit t g _) =>
      s.db.rows.any fun row =>
        decide (row.gate = g ∧ row.traveller.guestId = t.guestId ∧ row.status ≠ .processed)
    | _ => false
  | _ => false

variable {cfg : Config} {s s' : System}

/-! ## The latest row -/

/-- The row that answers for a guest is one of the guest's. -/
theorem getGuest_mem {db : Db} {guestId : String} {row : Arrival}
    (h : db.getGuest guestId = some row) : row ∈ db.rows ∧ row.traveller.guestId = guestId := by
  have hmem : row ∈ db.rows.filter (Arrival.isOf guestId) :=
    (List.mem_insertionSort _).1 (List.mem_of_mem_head? h)
  obtain ⟨hrow, hid⟩ := List.mem_filter.1 hmem
  exact ⟨hrow, of_decide_eq_true hid⟩

/-! ## The search at the gate -/

/-- The search stops at the first guest of the id: at the arrival itself, or at one ahead of it. -/
theorem position_queued {gate : Gate} {guestId : String} {before after : List Guest} {guest : Guest}
    (hcur : gate.currentlyProcessing.any (Guest.isOf guestId) = false)
    (hq : gate.queue = before ++ guest :: after) (hguest : guest.isOf guestId = true) :
    (before.any (Guest.isOf guestId) = false ∧ gate.position guestId = some (before.length + 1)) ∨
      (before.any (Guest.isOf guestId) = true ∧
        ∃ i, i < before.length ∧ gate.position guestId = some (i + 1)) := by
  have hposition : gate.position guestId =
      ((before.findIdx? (Guest.isOf guestId)).or (some before.length)).map (· + 1) := by
    unfold Gate.position
    rw [hcur, hq, List.findIdx?_append, List.findIdx?_cons, hguest]
    simp
  rw [hposition]
  cases hfind : before.findIdx? (Guest.isOf guestId) with
  | none =>
    refine Or.inl ⟨?_, by rw [Option.none_or, Option.map_some]⟩
    rw [List.any_eq_false]
    intro x hx
    rw [List.findIdx?_eq_none_iff.1 hfind x hx]
    exact Bool.false_ne_true
  | some i =>
    obtain ⟨hlt, hi, -⟩ := List.findIdx?_eq_some_iff_getElem.1 hfind
    exact Or.inr ⟨List.any_eq_true.2 ⟨before[i], List.getElem_mem hlt, hi⟩, i, hlt,
      by rw [Option.some_or, Option.map_some]⟩

/-- A row that is being processed is at position zero. -/
theorem position_processing (hinv : Inv cfg s) {row : Arrival} (hrow : row ∈ s.db.rows)
    (hst : row.status = .processing) :
    (s.gates row.gate).position row.traveller.guestId = some 0 := by
  obtain ⟨guest, hc, hid⟩ := hinv.processing_current hrow hst
  obtain ⟨r, hr, hrid, htraveller, -⟩ := hinv.current row.gate _ guest hc
  rw [s.db.row_unique hr hrow (hrid.trans hid)] at htraveller
  unfold Gate.position Gate.currentlyProcessing
  rw [hc, Option.map_some, Option.any_some, Guest.isOf, ← htraveller, decide_eq_true rfl, if_pos rfl]

section Response

variable {now : ℚ} {guestId : String} {row : Arrival}

/-- The position comes from the gate that the row names. -/
theorem getArrival_position (hinv : Inv cfg s) (hget : s.db.getGuest guestId = some row) (now : ℚ) :
    (Service.getArrival ⟨cfg, s, now⟩ guestId).position =
      if row.status = .processed then none else (s.gates row.gate).position guestId := by
  have hgate : row.gate ∈ cfg.gateIds := (hinv.rows row (getGuest_mem hget).1).1
  simp only [Service.getArrival, hget, Service.getGuestPosition, if_pos hgate]

theorem getArrival_status (cfg : Config) (hget : s.db.getGuest guestId = some row) (now : ℚ) :
    (Service.getArrival ⟨cfg, s, now⟩ guestId).status = row.status.name := by
  simp only [Service.getArrival, hget]

/-- A guest without a row. -/
theorem positionAgrees_notStarted (hget : s.db.getGuest guestId = none) :
    PositionAgrees ⟨cfg, s, now⟩ guestId := by
  have hresponse : Service.getArrival ⟨cfg, s, now⟩ guestId = notStarted guestId := by
    simp only [Service.getArrival, hget]
  refine ⟨?_, ?_, fun row hrow => ?_⟩
  · rw [hresponse]
    exact ⟨fun _ => Or.inr rfl, fun _ => rfl⟩
  · rw [hresponse]
    refine iff_of_false (fun h => by cases h) ?_
    show ¬ "not_started" = "processing"
    decide
  · have hsome : s.db.getGuest guestId = some row := hrow
    rw [hget] at hsome
    cases hsome

/-- A row that is not queued has the position that its status says. -/
theorem positionAgrees_of_not_queued (hinv : Inv cfg s) (hget : s.db.getGuest guestId = some row)
    (hst : row.status ≠ .queued) : PositionAgrees ⟨cfg, s, now⟩ guestId := by
  obtain ⟨hrow, rfl⟩ := getGuest_mem hget
  have hposition := getArrival_position hinv hget now
  have hstatus := getArrival_status cfg hget now
  refine ⟨?_, ?_, fun r hr hqueued => ?_⟩
  · rw [hposition, hstatus]
    cases hs : row.status with
    | queued => exact absurd hs hst
    | processing =>
      rw [if_neg (by decide), position_processing hinv hrow hs]
      exact iff_of_false (fun h => by cases h) (by decide)
    | processed => exact ⟨fun _ => Or.inl rfl, fun _ => if_pos rfl⟩
  · rw [hposition, hstatus]
    cases hs : row.status with
    | queued => exact absurd hs hst
    | processing =>
      rw [if_neg (by decide), position_processing hinv hrow hs]
      exact ⟨fun _ => rfl, fun _ => rfl⟩
    | processed =>
      rw [if_pos rfl]
      exact iff_of_false (fun h => by cases h) (by decide)
  · have hsame : s.db.getGuest row.traveller.guestId = some r := hr
    rw [hget] at hsame
    cases hsame
    exact absurd hqueued hst

/-- A queued row stands in the queue of its gate. -/
theorem queued_place (hsettled : Settled s) (hinv : Inv cfg s) (hrow : row ∈ s.db.rows)
    (hst : row.status = .queued) :
    ∃ before guest after, (s.gates row.gate).queue = before ++ guest :: after ∧
      guest.arrivalId = row.id ∧ guest.isOf row.traveller.guestId = true := by
  have hplace := hsettled.place_cases hinv hrow (by rw [hst]; decide)
  rw [hst] at hplace
  obtain ⟨-, guest, hguest, hid⟩ := hplace.resolve_right fun h => by cases h.1
  obtain ⟨before, after, hq⟩ := List.append_of_mem hguest
  obtain ⟨r, hr, hrid, ht, -⟩ := hinv.queues row.gate guest hguest
  rw [s.db.row_unique hr hrow (hrid.trans hid)] at ht
  refine ⟨before, guest, after, hq, hid, ?_⟩
  rw [Guest.isOf, ← ht]
  exact decide_eq_true rfl

/-- A queued row has the position that its status says if and only if no other arrival of the guest is
found before it. -/
theorem positionAgrees_of_queued (hsettled : Settled s) (hinv : Inv cfg s)
    (hget : s.db.getGuest guestId = some row) (hst : row.status = .queued) :
    PositionAgrees ⟨cfg, s, now⟩ guestId ↔ ¬ s.WaitsBehindItself row := by
  obtain ⟨hrow, rfl⟩ := getGuest_mem hget
  have hposition := getArrival_position hinv hget now
  have hstatus := getArrival_status cfg hget now
  rw [hst, if_neg (by decide)] at hposition
  rw [hst] at hstatus
  obtain ⟨before, guest, after, hq, hid, htraveller⟩ := queued_place hsettled hinv hrow hst
  -- the arrival stands at one place of the queue only
  have hnodup := hinv.queue_nodup row.gate
  have hat : (s.gates row.gate).queue[before.length]? = some guest := by rw [hq]; simp
  cases hcur : (s.gates row.gate).currentlyProcessing.any (Guest.isOf row.traveller.guestId) with
  | true =>
    -- the worker has another arrival of the guest, so the position is zero
    refine iff_of_false (fun h => ?_) fun h => h ⟨hst, Or.inl hcur⟩
    have hzero : (s.gates row.gate).position row.traveller.guestId = some 0 := if_pos hcur
    have hname := h.zero.1 (hposition.trans hzero)
    rw [hstatus] at hname
    exact absurd hname (by decide)
  | false =>
    rcases position_queued hcur hq htraveller with ⟨hbefore, hpos⟩ | ⟨hbefore, i, hi, hpos⟩
    · refine iff_of_true ⟨?_, ?_, fun r hr _ => ?_⟩ fun h => ?_
      · rw [hposition, hpos, hstatus]
        exact iff_of_false (fun h => by cases h) (by decide)
      · rw [hposition, hpos, hstatus]
        exact iff_of_false (fun h => by cases h) (by decide)
      · have hsame : s.db.getGuest row.traveller.guestId = some r := hr
        rw [hget] at hsame
        cases hsame
        refine ⟨before.length, ?_, hposition.trans hpos⟩
        show ((s.gates row.gate).queue[before.length]?).map Guest.arrivalId = _
        rw [hat, Option.map_some, hid]
      · rcases h.2 with hworker | ⟨before', guest', after', hq', hid', hahead⟩
        · rw [hcur] at hworker
          cases hworker
        · have hsame := Keyed.split_unique hnodup hq' hq (hid'.trans hid.symm)
          rw [hsame, hbefore] at hahead
          cases hahead
    · -- another arrival of the guest stands ahead and is found first
      refine iff_of_false (fun h => ?_) fun h => h ⟨hst, Or.inr ⟨before, guest, after, hq, hid, hbefore⟩⟩
      obtain ⟨j, hj, hposj⟩ := h.index row hget hst
      rw [hposition, hpos] at hposj
      obtain ⟨x, hx, hxid⟩ := Option.map_eq_some_iff.1 hj
      have hjb := Keyed.index_unique hnodup hx hat (hxid.trans hid.symm)
      have hij := Option.some.inj hposj
      omega

/-- **Status and position in a settled state, exactly.** -/
theorem positionAgrees_iff (hsettled : Settled s) (hinv : Inv cfg s) :
    PositionAgrees ⟨cfg, s, now⟩ guestId ↔
      ∀ row, s.db.getGuest guestId = some row → ¬ s.WaitsBehindItself row := by
  cases hget : s.db.getGuest guestId with
  | none =>
    exact iff_of_true (positionAgrees_notStarted hget) fun row h => by cases h
  | some row =>
    by_cases hst : row.status = .queued
    · rw [positionAgrees_of_queued hsettled hinv hget hst]
      exact ⟨fun h r hr => Option.some.inj hr ▸ h, fun h => h row rfl⟩
    · refine iff_of_true (positionAgrees_of_not_queued hinv hget hst) fun r hr hwaits => ?_
      cases hr
      exact hst hwaits.1

end Response

/-! ## Guests who arrive once at a time -/

/-- No guest has two unprocessed arrivals at one gate. -/
def OnePending (s : System) : Prop :=
  ∀ a ∈ s.db.rows, ∀ b ∈ s.db.rows, a.status ≠ .processed → b.status ≠ .processed →
    a.gate = b.gate → a.traveller.guestId = b.traveller.guestId → a.id = b.id

theorem onePending_modify (h : OnePending s) {f : Arrival → Arrival}
    (hid : ∀ row, (f row).id = row.id) (hf : ∀ row ∈ s.db.rows, (f row).SameGuest row ∧
      (row.status = .processed → (f row).status = .processed)) :
    OnePending (s.modifyRows f hid) := by
  intro a' ha' b' hb' hsa hsb hgate hguest
  obtain ⟨a, ha, rfl⟩ := List.mem_map.1 ha'
  obtain ⟨b, hb, rfl⟩ := List.mem_map.1 hb'
  obtain ⟨hsameA, hpA⟩ := hf a ha
  obtain ⟨hsameB, hpB⟩ := hf b hb
  rw [hsameA.gate, hsameB.gate] at hgate
  rw [hsameA.traveller, hsameB.traveller] at hguest
  rw [hid, hid]
  exact h a ha b hb (fun hp => hsa (hpA hp)) (fun hp => hsb (hpB hp)) hgate hguest

/-- Nobody who is on the way arrives again. -/
theorem onePending_commit (h : OnePending s) {i : ℕ} (hok : arrivesAgain s (.commit i) = false)
    (hs : s.commitStep i = some s') : OnePending s' := by
  obtain ⟨t, g, now, hi, rfl⟩ := commitStep_cases hs
  simp only [arrivesAgain, hi, List.any_eq_false, decide_eq_true_eq] at hok
  intro a ha b hb hsa hsb hgate hguest
  rcases List.mem_append.1 ha with ha | ha
  · rcases List.mem_append.1 hb with hb | hb
    · exact h a ha b hb hsa hsb hgate hguest
    · rw [List.mem_singleton.1 hb] at hgate hguest
      exact absurd ⟨hgate, hguest, hsa⟩ (hok a ha)
  · rcases List.mem_append.1 hb with hb | hb
    · rw [List.mem_singleton.1 ha] at hgate hguest
      exact absurd ⟨hgate.symm, hguest.symm, hsb⟩ (hok b hb)
    · rw [List.mem_singleton.1 ha, List.mem_singleton.1 hb]

/-- A guest who does not arrive again has one unprocessed row at most. -/
theorem step_onePending (s : System) (e : Event) (s' : System) (h : Inv cfg s ∧ OnePending s)
    (hok : arrivesAgain s e = false) (hs : s.step cfg e = some s') : Inv cfg s' ∧ OnePending s' := by
  obtain ⟨hinv, h⟩ := h
  refine ⟨step_inv s e s' hinv hs, ?_⟩
  cases e with
  | arrive t =>
    cases hs
    exact h
  | choose i now =>
    obtain ⟨t, -, rfl | ⟨g, -, rfl⟩⟩ := chooseStep_cases hs
    · exact h
    · exact h
  | commit i => exact onePending_commit h hok hs
  | enqueue i =>
    obtain ⟨guest, -, rfl⟩ := enqueueStep_cases hs
    exact h
  | respond i =>
    obtain ⟨guest, position, answer, -, rfl⟩ := respondStep_cases hs
    exact h
  | pop g =>
    obtain ⟨guest, queue, -, -, rfl⟩ := popStep_cases hs
    exact h
  | commitProcessing g =>
    obtain ⟨guest, hc, rfl⟩ := commitProcessingStep_cases hs
    exact onePending_modify h (Arrival.startIf_id _) fun row hrow =>
      ⟨startIf_sameGuest _ row, hinv.startIf_processed hc hrow⟩
  | commitProcessed g now =>
    obtain ⟨guest, hc, rfl⟩ := commitProcessedStep_cases hs
    exact onePending_modify h (Arrival.finishIf_id _ _ _) fun row _ =>
      ⟨finishIf_sameGuest _ _ _ row, finishIf_processed⟩
  | publish g =>
    obtain ⟨guest, -, rfl⟩ := publishStep_cases hs
    exact h
  | clear g =>
    obtain ⟨guest, -, rfl⟩ := clearStep_cases hs
    exact h
  | restart rows =>
    obtain ⟨-, -, rfl⟩ := restartStep_cases hs
    exact onePending_modify h (Arrival.requeue_id cfg) fun row _ =>
      ⟨requeue_sameGuest cfg row, (requeue_processed_iff row).2⟩

/-- A guest in memory and a row of the same guest at the same gate are one arrival. -/
theorem OnePending.eq_of_mirrors (h : OnePending s) {row : Arrival} (hrow : row ∈ s.db.rows)
    (hst : row.status ≠ .processed) {guest : Guest} {status : Status}
    (hm : Mirrors s.db guest row.gate status) (hstatus : status ≠ .processed)
    (hguest : guest.isOf row.traveller.guestId = true) : guest.arrivalId = row.id := by
  obtain ⟨r, hr, hrid, htraveller, hgate, -, rfl⟩ := hm
  rw [← hrid]
  refine h r hr row hrow hstatus hst hgate ?_
  rw [htraveller]
  exact of_decide_eq_true hguest

/-- With one row nobody waits behind oneself. -/
theorem OnePending.not_waits (h : OnePending s) (hsettled : Settled s) (hinv : Inv cfg s)
    {row : Arrival} (hrow : row ∈ s.db.rows) : ¬ s.WaitsBehindItself row := by
  rintro ⟨hst, hwaits⟩
  have hpending : row.status ≠ .processed := by rw [hst]; decide
  rcases hwaits with hworker | ⟨before, guest, after, hq, hid, hahead⟩
  · -- the guest of the worker would be the queued arrival itself
    obtain ⟨x, hx, hisOf⟩ := (Option.any_eq_true _ _).1 hworker
    obtain ⟨⟨stage, guest⟩, hc, rfl⟩ := Option.map_eq_some_iff.1 hx
    obtain rfl := hsettled.workers _ _ _ hc
    have hm := hinv.current row.gate _ guest hc
    have hid := h.eq_of_mirrors hrow hpending hm (by decide) hisOf
    obtain ⟨r, hr, hrid, -, -, -, hrst⟩ := hm
    rw [s.db.row_unique hr hrow (hrid.trans hid), hst] at hrst
    cases hrst
  · -- so would the one ahead of it, but no arrival is in a queue twice
    obtain ⟨x, hx, hisOf⟩ := List.any_eq_true.1 hahead
    have hmem : x ∈ (s.gates row.gate).queue := by
      rw [hq]
      exact List.mem_append_left _ hx
    have hxid := h.eq_of_mirrors hrow hpending (hinv.queues row.gate x hmem) (by decide) hisOf
    obtain ⟨b, c, rfl⟩ := List.append_of_mem hx
    have hsplit : (s.gates row.gate).queue = b ++ x :: (c ++ guest :: after) := by
      rw [hq, List.append_assoc, List.cons_append]
    have hsame := Keyed.split_unique (hinv.queue_nodup row.gate) hsplit hq (hxid.trans hid.symm)
    have := congrArg List.length hsame
    rw [List.length_append, List.length_cons] at this
    omega

/-- **Status and position over runs**: in every settled state of every run of arrivals, worker steps and
restarts, status and position of a guest describe the same arrival if and only if the latest arrival of
the guest does not wait behind another one of the same guest at its gate. In a run in which no guest
arrives at a gate where an earlier arrival of the guest is not yet processed, they always do. -/
theorem position_agrees_iff (cfg : Config) (es : List Event) :
    Always (System.step cfg) (fun s => Settled s → ∀ now guestId,
        (PositionAgrees ⟨cfg, s, now⟩ guestId ↔
          ∀ row, s.db.getGuest guestId = some row → ¬ s.WaitsBehindItself row)) System.initial es ∧
      (Throughout (System.step cfg) (fun s e => arrivesAgain s e = false) System.initial es →
        Always (System.step cfg) (fun s => Settled s → ∀ now guestId,
          PositionAgrees ⟨cfg, s, now⟩ guestId) System.initial es) := by
  have hall : Always (System.step cfg) (Inv cfg) System.initial es :=
    always_of_invariant step_inv initial_inv
  refine ⟨hall.imp fun s hinv hsettled now guestId => positionAgrees_iff hsettled hinv, fun hok => ?_⟩
  have h0 : Inv cfg System.initial ∧ OnePending System.initial :=
    ⟨initial_inv, fun a ha => absurd ha List.not_mem_nil⟩
  refine (always_of_throughout step_onePending h0 hok).imp fun s h hsettled now guestId => ?_
  exact (positionAgrees_iff hsettled h.1).2 fun row hrow =>
    h.2.not_waits hsettled h.1 (getGuest_mem hrow).1

/-- Ann and Bob arrive once, also with a crash in between. -/
theorem crashRun_positions_agree :
    Throughout (System.step ⟨1, 1⟩) (fun s e => arrivesAgain s e = false) System.initial crashRun ∧
      Always (System.step ⟨1, 1⟩) (fun s => Settled s → ∀ now guestId,
        PositionAgrees ⟨⟨1, 1⟩, s, now⟩ guestId) System.initial crashRun :=
  ⟨by decide, (position_agrees_iff ⟨1, 1⟩ crashRun).2 (by decide)⟩

/-! ## A guest who arrives twice -/

/-- A traveller who comes twice. -/
def zoe : Traveller := ⟨"zoe", "Zoe", "Lee", 43, .nonEU, .standard, false⟩

/-- Zoe arrives twice at the only ALL gate; both arrivals wait. -/
def zoeTwice : List Event :=
  [.arrive zoe, .choose 0 1, .commit 0, .enqueue 0, .respond 0,
    .arrive zoe, .choose 1 2, .commit 1, .enqueue 1, .respond 1]

/-- The status is that of the second arrival, the position that of the first. -/
theorem zoeTwice_position_wrong :
    ∃ s, run (System.step ⟨1, 1⟩) System.initial zoeTwice = some s ∧ Settled s ∧
      ¬ PositionAgrees ⟨⟨1, 1⟩, s, 3⟩ "zoe" := by
  refine ⟨_, rfl, settled_of_run ⟨1, 1⟩ zoeTwice rfl (by decide) (by decide),
    fun h => ?_⟩
  obtain ⟨i, hi, hpos⟩ := h.index ⟨2, zoe, .queued, ⟨.ALL, 1⟩, 2, none, none⟩ rfl rfl
  have hzero : i = 0 := by
    have hone : (some 1 : Option ℕ) = some (i + 1) := hpos
    exact (Nat.succ.inj (Option.some.inj hone)).symm
  subst hzero
  exact absurd hi (by decide)

end Airport
