import Webmeow.Airport.Proofs.ResponseProofs
import Webmeow.Airport.Proofs.DrainProofs
import Webmeow.Lib.Ledger

/-!
# What the airport announces

A worker announces a guest after the commit of the processed row. Between the two a crash loses the
announcement, and nothing repeats it: each processed row is announced once, with the data of the row,
or was in the hands of a worker when the service crashed.
-/

namespace Airport

open Runs

/-- The guest whose row is committed and who is not announced yet. -/
def Gate.unannounced (gate : Gate) : List Guest :=
  match gate.current with
  | some (.stored, guest) => [guest]
  | _ => []

/-- The guests whose rows say `processed` and whose events are still to be published. -/
def System.unannounced (cfg : Config) (s : System) : List Guest :=
  cfg.gateIds.flatMap fun g => (s.gates g).unannounced

/-- The guest that a step hands to `publish_event`. -/
def System.announcedBy (s : System) : Event → List Guest
  | .publish g => (s.gates g).unannounced
  | _ => []

/-- The announcements that a crash loses. -/
def System.lostBy (cfg : Config) (s : System) : Event → List Guest
  | .restart _ => s.unannounced cfg
  | _ => []

/-- The guests whose events a run publishes. -/
def announced (cfg : Config) : System → List Event → List Guest :=
  collect (System.step cfg) System.announcedBy

/-- The guests whose events a run loses in crashes. -/
def lost (cfg : Config) : System → List Event → List Guest :=
  collect (System.step cfg) (System.lostBy cfg)

/-- The processed rows, as the guests that they were. -/
def System.processedGuests (s : System) : List Guest := (s.db.withStatus .processed).map Arrival.dump

variable {cfg : Config} {s s' : System}

/-! ## Processed rows -/

/-- A change that leaves the processed rows and finishes no other row. -/
theorem withStatus_modify {db : Db} {f : Arrival → Arrival} (hid : ∀ row, (f row).id = row.id)
    (hiff : ∀ row ∈ db.rows, (f row).status = .processed ↔ row.status = .processed)
    (hsame : ∀ row ∈ db.rows, row.status = .processed → f row = row) :
    (db.modify f hid).withStatus .processed = db.withStatus .processed := by
  show (db.rows.map f).filter _ = db.rows.filter _
  rw [List.filter_map]
  have hfilter : db.rows.filter ((fun row => decide (row.status = .processed)) ∘ f) =
      db.rows.filter fun row => decide (row.status = .processed) :=
    List.filter_congr fun row hrow => decide_eq_decide.2 (hiff row hrow)
  rw [hfilter, List.map_congr_left fun row hrow => hsame row (List.mem_filter.1 hrow).1
    (of_decide_eq_true (List.mem_filter.1 hrow).2), List.map_id']

/-- The end of a processing adds the row, with what the worker has written into its guest. -/
theorem processedGuests_finish (hinv : Inv cfg s) (hcopies : Copies s) {g : GateId} {guest : Guest}
    (hc : (s.gates g).current = some (.delayed, guest)) (now : ℚ) :
    (System.processedGuests (s.modifyRows
      (Arrival.finishIf guest.arrivalId now (now - guest.queuedAt)) (Arrival.finishIf_id _ _ _))).Perm
      (guest.finish now :: s.processedGuests) := by
  obtain ⟨row, hrow, rfl, -, hst⟩ := hcopies.current_row hinv hc
  have hnodup : ∀ db : Db, (db.withStatus .processed).Nodup := fun db =>
    db.key.of_map.sublist List.filter_sublist
  have hnew : row.finishIf row.id now (now - row.queuedAt) ∉ s.db.withStatus .processed := by
    intro hmem
    have hold := s.db.row_unique (List.mem_filter.1 hmem).1 hrow (Arrival.finishIf_id _ _ _ row)
    rw [hold] at hmem
    exact nomatch hst.symm.trans (of_decide_eq_true (List.mem_filter.1 hmem).2)
  have hperm : ((s.db.modify (Arrival.finishIf row.id now (now - row.queuedAt))
      (Arrival.finishIf_id _ _ _)).withStatus .processed).Perm
      (row.finishIf row.id now (now - row.queuedAt) :: s.db.withStatus .processed) := by
    refine (List.perm_ext_iff_of_nodup (hnodup _) (List.nodup_cons.2 ⟨hnew, hnodup _⟩)).2 fun r => ?_
    constructor
    · intro hr
      obtain ⟨hmem, hr⟩ := List.mem_filter.1 hr
      obtain ⟨old, hold, rfl⟩ := List.mem_map.1 hmem
      by_cases hid : old.id = row.id
      · rw [s.db.row_unique hold hrow hid]
        exact List.mem_cons_self
      · rw [finishIf_of_ne hid] at hr ⊢
        exact List.mem_cons_of_mem _ (List.mem_filter.2 ⟨hold, hr⟩)
    · intro hr
      rcases List.mem_cons.1 hr with rfl | hr
      · refine List.mem_filter.2 ⟨List.mem_map_of_mem hrow, ?_⟩
        rw [Arrival.finishIf, if_pos rfl]
        rfl
      · obtain ⟨hmem, hproc⟩ := List.mem_filter.1 hr
        refine List.mem_filter.2 ⟨List.mem_map.2 ⟨r, hmem, finishIf_of_ne fun hid => ?_⟩, hproc⟩
        rw [s.db.row_unique hmem hrow hid] at hproc
        exact nomatch hst.symm.trans (of_decide_eq_true hproc)
  have hdump : (row.finishIf row.id now (now - row.queuedAt)).dump = row.dump.finish now := by
    rw [Arrival.finishIf, if_pos rfl]
    rfl
  have hmap := hperm.map Arrival.dump
  rw [List.map_cons, hdump] at hmap
  exact hmap

/-! ## Steps -/

/-- A step at one gate. -/
theorem unannounced_setGate {g : GateId} (hg : g ∈ cfg.gateIds) (s : System) (gate : Gate) :
    ((s.gates g).unannounced ++ (s.setGate g gate).unannounced cfg).Perm
      (gate.unannounced ++ s.unannounced cfg) := by
  have hperm := Keyed.flatMap_update cfg.gateIds_nodup hg (Gate.unannounced ∘ s.gates)
    gate.unannounced
  rwa [← Function.comp_update] at hperm

/-- A step at one gate that neither begins nor ends the wait for an announcement. -/
theorem unannounced_congr {g : GateId} {gate : Gate}
    (h : gate.unannounced = (s.gates g).unannounced) :
    (s.setGate g gate).unannounced cfg = s.unannounced cfg := by
  refine List.flatMap_congr fun g' _ => ?_
  show (Function.update s.gates g gate g').unannounced = (s.gates g').unannounced
  by_cases he : g' = g
  · rw [he, Function.update_self, h]
  · rw [Function.update_of_ne he]

theorem unannounced_of_current {gate : Gate} {stage : Stage} {guest : Guest}
    (hc : gate.current = some (stage, guest)) :
    gate.unannounced = if stage = .stored then [guest] else [] := by
  unfold Gate.unannounced
  rw [hc]
  cases stage <;> rfl

/-- **The books of the announcements**: a step announces or loses what is taken from the workers, and
the workers get what is entered as processed. -/
theorem step_announced (hinv : Inv cfg s) (hcopies : Copies s) {e : Event} (h : s.step cfg e = some s') :
    ∃ made, (s.announcedBy e ++ s.lostBy cfg e ++ s'.unannounced cfg).Perm (made ++ s.unannounced cfg) ∧
      s'.processedGuests.Perm (made ++ s.processedGuests) := by
  cases e with
  | arrive t =>
    cases h
    exact ⟨[], List.Perm.refl _, List.Perm.refl _⟩
  | choose i now =>
    obtain ⟨t, -, rfl | ⟨g, -, rfl⟩⟩ := chooseStep_cases h
    · exact ⟨[], List.Perm.refl _, List.Perm.refl _⟩
    · exact ⟨[], List.Perm.refl _, List.Perm.refl _⟩
  | commit i =>
    obtain ⟨t, g, now, -, rfl⟩ := commitStep_cases h
    refine ⟨[], List.Perm.refl _, List.Perm.of_eq (congrArg (List.map Arrival.dump) ?_)⟩
    show (s.db.rows ++ [newRow t g now s.db.nextId]).filter _ = s.db.rows.filter _
    rw [List.filter_append, List.filter_cons_of_neg (by simp [newRow]), List.filter_nil,
      List.append_nil]
  | enqueue i =>
    obtain ⟨guest, hi, rfl⟩ := enqueueStep_cases h
    exact ⟨[], List.Perm.of_eq (unannounced_congr (s := s) rfl), List.Perm.refl _⟩
  | respond i =>
    obtain ⟨guest, position, answer, -, rfl⟩ := respondStep_cases h
    exact ⟨[], List.Perm.refl _, List.Perm.refl _⟩
  | pop g =>
    obtain ⟨guest, queue, hc, -, rfl⟩ := popStep_cases h
    have hnone : (s.gates g).unannounced = [] := by rw [Gate.unannounced, hc]
    exact ⟨[], List.Perm.of_eq (unannounced_congr hnone.symm), List.Perm.refl _⟩
  | commitProcessing g =>
    obtain ⟨guest, hc, rfl⟩ := commitProcessingStep_cases h
    have hnone := unannounced_of_current hc
    refine ⟨[], List.Perm.of_eq (unannounced_congr (s := s.modifyRows
      (Arrival.startIf guest.arrivalId) (Arrival.startIf_id _)) hnone.symm), ?_⟩
    refine List.Perm.of_eq (congrArg (List.map Arrival.dump)
      (withStatus_modify (Arrival.startIf_id _) ?_ ?_))
    · intro row hrow
      refine ⟨fun hst => ?_, fun hst => hinv.startIf_processed hc hrow hst⟩
      by_cases hid : row.id = guest.arrivalId
      · rw [Arrival.startIf, if_pos hid] at hst
        cases hst
      · rwa [startIf_of_ne hid] at hst
    · intro row hrow hst
      refine startIf_of_ne fun hid => ?_
      have hkept := hinv.startIf_processed hc hrow hst
      rw [Arrival.startIf, if_pos hid] at hkept
      cases hkept
  | commitProcessed g now =>
    obtain ⟨guest, hc, rfl⟩ := commitProcessedStep_cases h
    have hold := unannounced_of_current hc
    have hbooks := unannounced_setGate (hinv.current_mem hc) (s.modifyRows
      (Arrival.finishIf guest.arrivalId now (now - guest.queuedAt)) (Arrival.finishIf_id _ _ _))
      { s.gates g with current := some (.stored, guest.finish now) }
    rw [show ((s.modifyRows _ _).gates g).unannounced = [] from hold] at hbooks
    exact ⟨[guest.finish now], hbooks, processedGuests_finish hinv hcopies hc now⟩
  | publish g =>
    obtain ⟨guest, hc, rfl⟩ := publishStep_cases h
    have hbooks := unannounced_setGate (hinv.current_mem hc) s
      { s.gates g with current := some (.published, guest) }
    refine ⟨[], ?_, List.Perm.refl _⟩
    show ((s.gates g).unannounced ++ [] ++ _).Perm _
    rw [List.append_nil]
    exact hbooks
  | clear g =>
    obtain ⟨guest, hc, rfl⟩ := clearStep_cases h
    have hnone := unannounced_of_current hc
    exact ⟨[], List.Perm.of_eq (unannounced_congr hnone.symm), List.Perm.refl _⟩
  | restart rows =>
    obtain ⟨-, -, rfl⟩ := restartStep_cases h
    have hnone : System.unannounced cfg ⟨s.db.modify (Arrival.requeue cfg) (Arrival.requeue_id cfg),
        rehydrate cfg rows, []⟩ = [] := by
      refine List.flatMap_eq_nil_iff.2 fun g _ => ?_
      rw [Gate.unannounced, rehydrate_current]
    refine ⟨[], ?_, ?_⟩
    · rw [hnone, List.append_nil]
      exact List.Perm.refl _
    · refine List.Perm.of_eq (congrArg (List.map Arrival.dump)
        (withStatus_modify (Arrival.requeue_id cfg) ?_ ?_))
      · exact fun row _ => requeue_processed_iff row
      · intro row _ hst
        rw [Arrival.requeue, if_neg fun hc => by rw [hst] at hc; cases hc.2]

/-! ## Runs -/

/-- At most one guest for each gate. -/
theorem length_unannounced_le (cfg : Config) (s : System) :
    (s.unannounced cfg).length ≤ cfg.gateIds.length := by
  unfold System.unannounced
  induction cfg.gateIds with
  | nil => exact Nat.le_refl 0
  | cons g ids ih =>
    have hone : (s.gates g).unannounced.length ≤ 1 := by
      unfold Gate.unannounced
      split
      · exact Nat.le_refl 1
      · exact Nat.zero_le 1
    rw [List.flatMap_cons, List.length_append, List.length_cons]
    omega

/-- What the announcements of a run that ends in `s` have to do with the table. -/
structure AnnouncedAsStored (cfg : Config) (es : List Event) (s : System) : Prop where
  /-- Every processed row is announced as it is stored, or its announcement is lost or yet to come,
  and each of these once. -/
  books : (announced cfg System.initial es ++ lost cfg System.initial es ++ s.unannounced cfg).Perm
    s.processedGuests
  /-- A crash loses at most one announcement for each gate. -/
  losses : (lost cfg System.initial es).length ≤
    cfg.gateIds.length * countSteps (System.step cfg) (fun _ e => e.isRestart) System.initial es
  /-- In a settled state nothing is yet to come. -/
  settled : Settled s → s.unannounced cfg = []

/-- **Announcements**: in every run of arrivals, workers and crashes the guests that the airport hands to
the broadcast service are the processed rows, once each and with the data that the table ends up with,
but for those that a worker still has and those that crashes have lost. -/
theorem announcements_match_rows (cfg : Config) (es : List Event) (s : System)
    (hrun : run (System.step cfg) System.initial es = some s) : AnnouncedAsStored cfg es s := by
  have hinv : Inv cfg System.initial ∧ Copies System.initial := ⟨initial_inv, initial_copies⟩
  have hempty : (System.unannounced cfg System.initial) = [] :=
    List.flatMap_eq_nil_iff.2 fun g _ => rfl
  refine ⟨?_, ?_, fun hsettled => List.flatMap_eq_nil_iff.2 fun g _ => ?_⟩
  · have hbooks := collect_perm (fun s e => s.announcedBy e ++ s.lostBy cfg e)
      (System.unannounced cfg) System.processedGuests step_copies
      (fun s e s' h hs => step_announced h.1 h.2 hs) hinv hrun (List.Perm.of_eq hempty)
    exact ((collect_append _ _).symm.append_right _).trans hbooks
  · refine length_collect_le (fun s e => ?_) _ _
    cases e with
    | restart rows => exact (length_unannounced_le cfg s).trans_eq (Nat.mul_one _).symm
    | _ => exact Nat.zero_le _
  · cases hc : (s.gates g).current with
    | none => rw [Gate.unannounced, hc]
    | some c =>
      obtain ⟨stage, guest⟩ := c
      rw [unannounced_of_current hc, hsettled.workers g stage guest hc]
      rfl

/-- Ann is announced; the service crashes before Bob is. -/
def announceRun : List Event :=
  [.arrive ann, .choose 0 1, .commit 0, .enqueue 0, .respond 0, .pop ⟨.EU, 1⟩,
    .commitProcessing ⟨.EU, 1⟩, .commitProcessed ⟨.EU, 1⟩ 3, .publish ⟨.EU, 1⟩, .clear ⟨.EU, 1⟩,
    .arrive bob, .choose 1 4, .commit 1, .enqueue 1, .pop ⟨.EU, 1⟩, .commitProcessing ⟨.EU, 1⟩,
    .commitProcessed ⟨.EU, 1⟩ 5, .restart []]

/-- Ann's event is published and Bob's is lost. -/
theorem bob_unannounced :
    ∃ s, run (System.step ⟨1, 1⟩) System.initial announceRun = some s ∧
      AnnouncedAsStored ⟨1, 1⟩ announceRun s :=
  ⟨_, rfl, announcements_match_rows ⟨1, 1⟩ announceRun _ rfl⟩

example : (lost ⟨1, 1⟩ System.initial announceRun).map Guest.arrivalId = [2] := by decide

end Airport
