import Webmeow.Airport.Endpoints
import Webmeow.Airport.Proofs.SettledProofs

/-!
# The queue view and the statistics

`/queue` reads the gates in memory and `/stats` counts rows. In a settled state the guests of a gate are
the unprocessed rows of the gate, so the two views agree.
-/

namespace Airport

open Runs

/-- The rows of a gate that are not processed. -/
def Db.pendingAt (db : Db) (g : GateId) : List Arrival :=
  db.rows.filter fun row => row.gate = g ∧ row.status ≠ .processed

/-- The rows of a gate with one status. -/
def Db.withStatusAt (db : Db) (g : GateId) (status : Status) : List Arrival :=
  db.rows.filter fun row => row.gate = g ∧ row.status = status

/-- The sum of a grouped count. -/
def distributionSum (d : List (String × ℕ)) : ℕ := (d.map Prod.snd).sum

/-- What `/stats` and `/queue` have to say about each other. -/
structure ViewsAgree (s : Service) : Prop where
  /-- The counts of the statistics add up. -/
  total : s.getStats.totalArrivals =
    s.getStats.totalProcessed + s.getStats.currentlyInQueue + s.getStats.currentlyProcessing
  /-- The groups by passport make up all rows. -/
  passports : s.getStats.totalArrivals = distributionSum s.getStats.passportDistribution
  /-- So do the groups by priority. -/
  priorities : s.getStats.totalArrivals = distributionSum s.getStats.priorityDistribution
  /-- The groups by gate make up the processed rows. -/
  gates : s.getStats.totalProcessed = distributionSum s.getStats.gateDistribution
  /-- The queues hold the rows that say `queued`. -/
  waiting : s.getAllGatesStatus.waitingCount = s.getStats.currentlyInQueue
  /-- The gates hold the unprocessed rows. -/
  queued : s.getAllGatesStatus.totalQueued =
    s.getStats.currentlyInQueue + s.getStats.currentlyProcessing
  /-- Every gate is listed, once. -/
  listed : (s.getAllGatesStatus.gates.map GateStatus.gateId).Perm s.cfg.gateIds
  /-- The snapshot of a gate lists the unprocessed rows of the gate, each once. -/
  snapshots : ∀ gate ∈ s.getAllGatesStatus.gates, (gate.queue.map QueueEntry.guest).Perm
    ((s.system.db.pendingAt gate.gateId).map Arrival.dump)
  /-- The positions are consecutive, from zero if a guest is being processed. -/
  positions : ∀ gate ∈ s.getAllGatesStatus.gates, gate.queue.map QueueEntry.position =
    List.range' (if s.system.db.withStatusAt gate.gateId .processing = [] then 1 else 0)
      gate.queue.length

/-! ## Counting rows -/

/-- The groups of a table are all of its rows. -/
theorem distributionSum_distribution (key : Arrival → String) (rows : List Arrival) :
    distributionSum (distribution key rows) = rows.length := by
  have hperm : ((rows.map key).dedup.insertionSort (· ≤ ·)).Perm (rows.map key).dedup :=
    List.perm_insertionSort _ _
  unfold distributionSum distribution
  rw [List.map_map]
  refine Keyed.sum_countP (hperm.nodup_iff.2 (List.nodup_dedup _)) fun row hrow => ?_
  rw [hperm.mem_iff, List.mem_dedup]
  exact List.mem_map_of_mem hrow

/-- A row has one of three statuses. -/
theorem Db.length_rows (db : Db) :
    db.rows.length = (db.withStatus .processed).length + (db.withStatus .queued).length +
      (db.withStatus .processing).length := by
  unfold Db.withStatus
  induction db.rows with
  | nil => rfl
  | cons row rows ih =>
    cases hs : row.status with
    | queued => simp [hs, ih]; omega
    | processing => simp [hs, ih]; omega
    | processed => simp [hs, ih]; omega

theorem Config.gateIds_nodup (cfg : Config) : cfg.gateIds.Nodup := by
  have hinj : ∀ type, Function.Injective (GateId.mk type) := fun type m n h => (GateId.mk.inj h).2
  refine List.nodup_append.2 ⟨(List.nodup_range' 1).map (hinj .EU), (List.nodup_range' 1).map (hinj .ALL),
    fun a ha b hb => ?_⟩
  obtain ⟨m, -, rfl⟩ := List.mem_map.1 ha
  obtain ⟨n, -, rfl⟩ := List.mem_map.1 hb
  exact fun he => by cases he

theorem Db.mem_withStatusAt {db : Db} {g : GateId} {status : Status} {row : Arrival} :
    row ∈ db.withStatusAt g status ↔ row ∈ db.rows ∧ row.gate = g ∧ row.status = status := by
  simp [Db.withStatusAt]

theorem Db.mem_pendingAt {db : Db} {g : GateId} {row : Arrival} :
    row ∈ db.pendingAt g ↔ row ∈ db.rows ∧ row.gate = g ∧ row.status ≠ .processed := by
  simp [Db.pendingAt]

/-- Copies of different rows are different. -/
theorem Db.dump_nodup (db : Db) {rows : List Arrival} (h : rows.Sublist db.rows) :
    (rows.map Arrival.dump).Nodup := by
  have hids : ((rows.map Arrival.dump).map Guest.arrivalId).Nodup := by
    rw [List.map_map]
    exact db.key.sublist (h.map Arrival.id)
  exact hids.of_map

/-- The rows with one status are counted gate by gate. -/
theorem sum_withStatusAt {cfg : Config} {db : Db} (h : ∀ row ∈ db.rows, row.gate ∈ cfg.gateIds)
    (status : Status) :
    (cfg.gateIds.map fun g => (db.withStatusAt g status).length).sum =
      (db.withStatus status).length := by
  have hgate : ∀ row ∈ db.withStatus status, row.gate ∈ cfg.gateIds := fun row hrow =>
    h row (List.mem_filter.1 hrow).1
  rw [← Keyed.sum_countP cfg.gateIds_nodup hgate]
  congr 1
  refine List.map_congr_left fun g _ => ?_
  unfold Db.withStatusAt Db.withStatus
  rw [List.countP_filter, ← List.countP_eq_length_filter]
  refine List.countP_congr fun row _ => ?_
  simp

/-! ## Memory and table -/

section Settled

variable {cfg : Config} {s : System}

/-- The queue of a gate holds the copies of its queued rows. -/
theorem queue_perm (hsettled : Settled s) (hinv : Inv cfg s) (hcopies : Copies s) (g : GateId) :
    (s.gates g).queue.Perm ((s.db.withStatusAt g .queued).map Arrival.dump) := by
  refine (List.perm_ext_iff_of_nodup (hinv.queue_nodup g).of_map
    (s.db.dump_nodup List.filter_sublist)).2 fun guest => ?_
  constructor
  · intro hguest
    obtain ⟨row, hrow, rfl, hgate, hst⟩ := hcopies.queue_row hinv hguest
    exact List.mem_map_of_mem (Db.mem_withStatusAt.2 ⟨hrow, hgate, hst⟩)
  · intro hguest
    obtain ⟨row, hmem, rfl⟩ := List.mem_map.1 hguest
    obtain ⟨hrow, rfl, hst⟩ := Db.mem_withStatusAt.1 hmem
    rcases hsettled.place_cases hinv hrow (by rw [hst]; decide) with ⟨-, x, hx, hid⟩ | ⟨hst', -⟩
    · obtain ⟨r, hr, rfl, -, -⟩ := hcopies.queue_row hinv hx
      rw [s.db.row_unique hr hrow hid] at hx
      exact hx
    · rw [hst] at hst'
      cases hst'

/-- The worker of a gate has the copy of the row that is being processed. -/
theorem current_perm (hsettled : Settled s) (hinv : Inv cfg s) (hcopies : Copies s) (g : GateId) :
    (s.gates g).currentlyProcessing.toList.Perm
      ((s.db.withStatusAt g .processing).map Arrival.dump) := by
  have hnodup : (s.gates g).currentlyProcessing.toList.Nodup := by
    cases (s.gates g).currentlyProcessing with
    | none => exact List.nodup_nil
    | some guest => exact List.nodup_singleton guest
  refine (List.perm_ext_iff_of_nodup hnodup (s.db.dump_nodup List.filter_sublist)).2 fun guest => ?_
  rw [Option.mem_toList, Gate.currentlyProcessing]
  constructor
  · intro hguest
    obtain ⟨⟨stage, x⟩, hc, rfl⟩ := Option.map_eq_some_iff.1 hguest
    obtain rfl := hsettled.workers g stage x hc
    obtain ⟨row, hrow, hdump, hgate, hst⟩ := hcopies.current_row hinv hc
    exact List.mem_map.2 ⟨row, Db.mem_withStatusAt.2 ⟨hrow, hgate, hst⟩, hdump⟩
  · intro hguest
    obtain ⟨row, hmem, rfl⟩ := List.mem_map.1 hguest
    obtain ⟨hrow, rfl, hst⟩ := Db.mem_withStatusAt.1 hmem
    rcases hsettled.place_cases hinv hrow (by rw [hst]; decide) with ⟨hst', -⟩ | ⟨-, x, hx, hid⟩
    · rw [hst] at hst'
      cases hst'
    · obtain ⟨r, hr, rfl, -, -⟩ := hcopies.current_row hinv hx
      rw [s.db.row_unique hr hrow hid] at hx
      rw [hx]
      rfl

/-- The unprocessed rows are those that are being processed and those that are queued. -/
theorem pendingAt_perm (db : Db) (g : GateId) :
    (db.withStatusAt g .processing ++ db.withStatusAt g .queued).Perm (db.pendingAt g) := by
  have hnodup : db.rows.Nodup := db.key.of_map
  have hparts : (db.withStatusAt g .processing ++ db.withStatusAt g .queued).Nodup := by
    refine List.nodup_append.2 ⟨hnodup.sublist List.filter_sublist,
      hnodup.sublist List.filter_sublist, fun a ha b hb he => ?_⟩
    have hprocessing := (Db.mem_withStatusAt.1 ha).2.2
    rw [he, (Db.mem_withStatusAt.1 hb).2.2] at hprocessing
    cases hprocessing
  have hpending : (db.pendingAt g).Nodup := hnodup.sublist List.filter_sublist
  refine (List.perm_ext_iff_of_nodup hparts hpending).2 fun row => ?_
  rw [List.mem_append, Db.mem_withStatusAt, Db.mem_withStatusAt, Db.mem_pendingAt]
  cases hs : row.status with
  | queued => simp
  | processing => simp
  | processed => simp

/-- In a settled state the queues are as long as the table says. -/
theorem waitingCount_eq (hsettled : Settled s) (hinv : Inv cfg s) (hcopies : Copies s) :
    (cfg.gateIds.map fun g => (s.gates g).queue.length).sum = (s.db.withStatus .queued).length := by
  rw [← sum_withStatusAt (fun row hrow => (hinv.rows row hrow).1) .queued]
  congr 1
  refine List.map_congr_left fun g _ => ?_
  rw [(queue_perm hsettled hinv hcopies g).length_eq, List.length_map]

/-- And as many workers are busy. -/
theorem processingCount_eq (hsettled : Settled s) (hinv : Inv cfg s) (hcopies : Copies s) :
    (cfg.gateIds.map fun g => (s.gates g).processingCount).sum =
      (s.db.withStatus .processing).length := by
  rw [← sum_withStatusAt (fun row hrow => (hinv.rows row hrow).1) .processing]
  congr 1
  refine List.map_congr_left fun g _ => ?_
  rw [Gate.processingCount, (current_perm hsettled hinv hcopies g).length_eq, List.length_map]

/-! ## Snapshots -/

/-- The positions of a snapshot. -/
theorem gateStatus_positions (now : ℚ) (g : GateId) (gate : Gate) :
    (gateStatus now g gate).queue.map QueueEntry.position =
      List.range' (if gate.currentlyProcessing = none then 1 else 0)
        (gateStatus now g gate).queue.length := by
  have hwaiting : (gate.queue.mapIdx fun i guest => queueEntry now guest (i + 1)).map
      QueueEntry.position = List.range' 1 gate.queue.length := by
    refine List.ext_getElem (by simp) fun i hi hi' => ?_
    simp only [List.getElem_map, List.getElem_mapIdx, queueEntry, List.getElem_range']
    omega
  unfold gateStatus
  cases gate.currentlyProcessing with
  | none => simpa using hwaiting
  | some guest =>
    simp only [Option.toList_some, List.map_cons, List.map_nil, List.cons_append, List.nil_append,
      hwaiting, List.length_cons, List.length_mapIdx, reduceCtorEq, if_false]
    rfl

/-- The guests of a snapshot. -/
theorem gateStatus_guests (now : ℚ) (g : GateId) (gate : Gate) :
    (gateStatus now g gate).queue.map QueueEntry.guest =
      gate.currentlyProcessing.toList ++ gate.queue := by
  have hwaiting : (gate.queue.mapIdx fun i guest => queueEntry now guest (i + 1)).map
      QueueEntry.guest = gate.queue := by
    refine List.ext_getElem (by simp) fun i hi hi' => ?_
    simp only [List.getElem_map, List.getElem_mapIdx, queueEntry]
  unfold gateStatus
  rw [List.map_append, hwaiting, List.map_map]
  exact congrArg (· ++ gate.queue) (List.map_id _)

/-- **The two views agree in a settled state.** -/
theorem viewsAgree_of_settled (hsettled : Settled s) (hinv : Inv cfg s) (hcopies : Copies s)
    (now : ℚ) : ViewsAgree ⟨cfg, s, now⟩ := by
  have hwaiting := waitingCount_eq hsettled hinv hcopies
  have hprocessing := processingCount_eq hsettled hinv hcopies
  have hsorted : (Service.getAllGatesStatus ⟨cfg, s, now⟩).gates.Perm
      (cfg.gateIds.map fun g => gateStatus now g (s.gates g)) := List.perm_insertionSort _ _
  have hgates : ∀ gate ∈ (Service.getAllGatesStatus ⟨cfg, s, now⟩).gates,
      ∃ g, gateStatus now g (s.gates g) = gate := fun gate hgate => by
    obtain ⟨g, -, hg⟩ := List.mem_map.1 (hsorted.mem_iff.1 hgate)
    exact ⟨g, hg⟩
  have hw : (Service.getAllGatesStatus ⟨cfg, s, now⟩).waitingCount =
      (cfg.gateIds.map fun g => (s.gates g).queue.length).sum := by
    simp only [Service.getAllGatesStatus, List.map_map]
    rfl
  have hp : (Service.getAllGatesStatus ⟨cfg, s, now⟩).totalQueued =
      (cfg.gateIds.map fun g => (s.gates g).queue.length).sum +
        (cfg.gateIds.map fun g => (s.gates g).processingCount).sum := by
    simp only [Service.getAllGatesStatus, List.map_map]
    rfl
  refine ⟨s.db.length_rows, (distributionSum_distribution _ _).symm,
    (distributionSum_distribution _ _).symm, (distributionSum_distribution _ _).symm,
    hw.trans hwaiting, ?_, ?_, fun gate hgate => ?_, fun gate hgate => ?_⟩
  · rw [hp, hwaiting, hprocessing]
    rfl
  · have hids := hsorted.map GateStatus.gateId
    rw [List.map_map] at hids
    exact hids.trans (List.Perm.of_eq (List.map_id _))
  · obtain ⟨g, rfl⟩ := hgates gate hgate
    rw [gateStatus_guests]
    refine List.Perm.trans ?_ ((pendingAt_perm s.db g).map Arrival.dump)
    rw [List.map_append]
    exact (current_perm hsettled hinv hcopies g).append (queue_perm hsettled hinv hcopies g)
  · obtain ⟨g, rfl⟩ := hgates gate hgate
    rw [gateStatus_positions]
    have hperm := current_perm hsettled hinv hcopies g
    have hiff : (s.gates g).currentlyProcessing = none ↔ s.db.withStatusAt g .processing = [] := by
      rw [← Option.toList_eq_nil_iff, ← List.length_eq_zero_iff, hperm.length_eq, List.length_map,
        List.length_eq_zero_iff]
    simp only [hiff]
    rfl

end Settled

/-- **Queue view and statistics**: in every settled state of every run of arrivals, worker steps and
restarts, whatever the time, the statistics and the queue view agree with each other and with the
table. -/
theorem views_agree_when_settled (cfg : Config) (es : List Event) :
    Always (System.step cfg) (fun s => Settled s → ∀ now, ViewsAgree ⟨cfg, s, now⟩) System.initial
      es :=
  (always_copies cfg es).imp fun _ h hsettled now => viewsAgree_of_settled hsettled h.1 h.2 now

/-- Ann is being processed and Bob waits at her gate. -/
theorem annProcessing_views_agree :
    ∃ s, run (System.step ⟨1, 1⟩) System.initial (crashRun.take 11 ++ [.respond 1]) = some s ∧
      Settled s ∧ ((s.gates ⟨.EU, 1⟩).current.isSome = true ∧ (s.gates ⟨.EU, 1⟩).queue ≠ []) ∧
      ViewsAgree ⟨⟨1, 1⟩, s, 3⟩ := by
  have hsettled := fun s hr hpop hcalls =>
    settled_of_run (s := s) ⟨1, 1⟩ (crashRun.take 11 ++ [.respond 1]) hr hpop hcalls
  refine ⟨_, rfl, hsettled _ rfl (by decide) (by decide), by decide, ?_⟩
  exact (views_agree_when_settled ⟨1, 1⟩ (crashRun.take 11 ++ [.respond 1])).last rfl
    (hsettled _ rfl (by decide) (by decide)) 3

end Airport
