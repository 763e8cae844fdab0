import Webmeow.Airport.System
import Mathlib.Data.String.Basic
import Mathlib.Data.List.Sort
import Mathlib.Algebra.Order.Field.Rat

/-!
# The read endpoints of the airport

`routes.py`, `stats.py` and the reads of the gate manager. A response is the value that `jsonify`
is given. One read is taken in one state, although `get_arrival` asks the database first and the
gate afterwards. Where SQL leaves the order of equal stamps open, the rows keep the table's order.
-/

namespace Airport

/-- The text that the column holds. -/
def PassportType.name : PassportType → String
  | .EU => "EU"
  | .nonEU => "non-EU"

/-- The text that the column holds. -/
def Priority.name : Priority → String
  | .standard => "standard"
  | .fast => "fast"

/-- The text that the column holds. -/
def Status.name : Status → String
  | .queued => "queued"
  | .processing => "processing"
  | .processed => "processed"

/-- The text that `config.py` uses in the ids of gates. -/
def GateType.name : GateType → String
  | .EU => "EU"
  | .ALL => "ALL"

/-- The id of a gate, as `EU-1`. -/
def GateId.name (g : GateId) : String := g.type.name ++ "-" ++ toString g.number

/-- The service as a request finds it. -/
structure Service where
  /-- The numbers of gates. -/
  cfg : Config
  /-- The table and the gates. -/
  system : System
  /-- The game time of the request. -/
  now : ℚ

/-! ## `/stats` -/

/-- A grouped count as an object; `jsonify` sorts the keys. -/
def distribution (key : Arrival → String) (rows : List Arrival) : List (String × ℕ) :=
  ((rows.map key).dedup.insertionSort (· ≤ ·)).map fun k =>
    (k, rows.countP fun row => key row = k)

/-- The body of `GET /stats`. -/
structure Stats where
  /-- The number of rows. -/
  totalArrivals : ℕ
  /-- `total_processed` -/
  totalProcessed : ℕ
  /-- The rows with status `queued`. -/
  currentlyInQueue : ℕ
  /-- The rows with status `processing`. -/
  currentlyProcessing : ℕ
  /-- The mean wait of the processed rows, zero without any. -/
  avgWaitTimeSeconds : ℚ
  /-- The longest wait of a processed row. -/
  maxWaitTimeSeconds : ℚ
  /-- The shortest wait of a processed row. -/
  minWaitTimeSeconds : ℚ
  /-- The number of rows by gate. -/
  gateDistribution : List (String × ℕ)
  /-- The number of rows by passport. -/
  passportDistribution : List (String × ℕ)
  /-- The number of rows by priority. -/
  priorityDistribution : List (String × ℕ)
  /-- `current_game_time` -/
  currentGameTime : ℚ
deriving DecidableEq

/-- The rows with one status. -/
def Db.withStatus (db : Db) (status : Status) : List Arrival :=
  db.rows.filter fun row => row.status = status

/-- `get_stats`: counts, waits and groups of the rows in the table. -/
def Service.getStats (s : Service) : Stats :=
  let db := s.system.db
  let waits := (db.withStatus .processed).filterMap Arrival.waitTimeSeconds
  { totalArrivals := db.rows.length
    totalProcessed := (db.withStatus .processed).length
    currentlyInQueue := (db.withStatus .queued).length
    currentlyProcessing := (db.withStatus .processing).length
    -- without rows the quotient is zero, which is what `or 0` makes of `None`
    avgWaitTimeSeconds := waits.sum / waits.length
    maxWaitTimeSeconds := waits.max?.getD 0
    minWaitTimeSeconds := waits.min?.getD 0
    gateDistribution := distribution (fun row => row.gate.name) (db.withStatus .processed)
    passportDistribution := distribution (fun row => row.traveller.passportType.name) db.rows
    priorityDistribution := distribution (fun row => row.traveller.priority.name) db.rows
    currentGameTime := s.now }

/-! ## `/queue` -/

/-- A guest in the snapshot of a gate, whose `wait_time_seconds` replaces that of the guest. -/
structure QueueEntry where
  /-- The guest that waits. -/
  guest : Guest
  /-- Zero for the guest whom the worker has. -/
  position : ℕ
  /-- The wait so far. -/
  waitTimeSeconds : ℚ
deriving DecidableEq

/-- A guest at a place of a queue, with the wait so far. -/
def queueEntry (now : ℚ) (guest : Guest) (position : ℕ) : QueueEntry :=
  ⟨guest, position, now - guest.queuedAt⟩

/-- One gate in the answer of `GET /queue`. -/
structure GateStatus where
  /-- `gate_id` -/
  gateId : GateId
  /-- Those who wait and the one whom the worker has. -/
  queueSize : ℕ
  /-- The same number again. -/
  queueLength : ℕ
  /-- Those who wait. -/
  waitingCount : ℕ
  /-- One if the worker has a guest, else zero. -/
  processedCount : ℕ
  /-- The guest whom the worker has, then those who wait in their order. -/
  queue : List QueueEntry
deriving DecidableEq

/-- The number of guests whom the worker has. -/
def Gate.processingCount (gate : Gate) : ℕ := gate.currentlyProcessing.toList.length

/-- One gate of `get_all_gates_status`. -/
def gateStatus (now : ℚ) (g : GateId) (gate : Gate) : GateStatus where
  gateId := g
  queueSize := gate.queue.length + gate.processingCount
  queueLength := gate.queue.length + gate.processingCount
  waitingCount := gate.queue.length
  processedCount := gate.processingCount
  queue := (gate.currentlyProcessing.toList.map fun cp => queueEntry now cp 0) ++
    gate.queue.mapIdx fun i guest => queueEntry now guest (i + 1)

/-- The body of `GET /queue`. -/
structure AllGatesStatus where
  /-- In the order of their names. -/
  gates : List GateStatus
  /-- `queue_length` -/
  queueLength : ℕ
  /-- Those who wait at any gate. -/
  waitingCount : ℕ
  /-- The gates whose worker has a guest. -/
  processedCount : ℕ
  /-- Everybody at any gate. -/
  totalQueued : ℕ
  /-- `current_game_time` -/
  currentGameTime : ℚ
deriving DecidableEq

/-- `get_all_gates_status`. -/
def Service.getAllGatesStatus (s : Service) : AllGatesStatus :=
  let gatesList := s.cfg.gateIds.map fun g => gateStatus s.now g (s.system.gates g)
  let waitingCount := (gatesList.map GateStatus.waitingCount).sum
  let processingCount := (gatesList.map GateStatus.processedCount).sum
  { gates := gatesList.insertionSort fun a b => a.gateId.name ≤ b.gateId.name
    queueLength := waitingCount + processingCount
    waitingCount := waitingCount
    processedCount := processingCount
    totalQueued := waitingCount + processingCount
    currentGameTime := s.now }

/-! ## `/arrivals` -/

/-- The row belongs to this guest. -/
def Arrival.isOf (guestId : String) (row : Arrival) : Bool :=
  decide (row.traveller.guestId = guestId)

/-- The copy belongs to this guest. -/
def Guest.isOf (guestId : String) (guest : Guest) : Bool :=
  decide (guest.traveller.guestId = guestId)

/-- The latest row of a guest. -/
def Db.getGuest (db : Db) (guestId : String) : Option Arrival :=
  ((db.rows.filter (Arrival.isOf guestId)).insertionSort fun a b => b.queuedAt ≤ a.queuedAt).head?

/-- Where a guest is in a gate: zero with the worker, else the place in the queue. -/
def Gate.position (gate : Gate) (guestId : String) : Option ℕ :=
  if gate.currentlyProcessing.any (Guest.isOf guestId) then some 0
  else (gate.queue.findIdx? (Guest.isOf guestId)).map (· + 1)

/-- `get_guest_position`; a gate that is not configured has no positions. -/
def Service.getGuestPosition (s : Service) (guestId : String) (g : GateId) : Option ℕ :=
  if g ∈ s.cfg.gateIds then (s.system.gates g).position guestId else none

/-- The body of `GET /arrivals/{guest_id}`. -/
structure ArrivalResponse where
  /-- `guest_id` -/
  guestId : String
  /-- Of the row, or `not_started`. -/
  status : String
  /-- `gate` -/
  gate : String
  /-- Of a guest who is not processed. -/
  position : Option ℕ
  /-- `queued_at` -/
  queuedAt : ℚ
  /-- `processed_at` -/
  processedAt : Option ℚ
  /-- `wait_time_seconds` -/
  waitTimeSeconds : Option ℚ
deriving DecidableEq

/-- The answer for a guest without a row. -/
def notStarted (guestId : String) : ArrivalResponse where
  guestId := guestId
  status := "not_started"
  gate := ""
  position := none
  queuedAt := 0
  processedAt := none
  waitTimeSeconds := none

/-- `get_arrival`: the latest row of the guest, with the position from the gate. -/
def Service.getArrival (s : Service) (guestId : String) : ArrivalResponse :=
  match s.system.db.getGuest guestId with
  | none => notStarted guestId
  | some row =>
    { guestId := row.traveller.guestId
      status := row.status.name
      gate := row.gate.name
      position :=
        if row.status = .processed then none else s.getGuestPosition guestId row.gate
      queuedAt := row.queuedAt
      processedAt := row.processedAt
      waitTimeSeconds :=
        if row.status = .processed then row.waitTimeSeconds else some (s.now - row.queuedAt) }

/-- A filter of the query string; a missing or empty parameter lets every row pass. -/
def passes (parameter : Option String) (value : String) : Bool :=
  match parameter with
  | none => true
  | some p => decide (p = "" ∨ value = p)

/-- `list_arrivals`: the rows that pass both filters, the latest first. -/
def Service.listArrivals (s : Service) (status passportType : Option String) : List Arrival :=
  (s.system.db.rows.filter fun row =>
    passes status row.status.name && passes passportType row.traveller.passportType.name)
      |>.insertionSort fun a b => b.queuedAt ≤ a.queuedAt

end Airport
