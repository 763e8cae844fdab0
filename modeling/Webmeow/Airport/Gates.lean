import Webmeow.Lib.StableQueue
import Webmeow.Lib.Keyed
import Mathlib.Data.List.Nodup
import Mathlib.Data.List.MinMax
import Mathlib.Data.Rat.Defs
import Mathlib.Algebra.Order.Ring.Unbundled.Rat

/-!
# Gates and arrivals

The `arrivals` table, the guests in memory, the queue of a gate and the choice of a gate. Game times
are rational numbers. A gate id such as `EU-1` is the pair of its type and its number.
-/

namespace Airport

/-- The passports that decide on the gates. -/
inductive PassportType where
  | EU
  | nonEU
deriving DecidableEq, Repr

/-- The lanes that a traveller may have booked. -/
inductive Priority where
  | standard
  | fast
deriving DecidableEq, Repr

/-- How far a row has come. -/
inductive Status where
  /-- Waiting in a queue. -/
  | queued
  /-- With a worker. -/
  | processing
  | processed
deriving DecidableEq, Repr

/-- The kinds of gates: for EU passports only, or for all. -/
inductive GateType where
  | EU
  | ALL
deriving DecidableEq, Repr

/-- The name of a gate. -/
structure GateId where
  /-- The passports the gate is for. -/
  type : GateType
  /-- Counted from one within the kind. -/
  number : ℕ
deriving DecidableEq, Repr

/-- `EU_GATES` and `ALL_GATES`. -/
structure Config where
  /-- `EU_GATES`. -/
  euGates : ℕ
  /-- `ALL_GATES`. -/
  allGates : ℕ

/-- The keys of `GateManager.gates` in their order. -/
def Config.gateIds (cfg : Config) : List GateId :=
  (List.range' 1 cfg.euGates).map (GateId.mk .EU) ++ (List.range' 1 cfg.allGates).map (GateId.mk .ALL)

/-- What an arrival request says about a guest. -/
structure Traveller where
  /-- Chosen by the caller; several rows may have it. -/
  guestId : String
  /-- `name` -/
  name : String
  /-- `surname` -/
  surname : String
  /-- `age` -/
  age : Int
  /-- Decides between the kinds of gates. -/
  passportType : PassportType
  /-- Decides on the place in the queue. -/
  priority : Priority
  /-- Goes before every priority. -/
  disability : Bool
deriving DecidableEq, Repr

/-- A row of `arrivals`. -/
structure Arrival where
  /-- The primary key. -/
  id : ℕ
  /-- The columns that come from the request. -/
  traveller : Traveller
  /-- `status` -/
  status : Status
  /-- The gate that the guest was sent to. -/
  gate : GateId
  /-- The game time of the arrival. -/
  queuedAt : ℚ
  /-- The game time at the end of the processing. -/
  processedAt : Option ℚ
  /-- The time between the two. -/
  waitTimeSeconds : Option ℚ
deriving DecidableEq

/-- A guest in memory, with the id of the row of the guest. -/
structure Guest where
  /-- The id of the row. -/
  arrivalId : ℕ
  /-- As in the row when it was copied. -/
  traveller : Traveller
  /-- `status` -/
  status : Status
  /-- `gate` -/
  gate : GateId
  /-- `queued_at` -/
  queuedAt : ℚ
  /-- `processed_at` -/
  processedAt : Option ℚ
  /-- `wait_time_seconds` -/
  waitTimeSeconds : Option ℚ
deriving DecidableEq

/-- `_effective_rank`: the smaller rank goes first. -/
def effectiveRank (t : Traveller) : ℕ :=
  if t.disability then 0
  else match t.priority with
    | .fast => 1
    | .standard => 2

/-- The rank by which a guest is queued. -/
def Guest.rank (g : Guest) : ℕ := effectiveRank g.traveller

/-- `ArrivalSchema.dump` with the `arrival_id`. -/
def Arrival.dump (row : Arrival) : Guest :=
  ⟨row.id, row.traveller, row.status, row.gate, row.queuedAt, row.processedAt, row.waitTimeSeconds⟩

/-! ## The table -/

/-- The table of arrivals: ids are a key and come from a counter. -/
structure Db where
  /-- In the order in which they were inserted. -/
  rows : List Arrival
  /-- The id of the next row. -/
  nextId : ℕ
  /-- `id` is the primary key. -/
  key : (rows.map Arrival.id).Nodup
  /-- The sequence of the ids is ahead of the rows. -/
  fresh : ∀ row ∈ rows, row.id < nextId

/-- A table without rows. -/
def Db.empty : Db := ⟨[], 1, List.nodup_nil, fun _ h => absurd h List.not_mem_nil⟩

/-- An insert; the database chooses the id. -/
def Db.insert (db : Db) (row : ℕ → Arrival) (hid : ∀ n, (row n).id = n) : Db where
  rows := db.rows ++ [row db.nextId]
  nextId := db.nextId + 1
  key := by
    refine Keyed.nodup_concat db.key fun h => ?_
    obtain ⟨r, hr, he⟩ := List.mem_map.1 h
    exact Nat.ne_of_lt (db.fresh r hr) (he.trans (hid _))
  fresh := by
    intro r hr
    rcases List.mem_append.1 hr with hr | hr
    · exact Nat.lt_succ_of_lt (db.fresh r hr)
    · rw [List.mem_singleton.1 hr, hid]
      exact Nat.lt_succ_self _

/-- Change rows without touching their ids. -/
def Db.modify (db : Db) (f : Arrival → Arrival) (hid : ∀ row, (f row).id = row.id) : Db where
  rows := db.rows.map f
  nextId := db.nextId
  key := by
    rw [List.map_map]
    exact (List.map_congr_left fun row _ => hid row) ▸ db.key
  fresh := by
    intro r hr
    obtain ⟨row, hrow, rfl⟩ := List.mem_map.1 hr
    rw [hid]
    exact db.fresh row hrow

/-- `arrival.status = "processing"` on the row with the id. -/
def Arrival.startIf (id : ℕ) (row : Arrival) : Arrival :=
  if row.id = id then { row with status := .processing } else row

/-- The three assignments that finish the row with the id. -/
def Arrival.finishIf (id : ℕ) (processedAt waitTime : ℚ) (row : Arrival) : Arrival :=
  if row.id = id then
    { row with
      status := .processed
      processedAt := some processedAt
      waitTimeSeconds := some waitTime }
  else row

theorem Arrival.startIf_id (id : ℕ) (row : Arrival) : (row.startIf id).id = row.id := by
  unfold Arrival.startIf
  split <;> rfl

theorem Arrival.finishIf_id (id : ℕ) (p w : ℚ) (row : Arrival) :
    (row.finishIf id p w).id = row.id := by
  unfold Arrival.finishIf
  split <;> rfl

/-! ## Gates -/

/-- How far the worker is with the guest it has popped. -/
inductive Stage where
  /-- Taken from the queue; the row says `queued`. -/
  | popped
  /-- The row says `processing`; the worker sleeps. -/
  | delayed
  /-- The row says `processed`; the event is to be published. -/
  | stored
  /-- The event is published; the slot is to be cleared. -/
  | published
deriving DecidableEq, Repr

/-- A gate. The guest of the worker and `currently_processing` are one object, set and cleared
together, so they are one component. -/
structure Gate where
  /-- `self.queue`, the next guest first. -/
  queue : List Guest
  /-- `self.currently_processing`, and how far the worker is. -/
  current : Option (Stage × Guest)
deriving DecidableEq

/-- A gate after its constructor. -/
def Gate.empty : Gate := ⟨[], none⟩

/-- The guest whom the worker has. -/
def Gate.currentlyProcessing (gate : Gate) : Option Guest := gate.current.map Prod.snd

/-- The gate after an insertion and the position, which starts at one. -/
def Gate.enqueue (gate : Gate) (guest : Guest) : Gate × ℕ :=
  ({ gate with queue := StableQueue.insert Guest.rank guest gate.queue },
    StableQueue.position Guest.rank guest gate.queue + 1)

/-- The gates by their ids. -/
abbrev Gates := GateId → Gate

/-- `min` over no candidates raises, so there may be no gate. -/
def shortestQueueGate (cfg : Config) (gates : Gates) (type : GateType) : Option GateId :=
  (cfg.gateIds.filter fun g => g.type = type).argmin fun g => (gates g).queue.length

/-- The gate of `assign_and_enqueue`: an EU guest goes to an ALL gate whose queue is strictly
shorter. -/
def chooseGate (cfg : Config) (gates : Gates) (t : Traveller) : Option GateId :=
  match t.passportType with
  | .EU => do
    let euGate ← shortestQueueGate cfg gates .EU
    let allGate ← shortestQueueGate cfg gates .ALL
    if (gates allGate).queue.length < (gates euGate).queue.length then some allGate else some euGate
  | .nonEU => shortestQueueGate cfg gates .ALL

/-! ## Rehydration -/

/-- One turn of the loop of `_rehydrate_from_db`, as far as memory is concerned. -/
def rehydrateRow (cfg : Config) (gates : Gates) (row : Arrival) : Gates :=
  if row.gate ∈ cfg.gateIds then
    let guest := row.dump
    let gate := gates row.gate
    if row.status = .processing then
      Function.update gates row.gate
        { gate with queue := { guest with status := .queued } :: gate.queue }
    else Function.update gates row.gate (gate.enqueue guest).1
  else gates

/-- `_rehydrate_from_db`, for rows in the order of its query. -/
def rehydrate (cfg : Config) (rows : List Arrival) : Gates :=
  rows.foldl (rehydrateRow cfg) fun _ => Gate.empty

/-- `row.status = "queued"` on the rows of known gates that were being processed. -/
def Arrival.requeue (cfg : Config) (row : Arrival) : Arrival :=
  if row.gate ∈ cfg.gateIds ∧ row.status = .processing then { row with status := .queued } else row

theorem Arrival.requeue_id (cfg : Config) (row : Arrival) : (row.requeue cfg).id = row.id := by
  unfold Arrival.requeue
  split <;> rfl

/-- The rows that are queued or processing. -/
def Db.pending (db : Db) : List Arrival := db.rows.filter fun row => row.status ≠ .processed

end Airport
