import Webmeow.Airport.Gates
import Mathlib.Data.List.Perm.Basic

/-!
# The airport as a system of calls, workers and crashes

A call of `assign_and_enqueue` chooses a gate and takes its time stamp, commits a row, enqueues the
guest under the lock of the gate and answers. The worker of a gate pops a guest, commits the row as
processing, waits, commits it as processed, publishes and clears. A crash loses all memory and all
calls; the restart rehydrates the queues from the rows that are not processed.
-/

namespace Airport

/-- The answer to an arrival. -/
structure Assigned where
  /-- The id from the request. -/
  guestId : String
  /-- The gate. -/
  gate : GateId
  /-- What `enqueue` has returned. -/
  position : ℕ
  /-- The length of the queue when the answer is made. -/
  queueSize : ℕ
  /-- As in the row. -/
  queuedAt : ℚ

/-- Where a call of `assign_and_enqueue` is. -/
inductive Call where
  /-- The gate and the time are to be chosen. -/
  | choose (traveller : Traveller)
  /-- The row is to be inserted and committed. -/
  | commit (traveller : Traveller) (gate : GateId) (queuedAt : ℚ)
  /-- The copy of the row is to be queued. -/
  | enqueue (guest : Guest)
  /-- The answer is to be made. -/
  | respond (guest : Guest) (position : ℕ)
  /-- Answered. -/
  | done (answer : Assigned)
  /-- Ended by an exception. -/
  | raised

/-- The state of the service: the table, the gates and the calls that have begun. -/
structure System where
  /-- The table of arrivals. -/
  db : Db
  /-- The gates. -/
  gates : Gates
  /-- In the order in which they arrived. -/
  calls : List Call

/-- A step of a call, a step of a worker, or a crash. -/
inductive Event where
  /-- A call of `assign_and_enqueue` begins. -/
  | arrive (traveller : Traveller)
  /-- Call `i` chooses its gate at the game time `now`. -/
  | choose (i : ℕ) (now : ℚ)
  /-- Call `i` inserts its row. -/
  | commit (i : ℕ)
  /-- Call `i` queues its guest. -/
  | enqueue (i : ℕ)
  /-- Call `i` makes its answer. -/
  | respond (i : ℕ)
  /-- The worker takes the next guest. -/
  | pop (g : GateId)
  /-- The worker writes `processing`. -/
  | commitProcessing (g : GateId)
  /-- The worker writes `processed` and the wait. -/
  | commitProcessed (g : GateId) (now : ℚ)
  /-- The worker publishes the event of its guest. -/
  | publish (g : GateId)
  /-- The worker is free again. -/
  | clear (g : GateId)
  /-- A crash and the restart; the rows are what the query of the restart returns. -/
  | restart (rows : List Arrival)

/-- A service without rows and calls. -/
def System.initial : System := ⟨Db.empty, fun _ => Gate.empty, []⟩

/-- The row that `assign_and_enqueue` inserts, once the database has chosen its id. -/
def newRow (t : Traveller) (gate : GateId) (queuedAt : ℚ) (id : ℕ) : Arrival :=
  ⟨id, t, .queued, gate, queuedAt, none, none⟩

theorem newRow_id (t : Traveller) (gate : GateId) (queuedAt : ℚ) (id : ℕ) :
    (newRow t gate queuedAt id).id = id := rfl

/-- The insert of a new row. -/
def System.addRow (s : System) (t : Traveller) (gate : GateId) (queuedAt : ℚ) : System :=
  { s with db := s.db.insert (newRow t gate queuedAt) (newRow_id t gate queuedAt) }

/-- An update of rows that keeps their ids. -/
def System.modifyRows (s : System) (f : Arrival → Arrival) (hid : ∀ row, (f row).id = row.id) :
    System :=
  { s with db := s.db.modify f hid }

/-- One gate changes. -/
def System.setGate (s : System) (g : GateId) (gate : Gate) : System :=
  { s with gates := Function.update s.gates g gate }

/-- One call goes on. -/
def System.setCall (s : System) (i : ℕ) (call : Call) : System :=
  { s with calls := s.calls.set i call }

/-- The steps of a call. -/
def System.chooseStep (cfg : Config) (s : System) (i : ℕ) (now : ℚ) : Option System :=
  match s.calls[i]? with
  | some (.choose t) =>
    match chooseGate cfg s.gates t with
    | none => some (s.setCall i .raised)
    | some g => some (s.setCall i (.commit t g now))
  | _ => none

/-- The insert and the commit of `assign_and_enqueue`. -/
def System.commitStep (s : System) (i : ℕ) : Option System :=
  match s.calls[i]? with
  | some (.commit t g now) =>
    some ((s.addRow t g now).setCall i (.enqueue (newRow t g now s.db.nextId).dump))
  | _ => none

/-- `gate.enqueue(...)` of `assign_and_enqueue`. -/
def System.enqueueStep (s : System) (i : ℕ) : Option System :=
  match s.calls[i]? with
  | some (.enqueue guest) =>
    let (gate, position) := (s.gates guest.gate).enqueue guest
    some ((s.setGate guest.gate gate).setCall i (.respond guest position))
  | _ => none

/-- The dictionary that `assign_and_enqueue` returns. -/
def System.respondStep (s : System) (i : ℕ) : Option System :=
  match s.calls[i]? with
  | some (.respond guest position) =>
    some (s.setCall i (.done ⟨guest.traveller.guestId, guest.gate, position,
      (s.gates guest.gate).queue.length, guest.queuedAt⟩))
  | _ => none

/-- The steps of a worker. -/
def System.popStep (s : System) (g : GateId) : Option System :=
  match (s.gates g).current, (s.gates g).queue with
  | none, guest :: queue =>
    some (s.setGate g ⟨queue, some (.popped, { guest with status := .processing })⟩)
  | _, _ => none

/-- The first commit of `Gate._run`. -/
def System.commitProcessingStep (s : System) (g : GateId) : Option System :=
  match (s.gates g).current with
  | some (.popped, guest) =>
    some ((s.modifyRows (Arrival.startIf guest.arrivalId) (Arrival.startIf_id _)).setGate g
      { s.gates g with current := some (.delayed, guest) })
  | _ => none

/-- What the worker writes into the guest after the delay. -/
def Guest.finish (guest : Guest) (now : ℚ) : Guest :=
  { guest with
    status := .processed
    processedAt := some now
    waitTimeSeconds := some (now - guest.queuedAt) }

/-- The second commit of `Gate._run`, after the sleep. -/
def System.commitProcessedStep (s : System) (g : GateId) (now : ℚ) : Option System :=
  match (s.gates g).current with
  | some (.delayed, guest) =>
    some ((s.modifyRows (Arrival.finishIf guest.arrivalId now (now - guest.queuedAt))
      (Arrival.finishIf_id _ _ _)).setGate g
        { s.gates g with current := some (.stored, guest.finish now) })
  | _ => none

/-- `publish_event` of `Gate._run`. -/
def System.publishStep (s : System) (g : GateId) : Option System :=
  match (s.gates g).current with
  | some (.stored, guest) => some (s.setGate g { s.gates g with current := some (.published, guest) })
  | _ => none

/-- `Gate._run` forgets its guest. -/
def System.clearStep (s : System) (g : GateId) : Option System :=
  match (s.gates g).current with
  | some (.published, _) => some (s.setGate g { s.gates g with current := none })
  | _ => none

/-- The query may return rows with equal stamps in any order. -/
def System.restartStep (cfg : Config) (s : System) (rows : List Arrival) : Option System :=
  if rows.Perm s.db.pending ∧ rows.Pairwise fun a b => a.queuedAt ≤ b.queuedAt then
    some ⟨s.db.modify (Arrival.requeue cfg) (Arrival.requeue_id cfg), rehydrate cfg rows, []⟩
  else none

/-- One step. A gate that is not configured has no guests, so its worker has nothing to do. -/
def System.step (cfg : Config) (s : System) : Event → Option System
  | .arrive t => some { s with calls := s.calls ++ [.choose t] }
  | .choose i now => s.chooseStep cfg i now
  | .commit i => s.commitStep i
  | .enqueue i => s.enqueueStep i
  | .respond i => s.respondStep i
  | .pop g => s.popStep g
  | .commitProcessing g => s.commitProcessingStep g
  | .commitProcessed g now => s.commitProcessedStep g now
  | .publish g => s.publishStep g
  | .clear g => s.clearStep g
  | .restart rows => s.restartStep cfg rows

end Airport
