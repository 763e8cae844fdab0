import Webmeow.Airport.System
import Webmeow.Lib.Interleaving

/-!
# Concurrent calls of `assign_and_enqueue`

The calls alone, with no worker and no restart between their steps: a call chooses a gate, takes its
stamp, commits its row under `assignment_lock` and enqueues its guest under the lock of the gate.
-/

namespace Airport

open Interleaving

/-- What the calls share. -/
structure Shared where
  /-- The table. -/
  db : Db
  /-- The queues and workers. -/
  gates : Gates

/-- The next step of a call, or its end. -/
inductive Assign where
  /-- The gate is to be chosen. -/
  | choose (traveller : Traveller)
  /-- A gate is chosen, and the time is to be read. -/
  | stamp (traveller : Traveller) (gate : GateId)
  /-- The row is to be inserted. -/
  | commit (traveller : Traveller) (gate : GateId) (queuedAt : ℚ)
  /-- The row is committed, and its copy is to be queued. -/
  | enqueue (guest : Guest)
  /-- The call has returned, with the position of the guest. -/
  | enqueued (guest : Guest) (position : ℕ)
  /-- No gate was found. -/
  | raised

/-- The insert and the commit of a new row. -/
def Shared.addRow (s : Shared) (t : Traveller) (gate : GateId) (queuedAt : ℚ) : Shared :=
  { s with db := s.db.insert (newRow t gate queuedAt) (newRow_id t gate queuedAt) }

/-- `Gate.enqueue` at the gate of the guest. -/
def Shared.enqueue (s : Shared) (guest : Guest) : Shared :=
  { s with gates := Function.update s.gates guest.gate ((s.gates guest.gate).enqueue guest).1 }

/-- One step of a call; `now` is what `game_now` returns in it. -/
def assignStep (cfg : Config) (s : Shared) (call : Assign) (now : ℚ) : Option (Shared × Assign) :=
  match call with
  | .choose t =>
    match chooseGate cfg s.gates t with
    | none => some (s, .raised)
    | some g => some (s, .stamp t g)
  | .stamp t g => some (s, .commit t g now)
  | .commit t g queuedAt =>
    some (s.addRow t g queuedAt, .enqueue (newRow t g queuedAt s.db.nextId).dump)
  | .enqueue guest =>
    some (s.enqueue guest, .enqueued guest ((s.gates guest.gate).enqueue guest).2)
  | .enqueued _ _ => none
  | .raised => none

/-- All calls at their start. -/
def callsOf (s : Shared) (travellers : List Traveller) : Pool Shared Assign :=
  ⟨s, travellers.map .choose⟩

/-- Call number `e.1` performs its next step at the time `e.2`. -/
def assignmentStep (cfg : Config) (p : Pool Shared Assign) (e : ℕ × ℚ) : Option (Pool Shared Assign) :=
  p.step Assign.choose (assignStep cfg) (.advance e.1 e.2)

/-! ## One call after another -/

/-- `assign_and_enqueue` without interruption; `none` if it raises. -/
def assignAndEnqueue (cfg : Config) (s : Shared) (t : Traveller) (now : ℚ) : Option (Shared × Guest) :=
  (chooseGate cfg s.gates t).map fun g =>
    let guest := (newRow t g now s.db.nextId).dump
    ((s.addRow t g now).enqueue guest, guest)

/-- Calls one after another, each with its stamp: what they leave, and their guests. -/
def serial (cfg : Config) : Shared → List (Traveller × ℚ) → Option (Shared × List Guest)
  | s, [] => some (s, [])
  | s, c :: cs =>
    (assignAndEnqueue cfg s c.1 c.2).bind fun q =>
      (serial cfg q.1 cs).map fun r => (r.1, q.2 :: r.2)

/-- A whole call as one step, for arrivals that come one at a time. -/
def arriveAlone (cfg : Config) (s : Shared) (c : Traveller × ℚ) : Option Shared :=
  (assignAndEnqueue cfg s c.1 c.2).map Prod.fst

end Airport
