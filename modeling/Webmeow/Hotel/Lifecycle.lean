import Webmeow.Hotel.Lookup
import Webmeow.Hotel.Server

/-!
# All requests of the reservation service

The threads of `Hotel.Server` together with the reads, each of which is one awaited query. A
publication is caused when its thread comes to the `await` of `publishHotelEvent`: the thread does
nothing else from there on.
-/

namespace Hotel

open Interleaving

/-- A request to the reservation service. -/
inductive ServiceRequest where
  | write (r : Request)
  | findById (id : String)
  | findActiveByGuestId (guestId : String)

/-- A read carries its answer once the query is done. -/
inductive ServiceThread where
  /-- A request that writes. -/
  | write (t : Thread)
  /-- A read by id. -/
  | findById (id : String) (answer : Option (Except HttpException ReservationResponseDto))
  /-- A read by guest. -/
  | findActiveByGuestId (guestId : String)
      (answer : Option (Except HttpException (Option ReservationResponseDto)))

/-- The handling of a request as it comes in. -/
def startService : ServiceRequest → ServiceThread
  | .write r => .write (start r)
  | .findById id => .findById id none
  | .findActiveByGuestId guestId => .findActiveByGuestId guestId none

/-- One step of a request. -/
def actService (srv : Server) (t : ServiceThread) (x : Input) : Option (Server × ServiceThread) :=
  match t with
  | .write t => (act srv t x).map fun q => (q.1, .write q.2)
  | .findById id none => some (srv, .findById id (some (srv.db.findById id)))
  | .findActiveByGuestId guestId none =>
    some (srv, .findActiveByGuestId guestId (some (srv.db.findActiveByGuestId guestId)))
  | .findById _ (some _) => none
  | .findActiveByGuestId _ (some _) => none

/-- Any number of requests over one server. -/
abbrev ServiceSystem := Pool Server ServiceThread

/-- A request comes in or one of them takes a step. -/
def serviceStep : ServiceSystem → Event ServiceRequest Input → Option ServiceSystem :=
  Pool.step startService actService

/-- No request has come in. -/
def ServiceSystem.initial (db : Db) : ServiceSystem := ⟨⟨db, []⟩, []⟩

/-- The publication at which a thread is suspended: its type and its reservation. -/
def Thread.publishing : Thread → Option (HotelBroadcastEventType × String)
  | .create _ (.publish row) => some (.ReservationConfirmed, row.reservation.id)
  | .cancel _ (.publish row) => some (.ReservationCancelled, row.reservation.id)
  | _ => none

/-- The event a thread is about to publish, with the id of its reservation. -/
def ServiceThread.publishing : ServiceThread → Option (HotelBroadcastEventType × String)
  | .write t => t.publishing
  | _ => none

/-- The publications of one type that a reservation has caused: those made and those that a thread
is about to make. -/
def ServiceSystem.caused (p : ServiceSystem) (type : HotelBroadcastEventType) (id : String) : ℕ :=
  p.store.published.countP (fun e => decide (e.1 = type ∧ e.2.reservationId = id)) +
    p.threads.countP fun t => decide (t.publishing = some (type, id))

/-- The ids of the reservations. -/
def Db.ids (db : Db) : List String := db.reservations.map Reservation.id

/-- There is a cancelled row with this id. -/
def Db.isCancelled (db : Db) (id : String) : Bool :=
  db.reservations.any fun r => decide (r.id = id ∧ r.status = .CANCELLED)

/-- The step is the update of a `cancel` although the row is cancelled by now. -/
def repeatedUpdate (p : ServiceSystem) : Event ServiceRequest Input → Bool
  | .request _ => false
  | .advance i _ =>
    match p.threads[i]? with
    | some (.write (.cancel id .update)) => p.store.db.isCancelled id
    | _ => false

end Hotel
