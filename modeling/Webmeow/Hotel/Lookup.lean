import Webmeow.Hotel.Rooms

/-!
# Looking reservations up

`findActiveByGuestId` and `findById` of `ReservationService`. A query for a text that no column can
hold is an exception. Where the order of equal check-in days is left open, the first row of the
table is taken.
-/

namespace Hotel

/-- The service as a request finds it. -/
structure Service where
  /-- The database. -/
  db : Db
  /-- The simulation day. -/
  currentDay : Int

/-- The guest made the reservation or belongs to its party. -/
def Reservation.involves (guestId : String) (r : Reservation) : Bool :=
  decide (r.guestId = guestId ∨ guestId ∈ r.guests)

/-- `prisma.reservation.findFirst` of the confirmed reservations of a guest, the latest first. -/
def Db.findFirst (db : Db) (guestId : String) : Option ReservationWithRoomAndGuests :=
  let active := (db.reservations.filter (Reservation.involves guestId)).filter fun r =>
    r.status = .CONFIRMED
  (active.insertionSort fun a b => b.checkInDay ≤ a.checkInDay).head?.bind db.include

/-- The latest confirmed reservation of a guest, if there is one. -/
def Db.findActiveByGuestId (db : Db) (guestId : String) :
    Except HttpException (Option ReservationResponseDto) :=
  if ¬ fitsText guestId then .error internalServerError
  else .ok ((db.findFirst guestId).map toReservationResponse)

/-- The reservation of an id, or 404. -/
def Db.findById (db : Db) (id : String) : Except HttpException ReservationResponseDto :=
  if ¬ fitsText id then .error internalServerError
  else
    match db.findUnique id with
    | none => .error reservationNotFound
    | some row => .ok (toReservationResponse row)

/-! ## Calls one after the other -/

/-- A call of the service, with the answers of the airport and the key generated for a row. -/
inductive Call where
  /-- A call of `create`, with the key of the row. -/
  | create (airport : String → Option Bool) (uuid : String) (dto : CreateReservationDto)
  /-- A call of `cancel`. -/
  | cancel (id : String)

/-- The database and the history of the calls that succeeded: the reservations created, with what
they were created from, and the ids cancelled. -/
structure Ledger where
  /-- The database. -/
  db : Db
  /-- The ids created, with what they were created from. -/
  created : List (String × CreateReservationDto)
  /-- The ids cancelled. -/
  cancelled : List String

/-- A hotel with these rooms and no reservation. -/
def Ledger.initial (rooms : List Room) (roomKey : (rooms.map Room.id).Nodup) : Ledger :=
  ⟨Db.vacant rooms roomKey, [], []⟩

/-- The ledger after one call. -/
def Ledger.serve (s : Ledger) : Call → Ledger
  | .create airport uuid dto =>
    match create s.db airport uuid dto with
    | .error _ => s
    | .ok (db', _) => { s with db := db', created := s.created ++ [(uuid, dto)] }
  | .cancel id =>
    match cancel s.db id with
    | .error _ => s
    | .ok (db', _) => { s with db := db', cancelled := id :: s.cancelled }

/-- The reservations created and not cancelled since. -/
def Ledger.active (s : Ledger) : List (String × CreateReservationDto) :=
  s.created.filter fun b => b.1 ∉ s.cancelled

end Hotel
