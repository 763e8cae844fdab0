import Webmeow.Hotel.Reservation

/-!
# The room list and requests handled one at a time

`RoomsService.findAll` recomputes how many guests stay in each room on the current day from the
stored reservations. `handle` is the service with every request run to completion before the next
one, behind the `ValidationPipe` of `main.ts`.
-/

namespace Hotel

/-- A room as it is listed. -/
structure RoomView where
  /-- `id` -/
  id : String
  /-- `type` -/
  type : RoomType
  /-- `capacity` -/
  capacity : Int
  /-- `price_per_night` -/
  pricePerNight : Int
  /-- `occupancy` -/
  occupancy : Int
  /-- `current_guests` -/
  currentGuests : Int
deriving DecidableEq, Repr

/-- The reservations that `findAll` selects: confirmed, begun, and not yet over. -/
def occupiedRooms (reservations : List Reservation) (currentDay : Int) : List Reservation :=
  reservations.filter fun r =>
    r.status = .CONFIRMED ∧ r.checkInDay ≤ currentDay ∧ currentDay < r.checkOutDay

/-- How many guests `findAll` counts for one reservation. -/
def Reservation.currentGuests (r : Reservation) : Int :=
  let knownPartySize := r.guests.length
  if 1 < knownPartySize then knownPartySize else r.guestCount

/-- The `reduce` into a map from room ids to guests; absent keys are `none`. -/
def currentGuestsByRoomId (occupied : List Reservation) : String → Option Int :=
  occupied.foldl
    (fun counts r key => if key = r.roomId then some ((counts key).getD 0 + r.currentGuests)
      else counts key)
    fun _ => none

/-- `RoomsService.findAll` on the given day. -/
def findAll (db : Db) (currentDay : Int) : List RoomView :=
  let counts := currentGuestsByRoomId (occupiedRooms db.reservations currentDay)
  (db.rooms.insertionSort fun a b => a.id ≤ b.id).map fun room =>
    let occupancy := (counts room.id).getD 0
    ⟨room.id, room.type, room.capacity, room.pricePerNight, occupancy, occupancy⟩

/-- A request with what the outside world contributes to it. -/
inductive SerialRequest where
  /-- A reservation is made, with the answers of the airport and the key of the row. -/
  | create (dto : CreateReservationDto) (airport : String → Option Bool) (uuid : String)
  /-- A reservation is cancelled. -/
  | cancel (id : String)

/-- One whole request; a rejected one leaves the database as it is. -/
def handle (db : Db) : SerialRequest → Db
  | .create dto airport uuid =>
    if dto.validate then
      match create db airport uuid dto with
      | .ok (db', _) => db'
      | .error _ => db
    else db
  | .cancel id =>
    match cancel db id with
    | .ok (db', _) => db'
    | .error _ => db

/-- `handle` as a step function; no request is ever refused a run. -/
def serialStep (db : Db) (r : SerialRequest) : Option Db := some (handle db r)

end Hotel
