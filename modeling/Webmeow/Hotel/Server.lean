import Webmeow.Hotel.Reservation
import Webmeow.Lib.Interleaving

/-!
# Concurrent requests to the hotel

`ReservationService.create` and `cancel` as threads that are suspended at every `await`. The code
between two awaits belongs to the step of the first; each awaited Prisma call is one atomic step of
the database. Nothing else protects the check of a room against the insert that follows it.
-/

namespace Hotel

open Interleaving

/-- The events of the hotel. -/
inductive HotelBroadcastEventType where
  | ReservationConfirmed
  | ReservationCancelled
deriving DecidableEq, Repr

/-- What the hotel posts about a reservation. -/
structure HotelBroadcastEvent where
  /-- `message` -/
  message : String
  /-- `reservation_id` -/
  reservationId : String
  /-- `guest_id` -/
  guestId : String
  /-- `party_guest_ids` -/
  partyGuestIds : List String
  /-- `room_type` -/
  roomType : RoomType
  /-- `guest_count` -/
  guestCount : Int
  /-- `check_in_day` -/
  checkInDay : Int
  /-- `check_out_day` -/
  checkOutDay : Int
deriving DecidableEq, Repr

/-- The event for a row. -/
def broadcastEvent (message : String) (row : ReservationWithRoomAndGuests) :
    HotelBroadcastEvent where
  message := message
  reservationId := row.reservation.id
  guestId := row.reservation.guestId
  partyGuestIds := partyGuestIdsFromReservation row
  roomType := row.roomType
  guestCount := row.reservation.guestCount
  checkInDay := row.reservation.checkInDay
  checkOutDay := row.reservation.checkOutDay

/-- The database and the calls of `publishHotelEvent` made so far. -/
structure Server where
  /-- The database. -/
  db : Db
  /-- The events published, in order. -/
  published : List (HotelBroadcastEventType × HotelBroadcastEvent)

/-- Where a `create` is suspended. -/
inductive CreatePc where
  /-- Before the airport is asked. -/
  | airport (party : Party)
  /-- Before the rooms are read. -/
  | findRooms (party : Party)
  /-- Before the overlap count of `room`; `rest` are the rooms after it. -/
  | count (party : Party) (room : Room) (rest : List Room)
  /-- Before the insert. -/
  | insert (party : Party) (room : Room)
  /-- Before the event is published. -/
  | publish (row : ReservationWithRoomAndGuests)
  /-- The promise is settled. -/
  | settled (result : Except HttpException ReservationResponseDto)

/-- Where a `cancel` is suspended. -/
inductive CancelPc where
  /-- Before the row is read. -/
  | find
  /-- Before the update. -/
  | update
  /-- Before the event is published. -/
  | publish (row : ReservationWithRoomAndGuests)
  /-- The promise is settled. -/
  | settled (result : Except HttpException CancelReservationResponseDto)

/-- A request that writes. -/
inductive Request where
  | create (dto : CreateReservationDto)
  | cancel (id : String)

/-- A request that is being handled. -/
inductive Thread where
  | create (dto : CreateReservationDto) (pc : CreatePc)
  | cancel (id : String) (pc : CancelPc)

/-- What the outside world supplies to a step: the airport's answers and a generated key. -/
structure Input where
  /-- What the airport answers about each guest, `none` where it cannot be asked. -/
  airport : String → Option Bool
  /-- The key generated for a row. -/
  uuid : String

/-- `create` up to its first `await`. -/
def createStart (dto : CreateReservationDto) : CreatePc :=
  match checkDays dto with
  | .error e => .settled (.error e)
  | .ok () =>
    match resolvePartyGuests dto with
    | .error e => .settled (.error e)
    | .ok party => .airport party

/-- The handling of a request as it comes in. -/
def start : Request → Thread
  | .create dto => .create dto (createStart dto)
  | .cancel id => .cancel id .find

/-- The loop over the rooms up to its next `await`: rooms that are too small are skipped. -/
def scan (dto : CreateReservationDto) (party : Party) (rooms : List Room) : CreatePc :=
  match rooms.dropWhile fun room => room.capacity < party.capacityGuestCount with
  | [] => .settled (.error (noAvailableRooms dto))
  | room :: rest => .count party room rest

/-- One step of `create`. -/
def createStep (srv : Server) (dto : CreateReservationDto) (x : Input) :
    CreatePc → Option (Server × CreatePc)
  | .airport party =>
    match rejectIfPartyHasNotClearedAirport x.airport party.partyGuestIds with
    | .error e => some (srv, .settled (.error e))
    | .ok () => some (srv, .findRooms party)
  | .findRooms party =>
    let rooms := srv.db.findRooms dto.roomType
    if exceedsMaxCapacity party.capacityGuestCount rooms then
      some (srv, .settled (.error (maxCapacityError dto.roomType rooms)))
    else some (srv, scan dto party rooms)
  | .count party room rest =>
    match countOverlapping srv.db.reservations room dto with
    | .error e => some (srv, .settled (.error e))
    | .ok n =>
      if n = 0 then some (srv, .insert party room) else some (srv, scan dto party rest)
  | .insert party room =>
    match srv.db.createReservation (newReservation dto party.partyGuestIds room x.uuid) with
    | .error e => some (srv, .settled (.error e))
    | .ok (db', row) => some ({ srv with db := db' }, .publish row)
  | .publish row =>
    some
      ({ srv with
          published := srv.published ++
            [(.ReservationConfirmed, broadcastEvent "Hotel reservation confirmed." row)] },
        .settled (.ok (toReservationResponse row)))
  | .settled _ => none

/-- One step of `cancel`. -/
def cancelStep (srv : Server) (id : String) : CancelPc → Option (Server × CancelPc)
  | .find =>
    if ¬ fitsText id then some (srv, .settled (.error internalServerError))
    else
      match srv.db.findUnique id with
      | none => some (srv, .settled (.error reservationNotFound))
      | some row =>
        if row.reservation.status = .CANCELLED then
          some (srv, .settled (.ok ⟨row.reservation.id, row.reservation.status⟩))
        else some (srv, .update)
  | .update =>
    let db' := srv.db.cancelReservation id
    match db'.findUnique id with
    | none => some (srv, .settled (.error internalServerError))
    | some row => some ({ srv with db := db' }, .publish row)
  | .publish row =>
    some
      ({ srv with
          published := srv.published ++
            [(.ReservationCancelled, broadcastEvent "Hotel reservation cancelled." row)] },
        .settled (.ok ⟨row.reservation.id, row.reservation.status⟩))
  | .settled _ => none

/-- One step of a request. -/
def act (srv : Server) (t : Thread) (x : Input) : Option (Server × Thread) :=
  match t with
  | .create dto pc => (createStep srv dto x pc).map fun q => (q.1, .create dto q.2)
  | .cancel id pc => (cancelStep srv id pc).map fun q => (q.1, .cancel id q.2)

/-- The hotel with all its requests. -/
abbrev System := Pool Server Thread

/-- A request comes in or one of them takes a step. -/
def step : System → Event Request Input → Option System := Pool.step start act

/-- The service on a database, before any request. -/
def System.initial (db : Db) : System := ⟨⟨db, []⟩, []⟩

end Hotel
