import Mathlib.Data.String.Basic
import Mathlib.Data.List.Dedup
import Mathlib.Data.List.Sort
import Webmeow.Lib.Keyed

/-!
# The hotel's reservation service

The tables of `schema.prisma` and `ReservationService`, one request at a time. Days are integer
simulation days and a stay is the half-open interval from `checkInDay` to `checkOutDay`. The airport
service is reached over HTTP, so its answers are an argument (`none` when it cannot be asked).
-/

namespace Hotel

/-- `RoomType` -/
inductive RoomType where
  | STANDARD
  | DELUXE
  | SUITE
deriving DecidableEq, Repr

/-- The name of a room type. -/
def RoomType.name : RoomType → String
  | .STANDARD => "STANDARD"
  | .DELUXE => "DELUXE"
  | .SUITE => "SUITE"

/-- `ReservationStatus` -/
inductive ReservationStatus where
  | CONFIRMED
  | CANCELLED
deriving DecidableEq, Repr

/-- A row of the rooms. -/
structure Room where
  /-- `id` -/
  id : String
  /-- `type` -/
  type : RoomType
  /-- `capacity` -/
  capacity : Int
  /-- `price_per_night` -/
  pricePerNight : Int
deriving DecidableEq, Repr

/-- The values of an `Int` column: PostgreSQL's `INTEGER` has 32 bits. -/
def fitsInt4 (n : Int) : Bool := decide (-2147483648 ≤ n ∧ n ≤ 2147483647)

/-- The values of a `String` column: PostgreSQL's `TEXT` cannot hold U+0000. -/
def fitsText (s : String) : Bool := s.toList.all fun c => c.toNat != 0

/-- A row of `Reservation` with its `ReservationGuest` rows. -/
structure Reservation where
  /-- `id` -/
  id : String
  /-- `guest_id` -/
  guestId : String
  /-- `room_id` -/
  roomId : String
  /-- `guest_count` -/
  guestCount : Int
  /-- `check_in_day` -/
  checkInDay : Int
  /-- `check_out_day` -/
  checkOutDay : Int
  /-- `status` -/
  status : ReservationStatus
  /-- The guest ids of its rows of `ReservationGuest`. -/
  guests : List String
deriving DecidableEq, Repr

/-- The values that the service takes from a request fit their columns. -/
def Reservation.fits (r : Reservation) : Bool :=
  fitsText r.guestId && fitsInt4 r.guestCount && fitsInt4 r.checkInDay && fitsInt4 r.checkOutDay &&
    r.guests.all fitsText

/-- The database, with the constraints that the schema declares: the primary keys of `Room`,
`Reservation` and `ReservationGuest`, the foreign key of `Reservation.room_id`, and the types of the
columns. -/
@[ext]
structure Db where
  /-- The rooms. -/
  rooms : List Room
  /-- The reservations, in the order of their insertion. -/
  reservations : List Reservation
  /-- No two rooms have the same id. -/
  roomKey : (rooms.map Room.id).Nodup
  /-- No two reservations have the same id. -/
  reservationKey : (reservations.map Reservation.id).Nodup
  /-- No guest is listed twice for a reservation. -/
  guestKey : ∀ r ∈ reservations, r.guests.Nodup
  /-- A reservation is of a room there is. -/
  roomRef : ∀ r ∈ reservations, r.roomId ∈ rooms.map Room.id
  /-- Every value fits its column. -/
  columns : ∀ r ∈ reservations, r.fits = true

/-- The database of a hotel in which nothing is reserved. -/
def Db.vacant (rooms : List Room) (roomKey : (rooms.map Room.id).Nodup) : Db where
  rooms := rooms
  reservations := []
  roomKey := roomKey
  reservationKey := List.nodup_nil
  guestKey := by simp
  roomRef := by simp
  columns := by simp

/-- `INSERT` of a reservation; `none` when a constraint of the schema rejects the row. -/
def Db.insertReservation (db : Db) (r : Reservation) : Option Db :=
  if h : r.id ∉ db.reservations.map Reservation.id ∧ r.guests.Nodup ∧
      r.roomId ∈ db.rooms.map Room.id ∧ r.fits = true then
    some
      { rooms := db.rooms
        reservations := db.reservations ++ [r]
        roomKey := db.roomKey
        reservationKey := Keyed.nodup_concat db.reservationKey h.1
        guestKey := by
          intro s hs
          rcases List.mem_append.1 hs with hs | hs
          · exact db.guestKey s hs
          · rw [List.mem_singleton.1 hs]; exact h.2.1
        roomRef := by
          intro s hs
          rcases List.mem_append.1 hs with hs | hs
          · exact db.roomRef s hs
          · rw [List.mem_singleton.1 hs]; exact h.2.2.1
        columns := by
          intro s hs
          rcases List.mem_append.1 hs with hs | hs
          · exact db.columns s hs
          · rw [List.mem_singleton.1 hs]; exact h.2.2.2 }
  else none

/-- The row with status `CANCELLED` if its id is `id`. -/
def Reservation.cancelIf (id : String) (r : Reservation) : Reservation :=
  if r.id = id then { r with status := .CANCELLED } else r

@[simp]
theorem Reservation.cancelIf_id (id : String) (r : Reservation) : (r.cancelIf id).id = r.id := by
  unfold cancelIf; split_ifs <;> rfl

@[simp]
theorem Reservation.cancelIf_guests (id : String) (r : Reservation) :
    (r.cancelIf id).guests = r.guests := by
  unfold cancelIf; split_ifs <;> rfl

@[simp]
theorem Reservation.cancelIf_roomId (id : String) (r : Reservation) :
    (r.cancelIf id).roomId = r.roomId := by
  unfold cancelIf; split_ifs <;> rfl

@[simp]
theorem Reservation.cancelIf_fits (id : String) (r : Reservation) :
    (r.cancelIf id).fits = r.fits := by
  unfold cancelIf; split_ifs <;> rfl

/-- `prisma.reservation.update` with `data: { status: CANCELLED }`. -/
def Db.cancelReservation (db : Db) (id : String) : Db where
  rooms := db.rooms
  reservations := db.reservations.map (Reservation.cancelIf id)
  roomKey := db.roomKey
  reservationKey := by
    have h : Reservation.id ∘ Reservation.cancelIf id = Reservation.id := by
      funext r; simp
    rw [List.map_map, h]
    exact db.reservationKey
  guestKey := by
    intro s hs
    obtain ⟨r, hr, rfl⟩ := List.mem_map.1 hs
    rw [Reservation.cancelIf_guests]
    exact db.guestKey r hr
  roomRef := by
    intro s hs
    obtain ⟨r, hr, rfl⟩ := List.mem_map.1 hs
    rw [Reservation.cancelIf_roomId]
    exact db.roomRef r hr
  columns := by
    intro s hs
    obtain ⟨r, hr, rfl⟩ := List.mem_map.1 hs
    rw [Reservation.cancelIf_fits]
    exact db.columns r hr

/-- A reservation read with `include: { room: true, guests: { orderBy: { guest_id: 'asc' } } }`. -/
structure ReservationWithRoomAndGuests where
  /-- The reservation. -/
  reservation : Reservation
  /-- The type of its room. -/
  roomType : RoomType
  /-- Its guests, in the order of their ids. -/
  guests : List String
deriving DecidableEq, Repr

/-- The row with what `include` adds to it. -/
def Db.include (db : Db) (r : Reservation) : Option ReservationWithRoomAndGuests :=
  (db.rooms.find? fun room => room.id = r.roomId).map fun room =>
    ⟨r, room.type, r.guests.insertionSort (· ≤ ·)⟩

/-- `prisma.reservation.findUnique({ where: { id } })`. -/
def Db.findUnique (db : Db) (id : String) : Option ReservationWithRoomAndGuests :=
  (db.reservations.find? fun r => r.id = id).bind db.include

/-- `prisma.room.findMany` of one type, `orderBy: { id: 'asc' }`. -/
def Db.findRooms (db : Db) (type : RoomType) : List Room :=
  (db.rooms.filter fun room => room.type = type).insertionSort fun a b => a.id ≤ b.id

/-- `CreateReservationDto` -/
structure CreateReservationDto where
  /-- `guest_id` -/
  guestId : String
  /-- `party_guest_ids`, if it is given. -/
  partyGuestIds : Option (List String)
  /-- `room_type` -/
  roomType : RoomType
  /-- `guest_count` -/
  guestCount : Int
  /-- `check_in_day` -/
  checkInDay : Int
  /-- `check_out_day` -/
  checkOutDay : Int
deriving DecidableEq, Repr

/-- The decorators of `CreateReservationDto` that the types do not already express. -/
def CreateReservationDto.validate (dto : CreateReservationDto) : Bool :=
  (match dto.partyGuestIds with
    | none => true
    | some ids => decide (1 ≤ ids.length ∧ ids.Nodup ∧ ∀ id ∈ ids, 1 ≤ id.length)) &&
  decide (1 ≤ dto.guestCount)

/-- The statuses the service answers with besides success. -/
inductive HttpStatus where
  | BAD_REQUEST
  | NOT_FOUND
  | CONFLICT
  | INTERNAL_SERVER_ERROR
deriving DecidableEq, Repr

/-- The status codes of the answers. -/
def HttpStatus.code : HttpStatus → ℕ
  | .BAD_REQUEST => 400
  | .NOT_FOUND => 404
  | .CONFLICT => 409
  | .INTERNAL_SERVER_ERROR => 500

/-- `HttpException` -/
structure HttpException where
  /-- The text of the error. -/
  error : String
  /-- The status. -/
  status : HttpStatus
deriving DecidableEq, Repr

/-- What the global exception filter answers for an exception that is not an `HttpException`. -/
def internalServerError : HttpException := ⟨"Internal server error", .INTERNAL_SERVER_ERROR⟩

/-- The party a request is for and the head count its room has to hold. -/
structure Party where
  /-- The guests of the stay. -/
  partyGuestIds : List String
  /-- How many places they take. -/
  capacityGuestCount : Int
deriving DecidableEq, Repr

/-- The party of a request, or what is wrong with it. -/
def resolvePartyGuests (dto : CreateReservationDto) : Except HttpException Party :=
  match dto.partyGuestIds with
  | none => .ok ⟨[dto.guestId], dto.guestCount⟩
  | some ids =>
    if ids.length = 0 then
      .error ⟨"party_guest_ids must include at least one guest", .BAD_REQUEST⟩
    else if ids.any fun id => id.length = 0 then
      .error ⟨"party_guest_ids cannot include empty guest IDs", .BAD_REQUEST⟩
    else if ids.dedup.length ≠ ids.length then
      .error ⟨"party_guest_ids cannot include duplicate guest IDs", .BAD_REQUEST⟩
    else if dto.guestId ∉ ids then
      .error ⟨"party_guest_ids must include guest_id", .BAD_REQUEST⟩
    else .ok ⟨ids, ids.length⟩

/-- Only an explicit `false` of the airport blocks; an airport that cannot be asked does not. -/
def rejectIfPartyHasNotClearedAirport (airport : String → Option Bool) (guestIds : List String) :
    Except HttpException Unit :=
  match guestIds.find? fun id => airport id = some false with
  | some id => .error ⟨"Guest " ++ id ++ " has not cleared airport processing", .CONFLICT⟩
  | none => .ok ()

/-- `Math.max` over the capacities, `none` standing for the `-Infinity` of an empty list. -/
def maxCapacity (rooms : List Room) : Option Int :=
  (rooms.map Room.capacity).max?

/-- Whether no room of the type is large enough. -/
def exceedsMaxCapacity (capacityGuestCount : Int) (rooms : List Room) : Bool :=
  match maxCapacity rooms with
  | none => true
  | some c => decide (c < capacityGuestCount)

/-- The answer to a party that is too large. -/
def maxCapacityError (type : RoomType) (rooms : List Room) : HttpException :=
  let limit := match maxCapacity rooms with
    | none => "-Infinity"
    | some c => toString c
  ⟨"Room type " ++ type.name ++ " supports at most " ++ limit ++ " guests", .CONFLICT⟩

/-- The `where` clause of the overlap count: a confirmed stay of `room` that begins before the
request's check-out and ends after its check-in. -/
def Reservation.overlapping (r : Reservation) (room : Room) (dto : CreateReservationDto) : Bool :=
  decide (r.roomId = room.id ∧ r.status = .CONFIRMED ∧ r.checkInDay < dto.checkOutDay ∧
    dto.checkInDay < r.checkOutDay)

/-- How many confirmed reservations of the room overlap the stay. -/
def overlappingReservationCount (reservations : List Reservation) (room : Room)
    (dto : CreateReservationDto) : ℕ :=
  reservations.countP fun r => r.overlapping room dto

/-- `prisma.reservation.count` of the overlapping reservations; a day that is no value of its column is
an exception. -/
def countOverlapping (reservations : List Reservation) (room : Room) (dto : CreateReservationDto) :
    Except HttpException ℕ :=
  if fitsInt4 dto.checkInDay && fitsInt4 dto.checkOutDay then
    .ok (overlappingReservationCount reservations room dto)
  else .error internalServerError

/-- The loop over the rooms of the requested type: the first one that is large enough and free. -/
def pickRoom (reservations : List Reservation) (dto : CreateReservationDto)
    (capacityGuestCount : Int) : List Room → Except HttpException (Option Room)
  | [] => .ok none
  | room :: rest =>
    if room.capacity < capacityGuestCount then pickRoom reservations dto capacityGuestCount rest
    else
      match countOverlapping reservations room dto with
      | .error e => .error e
      | .ok n =>
        if n = 0 then .ok (some room) else pickRoom reservations dto capacityGuestCount rest

/-- The answer if every room is taken. -/
def noAvailableRooms (dto : CreateReservationDto) : HttpException :=
  ⟨"No available rooms of type " ++ dto.roomType.name ++ " for days " ++ toString dto.checkInDay ++
    "-" ++ toString dto.checkOutDay, .CONFLICT⟩

/-- The row that `create` inserts; `uuid` is the generated primary key. -/
def newReservation (dto : CreateReservationDto) (partyGuestIds : List String) (room : Room)
    (uuid : String) : Reservation where
  id := uuid
  guestId := dto.guestId
  roomId := room.id
  guestCount := dto.guestCount
  checkInDay := dto.checkInDay
  checkOutDay := dto.checkOutDay
  status := .CONFIRMED
  guests := partyGuestIds

/-- `prisma.reservation.create` with its `include`; a violated constraint is an exception. -/
def Db.createReservation (db : Db) (r : Reservation) :
    Except HttpException (Db × ReservationWithRoomAndGuests) :=
  match db.insertReservation r with
  | none => .error internalServerError
  | some db' =>
    match db'.include r with
    | none => .error internalServerError
    | some row => .ok (db', row)

/-- `ReservationResponseDto` -/
structure ReservationResponseDto where
  /-- `id` -/
  id : String
  /-- `guest_id` -/
  guestId : String
  /-- `party_guest_ids` -/
  partyGuestIds : List String
  /-- `room_id` -/
  roomId : String
  /-- `room_type` -/
  roomType : RoomType
  /-- `guest_count` -/
  guestCount : Int
  /-- `check_in_day` -/
  checkInDay : Int
  /-- `check_out_day` -/
  checkOutDay : Int
  /-- `status` -/
  status : ReservationStatus
deriving DecidableEq, Repr

/-- The guests of a row, or who made it if none are listed. -/
def partyGuestIdsFromReservation (row : ReservationWithRoomAndGuests) : List String :=
  if 0 < row.guests.length then row.guests else [row.reservation.guestId]

/-- The answer for a row. -/
def toReservationResponse (row : ReservationWithRoomAndGuests) : ReservationResponseDto where
  id := row.reservation.id
  guestId := row.reservation.guestId
  partyGuestIds := partyGuestIdsFromReservation row
  roomId := row.reservation.roomId
  roomType := row.roomType
  guestCount := row.reservation.guestCount
  checkInDay := row.reservation.checkInDay
  checkOutDay := row.reservation.checkOutDay
  status := row.reservation.status

/-- The stay has to end after it starts. -/
def checkDays (dto : CreateReservationDto) : Except HttpException Unit :=
  if dto.checkOutDay ≤ dto.checkInDay then
    .error ⟨"check_out_day must be greater than check_in_day", .BAD_REQUEST⟩
  else .ok ()

/-- `ReservationService.create` without interruption: the row is inserted, or the database is as
before and the request fails. -/
def create (db : Db) (airport : String → Option Bool) (uuid : String)
    (dto : CreateReservationDto) : Except HttpException (Db × ReservationWithRoomAndGuests) := do
  checkDays dto
  let party ← resolvePartyGuests dto
  rejectIfPartyHasNotClearedAirport airport party.partyGuestIds
  let rooms := db.findRooms dto.roomType
  if exceedsMaxCapacity party.capacityGuestCount rooms then
    throw (maxCapacityError dto.roomType rooms)
  match ← pickRoom db.reservations dto party.capacityGuestCount rooms with
  | none => throw (noAvailableRooms dto)
  | some room =>
    db.createReservation (newReservation dto party.partyGuestIds room uuid)

/-- `CancelReservationResponseDto` -/
structure CancelReservationResponseDto where
  /-- `id` -/
  id : String
  /-- `status` -/
  status : ReservationStatus
deriving DecidableEq, Repr

/-- The answer for an id that is not there. -/
def reservationNotFound : HttpException := ⟨"Reservation not found", .NOT_FOUND⟩

/-- `ReservationService.cancel` without interruption. A query for a text that no column can hold is an
exception. -/
def cancel (db : Db) (id : String) : Except HttpException (Db × CancelReservationResponseDto) :=
  if ¬ fitsText id then .error internalServerError
  else
    match db.findUnique id with
    | none => .error reservationNotFound
    | some row =>
      if row.reservation.status = .CANCELLED then
        .ok (db, ⟨row.reservation.id, row.reservation.status⟩)
      else .ok (db.cancelReservation id, ⟨row.reservation.id, .CANCELLED⟩)

end Hotel
