import Webmeow.Hotel.Proofs.SerialProofs
import Webmeow.Hotel.Proofs.DoubleBookingProofs
import Webmeow.Lib.OrderedRows

/-!
# `create` is first fit

When a `create` that runs alone succeeds and which room it books, said without the loop and without
the overlap count. A stored stay blocks a room for the days it contains. A stored stay without any
day can only come from outside the service; the count treats it as a point in time.
-/

namespace Hotel

/-- The guests a request is for. -/
def CreateReservationDto.party (dto : CreateReservationDto) : List String :=
  dto.partyGuestIds.getD [dto.guestId]

/-- The beds a request needs: an explicit party counts for itself. -/
def CreateReservationDto.headCount (dto : CreateReservationDto) : Int :=
  match dto.partyGuestIds with
  | none => dto.guestCount
  | some ids => ids.length

/-- The party list of the request, if there is one, is in order. -/
def CreateReservationDto.PartyOk (dto : CreateReservationDto) : Prop :=
  ∀ ids, dto.partyGuestIds = some ids →
    ids ≠ [] ∧ ids.Nodup ∧ "" ∉ ids ∧ dto.guestId ∈ ids

/-- The values of the request that are stored are values of their columns. -/
structure CreateReservationDto.Storable (dto : CreateReservationDto) : Prop where
  /-- The number of guests fits its column. -/
  guestCount : fitsInt4 dto.guestCount = true
  /-- The first day fits its column. -/
  checkInDay : fitsInt4 dto.checkInDay = true
  /-- The last day fits its column. -/
  checkOutDay : fitsInt4 dto.checkOutDay = true
  /-- The ids fit theirs. -/
  party : ∀ id ∈ dto.party, fitsText id = true

/-- Some requested day is a day of the stay `r`. -/
def Reservation.SharesDay (r : Reservation) (dto : CreateReservationDto) : Prop :=
  ∃ d, (dto.checkInDay ≤ d ∧ d < dto.checkOutDay) ∧ r.Covers d

/-- A stay without days, begun before the requested check-out and over after the check-in. -/
def Reservation.EmptyWithin (r : Reservation) (dto : CreateReservationDto) : Prop :=
  r.checkOutDay ≤ r.checkInDay ∧ r.checkInDay < dto.checkOutDay ∧ dto.checkInDay < r.checkOutDay

/-- The row keeps `room` from being booked for the requested days. -/
def Reservation.Blocks (r : Reservation) (room : Room) (dto : CreateReservationDto) : Prop :=
  r.roomId = room.id ∧ r.status = .CONFIRMED ∧ (r.SharesDay dto ∨ r.EmptyWithin dto)

/-- A room that can be booked for the request. -/
structure Db.Fits (db : Db) (dto : CreateReservationDto) (room : Room) : Prop where
  /-- The hotel has the room. -/
  listed : room ∈ db.rooms
  /-- It is of the type asked for. -/
  type : room.type = dto.roomType
  /-- It has a place for each guest. -/
  capacity : dto.headCount ≤ room.capacity
  /-- No reservation blocks it. -/
  free : ∀ r ∈ db.reservations, ¬ r.Blocks room dto

/-- What a request has to satisfy in order to succeed. -/
structure Acceptable (db : Db) (airport : String → Option Bool) (dto : CreateReservationDto) :
    Prop where
  /-- The stay ends after it starts. -/
  days : dto.checkInDay < dto.checkOutDay
  /-- The party is well formed. -/
  party : dto.PartyOk
  /-- The airport holds nobody back. -/
  cleared : ∀ id ∈ dto.party, airport id ≠ some false
  /-- Some room fits. -/
  room : ∃ room, db.Fits dto room
  /-- The values fit their columns. -/
  storable : dto.Storable

/-- The fitting room with the smallest id. -/
structure Db.FirstFit (db : Db) (dto : CreateReservationDto) (room : Room) : Prop where
  /-- The room fits. -/
  fits : db.Fits dto room
  /-- It is the first that does. -/
  least : ∀ other, db.Fits dto other → room.id ≤ other.id

/-! ## The party and the overlap count -/

/-- A party is resolved if it is well formed. -/
theorem resolvePartyGuests_eq_ok_iff {dto : CreateReservationDto} {party : Party} :
    resolvePartyGuests dto = .ok party ↔
      dto.PartyOk ∧ party = ⟨dto.party, dto.headCount⟩ := by
  rw [resolvePartyGuests_eq_ok]
  cases hids : dto.partyGuestIds with
  | none =>
    simp [CreateReservationDto.PartyOk, CreateReservationDto.party,
      CreateReservationDto.headCount, hids]
  | some ids =>
    have hempty : (∀ id ∈ ids, id.length ≠ 0) ↔ "" ∉ ids := by
      constructor
      · intro h hmem
        exact h "" hmem rfl
      · intro h id hid h0
        rw [String.length_eq_zero_iff.1 h0] at hid
        exact h hid
    simp only [reduceCtorEq, false_and, Option.some.injEq, false_or, exists_eq_left',
      CreateReservationDto.PartyOk, CreateReservationDto.party, CreateReservationDto.headCount,
      hids, hempty, Option.getD_some, forall_eq']
    constructor
    · rintro ⟨h1, h2, h3, h4⟩
      exact ⟨⟨List.ne_nil_of_mem h3, h2, h1, h3⟩, h4⟩
    · rintro ⟨⟨-, h2, h1, h3⟩, h4⟩
      exact ⟨h1, h2, h3, h4⟩

/-- Two stays that both contain days share one exactly when each begins before the other ends. -/
theorem sharesDay_iff {r : Reservation} {dto : CreateReservationDto}
    (hr : r.checkInDay < r.checkOutDay) (hdto : dto.checkInDay < dto.checkOutDay) :
    r.SharesDay dto ↔ r.checkInDay < dto.checkOutDay ∧ dto.checkInDay < r.checkOutDay := by
  constructor
  · rintro ⟨d, ⟨h1, h2⟩, h3, h4⟩
    exact ⟨h3.trans_lt h2, h1.trans_lt h4⟩
  · rintro ⟨h1, h2⟩
    refine ⟨max r.checkInDay dto.checkInDay, ⟨?_, ?_⟩, ?_, ?_⟩
    · exact le_max_right _ _
    · exact max_lt h1 hdto
    · exact le_max_left _ _
    · exact max_lt hr h2

/-- The `where` clause of the count selects the rows that block the room. -/
theorem overlapping_iff_blocks {r : Reservation} {room : Room} {dto : CreateReservationDto}
    (hdto : dto.checkInDay < dto.checkOutDay) :
    r.overlapping room dto = true ↔ r.Blocks room dto := by
  simp only [Reservation.overlapping, decide_eq_true_eq, Reservation.Blocks]
  refine and_congr_right fun _ => and_congr_right fun _ => ?_
  by_cases hr : r.checkInDay < r.checkOutDay
  · have hnot : ¬ r.EmptyWithin dto := fun h => absurd hr (not_lt.2 h.1)
    rw [or_iff_left hnot, sharesDay_iff hr hdto]
  · have hnot : ¬ r.SharesDay dto := by
      rintro ⟨d, -, h1, h2⟩
      exact hr (h1.trans_lt h2)
    rw [or_iff_right hnot]
    exact ⟨fun h => ⟨not_lt.1 hr, h⟩, fun h => h.2⟩

theorem count_eq_zero_iff_free {rs : List Reservation} {room : Room} {dto : CreateReservationDto}
    (hdto : dto.checkInDay < dto.checkOutDay) :
    overlappingReservationCount rs room dto = 0 ↔ ∀ r ∈ rs, ¬ r.Blocks room dto := by
  rw [overlappingReservationCount_eq_zero]
  simp only [← overlapping_iff_blocks hdto, Bool.not_eq_true]

/-! ## The loop -/

/-- The test that the loop applies to each room. -/
def suits (rs : List Reservation) (dto : CreateReservationDto) (heads : Int) (room : Room) : Bool :=
  decide (heads ≤ room.capacity ∧ overlappingReservationCount rs room dto = 0)

/-- For days that the columns can hold, the loop returns the first room that passes the test. -/
theorem pickRoom_eq_find {rs : List Reservation} {dto : CreateReservationDto} {heads : Int}
    (hin : fitsInt4 dto.checkInDay = true) (hout : fitsInt4 dto.checkOutDay = true)
    (rooms : List Room) : pickRoom rs dto heads rooms = .ok (rooms.find? (suits rs dto heads)) := by
  have hcount : ∀ room, countOverlapping rs room dto =
      .ok (overlappingReservationCount rs room dto) :=
    fun room => countOverlapping_eq_ok_iff.2 ⟨⟨hin, hout⟩, rfl⟩
  induction rooms with
  | nil => rfl
  | cons room rest ih =>
    simp only [pickRoom, hcount]
    split_ifs with hsmall hfree
    · rw [ih, List.find?_cons_of_neg]
      simp [suits, hsmall]
    · rw [List.find?_cons_of_pos]
      simp [suits, not_lt.1 hsmall, hfree]
    · rw [ih, List.find?_cons_of_neg]
      simp [suits, hfree]

/-- A room of the type suits if it fits. -/
theorem suits_iff_fits {db : Db} {dto : CreateReservationDto} {room : Room}
    (hdto : dto.checkInDay < dto.checkOutDay) (hroom : room ∈ db.findRooms dto.roomType) :
    suits db.reservations dto dto.headCount room = true ↔ db.Fits dto room := by
  obtain ⟨hlisted, htype⟩ := mem_findRooms.1 hroom
  simp only [suits, decide_eq_true_eq, count_eq_zero_iff_free hdto]
  constructor
  · rintro ⟨hcap, hfree⟩
    exact ⟨hlisted, htype, hcap, hfree⟩
  · intro h
    exact ⟨h.capacity, h.free⟩

theorem Db.Fits.mem_findRooms {db : Db} {dto : CreateReservationDto} {room : Room}
    (h : db.Fits dto room) : room ∈ db.findRooms dto.roomType :=
  Hotel.mem_findRooms.2 ⟨h.listed, h.type⟩

instance : Std.Total fun a b : Room => a.id ≤ b.id := ⟨fun a b => le_total a.id b.id⟩

instance : IsTrans Room fun a b : Room => a.id ≤ b.id := ⟨fun _ _ _ => le_trans⟩

/-- If some room fits, the loop finds one. -/
theorem pickRoom_of_fits {db : Db} {dto : CreateReservationDto}
    (hdto : dto.checkInDay < dto.checkOutDay) (hin : fitsInt4 dto.checkInDay = true)
    (hout : fitsInt4 dto.checkOutDay = true) (h : ∃ room, db.Fits dto room) :
    ∃ room, pickRoom db.reservations dto dto.headCount (db.findRooms dto.roomType) =
      .ok (some room) := by
  obtain ⟨room, hfits⟩ := h
  have hfound : ((db.findRooms dto.roomType).find?
      (suits db.reservations dto dto.headCount)).isSome :=
    List.find?_isSome.2 ⟨room, hfits.mem_findRooms, (suits_iff_fits hdto hfits.mem_findRooms).2 hfits⟩
  obtain ⟨found, hfind⟩ := Option.isSome_iff_exists.1 hfound
  exact ⟨found, by rw [pickRoom_eq_find hin hout, hfind]⟩

/-- The room that is picked is the fitting room with the smallest id. -/
theorem firstFit_of_pickRoom {db : Db} {dto : CreateReservationDto} {room : Room}
    (hdto : dto.checkInDay < dto.checkOutDay)
    (h : pickRoom db.reservations dto dto.headCount (db.findRooms dto.roomType) =
      .ok (some room)) : db.FirstFit dto room := by
  obtain ⟨⟨hin, hout⟩, -⟩ := countOverlapping_eq_ok_iff.1 (pickRoom_spec h).2.2
  rw [pickRoom_eq_find hin hout, Except.ok.injEq] at h
  have hroom : room ∈ db.findRooms dto.roomType := List.mem_of_find?_eq_some h
  refine ⟨(suits_iff_fits hdto hroom).1 (List.find?_some h), fun other hother => ?_⟩
  have hmem := hother.mem_findRooms
  have hsuits := (suits_iff_fits hdto hmem).2 hother
  obtain ⟨-, -, hleast⟩ := OrderedRows.find_insertionSort_least h
  exact hleast other ((List.mem_insertionSort _).1 hmem) hsuits

/-! ## `create` -/

theorem CreateReservationDto.PartyOk.nodup {dto : CreateReservationDto} (h : dto.PartyOk) :
    dto.party.Nodup := by
  unfold CreateReservationDto.party
  cases hids : dto.partyGuestIds with
  | none => exact List.nodup_singleton _
  | some ids => exact (h ids hids).2.1

/-- The guest who makes the reservation belongs to the party. -/
theorem CreateReservationDto.PartyOk.guestId_mem {dto : CreateReservationDto} (h : dto.PartyOk) :
    dto.guestId ∈ dto.party := by
  unfold CreateReservationDto.party
  cases hids : dto.partyGuestIds with
  | none => exact List.mem_singleton_self _
  | some ids => exact (h ids hids).2.2.2

/-- The columns can hold the row of a request exactly when they can hold the request. -/
theorem storable_iff_fits {dto : CreateReservationDto} (h : dto.PartyOk) (room : Room)
    (uuid : String) : (newReservation dto dto.party room uuid).fits = true ↔ dto.Storable := by
  rw [newReservation_fits_iff]
  constructor
  · rintro ⟨-, h1, h2, h3, h4⟩
    exact ⟨h1, h2, h3, h4⟩
  · intro hs
    exact ⟨hs.party _ h.guestId_mem, hs.guestCount, hs.checkInDay, hs.checkOutDay, hs.party⟩

/-- A successful `create` books the first fitting room for an acceptable request. -/
theorem create_ok {db db' : Db} {airport : String → Option Bool} {uuid : String}
    {dto : CreateReservationDto} {row : ReservationWithRoomAndGuests}
    (h : create db airport uuid dto = .ok (db', row)) :
    Acceptable db airport dto ∧ ∃ room, db.FirstFit dto room ∧ db'.rooms = db.rooms ∧
      db'.reservations = db.reservations ++ [newReservation dto dto.party room uuid] := by
  obtain ⟨hdays, party, room, hparty, hair, hpick, hdb⟩ := create_eq_ok_iff.1 h
  obtain ⟨hok, rfl⟩ := resolvePartyGuests_eq_ok_iff.1 hparty
  have hfirst := firstFit_of_pickRoom hdays hpick
  have hins := (createReservation_eq_ok_iff.1 hdb).1
  obtain ⟨hrooms, hrows⟩ := insertReservation_eq_some hins
  obtain ⟨-, -, -, hfits⟩ :=
    insertReservation_isSome_iff.1 (Option.isSome_iff_exists.2 ⟨_, hins⟩)
  have hstorable := (storable_iff_fits hok room uuid).1 hfits
  exact ⟨⟨hdays, hok, hair, ⟨room, hfirst.fits⟩, hstorable⟩, room, hfirst, hrooms, hrows⟩

/-- An acceptable request succeeds if the generated key is new. -/
theorem create_of_acceptable {db : Db} {airport : String → Option Bool} {uuid : String}
    {dto : CreateReservationDto} (huuid : uuid ∉ db.reservations.map Reservation.id)
    (h : Acceptable db airport dto) : ∃ q, create db airport uuid dto = .ok q := by
  obtain ⟨room, hpick⟩ :=
    pickRoom_of_fits h.days h.storable.checkInDay h.storable.checkOutDay h.room
  have hlisted := (firstFit_of_pickRoom h.days hpick).fits.listed
  have hins : (db.insertReservation (newReservation dto dto.party room uuid)).isSome :=
    insertReservation_isSome_iff.2 ⟨huuid, h.party.nodup, List.mem_map_of_mem hlisted,
      (storable_iff_fits h.party room uuid).2 h.storable⟩
  obtain ⟨db', hdb'⟩ := Option.isSome_iff_exists.1 hins
  obtain ⟨row, hrow⟩ := createReservation_of_insert hdb'
  refine ⟨(db', row), create_eq_ok_iff.2 ⟨h.days, ⟨dto.party, dto.headCount⟩, room, ?_⟩⟩
  exact ⟨resolvePartyGuests_eq_ok_iff.2 ⟨h.party, rfl⟩, h.cleared, hpick, hrow⟩

/-- **Exact first fit**: a `create` that runs alone comes to an end. With a new key it succeeds
exactly for the acceptable requests; then the table has grown by one confirmed reservation of the
fitting room with the smallest id, whose guests are the party. If it fails the database is
unchanged. -/
theorem create_firstFit (srv : Server) (dto : CreateReservationDto) (x : Input) :
    ∃ srv' result, CreateSteps dto x (srv, createStart dto) (srv', .settled result) ∧
      (x.uuid ∉ srv.db.reservations.map Reservation.id →
        ((∃ response, result = .ok response) ↔ Acceptable srv.db x.airport dto)) ∧
      (∀ response, result = .ok response → ∃ room, srv.db.FirstFit dto room ∧
        srv'.db.rooms = srv.db.rooms ∧ srv'.db.reservations =
          srv.db.reservations ++ [newReservation dto dto.party room x.uuid]) ∧
      ∀ e, result = .error e → srv'.db = srv.db := by
  obtain ⟨published, hsteps⟩ := create_alone srv dto x
  cases hcreate : create srv.db x.airport x.uuid dto with
  | error e =>
    rw [hcreate] at hsteps
    refine ⟨srv, .error e, hsteps, fun huuid => ?_, nofun, fun _ _ => rfl⟩
    constructor
    · rintro ⟨_, h⟩
      cases h
    · intro h
      obtain ⟨q, hq⟩ := create_of_acceptable huuid h
      rw [hq] at hcreate
      cases hcreate
  | ok q =>
    obtain ⟨db', row⟩ := q
    rw [hcreate] at hsteps
    obtain ⟨hacc, hroom⟩ := create_ok hcreate
    refine ⟨_, _, hsteps, fun _ => ?_, fun _ _ => hroom, nofun⟩
    exact ⟨fun _ => hacc, fun _ => ⟨_, rfl⟩⟩

section EmptyStay

/-- The only standard room, with a confirmed row from day 2 to day 2. -/
def emptyStay : Db where
  rooms := oneRoom.rooms
  reservations := [⟨"a", "mango-miles", "room-standard-01", 1, 2, 2, .CONFIRMED, ["mango-miles"]⟩]
  roomKey := oneRoom.roomKey
  reservationKey := by simp
  guestKey := by simp
  roomRef := by simp [oneRoom, Db.vacant]
  columns := by decide

/-- The row contains no day, so it shares none with the stay from day 1 to day 3, and still the
only room is refused. -/
theorem emptyStay_refused :
    let dto := stay "kiki-smith"
    let x := input "b"
    x.uuid ∉ emptyStay.reservations.map Reservation.id ∧
      dto.checkInDay < dto.checkOutDay ∧ dto.PartyOk ∧ dto.Storable ∧
      (∀ id ∈ dto.party, x.airport id ≠ some false) ∧
      (∃ room ∈ emptyStay.rooms, room.type = dto.roomType ∧ dto.headCount ≤ room.capacity ∧
        ∀ r ∈ emptyStay.reservations,
          ¬ (r.roomId = room.id ∧ r.status = .CONFIRMED ∧ r.SharesDay dto)) ∧
      CreateSteps dto x (⟨emptyStay, []⟩, createStart dto)
        (⟨emptyStay, []⟩, .settled (.error (noAvailableRooms dto))) := by
  refine ⟨by decide, by decide, nofun, ⟨by decide, by decide, by decide, by decide⟩,
    fun _ _ => nofun, ?_, ?_⟩
  · refine ⟨⟨"room-standard-01", .STANDARD, 2, 100⟩, List.mem_cons_self, rfl, by decide, ?_⟩
    rintro r hr ⟨-, -, d, -, h1, h2⟩
    rw [List.mem_singleton.1 hr] at h1 h2
    exact absurd (h1.trans_lt h2) (lt_irrefl 2)
  · obtain ⟨published, h⟩ := create_alone ⟨emptyStay, []⟩ (stay "kiki-smith") (input "b")
    exact h

/-- In the vacant hotel the same request is booked. -/
theorem vacant_booked :
    "b" ∉ oneRoom.reservations.map Reservation.id ∧
      ∃ srv' result, CreateSteps (stay "kiki-smith") (input "b")
          (⟨oneRoom, []⟩, createStart (stay "kiki-smith")) (srv', .settled result) ∧
        ((∃ response, result = .ok response) ↔
          Acceptable oneRoom (fun _ => none) (stay "kiki-smith")) := by
  obtain ⟨srv', result, hsteps, hiff, -, -⟩ :=
    create_firstFit ⟨oneRoom, []⟩ (stay "kiki-smith") (input "b")
  exact ⟨by decide, srv', result, hsteps, hiff (by decide)⟩

end EmptyStay

end Hotel
