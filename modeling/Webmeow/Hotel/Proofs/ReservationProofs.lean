import Webmeow.Hotel.Reservation
import Mathlib.Data.List.Pairwise

/-!
# The tables under insertion and cancellation

Stays of confirmed reservations: when two of them share a day, and how the two writes of the
service change the set of stays.
-/

namespace Hotel

/-- The stay of `r` contains the day `d`. -/
def Reservation.Covers (r : Reservation) (d : Int) : Prop :=
  r.checkInDay ≤ d ∧ d < r.checkOutDay

instance (r : Reservation) (d : Int) : Decidable (r.Covers d) :=
  inferInstanceAs (Decidable (_ ∧ _))

/-- Two confirmed reservations of one room never share a day. -/
def Compatible (r s : Reservation) : Prop :=
  r.status = .CONFIRMED → s.status = .CONFIRMED → r.roomId = s.roomId →
    ∀ d, ¬ (r.Covers d ∧ s.Covers d)

/-- No two rows are confirmed reservations of the same room with a common day. -/
def NoDoubleBooking (rs : List Reservation) : Prop := rs.Pairwise Compatible

/-- When an insert succeeds. -/
theorem insertReservation_isSome_iff {db : Db} {r : Reservation} :
    (db.insertReservation r).isSome ↔ r.id ∉ db.reservations.map Reservation.id ∧
      r.guests.Nodup ∧ r.roomId ∈ db.rooms.map Room.id ∧ r.fits = true := by
  unfold Db.insertReservation
  split_ifs with hc
  · simp only [Option.isSome_some, true_iff]; exact hc
  · simp only [Option.isSome_none, Bool.false_eq_true, false_iff]; exact hc

/-- The row of a request fits the columns exactly when the values of the request do. -/
theorem newReservation_fits_iff {dto : CreateReservationDto} {ids : List String} {room : Room}
    {uuid : String} :
    (newReservation dto ids room uuid).fits = true ↔ fitsText dto.guestId = true ∧
      fitsInt4 dto.guestCount = true ∧ fitsInt4 dto.checkInDay = true ∧
      fitsInt4 dto.checkOutDay = true ∧ ∀ id ∈ ids, fitsText id = true := by
  simp only [Reservation.fits, newReservation, Bool.and_eq_true, List.all_eq_true, and_assoc]

/-- What an insert does. -/
theorem insertReservation_eq_some {db db' : Db} {r : Reservation}
    (h : db.insertReservation r = some db') :
    db'.rooms = db.rooms ∧ db'.reservations = db.reservations ++ [r] := by
  unfold Db.insertReservation at h
  split_ifs at h with hc
  cases h
  exact ⟨rfl, rfl⟩

theorem cancelReservation_rooms (db : Db) (id : String) :
    (db.cancelReservation id).rooms = db.rooms := rfl

@[simp]
theorem cancelReservation_reservations (db : Db) (id : String) :
    (db.cancelReservation id).reservations = db.reservations.map (Reservation.cancelIf id) := rfl

/-- By the foreign key, a stored reservation can be read together with its room. -/
theorem include_of_mem {db : Db} {r : Reservation} (h : r ∈ db.reservations) :
    ∃ row, db.include r = some row ∧ row.reservation = r := by
  obtain ⟨room, hroom, hid⟩ := List.mem_map.1 (db.roomRef r h)
  have hfind : (db.rooms.find? fun room => room.id = r.roomId) = some room :=
    hid ▸ Keyed.find_of_mem db.roomKey hroom
  exact ⟨⟨r, room.type, _⟩, by rw [Db.include, hfind, Option.map_some], rfl⟩

/-- The row is inserted and read back exactly when the constraints accept it. -/
theorem createReservation_eq_ok_iff {db db' : Db} {r : Reservation}
    {row : ReservationWithRoomAndGuests} :
    db.createReservation r = .ok (db', row) ↔
      db.insertReservation r = some db' ∧ db'.include r = some row := by
  unfold Db.createReservation
  cases hdb : db.insertReservation r with
  | none => simp
  | some db1 =>
    cases hrow : db1.include r with
    | none =>
      simp only [hrow, reduceCtorEq, false_iff, not_and, Option.some.injEq]
      rintro rfl
      rw [hrow]
      simp
    | some row1 =>
      simp only [hrow, Except.ok.injEq, Prod.mk.injEq, Option.some.injEq]
      constructor
      · rintro ⟨rfl, rfl⟩
        exact ⟨rfl, hrow⟩
      · rintro ⟨rfl, h⟩
        rw [hrow] at h
        exact ⟨rfl, Option.some.inj h⟩

/-- An insert answers with its row. -/
theorem createReservation_of_insert {db db' : Db} {r : Reservation}
    (h : db.insertReservation r = some db') : ∃ row, db.createReservation r = .ok (db', row) := by
  have hmem : r ∈ db'.reservations := by
    rw [(insertReservation_eq_some h).2]; simp
  obtain ⟨row, hrow, -⟩ := include_of_mem hmem
  exact ⟨row, createReservation_eq_ok_iff.2 ⟨h, hrow⟩⟩

/-- Cancelling changes at most the status, and only towards `CANCELLED`. -/
theorem cancelIf_cases (id : String) (r : Reservation) :
    r.cancelIf id = r ∨ r.cancelIf id = { r with status := .CANCELLED } := by
  unfold Reservation.cancelIf
  split_ifs
  · exact Or.inr rfl
  · exact Or.inl rfl

@[simp]
theorem cancelIf_covers (id : String) (r : Reservation) (d : Int) :
    (r.cancelIf id).Covers d ↔ r.Covers d := by
  rcases cancelIf_cases id r with h | h
  · rw [h]
  · rw [h]; rfl

theorem confirmed_of_cancelIf {id : String} {r : Reservation}
    (h : (r.cancelIf id).status = .CONFIRMED) : r.status = .CONFIRMED := by
  rcases cancelIf_cases id r with e | e
  · rwa [e] at h
  · rw [e] at h; cases h

/-- A row may be added if it is compatible with each. -/
theorem noDoubleBooking_append_iff {rs : List Reservation} {r : Reservation} :
    NoDoubleBooking (rs ++ [r]) ↔ NoDoubleBooking rs ∧ ∀ s ∈ rs, Compatible s r := by
  simp [NoDoubleBooking, List.pairwise_append]

/-- A cancellation books nothing twice. -/
theorem NoDoubleBooking.cancel {rs : List Reservation} (h : NoDoubleBooking rs) (id : String) :
    NoDoubleBooking (rs.map (Reservation.cancelIf id)) := by
  refine List.pairwise_map.2 (h.imp fun {r s} hc hr hs hroom d => ?_)
  rw [Reservation.cancelIf_roomId, Reservation.cancelIf_roomId] at hroom
  rw [cancelIf_covers, cancelIf_covers]
  exact hc (confirmed_of_cancelIf hr) (confirmed_of_cancelIf hs) hroom d

/-- The overlap count is zero exactly when no row satisfies its `where` clause. -/
theorem overlappingReservationCount_eq_zero {rs : List Reservation} {room : Room}
    {dto : CreateReservationDto} :
    overlappingReservationCount rs room dto = 0 ↔ ∀ r ∈ rs, r.overlapping room dto = false := by
  simp [overlappingReservationCount, List.countP_eq_zero]

/-- The count is answered when both days are values of their columns. -/
theorem countOverlapping_eq_ok_iff {rs : List Reservation} {room : Room}
    {dto : CreateReservationDto} {n : ℕ} :
    countOverlapping rs room dto = .ok n ↔
      (fitsInt4 dto.checkInDay = true ∧ fitsInt4 dto.checkOutDay = true) ∧
        overlappingReservationCount rs room dto = n := by
  unfold countOverlapping
  split_ifs with h
  · simp only [Bool.and_eq_true] at h
    simp [h]
  · simp only [Bool.and_eq_true] at h
    simp [h]

/-- A row outside the `where` clause of the count does not clash with the row to be inserted. -/
theorem compatible_of_not_overlapping {s : Reservation} {room : Room} {dto : CreateReservationDto}
    (h : s.overlapping room dto = false) (ids : List String) (uuid : String) :
    Compatible s (newReservation dto ids room uuid) := by
  intro hs _ hroom d hd
  obtain ⟨⟨h1, h2⟩, h3, h4⟩ := hd
  simp only [newReservation] at h3 h4 hroom
  simp only [Reservation.overlapping, decide_eq_false_iff_not] at h
  exact h ⟨hroom, hs, by omega, by omega⟩

/-- A row that the count would find shares a day with the row to be inserted, unless one of the
two stays is empty. -/
theorem not_compatible_of_overlapping {s : Reservation} {room : Room} {dto : CreateReservationDto}
    (h : s.overlapping room dto = true) (hs : s.checkInDay < s.checkOutDay)
    (hdto : dto.checkInDay < dto.checkOutDay) (ids : List String) (uuid : String) :
    ¬ Compatible s (newReservation dto ids room uuid) := by
  simp only [Reservation.overlapping, decide_eq_true_eq] at h
  obtain ⟨hroom, hconf, h1, h2⟩ := h
  intro hc
  refine hc hconf rfl hroom (max s.checkInDay dto.checkInDay) ⟨⟨?_, ?_⟩, ?_, ?_⟩
  · exact le_max_left _ _
  · exact max_lt hs h2
  · exact le_max_right _ _
  · exact max_lt h1 hdto

/-! ## `create` run to completion -/

/-- The room that the loop returns is large enough and free, and one of the rooms given. -/
theorem pickRoom_spec {rs : List Reservation} {dto : CreateReservationDto} {heads : Int}
    {rooms : List Room} {room : Room} (h : pickRoom rs dto heads rooms = .ok (some room)) :
    room ∈ rooms ∧ heads ≤ room.capacity ∧ countOverlapping rs room dto = .ok 0 := by
  induction rooms with
  | nil => cases h
  | cons first rest ih =>
    simp only [pickRoom] at h
    split_ifs at h with hsmall
    · obtain ⟨h1, h2⟩ := ih h
      exact ⟨List.mem_cons_of_mem _ h1, h2⟩
    · cases hcount : countOverlapping rs first dto with
      | error e => rw [hcount] at h; cases h
      | ok n =>
        rw [hcount] at h
        simp only at h
        split_ifs at h with hfree
        · cases h
          exact ⟨List.mem_cons_self, not_lt.1 hsmall, by rw [hcount, hfree]⟩
        · obtain ⟨h1, h2⟩ := ih h
          exact ⟨List.mem_cons_of_mem _ h1, h2⟩

/-- If some room is large enough, the check against the largest capacity passes. -/
theorem exceedsMaxCapacity_eq_false {heads : Int} {rooms : List Room} {room : Room}
    (hroom : room ∈ rooms) (h : heads ≤ room.capacity) :
    exceedsMaxCapacity heads rooms = false := by
  have hmem : room.capacity ∈ rooms.map Room.capacity := List.mem_map_of_mem hroom
  unfold exceedsMaxCapacity maxCapacity
  cases hm : (rooms.map Room.capacity).max? with
  | none =>
    rw [List.max?_eq_none_iff] at hm
    rw [hm] at hmem
    cases hmem
  | some c =>
    have hle := (List.max?_eq_some_iff.1 hm).2 _ hmem
    simpa using h.trans hle

theorem mem_findRooms {db : Db} {type : RoomType} {room : Room} :
    room ∈ db.findRooms type ↔ room ∈ db.rooms ∧ room.type = type := by
  simp [Db.findRooms, List.mem_insertionSort]

theorem checkDays_eq_ok {dto : CreateReservationDto} :
    checkDays dto = .ok () ↔ dto.checkInDay < dto.checkOutDay := by
  unfold checkDays
  split_ifs with h
  · simpa using h
  · simpa using h

/-- The party passes if the airport holds nobody back. -/
theorem rejectIfPartyHasNotClearedAirport_eq_ok {airport : String → Option Bool}
    {ids : List String} :
    rejectIfPartyHasNotClearedAirport airport ids = .ok () ↔
      ∀ id ∈ ids, airport id ≠ some false := by
  unfold rejectIfPartyHasNotClearedAirport
  cases hf : ids.find? fun id => airport id = some false with
  | none => simpa using hf
  | some id =>
    obtain ⟨h1, h2⟩ : id ∈ ids ∧ airport id = some false :=
      ⟨List.mem_of_find?_eq_some hf, by simpa using List.find?_some hf⟩
    simpa using ⟨id, h1, h2⟩

/-- The parties that `resolvePartyGuests` accepts. -/
theorem resolvePartyGuests_eq_ok {dto : CreateReservationDto} {party : Party} :
    resolvePartyGuests dto = .ok party ↔
      (dto.partyGuestIds = none ∧ party = ⟨[dto.guestId], dto.guestCount⟩) ∨
      ∃ ids, dto.partyGuestIds = some ids ∧ (∀ id ∈ ids, id.length ≠ 0) ∧ ids.Nodup ∧
        dto.guestId ∈ ids ∧ party = ⟨ids, ids.length⟩ := by
  have hdedup : ∀ ids : List String, ids.dedup.length = ids.length ↔ ids.Nodup := fun ids =>
    ⟨fun h => List.dedup_eq_self.1 ((List.dedup_sublist ids).eq_of_length h),
      fun h => by rw [List.dedup_eq_self.2 h]⟩
  unfold resolvePartyGuests
  cases dto.partyGuestIds with
  | none => simp [eq_comm]
  | some ids =>
    simp only [reduceCtorEq, false_and, Option.some.injEq, false_or, exists_eq_left']
    split_ifs with h1 h2 h3 h4
    · rw [List.length_eq_zero_iff] at h1
      simp [h1]
    · simp only [List.any_eq_true, decide_eq_true_eq] at h2
      obtain ⟨id, hid, h0⟩ := h2
      simp only [false_iff]
      exact fun h => h.1 id hid h0
    · rw [Ne, hdedup] at h3
      simp only [false_iff]
      exact fun h => h3 h.2.1
    · simp only [List.any_eq_true, decide_eq_true_eq, not_exists, not_and] at h2
      rw [Ne, not_not, hdedup] at h3
      simp only [Except.ok.injEq]
      exact ⟨fun h => ⟨h2, h3, h4, h.symm⟩, fun h => h.2.2.2.symm⟩
    · simp only [false_iff]
      exact fun h => h4 h.2.2.1

/-- What a successful `create` has done. -/
theorem create_eq_ok_iff {db db' : Db} {airport : String → Option Bool} {uuid : String}
    {dto : CreateReservationDto} {row : ReservationWithRoomAndGuests} :
    create db airport uuid dto = .ok (db', row) ↔
      dto.checkInDay < dto.checkOutDay ∧
      ∃ party room, resolvePartyGuests dto = .ok party ∧
        (∀ id ∈ party.partyGuestIds, airport id ≠ some false) ∧
        pickRoom db.reservations dto party.capacityGuestCount (db.findRooms dto.roomType) =
          .ok (some room) ∧
        db.createReservation (newReservation dto party.partyGuestIds room uuid) =
          .ok (db', row) := by
  constructor
  · intro h
    unfold create at h
    cases hdays : checkDays dto with
    | error e => rw [hdays] at h; cases h
    | ok u =>
      cases hparty : resolvePartyGuests dto with
      | error e => rw [hdays, hparty] at h; cases h
      | ok party =>
        cases hair : rejectIfPartyHasNotClearedAirport airport party.partyGuestIds with
        | error e => rw [hdays, hparty] at h; simp only [bind, Except.bind, hair] at h; cases h
        | ok v =>
          rw [hdays, hparty] at h
          simp only [bind, Except.bind, hair] at h
          split_ifs at h with hmax
          cases hroom : pickRoom db.reservations dto party.capacityGuestCount
              (db.findRooms dto.roomType) with
          | error e => rw [hroom] at h; cases h
          | ok found =>
            rw [hroom] at h
            cases found with
            | none => cases h
            | some room =>
              exact ⟨checkDays_eq_ok.1 hdays, party, room, rfl,
                rejectIfPartyHasNotClearedAirport_eq_ok.1 hair, hroom, h⟩
  · rintro ⟨hdays, party, room, hparty, hair, hroom, hdb⟩
    obtain ⟨hmem, hcap, -⟩ := pickRoom_spec hroom
    unfold create
    simp only [checkDays_eq_ok.2 hdays, hparty, rejectIfPartyHasNotClearedAirport_eq_ok.2 hair,
      bind, Except.bind, exceedsMaxCapacity_eq_false hmem hcap, hroom, hdb]
    rfl

end Hotel
