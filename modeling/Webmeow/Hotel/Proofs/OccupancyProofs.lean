import Webmeow.Hotel.Rooms
import Webmeow.Hotel.Proofs.ReservationProofs
import Webmeow.Lib.Runs
import Mathlib.Algebra.BigOperators.Group.List.Basic
import Mathlib.Algebra.Ring.Int.Defs

/-!
# Occupancy and capacity

`create` checks the capacity of a room against the explicit party when there is one, and against
`guest_count` otherwise. `findAll` trusts the stored party only if it has more than one member. The
two head counts differ exactly for an explicit party of one.
-/

namespace Hotel

open Runs

/-- On no day does `findAll` report more guests in a room than it holds. -/
def WithinCapacity (db : Db) : Prop :=
  ∀ currentDay, ∀ view ∈ findAll db currentDay, view.occupancy ≤ view.capacity

/-- What sequential requests keep true of the tables. -/
structure SerialInv (db : Db) : Prop where
  /-- No room is booked twice. -/
  noDoubleBooking : NoDoubleBooking db.reservations
  /-- Every stay ends after it starts. -/
  stay : ∀ r ∈ db.reservations, r.checkInDay < r.checkOutDay
  /-- Every reservation is for somebody. -/
  guestCount : ∀ r ∈ db.reservations, 1 ≤ r.guestCount

/-- The request is an accepted booking for an explicit party of one whose `guest_count` is larger
than the room that is assigned to one guest. -/
def overfills (db : Db) : SerialRequest → Bool
  | .cancel _ => false
  | .create dto airport uuid =>
    dto.validate &&
    decide (dto.checkInDay < dto.checkOutDay ∧ dto.partyGuestIds = some [dto.guestId] ∧
      airport dto.guestId ≠ some false ∧ uuid ∉ db.reservations.map Reservation.id ∧
      fitsText dto.guestId = true ∧ fitsInt4 dto.guestCount = true) &&
    match pickRoom db.reservations dto 1 (db.findRooms dto.roomType) with
    | .ok (some room) => decide (room.capacity < dto.guestCount)
    | _ => false

/-! ## The guests that `findAll` adds up -/

/-- The loop adds up the guests of each room. -/
theorem foldl_currentGuests (occupied : List Reservation) (counts : String → Option Int)
    (key : String) :
    ((occupied.foldl
      (fun counts r key => if key = r.roomId then some ((counts key).getD 0 + r.currentGuests)
        else counts key) counts) key).getD 0 =
      (counts key).getD 0 +
        ((occupied.filter fun r => key = r.roomId).map Reservation.currentGuests).sum := by
  induction occupied generalizing counts with
  | nil => simp
  | cons r rs ih =>
    rw [List.foldl_cons, ih]
    by_cases h : key = r.roomId
    · simp [h, add_assoc]
    · simp [h]

/-- The guests of a room are those of its reservations. -/
theorem currentGuestsByRoomId_getD (occupied : List Reservation) (key : String) :
    (currentGuestsByRoomId occupied key).getD 0 =
      ((occupied.filter fun r => key = r.roomId).map Reservation.currentGuests).sum := by
  rw [currentGuestsByRoomId, foldl_currentGuests]
  simp

/-- The confirmed stays of the room with id `key` that contain the day. -/
def staying (db : Db) (currentDay : Int) (key : String) : List Reservation :=
  (occupiedRooms db.reservations currentDay).filter fun r => key = r.roomId

theorem mem_staying {db : Db} {day : Int} {key : String} {r : Reservation} :
    r ∈ staying db day key ↔
      r ∈ db.reservations ∧ r.status = .CONFIRMED ∧ r.Covers day ∧ key = r.roomId := by
  simp only [staying, occupiedRooms, Reservation.Covers, List.mem_filter, decide_eq_true_eq]
  constructor
  · rintro ⟨⟨h1, h2, h3⟩, h4⟩
    exact ⟨h1, h2, h3, h4⟩
  · rintro ⟨h1, h2, h3, h4⟩
    exact ⟨⟨h1, h2, h3⟩, h4⟩

/-- Within capacity, by the sum of the guests. -/
theorem withinCapacity_iff_sum {db : Db} :
    WithinCapacity db ↔ ∀ day, ∀ room ∈ db.rooms,
      ((staying db day room.id).map Reservation.currentGuests).sum ≤ room.capacity := by
  simp only [WithinCapacity, findAll, List.mem_map, List.mem_insertionSort,
    currentGuestsByRoomId_getD]
  constructor
  · intro h day room hroom
    exact h day _ ⟨room, hroom, rfl⟩
  · rintro h day view ⟨room, hroom, rfl⟩
    exact h day room hroom

/-- Without double bookings at most one stay of a room contains a given day. -/
theorem staying_length_le {db : Db} (h : NoDoubleBooking db.reservations) (day : Int)
    (key : String) : (staying db day key).length ≤ 1 := by
  have hsub : (staying db day key).Sublist db.reservations :=
    List.filter_sublist.trans List.filter_sublist
  have hp := List.Pairwise.sublist hsub h
  rcases hs : staying db day key with _ | ⟨r, _ | ⟨s, rest⟩⟩
  · simp
  · simp
  · rw [hs] at hp
    have hr := mem_staying.1 (hs ▸ List.mem_cons_self : r ∈ staying db day key)
    have hs' := mem_staying.1
      (hs ▸ List.mem_cons_of_mem _ List.mem_cons_self : s ∈ staying db day key)
    have hc := (List.pairwise_cons.1 hp).1 s List.mem_cons_self
    exact absurd ⟨hr.2.2.1, hs'.2.2.1⟩
      (hc hr.2.1 hs'.2.1 (hr.2.2.2.symm.trans hs'.2.2.2) day)

theorem currentGuests_pos {r : Reservation} (h : 1 ≤ r.guestCount) : 1 ≤ r.currentGuests := by
  unfold Reservation.currentGuests
  simp only
  split_ifs with hk
  · omega
  · exact h

/-- A single stay decides the occupancy of a day, so all days are within capacity exactly when no
room has a negative capacity and every confirmed stay fits its room. -/
theorem withinCapacity_iff {db : Db} (hinv : SerialInv db) :
    WithinCapacity db ↔ (∀ room ∈ db.rooms, 0 ≤ room.capacity) ∧
      ∀ r ∈ db.reservations, r.status = .CONFIRMED → ∀ room ∈ db.rooms, room.id = r.roomId →
        r.currentGuests ≤ room.capacity := by
  rw [withinCapacity_iff_sum]
  have hle : ∀ day key, staying db day key = [] ∨ ∃ r, staying db day key = [r] := by
    intro day key
    have hlen := staying_length_le hinv.noDoubleBooking day key
    rcases hs : staying db day key with _ | ⟨r, _ | ⟨s, rest⟩⟩
    · exact Or.inl rfl
    · exact Or.inr ⟨r, rfl⟩
    · rw [hs] at hlen; simp at hlen
  constructor
  · intro h
    refine ⟨fun room hroom => ?_, fun r hr hconf room hroom hid => ?_⟩
    · have hday := h 0 room hroom
      rcases hle 0 room.id with hs | ⟨r, hs⟩
      · rw [hs] at hday; simpa using hday
      · have hr := mem_staying.1 (hs ▸ List.mem_cons_self : r ∈ staying db 0 room.id)
        have hpos := currentGuests_pos (hinv.guestCount r hr.1)
        rw [hs] at hday
        simp at hday
        omega
    · have hday := h r.checkInDay room hroom
      have hmem : r ∈ staying db r.checkInDay room.id :=
        mem_staying.2 ⟨hr, hconf, ⟨le_rfl, hinv.stay r hr⟩, hid⟩
      rcases hle r.checkInDay room.id with hs | ⟨s, hs⟩
      · rw [hs] at hmem; cases hmem
      · rw [hs] at hmem hday
        rw [List.mem_singleton.1 hmem]
        simpa using hday
  · rintro ⟨hcap, hfit⟩ day room hroom
    rcases hle day room.id with hs | ⟨r, hs⟩
    · rw [hs]; simpa using hcap room hroom
    · have hr := mem_staying.1 (hs ▸ List.mem_cons_self : r ∈ staying db day room.id)
      rw [hs]
      simpa using hfit r hr.1 hr.2.1 room hroom hr.2.2.2

/-! ## One request -/

/-- `create` accepts exactly the requests that it carries out, and then adds one row. -/
theorem handle_create_cases (db : Db) (dto : CreateReservationDto)
    (airport : String → Option Bool) (uuid : String) :
    (handle db (.create dto airport uuid) = db ∧
      (dto.validate = true → ∀ db' row, create db airport uuid dto ≠ .ok (db', row))) ∨
    (dto.validate = true ∧ ∃ row,
      create db airport uuid dto = .ok (handle db (.create dto airport uuid), row)) := by
  simp only [handle]
  split_ifs with hv
  · cases hc : create db airport uuid dto with
    | error e => exact Or.inl ⟨rfl, fun _ _ _ h => by cases h⟩
    | ok q => exact Or.inr ⟨hv, q.2, rfl⟩
  · exact Or.inl ⟨rfl, fun h => absurd h hv⟩

/-- A cancellation cancels the row or changes nothing. -/
theorem handle_cancel_cases (db : Db) (id : String) :
    handle db (.cancel id) = db ∨ handle db (.cancel id) = db.cancelReservation id := by
  simp only [handle, cancel]
  split
  · rename_i q hq
    revert hq
    split_ifs
    · split
      · intro hq; cases hq
      · split_ifs
        · intro hq; cases hq; exact Or.inl rfl
        · intro hq; cases hq; exact Or.inr rfl
    · intro hq; cases hq
  · exact Or.inl rfl

theorem validate_guestCount {dto : CreateReservationDto} (h : dto.validate = true) :
    1 ≤ dto.guestCount := by
  unfold CreateReservationDto.validate at h
  rw [Bool.and_eq_true, decide_eq_true_eq] at h
  exact h.2

/-- A request keeps the invariant. -/
theorem handle_serialInv (db : Db) (r : SerialRequest) (h : SerialInv db) :
    SerialInv (handle db r) := by
  cases r with
  | cancel id =>
    rcases handle_cancel_cases db id with e | e
    · rw [e]; exact h
    · rw [e]
      refine ⟨h.noDoubleBooking.cancel id, fun r hr => ?_, fun r hr => ?_⟩
      · obtain ⟨s, hs, rfl⟩ := List.mem_map.1 hr
        have := h.stay s hs
        rcases cancelIf_cases id s with e | e <;> rw [e] <;> exact this
      · obtain ⟨s, hs, rfl⟩ := List.mem_map.1 hr
        have := h.guestCount s hs
        rcases cancelIf_cases id s with e | e <;> rw [e] <;> exact this
  | create dto airport uuid =>
    rcases handle_create_cases db dto airport uuid with ⟨e, -⟩ | ⟨hv, row, hc⟩
    · rw [e]; exact h
    · obtain ⟨hdays, party, room, -, -, hroom, hstore⟩ := create_eq_ok_iff.1 hc
      have hdb := (createReservation_eq_ok_iff.1 hstore).1
      obtain ⟨-, -, hcount⟩ := pickRoom_spec hroom
      have hzero := (countOverlapping_eq_ok_iff.1 hcount).2
      have hres := (insertReservation_eq_some hdb).2
      refine ⟨?_, fun r hr => ?_, fun r hr => ?_⟩
      · rw [hres, noDoubleBooking_append_iff]
        refine ⟨h.noDoubleBooking, fun s hs => ?_⟩
        exact compatible_of_not_overlapping (overlappingReservationCount_eq_zero.1 hzero s hs) _ _
      · rw [hres] at hr
        rcases List.mem_append.1 hr with hr | hr
        · exact h.stay r hr
        · rw [List.mem_singleton.1 hr]; exact hdays
      · rw [hres] at hr
        rcases List.mem_append.1 hr with hr | hr
        · exact h.guestCount r hr
        · rw [List.mem_singleton.1 hr]; exact validate_guestCount hv

/-- Rooms are determined by their id. -/
theorem room_unique {db : Db} {a b : Room} (ha : a ∈ db.rooms) (hb : b ∈ db.rooms)
    (h : a.id = b.id) : a = b :=
  List.inj_on_of_nodup_map db.roomKey ha hb h

/-- A booking keeps all rooms within capacity exactly when the head count of `findAll` for it fits
the room that was chosen. -/
theorem withinCapacity_insert_iff {db db' : Db} {room : Room} {r : Reservation}
    (hinv : SerialInv db) (hinv' : SerialInv db') (h : WithinCapacity db)
    (hroom : room ∈ db.rooms) (hid : r.roomId = room.id) (hconf : r.status = .CONFIRMED)
    (hdb : db.insertReservation r = some db') :
    WithinCapacity db' ↔ r.currentGuests ≤ room.capacity := by
  obtain ⟨hrooms, hres⟩ := insertReservation_eq_some hdb
  rw [withinCapacity_iff hinv] at h
  rw [withinCapacity_iff hinv', hrooms, hres]
  constructor
  · rintro ⟨-, hfit⟩
    exact hfit r (by simp) hconf room hroom hid.symm
  · intro hle
    refine ⟨h.1, fun s hs hsc rm hrm hrid => ?_⟩
    rcases List.mem_append.1 hs with hs | hs
    · exact h.2 s hs hsc rm hrm hrid
    · rw [List.mem_singleton.1 hs] at hrid ⊢
      rw [room_unique hrm hroom (hrid.trans hid)]
      exact hle

/-- A cancellation keeps the rooms within capacity. -/
theorem withinCapacity_cancel {db : Db} (hinv : SerialInv db) (h : WithinCapacity db) (id : String)
    (hinv' : SerialInv (db.cancelReservation id)) : WithinCapacity (db.cancelReservation id) := by
  rw [withinCapacity_iff hinv] at h
  rw [withinCapacity_iff hinv']
  refine ⟨h.1, fun r hr hconf room hroom hid => ?_⟩
  obtain ⟨s, hs, rfl⟩ := List.mem_map.1 hr
  rcases cancelIf_cases id s with e | e
  · rw [e] at hconf hid ⊢
    exact h.2 s hs hconf room hroom hid
  · rw [e] at hconf
    cases hconf

/-- The head count that `findAll` uses for a new row exceeds the one that `create` checked only for
an explicit party of one. -/
theorem newReservation_currentGuests {dto : CreateReservationDto} {party : Party} (room : Room)
    (uuid : String) (h : resolvePartyGuests dto = .ok party) :
    (newReservation dto party.partyGuestIds room uuid).currentGuests = party.capacityGuestCount ∨
    (dto.partyGuestIds = some [dto.guestId] ∧ party = ⟨[dto.guestId], 1⟩ ∧
      (newReservation dto party.partyGuestIds room uuid).currentGuests = dto.guestCount) := by
  rcases resolvePartyGuests_eq_ok.1 h with ⟨-, rfl⟩ | ⟨ids, hids, -, -, hmem, rfl⟩
  · exact Or.inl rfl
  · by_cases hlen : 1 < ids.length
    · left
      simp [Reservation.currentGuests, newReservation, hlen]
    · right
      have hpos := List.length_pos_of_mem hmem
      obtain ⟨id, rfl⟩ := List.length_eq_one_iff.1 (by omega : ids.length = 1)
      obtain rfl := List.mem_singleton.1 hmem
      exact ⟨hids, rfl, rfl⟩

/-- An overfilling request is carried out. -/
theorem overfills_create {db : Db} {dto : CreateReservationDto} {airport : String → Option Bool}
    {uuid : String} (h : overfills db (.create dto airport uuid) = true) :
    dto.validate = true ∧ ∃ db' row, create db airport uuid dto = .ok (db', row) := by
  simp only [overfills, Bool.and_eq_true, decide_eq_true_eq] at h
  obtain ⟨⟨hv, hdays, hparty, hair, huuid, hguest, hguests⟩, hpick⟩ := h
  split at hpick
  case h_2 => cases hpick
  case h_1 room hp =>
    obtain ⟨hroom, -, hcount⟩ := pickRoom_spec hp
    obtain ⟨⟨hin, hout⟩, -⟩ := countOverlapping_eq_ok_iff.1 hcount
    have hmem := mem_findRooms.1 hroom
    have hids : ∀ id ∈ [dto.guestId], id.length ≠ 0 := by
      unfold CreateReservationDto.validate at hv
      rw [hparty] at hv
      simp only [Bool.and_eq_true, decide_eq_true_eq] at hv
      intro id hid
      have := hv.1.2.2 id hid
      omega
    have hres : resolvePartyGuests dto = .ok ⟨[dto.guestId], 1⟩ :=
      resolvePartyGuests_eq_ok.2 (Or.inr ⟨_, hparty, hids, List.nodup_singleton _, by simp, rfl⟩)
    have hins : (db.insertReservation (newReservation dto [dto.guestId] room uuid)).isSome :=
      insertReservation_isSome_iff.2 ⟨huuid, List.nodup_singleton _, List.mem_map_of_mem hmem.1,
        newReservation_fits_iff.2 ⟨hguest, hguests, hin, hout, by simpa using hguest⟩⟩
    obtain ⟨db', hdb⟩ := Option.isSome_iff_exists.1 hins
    obtain ⟨row, hrow⟩ := createReservation_of_insert hdb
    refine ⟨hv, db', row, create_eq_ok_iff.2 ⟨hdays, _, room, hres, ?_, hp, hrow⟩⟩
    intro id hid
    rw [List.mem_singleton.1 hid]
    exact hair

/-- A request keeps all rooms within capacity exactly when it does not overfill one. -/
theorem handle_withinCapacity_iff (db : Db) (r : SerialRequest) (hinv : SerialInv db)
    (h : WithinCapacity db) : WithinCapacity (handle db r) ↔ overfills db r = false := by
  have hinv' := handle_serialInv db r hinv
  cases r with
  | cancel id =>
    refine ⟨fun _ => rfl, fun _ => ?_⟩
    rcases handle_cancel_cases db id with e | e
    · rw [e]; exact h
    · rw [e] at hinv' ⊢
      exact withinCapacity_cancel hinv h id hinv'
  | create dto airport uuid =>
    rcases handle_create_cases db dto airport uuid with ⟨e, hno⟩ | ⟨hv, row, hc⟩
    · -- a rejected request changes nothing, and is not an overfilling one
      rw [e]
      refine ⟨fun _ => ?_, fun _ => h⟩
      by_contra hover
      obtain ⟨hv, db', row, hc⟩ := overfills_create (Bool.eq_true_of_not_eq_false hover)
      exact hno hv db' row hc
    · obtain ⟨hdays, party, room, hparty, hair, hroom, hstore⟩ := create_eq_ok_iff.1 hc
      have hdb := (createReservation_eq_ok_iff.1 hstore).1
      obtain ⟨hmem, hcap, -⟩ := pickRoom_spec hroom
      rw [withinCapacity_insert_iff hinv hinv' h (mem_findRooms.1 hmem).1 rfl rfl hdb]
      rcases newReservation_currentGuests room uuid hparty with hcg | ⟨hsolo, rfl, hcg⟩
      · rw [hcg]
        refine ⟨fun _ => ?_, fun _ => hcap⟩
        by_contra hover
        -- the party of an overfilling request has one member, so its own head count is checked
        have hover := Bool.eq_true_of_not_eq_false hover
        simp only [overfills, Bool.and_eq_true, decide_eq_true_eq] at hover
        obtain ⟨⟨-, -, hsolo, -⟩, hpick⟩ := hover
        rcases resolvePartyGuests_eq_ok.1 hparty with ⟨hnone, -⟩ | ⟨ids, hids, -, -, -, rfl⟩
        · rw [hnone] at hsolo; cases hsolo
        · rw [hids] at hsolo
          obtain rfl := Option.some.inj hsolo
          have hroom1 : pickRoom db.reservations dto 1 (db.findRooms dto.roomType) =
              .ok (some room) := hroom
          rw [hroom1] at hpick
          have hlt : room.capacity < dto.guestCount := of_decide_eq_true hpick
          have hcg1 : dto.guestCount = 1 := hcg
          have hcap1 : 1 ≤ room.capacity := hcap
          omega
      · rw [hcg]
        obtain ⟨huuid, -, -, hfits⟩ :=
          insertReservation_isSome_iff.1 (Option.isSome_iff_exists.2 ⟨_, hdb⟩)
        obtain ⟨hguest, hguests, -⟩ := newReservation_fits_iff.1 hfits
        simp only [overfills, hroom]
        have hair' : airport dto.guestId ≠ some false := hair _ (by simp)
        have huuid' : uuid ∉ db.reservations.map Reservation.id := huuid
        simp [hv, hdays, hsolo, hair', huuid', hguest, hguests]

/-- The invariant holds of a vacant hotel. -/
theorem vacant_serialInv (rooms : List Room) (key : (rooms.map Room.id).Nodup) :
    SerialInv (Db.vacant rooms key) where
  noDoubleBooking := List.Pairwise.nil
  stay := by simp [Db.vacant]
  guestCount := by simp [Db.vacant]

/-- A vacant hotel is within capacity if no capacity is negative. -/
theorem vacant_withinCapacity_iff (rooms : List Room) (key : (rooms.map Room.id).Nodup) :
    WithinCapacity (Db.vacant rooms key) ↔ ∀ room ∈ rooms, 0 ≤ room.capacity := by
  rw [withinCapacity_iff (vacant_serialInv rooms key)]
  simp [Db.vacant]

/-- **Occupancy within capacity, exactly**: for every set of rooms and every sequential run from an
empty hotel, `findAll` stays within capacity on every day if and only if no room has a negative
capacity and no request of the run overfills a room. -/
theorem withinCapacity_iff_no_overfills (rooms : List Room) (key : (rooms.map Room.id).Nodup)
    (rs : List SerialRequest) :
    Always serialStep WithinCapacity (Db.vacant rooms key) rs ↔
      (∀ room ∈ rooms, 0 ≤ room.capacity) ∧
        Throughout serialStep (fun db r => overfills db r = false) (Db.vacant rooms key) rs := by
  have hrun : ∀ (rs : List SerialRequest) (db : Db), ∃ db', run serialStep db rs = some db' := by
    intro rs
    induction rs with
    | nil => exact fun db => ⟨db, rfl⟩
    | cons r rs ih => exact fun db => ih (handle db r)
  obtain ⟨db', hr⟩ := hrun rs (Db.vacant rooms key)
  have hinv : ∀ db r db', SerialInv db → serialStep db r = some db' → SerialInv db' := by
    intro db r db' h hs
    obtain rfl := Option.some.inj hs
    exact handle_serialInv db r h
  have hstep : ∀ db r db', SerialInv db → WithinCapacity db → serialStep db r = some db' →
      (WithinCapacity db' ↔ overfills db r = false) := by
    intro db r db' h hw hs
    obtain rfl := Option.some.inj hs
    exact handle_withinCapacity_iff db r h hw
  rw [← vacant_withinCapacity_iff rooms key]
  constructor
  · intro hA
    exact ⟨hA.head, (always_iff_throughout hinv hstep (vacant_serialInv rooms key) hA.head hr).1 hA⟩
  · rintro ⟨hw, hT⟩
    exact (always_iff_throughout hinv hstep (vacant_serialInv rooms key) hw hr).2 hT

/-- A couple with an explicit party, and a single guest without one, leave every room in bounds. -/
theorem couple_and_single_withinCapacity :
    Always serialStep WithinCapacity
      (Db.vacant [⟨"room-standard-01", .STANDARD, 2, 100⟩] (by simp))
      [.create ⟨"mango-miles", some ["mango-miles", "kiki-smith"], .STANDARD, 5, 1, 3⟩
        (fun _ => none) "a",
       .create ⟨"coco-reef", none, .STANDARD, 1, 3, 4⟩ (fun _ => some true) "b"] :=
  (withinCapacity_iff_no_overfills [⟨"room-standard-01", .STANDARD, 2, 100⟩] (by simp) _).2
    ⟨by decide, by decide⟩

/-- A party of one that announces five guests is given a standard room for two. -/
def soloPartyOfFive : SerialRequest :=
  .create ⟨"mango-miles", some ["mango-miles"], .STANDARD, 5, 1, 3⟩ (fun _ => none) "a"

/-- A party list of one with five guests fills a room for two. -/
theorem soloPartyOfFive_occupancy :
    ¬ WithinCapacity (handle
      (Db.vacant [⟨"room-standard-01", .STANDARD, 2, 100⟩] (by simp)) soloPartyOfFive) := by
  intro h
  have hocc := h 1 ⟨"room-standard-01", .STANDARD, 2, 100, 5, 5⟩ (by decide)
  exact absurd hocc (by decide)

end Hotel
