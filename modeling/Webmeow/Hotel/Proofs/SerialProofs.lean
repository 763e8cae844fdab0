import Webmeow.Hotel.Server
import Webmeow.Hotel.Proofs.ReservationProofs
import Mathlib.Logic.Relation

/-!
# A request that is not interrupted

The threads of `Hotel.Server` and the functions `create` and `cancel` of `Hotel.Reservation` describe
the same code: a thread whose steps are not interleaved with others ends with the database and the
answer that the function computes.
-/

namespace Hotel

open Relation

/-- The steps of one `create` with nothing in between. -/
abbrev CreateSteps (dto : CreateReservationDto) (x : Input) :
    Server × CreatePc → Server × CreatePc → Prop :=
  ReflTransGen fun a b => createStep a.1 dto x a.2 = some b

/-- The loop over the rooms finds the room that `pickRoom` returns. -/
theorem scan_pickRoom (srv : Server) (dto : CreateReservationDto) (x : Input) (party : Party)
    (rooms : List Room) :
    CreateSteps dto x (srv, scan dto party rooms)
      (srv, match pickRoom srv.db.reservations dto party.capacityGuestCount rooms with
        | .error e => .settled (.error e)
        | .ok none => .settled (.error (noAvailableRooms dto))
        | .ok (some room) => .insert party room) := by
  induction rooms with
  | nil => exact ReflTransGen.refl
  | cons room rest ih =>
    by_cases hsmall : room.capacity < party.capacityGuestCount
    · have hscan : scan dto party (room :: rest) = scan dto party rest := by
        simp [scan, hsmall]
      have hpick : pickRoom srv.db.reservations dto party.capacityGuestCount (room :: rest) =
          pickRoom srv.db.reservations dto party.capacityGuestCount rest := by
        simp [pickRoom, hsmall]
      rw [hscan, hpick]
      exact ih
    · have hscan : scan dto party (room :: rest) = .count party room rest := by
        simp [scan, hsmall]
      rw [hscan]
      cases hcount : countOverlapping srv.db.reservations room dto with
      | error e =>
        refine ReflTransGen.single ?_
        simp [createStep, pickRoom, hsmall, hcount]
      | ok n =>
        by_cases hfree : n = 0
        · refine ReflTransGen.single ?_
          simp [createStep, pickRoom, hsmall, hcount, hfree]
        · refine ReflTransGen.head (b := (srv, scan dto party rest)) ?_ ?_
          · simp [createStep, hcount, hfree]
          · have hpick : pickRoom srv.db.reservations dto party.capacityGuestCount (room :: rest) =
                pickRoom srv.db.reservations dto party.capacityGuestCount rest := by
              simp [pickRoom, hsmall, hcount, hfree]
            rw [hpick]
            exact ih

/-- From its insert on, a `create` stores the row, publishes it and answers. -/
theorem insert_settles (srv : Server) (dto : CreateReservationDto) (x : Input) (party : Party)
    (room : Room) :
    ∃ published, CreateSteps dto x (srv, .insert party room)
      (match srv.db.createReservation (newReservation dto party.partyGuestIds room x.uuid) with
        | .error e => (srv, .settled (.error e))
        | .ok (db', row) => (⟨db', published⟩, .settled (.ok (toReservationResponse row)))) := by
  cases hdb : srv.db.createReservation (newReservation dto party.partyGuestIds room x.uuid) with
  | error e =>
    refine ⟨[], ReflTransGen.single ?_⟩
    simp [createStep, hdb]
  | ok q =>
    obtain ⟨db', row⟩ := q
    have hins : createStep srv dto x (.insert party room) =
        some ({ srv with db := db' }, .publish row) := by
      simp [createStep, hdb]
    exact ⟨_, ReflTransGen.head hins (ReflTransGen.single rfl)⟩

/-- **A `create` that runs alone** ends in the database and with the answer of `Hotel.create`. -/
theorem create_alone (srv : Server) (dto : CreateReservationDto) (x : Input) :
    ∃ published, CreateSteps dto x (srv, createStart dto)
      (match create srv.db x.airport x.uuid dto with
        | .error e => (srv, .settled (.error e))
        | .ok (db', row) => (⟨db', published⟩, .settled (.ok (toReservationResponse row)))) := by
  unfold create createStart
  cases hdays : checkDays dto with
  | error e => exact ⟨[], ReflTransGen.refl⟩
  | ok u =>
    cases hparty : resolvePartyGuests dto with
    | error e => exact ⟨[], ReflTransGen.refl⟩
    | ok party =>
      simp only [bind, Except.bind]
      cases hair : rejectIfPartyHasNotClearedAirport x.airport party.partyGuestIds with
      | error e =>
        refine ⟨[], ReflTransGen.single ?_⟩
        simp [createStep, hair]
      | ok v =>
        have h1 : createStep srv dto x (.airport party) = some (srv, .findRooms party) := by
          simp [createStep, hair]
        by_cases hmax : exceedsMaxCapacity party.capacityGuestCount (srv.db.findRooms dto.roomType)
        · refine ⟨[], ReflTransGen.head h1 (ReflTransGen.single ?_)⟩
          simp [createStep, hmax, throw, throwThe, MonadExceptOf.throw]
        · have h2 : createStep srv dto x (.findRooms party) =
              some (srv, scan dto party (srv.db.findRooms dto.roomType)) := by
            simp [createStep, hmax]
          have h3 := scan_pickRoom srv dto x party (srv.db.findRooms dto.roomType)
          have hto := ReflTransGen.head (r := fun a b => createStep a.1 dto x a.2 = some b)
            (a := (srv, CreatePc.airport party)) h1 (ReflTransGen.head h2 h3)
          simp only [hmax, Bool.false_eq_true, if_false]
          cases hpick : pickRoom srv.db.reservations dto party.capacityGuestCount
              (srv.db.findRooms dto.roomType) with
          | error e =>
            rw [hpick] at hto
            exact ⟨[], hto⟩
          | ok found =>
            rw [hpick] at hto
            cases found with
            | none => exact ⟨[], hto⟩
            | some room =>
              obtain ⟨published, hins⟩ := insert_settles srv dto x party room
              exact ⟨published, hto.trans hins⟩

/-- The steps of one `cancel` with nothing in between. -/
abbrev CancelSteps (id : String) : Server × CancelPc → Server × CancelPc → Prop :=
  ReflTransGen fun a b => cancelStep a.1 id a.2 = some b

/-- The cancelled row is read back with the same id and room, and status `CANCELLED`. -/
theorem findUnique_cancelReservation {db : Db} {id : String} {row : ReservationWithRoomAndGuests}
    (h : db.findUnique id = some row) :
    ∃ row', (db.cancelReservation id).findUnique id = some row' ∧
      row'.reservation.id = row.reservation.id ∧ row'.reservation.status = .CANCELLED := by
  unfold Db.findUnique at h
  obtain ⟨r, hr, hrow⟩ := Option.bind_eq_some_iff.1 h
  have hid : r.id = id := by simpa using List.find?_some hr
  have hsame : (fun s : Reservation => decide (s.id = id)) ∘ Reservation.cancelIf id =
      fun s : Reservation => decide (s.id = id) := by
    funext s; simp
  obtain ⟨room, hroom, rfl⟩ := Option.map_eq_some_iff.1 hrow
  have hcancel : r.cancelIf id = { r with status := .CANCELLED } := by
    simp [Reservation.cancelIf, hid]
  refine ⟨⟨r.cancelIf id, room.type, (r.cancelIf id).guests.insertionSort (· ≤ ·)⟩, ?_, ?_, ?_⟩
  · unfold Db.findUnique
    rw [cancelReservation_reservations, List.find?_map, hsame, hr]
    simp [Db.include, cancelReservation_rooms, hroom]
  · simp
  · rw [hcancel]

/-- **A `cancel` that runs alone** ends in the database and with the answer of `Hotel.cancel`. -/
theorem cancel_alone (srv : Server) (id : String) :
    ∃ published, CancelSteps id (srv, .find)
      (match cancel srv.db id with
        | .error e => (srv, .settled (.error e))
        | .ok (db', response) => (⟨db', published⟩, .settled (.ok response))) := by
  unfold cancel
  by_cases htext : fitsText id = true
  swap
  · refine ⟨[], ReflTransGen.single ?_⟩
    simp [cancelStep, htext]
  simp only [htext, not_true_eq_false, if_false]
  cases hrow : srv.db.findUnique id with
  | none =>
    refine ⟨[], ReflTransGen.single ?_⟩
    simp [cancelStep, htext, hrow]
  | some row =>
    by_cases hc : row.reservation.status = .CANCELLED
    · refine ⟨srv.published, ReflTransGen.single ?_⟩
      simp [cancelStep, htext, hrow, hc]
    · obtain ⟨row', hrow', hid, hst⟩ := findUnique_cancelReservation hrow
      have h1 : cancelStep srv id .find = some (srv, .update) := by
        simp [cancelStep, htext, hrow, hc]
      have h2 : cancelStep srv id .update =
          some (⟨srv.db.cancelReservation id, srv.published⟩, .publish row') := by
        simp [cancelStep, hrow']
      refine ⟨srv.published ++ [(.ReservationCancelled,
        broadcastEvent "Hotel reservation cancelled." row')], ?_⟩
      have h3 : cancelStep ⟨srv.db.cancelReservation id, srv.published⟩ id (.publish row') =
          some (⟨srv.db.cancelReservation id, srv.published ++ [(.ReservationCancelled,
              broadcastEvent "Hotel reservation cancelled." row')]⟩,
            .settled (.ok ⟨row.reservation.id, .CANCELLED⟩)) := by
        simp [cancelStep, hid, hst]
      simp only [hc, if_false]
      exact ReflTransGen.head h1 (ReflTransGen.head h2 (ReflTransGen.single h3))

end Hotel
