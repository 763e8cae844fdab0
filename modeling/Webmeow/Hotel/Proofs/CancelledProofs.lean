import Webmeow.Hotel.Proofs.LifecycleProofs
import Webmeow.Hotel.Rooms
import Webmeow.Lib.Forgetting

/-!
# Cancelled reservations

A cancelled reservation blocks no room and is found by nobody who does not ask for its id. So a hotel in
which it was never made runs in the same way: the same requests get the same answers, and the same events
are published.
-/

namespace Hotel

open Interleaving Runs

/-- The database without the reservations of some ids. -/
def Db.forget (gone : String → Bool) (db : Db) : Db where
  rooms := db.rooms
  reservations := db.reservations.filter fun r => !gone r.id
  roomKey := db.roomKey
  reservationKey := db.reservationKey.sublist (List.filter_sublist.map _)
  guestKey r hr := db.guestKey r (List.mem_of_mem_filter hr)
  roomRef r hr := db.roomRef r (List.mem_of_mem_filter hr)
  columns r hr := db.columns r (List.mem_of_mem_filter hr)

/-- The server without the reservations `gone`. -/
def Server.forget (gone : String → Bool) (srv : Server) : Server :=
  { srv with db := srv.db.forget gone }

/-- The system without the reservations `gone`. -/
def ServiceSystem.forget (gone : String → Bool) : ServiceSystem → ServiceSystem :=
  Pool.mapStore (Server.forget gone)

/-- The reservations of these ids are cancelled. -/
def Server.AllCancelled (gone : String → Bool) (srv : Server) : Prop :=
  ∀ r ∈ srv.db.reservations, gone r.id = true → r.status = .CANCELLED

/-- The id that a thread has still to look up. -/
def ServiceThread.asksFor : ServiceThread → Option String
  | .write (.cancel id .find) => some id
  | .write (.cancel id .update) => some id
  | .findById id none => some id
  | _ => none

/-- The thread looks none of these ids up. -/
def ServiceThread.Spares (gone : String → Bool) (t : ServiceThread) : Prop :=
  ∀ id ∈ t.asksFor, gone id = false

/-- No generated key is one of these ids. -/
def Input.Spares (gone : String → Bool) (x : Input) : Prop := gone x.uuid = false

variable {gone : String → Bool} {db : Db}

/-! ## The database -/

theorem include_forget (r : Reservation) : (db.forget gone).include r = db.include r := rfl

/-- The other rows are found as before. -/
theorem findUnique_forget {id : String} (hid : gone id = false) :
    (db.forget gone).findUnique id = db.findUnique id := by
  have hfind : (db.reservations.filter fun r => !gone r.id).find? (fun r => r.id = id) =
      db.reservations.find? fun r => r.id = id := by
    rw [List.find?_filter]
    congr 1
    funext r
    by_cases hr : r.id = id
    · simp [hr, hid]
    · simp [hr]
  show ((db.forget gone).reservations.find? fun r => r.id = id).bind _ = _
  exact congrArg (fun r : Option Reservation => r.bind db.include) hfind

/-- A filter that drops what is cancelled drops what is forgotten. -/
theorem filter_forget (h : ∀ r ∈ db.reservations, gone r.id = true → r.status = .CANCELLED)
    {p : Reservation → Bool} (hp : ∀ r, p r = true → r.status = .CONFIRMED) :
    (db.forget gone).reservations.filter p = db.reservations.filter p := by
  show (db.reservations.filter fun r => !gone r.id).filter p = _
  rw [List.filter_filter]
  refine List.filter_congr fun r hr => ?_
  cases hpr : p r with
  | false => rfl
  | true =>
    cases hg : gone r.id with
    | false => rfl
    | true => exact nomatch (h r hr hg).symm.trans (hp r hpr)

/-- Cancelled rows do not count as overlapping. -/
theorem countOverlapping_forget
    (h : ∀ r ∈ db.reservations, gone r.id = true → r.status = .CANCELLED) (room : Room)
    (dto : CreateReservationDto) :
    countOverlapping (db.forget gone).reservations room dto =
      countOverlapping db.reservations room dto := by
  unfold countOverlapping overlappingReservationCount
  rw [List.countP_eq_length_filter, List.countP_eq_length_filter,
    filter_forget h fun r hr => (of_decide_eq_true hr).2.1]

/-- Cancelled rows are never the active one. -/
theorem findActiveByGuestId_forget
    (h : ∀ r ∈ db.reservations, gone r.id = true → r.status = .CANCELLED) (guestId : String) :
    (db.forget gone).findActiveByGuestId guestId = db.findActiveByGuestId guestId := by
  have hactive : (db.forget gone).reservations.filter
      (fun r => decide (r.status = .CONFIRMED) && r.involves guestId) =
        db.reservations.filter fun r => decide (r.status = .CONFIRMED) && r.involves guestId :=
    filter_forget h fun r hr => of_decide_eq_true (Bool.and_eq_true_iff.1 hr).1
  have hfirst : (db.forget gone).findFirst guestId = db.findFirst guestId := by
    unfold Db.findFirst
    rw [List.filter_filter, List.filter_filter, hactive]
    rfl
  rw [Db.findActiveByGuestId, Db.findActiveByGuestId, hfirst]

/-- Cancelled rows do not show in the rooms. -/
theorem findAll_forget (h : ∀ r ∈ db.reservations, gone r.id = true → r.status = .CANCELLED)
    (currentDay : Int) : findAll (db.forget gone) currentDay = findAll db currentDay := by
  have hoccupied : occupiedRooms (db.forget gone).reservations currentDay =
      occupiedRooms db.reservations currentDay :=
    filter_forget h fun r hr => (of_decide_eq_true hr).1
  unfold findAll
  rw [hoccupied]
  rfl

theorem mem_ids_forget {id : String} (hid : gone id = false) :
    id ∈ (db.forget gone).reservations.map Reservation.id ↔ id ∈ db.reservations.map Reservation.id := by
  constructor
  · intro h
    obtain ⟨r, hr, rfl⟩ := List.mem_map.1 h
    exact List.mem_map_of_mem (List.mem_of_mem_filter hr)
  · intro h
    obtain ⟨r, hr, rfl⟩ := List.mem_map.1 h
    exact List.mem_map_of_mem (List.mem_filter.2 ⟨hr, by simp [hid]⟩)

/-- The constraints of the schema accept the same new rows. -/
theorem insertReservation_forget {r : Reservation} (hr : gone r.id = false) :
    (db.forget gone).insertReservation r = (db.insertReservation r).map (Db.forget gone) := by
  unfold Db.insertReservation
  by_cases h : r.id ∉ db.reservations.map Reservation.id ∧ r.guests.Nodup ∧
      r.roomId ∈ db.rooms.map Room.id ∧ r.fits = true
  · have h' : r.id ∉ (db.forget gone).reservations.map Reservation.id ∧ r.guests.Nodup ∧
        r.roomId ∈ (db.forget gone).rooms.map Room.id ∧ r.fits = true :=
      ⟨fun hm => h.1 ((mem_ids_forget hr).1 hm), h.2⟩
    rw [dif_pos h, dif_pos h']
    refine congrArg some (Db.ext rfl ?_)
    show db.reservations.filter _ ++ [r] = (db.reservations ++ [r]).filter _
    rw [List.filter_append, List.filter_cons_of_pos (by simp [hr]), List.filter_nil]
  · have h' : ¬(r.id ∉ (db.forget gone).reservations.map Reservation.id ∧ r.guests.Nodup ∧
        r.roomId ∈ (db.forget gone).rooms.map Room.id ∧ r.fits = true) := fun hc =>
      h ⟨fun hm => hc.1 ((mem_ids_forget hr).2 hm), hc.2⟩
    rw [dif_neg h, dif_neg h']
    rfl

/-- A row is inserted as before. -/
theorem createReservation_forget {r : Reservation} (hr : gone r.id = false) :
    (db.forget gone).createReservation r =
      (db.createReservation r).map fun q => (q.1.forget gone, q.2) := by
  unfold Db.createReservation
  rw [insertReservation_forget hr]
  cases db.insertReservation r with
  | none => rfl
  | some db' =>
    simp only [Option.map_some, include_forget]
    cases db'.include r with
    | none => rfl
    | some row => rfl

/-- A row is cancelled as before. -/
theorem cancelReservation_forget (id : String) :
    (db.forget gone).cancelReservation id = (db.cancelReservation id).forget gone := by
  refine Db.ext rfl ?_
  show (db.reservations.filter _).map _ = (db.reservations.map _).filter _
  rw [List.filter_map]
  congr 1
  refine List.filter_congr fun r _ => ?_
  simp

/-! ## One step -/

variable {srv srv' : Server}

/-- `create` takes the same step without the cancelled rows. -/
theorem createStep_forget (h : srv.AllCancelled gone) (dto : CreateReservationDto) {x : Input}
    (hx : x.Spares gone) (pc : CreatePc) :
    createStep (srv.forget gone) dto x pc =
      (createStep srv dto x pc).map fun q => (q.1.forget gone, q.2) := by
  cases pc with
  | airport party =>
    simp only [createStep]
    cases rejectIfPartyHasNotClearedAirport x.airport party.partyGuestIds with
    | error e => rfl
    | ok u => rfl
  | findRooms party =>
    simp only [createStep]
    show (if exceedsMaxCapacity party.capacityGuestCount (srv.db.findRooms dto.roomType) then _ else _) = _
    split_ifs
    · rfl
    · rfl
  | count party room rest =>
    simp only [createStep]
    rw [show countOverlapping (srv.forget gone).db.reservations room dto = _ from
      countOverlapping_forget h room dto]
    cases countOverlapping srv.db.reservations room dto with
    | error e => rfl
    | ok n =>
      simp only
      split_ifs
      · rfl
      · rfl
  | insert party room =>
    simp only [createStep]
    rw [show (srv.forget gone).db.createReservation (newReservation dto party.partyGuestIds room x.uuid) =
      _ from createReservation_forget hx]
    cases srv.db.createReservation (newReservation dto party.partyGuestIds room x.uuid) with
    | error e => rfl
    | ok q => rfl
  | publish row => rfl
  | settled result => rfl

/-- `cancel` takes the same step without the other cancelled rows. -/
theorem cancelStep_forget {id : String} {pc : CancelPc}
    (hid : (ServiceThread.write (.cancel id pc)).Spares gone) :
    cancelStep (srv.forget gone) id pc =
      (cancelStep srv id pc).map fun q => (q.1.forget gone, q.2) := by
  cases pc with
  | find =>
    simp only [cancelStep]
    rw [show (srv.forget gone).db.findUnique id = _ from findUnique_forget (hid id rfl)]
    split_ifs
    · cases srv.db.findUnique id with
      | none => rfl
      | some row =>
        simp only
        split_ifs
        · rfl
        · rfl
    · rfl
  | update =>
    simp only [cancelStep]
    rw [show (srv.forget gone).db.cancelReservation id = _ from cancelReservation_forget id,
      findUnique_forget (hid id rfl)]
    cases (srv.db.cancelReservation id).findUnique id with
    | none => rfl
    | some row => rfl
  | publish row => rfl
  | settled result => rfl

/-- **One step does not notice**: a thread that looks none of the cancelled reservations up goes on as if
they had never been made. -/
theorem actService_forget (h : srv.AllCancelled gone) {t : ServiceThread} (ht : t.Spares gone)
    {x : Input} (hx : x.Spares gone) :
    actService (srv.forget gone) t x =
      (actService srv t x).map fun q => (q.1.forget gone, q.2) := by
  cases t with
  | write t =>
    cases t with
    | create dto pc =>
      simp only [actService, act, createStep_forget h dto hx, Option.map_map]
      rfl
    | cancel id pc =>
      simp only [actService, act, cancelStep_forget ht, Option.map_map]
      rfl
  | findById id answer =>
    cases answer with
    | none =>
      simp only [actService, Option.map_some, Option.some.injEq, Prod.mk.injEq, true_and]
      rw [Db.findById, show (srv.forget gone).db.findUnique id = _ from findUnique_forget (ht id rfl)]
      rfl
    | some answer => rfl
  | findActiveByGuestId guestId answer =>
    cases answer with
    | none =>
      simp only [actService, Option.map_some, Option.some.injEq, Prod.mk.injEq, true_and]
      rw [show (srv.forget gone).db.findActiveByGuestId guestId = _ from
        findActiveByGuestId_forget h guestId]
    | some answer => rfl

/-- What is cancelled stays so, and no new reservation gets an id of a cancelled one. -/
theorem allCancelled_step (h : srv.AllCancelled gone) {t t' : ServiceThread} {x : Input}
    (hx : x.Spares gone) (ha : actService srv t x = some (srv', t')) : srv'.AllCancelled gone := by
  have hsame : srv'.db = srv.db → srv'.AllCancelled gone := fun hdb r hr => h r (hdb ▸ hr)
  cases t with
  | write t =>
    obtain ⟨⟨s1, t1⟩, hq, he⟩ := Option.map_eq_some_iff.1 ha
    cases he
    rcases act_cases hq with hdb | ⟨id, hdb⟩ | ⟨dto, party, room, -, hins⟩
    · exact hsame hdb
    · intro r hr hg
      rw [hdb] at hr
      obtain ⟨old, hold, rfl⟩ := List.mem_map.1 hr
      rw [Reservation.cancelIf_id] at hg
      unfold Reservation.cancelIf
      split_ifs
      · rfl
      · exact h old hold hg
    · intro r hr hg
      rw [(insertReservation_eq_some hins).2] at hr
      rcases List.mem_append.1 hr with hr | hr
      · exact h r hr hg
      · rw [List.mem_singleton.1 hr] at hg
        exact nomatch hx.symm.trans hg
  | findById id answer =>
    cases answer with
    | none =>
      cases ha
      exact h
    | some answer => cases ha
  | findActiveByGuestId guestId answer =>
    cases answer with
    | none =>
      cases ha
      exact h
    | some answer => cases ha

/-- A thread looks up no other id than before. -/
theorem asksFor_step {t t' : ServiceThread} {x : Input} (ha : actService srv t x = some (srv', t')) :
    t'.asksFor = none ∨ t'.asksFor = t.asksFor := by
  cases t with
  | write t =>
    obtain ⟨⟨s1, t1⟩, hq, he⟩ := Option.map_eq_some_iff.1 ha
    cases he
    cases t with
    | create dto pc =>
      obtain ⟨q, -, he⟩ := Option.map_eq_some_iff.1 hq
      cases he
      exact Or.inl rfl
    | cancel id pc =>
      obtain ⟨⟨s2, pc'⟩, hpc, he⟩ := Option.map_eq_some_iff.1 hq
      cases he
      cases pc with
      | find =>
        cases pc' with
        | update => exact Or.inr rfl
        | find => exact Or.inr rfl
        | publish row => exact Or.inl rfl
        | settled result => exact Or.inl rfl
      | update =>
        simp only [cancelStep] at hpc
        split at hpc
        · cases hpc
          exact Or.inl rfl
        · cases hpc
          exact Or.inl rfl
      | publish row =>
        cases hpc
        exact Or.inl rfl
      | settled result => cases hpc
  | findById id answer =>
    cases answer with
    | none =>
      cases ha
      exact Or.inl rfl
    | some answer => cases ha
  | findActiveByGuestId guestId answer =>
    cases answer with
    | none =>
      cases ha
      exact Or.inl rfl
    | some answer => cases ha

/-- The steps of the service do not notice that cancelled reservations are gone. -/
theorem forgettable (gone : String → Bool) :
    Forgettable actService (Server.forget gone) (Server.AllCancelled gone) (ServiceThread.Spares gone)
      (Input.Spares gone) where
  commutes _ _ _ h ht hx := actService_forget h ht hx
  kept _ _ _ _ _ h ht hx ha := by
    refine ⟨allCancelled_step h hx ha, ?_⟩
    rcases asksFor_step ha with hnone | hsame
    · intro id hid
      rw [hnone] at hid
      cases hid
    · intro id hid
      rw [hsame] at hid
      exact ht id hid

section NextGuest

instance (srv : Server) : Decidable (srv.AllCancelled gone) :=
  inferInstanceAs (Decidable (∀ r ∈ srv.db.reservations, _ → _))

instance (t : ServiceThread) : Decidable (t.Spares gone) :=
  inferInstanceAs (Decidable (∀ id ∈ t.asksFor, _))

instance (x : Input) : Decidable (x.Spares gone) := inferInstanceAs (Decidable (_ = _))

instance : ∀ e : Event ServiceRequest Input,
    Decidable (e.Meets startService (ServiceThread.Spares gone) (Input.Spares gone))
  | .request r => inferInstanceAs (Decidable ((startService r).Spares gone))
  | .advance _ x => inferInstanceAs (Decidable (x.Spares gone))

/-- Another guest gets the room that is free again. -/
def nextGuest : List (Event ServiceRequest Input) :=
  [.request (.write (.create (stay "coral-quinn"))), .advance 2 (input "b"), .advance 2 (input "b"),
    .advance 2 (input "b"), .advance 2 (input "b"), .advance 2 (input "b"),
    .request (.findActiveByGuestId "coral-quinn"), .advance 3 (input "b")]

end NextGuest

end Hotel
