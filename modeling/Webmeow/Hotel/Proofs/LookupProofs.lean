import Webmeow.Hotel.Lookup
import Webmeow.Hotel.Proofs.FirstFitProofs

/-!
# Looking up the active reservation of a guest

The rows of the table follow the history of the calls one to one, so the answer of
`findActiveByGuestId` can be read off the history: which reservations were created for the guest and
not cancelled since, and which of them begins last.
-/

namespace Hotel

/-- The reservation is made by the guest or for a party with the guest. -/
def CreateReservationDto.Involves (dto : CreateReservationDto) (guestId : String) : Prop :=
  dto.guestId = guestId ∨ guestId ∈ dto.party

/-- The row that the reservation `b` of the history has by now. -/
structure Ledger.Row (cancelled : List String) (b : String × CreateReservationDto)
    (r : Reservation) : Prop where
  /-- The id is the one created. -/
  id : r.id = b.1
  /-- The guest is who made it. -/
  guestId : r.guestId = b.2.guestId
  /-- The first day is the one asked for. -/
  checkInDay : r.checkInDay = b.2.checkInDay
  /-- The guests are the party. -/
  guests : r.guests = b.2.party
  /-- It is cancelled if its id is. -/
  status : r.status = .CANCELLED ↔ b.1 ∈ cancelled

/-- The table and the history agree. -/
structure Ledger.Consistent (s : Ledger) : Prop where
  /-- The rows are those created, in order. -/
  rows : List.Forall₂ (Ledger.Row s.cancelled) s.created s.db.reservations
  /-- Only rows are cancelled. -/
  stored : ∀ id ∈ s.cancelled, id ∈ s.db.reservations.map Reservation.id
  /-- What was created has a well-formed party. -/
  party : ∀ b ∈ s.created, b.2.PartyOk

/-! ## What one call keeps -/

theorem Ledger.initial_consistent (rooms : List Room) (roomKey : (rooms.map Room.id).Nodup) :
    (Ledger.initial rooms roomKey).Consistent :=
  ⟨List.Forall₂.nil, nofun, nofun⟩

/-- The generated key of a successful `create` is new. -/
theorem create_uuid_new {db db' : Db} {airport : String → Option Bool} {uuid : String}
    {dto : CreateReservationDto} {row : ReservationWithRoomAndGuests}
    (h : create db airport uuid dto = .ok (db', row)) :
    uuid ∉ db.reservations.map Reservation.id := by
  obtain ⟨-, party, room, -, -, -, hdb⟩ := create_eq_ok_iff.1 h
  have hins := (createReservation_eq_ok_iff.1 hdb).1
  exact (insertReservation_isSome_iff.1 (Option.isSome_iff_exists.2 ⟨_, hins⟩)).1

/-- A reservation keeps the ledger consistent. -/
theorem Ledger.Consistent.create {s : Ledger} (h : s.Consistent) {airport : String → Option Bool}
    {uuid : String} {dto : CreateReservationDto} {db' : Db} {row : ReservationWithRoomAndGuests}
    (hc : Hotel.create s.db airport uuid dto = .ok (db', row)) :
    Ledger.Consistent { s with db := db', created := s.created ++ [(uuid, dto)] } := by
  obtain ⟨hacc, room, -, -, hrows⟩ := create_ok hc
  have hnew : uuid ∉ s.cancelled := fun hmem => create_uuid_new hc (h.stored uuid hmem)
  have hrow : Ledger.Row s.cancelled (uuid, dto) (newReservation dto dto.party room uuid) := by
    refine ⟨rfl, rfl, rfl, rfl, ?_⟩
    simp [newReservation, hnew]
  refine ⟨?_, fun id hid => ?_, fun b hb => ?_⟩
  · simp only [hrows]
    exact Keyed.forall₂_concat h.rows hrow
  · simp only [hrows, List.map_append]
    exact List.mem_append_left _ (h.stored id hid)
  · rcases List.mem_append.1 hb with hb | hb
    · exact h.party b hb
    · rw [List.mem_singleton.1 hb]
      exact hacc.party

/-- A successful `cancel` leaves the table as it is if the reservation was cancelled before, and
changes the status of its row otherwise. -/
theorem cancel_ok {db db' : Db} {id : String} {response : CancelReservationResponseDto}
    (h : cancel db id = .ok (db', response)) :
    ∃ r ∈ db.reservations, r.id = id ∧
      (r.status = .CANCELLED ∧ db' = db ∨ db' = db.cancelReservation id) := by
  unfold cancel at h
  by_cases htext : fitsText id = true
  swap
  · rw [if_pos htext] at h
    cases h
  rw [if_neg (not_not.2 htext)] at h
  cases hfind : db.findUnique id with
  | none =>
    rw [hfind] at h
    cases h
  | some row =>
    rw [hfind] at h
    obtain ⟨r, hr, hrow⟩ := Option.bind_eq_some_iff.1 hfind
    obtain ⟨hmem, hid⟩ := (Keyed.find_iff db.reservationKey).1 hr
    obtain ⟨room, -, rfl⟩ := Option.map_eq_some_iff.1 hrow
    refine ⟨r, hmem, hid, ?_⟩
    simp only at h
    split_ifs at h with hst
    · cases h
      exact Or.inl ⟨hst, rfl⟩
    · cases h
      exact Or.inr rfl

/-- Cancelling `id` in the history changes the row of `id` only. -/
theorem Ledger.Row.cancel {cancelled : List String} {b : String × CreateReservationDto}
    {r : Reservation} (h : Ledger.Row cancelled b r) (id : String) :
    Ledger.Row (id :: cancelled) b (r.cancelIf id) := by
  unfold Reservation.cancelIf
  split_ifs with hid
  · refine ⟨h.id, h.guestId, h.checkInDay, h.guests, fun _ => ?_, fun _ => rfl⟩
    rw [← h.id, hid]
    exact List.mem_cons_self
  · refine ⟨h.id, h.guestId, h.checkInDay, h.guests, ?_⟩
    have hne : b.1 ≠ id := fun he => hid (h.id.trans he)
    rw [h.status, List.mem_cons, or_iff_right hne]

/-- A cancellation keeps the ledger consistent. -/
theorem Ledger.Consistent.cancel {s : Ledger} (h : s.Consistent) {id : String} {db' : Db}
    {response : CancelReservationResponseDto} (hc : Hotel.cancel s.db id = .ok (db', response)) :
    Ledger.Consistent { s with db := db', cancelled := id :: s.cancelled } := by
  obtain ⟨r, hr, rfl, hdb⟩ := cancel_ok hc
  have hids : db'.reservations.map Reservation.id = s.db.reservations.map Reservation.id := by
    rcases hdb with ⟨-, rfl⟩ | rfl
    · rfl
    · simp [Function.comp_def]
  refine ⟨?_, fun id hid => ?_, h.party⟩
  · rcases hdb with ⟨hst, rfl⟩ | rfl
    · -- the id is in the history already, so its second entry says nothing new
      obtain ⟨c, -, hrow⟩ := Keyed.forall₂_left h.rows hr
      have hmem : r.id ∈ s.cancelled := hrow.id ▸ hrow.status.1 hst
      refine h.rows.imp fun b t hb => ⟨hb.id, hb.guestId, hb.checkInDay, hb.guests, ?_⟩
      rw [hb.status, List.mem_cons]
      exact ⟨Or.inr, fun ho => ho.elim (fun he => he ▸ hmem) fun hm => hm⟩
    · rw [cancelReservation_reservations, List.forall₂_map_right_iff]
      exact h.rows.imp fun b t hb => hb.cancel r.id
  · rw [hids]
    rcases List.mem_cons.1 hid with rfl | hid
    · exact List.mem_map_of_mem hr
    · exact h.stored id hid

/-- Any call keeps the ledger consistent. -/
theorem Ledger.Consistent.serve {s : Ledger} (h : s.Consistent) (c : Call) :
    (s.serve c).Consistent := by
  cases c with
  | create airport uuid dto =>
    simp only [Ledger.serve]
    split
    · exact h
    · exact h.create ‹_›
  | cancel id =>
    simp only [Ledger.serve]
    split
    · exact h
    · exact h.cancel ‹_›

/-- The table and the history agree after every sequence of calls. -/
theorem Ledger.consistent_foldl {s : Ledger} (h : s.Consistent) (calls : List Call) :
    (calls.foldl Ledger.serve s).Consistent := by
  induction calls generalizing s with
  | nil => exact h
  | cons c calls ih => exact ih (h.serve c)

/-! ## What the lookup finds -/

instance : Std.Total fun a b : Reservation => b.checkInDay ≤ a.checkInDay :=
  ⟨fun a b => le_total b.checkInDay a.checkInDay⟩

instance : IsTrans Reservation fun a b : Reservation => b.checkInDay ≤ a.checkInDay :=
  ⟨fun _ _ _ hab hbc => hbc.trans hab⟩

/-- A confirmed row with the guest. -/
def Reservation.ActiveFor (guestId : String) (r : Reservation) : Prop :=
  (r.guestId = guestId ∨ guestId ∈ r.guests) ∧ r.status = .CONFIRMED

theorem mem_active {db : Db} {guestId : String} {r : Reservation} :
    r ∈ (db.reservations.filter (Reservation.involves guestId)).filter
        (fun r => r.status = .CONFIRMED) ↔ r ∈ db.reservations ∧ r.ActiveFor guestId := by
  simp only [List.mem_filter, Reservation.involves, decide_eq_true_eq, Reservation.ActiveFor,
    and_assoc]

/-- The row that `findFirst` returns begins last among the active rows of the guest. -/
theorem findFirst_eq_some {db : Db} {guestId : String} {row : ReservationWithRoomAndGuests}
    (h : db.findFirst guestId = some row) :
    ∃ r ∈ db.reservations, r.ActiveFor guestId ∧
      (∀ s ∈ db.reservations, s.ActiveFor guestId → s.checkInDay ≤ r.checkInDay) ∧
      db.include r = some row := by
  obtain ⟨r, hhead, hinc⟩ := Option.bind_eq_some_iff.1 h
  obtain ⟨hmem, hleast⟩ := OrderedRows.head_insertionSort_least hhead
  obtain ⟨hr, hactive⟩ := mem_active.1 hmem
  exact ⟨r, hr, hactive, fun s hs ha => hleast s (mem_active.2 ⟨hs, ha⟩), hinc⟩

/-- A reservation is found if one is active. -/
theorem findFirst_isSome_iff {db : Db} {guestId : String} :
    (db.findFirst guestId).isSome = true ↔ ∃ r ∈ db.reservations, r.ActiveFor guestId := by
  constructor
  · intro h
    obtain ⟨row, hsome⟩ := Option.isSome_iff_exists.1 h
    obtain ⟨r, hr, hactive, -⟩ := findFirst_eq_some hsome
    exact ⟨r, hr, hactive⟩
  · rintro ⟨r, hr, hactive⟩
    have hhead := OrderedRows.head_insertionSort_isSome_iff
      (r := fun a b : Reservation => b.checkInDay ≤ a.checkInDay) |>.2
      ⟨r, mem_active.2 ⟨hr, hactive⟩⟩
    obtain ⟨s, hs⟩ := Option.isSome_iff_exists.1 hhead
    have hmem := (mem_active.1 (OrderedRows.head_insertionSort_least hs).1).1
    obtain ⟨row, hrow, -⟩ := include_of_mem hmem
    exact Option.isSome_iff_exists.2 ⟨row, by rw [Db.findFirst, hs, Option.bind_some, hrow]⟩

/-- A guest with an active row has an id that the columns can hold. -/
theorem Reservation.ActiveFor.fitsText {db : Db} {guestId : String} {r : Reservation}
    (h : r.ActiveFor guestId) (hr : r ∈ db.reservations) : Hotel.fitsText guestId = true := by
  have hfits := db.columns r hr
  simp only [Reservation.fits, Bool.and_eq_true, List.all_eq_true] at hfits
  obtain ⟨⟨⟨⟨hguest, -⟩, -⟩, -⟩, hguests⟩ := hfits
  rcases h.1 with rfl | hmem
  · exact hguest
  · exact hguests guestId hmem

/-- The row that is answered begins last among the active rows of the guest. -/
theorem findActive_eq_some {db : Db} {guestId : String} {response : ReservationResponseDto}
    (h : db.findActiveByGuestId guestId = .ok (some response)) :
    ∃ r ∈ db.reservations, r.ActiveFor guestId ∧
      (∀ s ∈ db.reservations, s.ActiveFor guestId → s.checkInDay ≤ r.checkInDay) ∧
      ∃ row, db.include r = some row ∧ response = toReservationResponse row := by
  unfold Db.findActiveByGuestId at h
  split_ifs at h
  obtain ⟨row, hfirst, hresp⟩ := Option.map_eq_some_iff.1 (Except.ok.inj h)
  obtain ⟨r, hr, hactive, hlast, hinc⟩ := findFirst_eq_some hfirst
  exact ⟨r, hr, hactive, hlast, row, hinc, hresp.symm⟩

/-- A reservation is returned if one is active. -/
theorem findActive_isSome_iff {db : Db} {guestId : String} :
    (∃ response, db.findActiveByGuestId guestId = .ok (some response)) ↔
      ∃ r ∈ db.reservations, r.ActiveFor guestId := by
  constructor
  · rintro ⟨response, hsome⟩
    obtain ⟨r, hr, hactive, -⟩ := findActive_eq_some hsome
    exact ⟨r, hr, hactive⟩
  · rintro ⟨r, hr, hactive⟩
    obtain ⟨row, hrow⟩ := Option.isSome_iff_exists.1 (findFirst_isSome_iff.2 ⟨r, hr, hactive⟩)
    refine ⟨toReservationResponse row, ?_⟩
    rw [Db.findActiveByGuestId, if_neg (not_not.2 (hactive.fitsText hr)), hrow, Option.map_some]

/-- The party in an answer is the party of the row, in order. -/
theorem partyGuestIds_of_include {db : Db} {r : Reservation} {row : ReservationWithRoomAndGuests}
    (h : db.include r = some row) (hne : r.guests ≠ []) :
    (toReservationResponse row).partyGuestIds = r.guests.insertionSort (· ≤ ·) := by
  obtain ⟨room, -, rfl⟩ := Option.map_eq_some_iff.1 h
  have hlen : 0 < (r.guests.insertionSort (· ≤ ·)).length := by
    rw [List.length_insertionSort]
    exact List.length_pos_iff.2 hne
  simp only [toReservationResponse, partyGuestIdsFromReservation, if_pos hlen]

/-! ## The history and the rows -/

namespace Ledger

variable {s : Ledger}

/-- The confirmed rows are those of the reservations that are still active. -/
theorem Row.confirmed_iff {b : String × CreateReservationDto} {r : Reservation}
    (h : Row s.cancelled b r) (hb : b ∈ s.created) : r.status = .CONFIRMED ↔ b ∈ s.active := by
  rw [active, List.mem_filter, and_iff_right hb, decide_eq_true_eq, ← h.status]
  cases r.status <;> simp

/-- A row is active if what it was created from is. -/
theorem Row.activeFor_iff {b : String × CreateReservationDto} {r : Reservation}
    (h : Row s.cancelled b r) (hb : b ∈ s.created) (guestId : String) :
    r.ActiveFor guestId ↔ b ∈ s.active ∧ b.2.Involves guestId := by
  rw [Reservation.ActiveFor, h.confirmed_iff hb, h.guestId, h.guests, and_comm]
  rfl

theorem active_subset {b : String × CreateReservationDto} (h : b ∈ s.active) : b ∈ s.created :=
  (List.mem_filter.1 h).1

end Ledger

/-- The answer `response` tells about the reservation `id` created from `dto`: its party is the one
given, in order and without repetition. -/
structure Describes (response : ReservationResponseDto) (id : String) (dto : CreateReservationDto) :
    Prop where
  /-- The id is the one created. -/
  id : response.id = id
  /-- The guest is who made it. -/
  guestId : response.guestId = dto.guestId
  /-- The first day is the one asked for. -/
  checkInDay : response.checkInDay = dto.checkInDay
  /-- The party is sorted. -/
  sorted : response.partyGuestIds.Pairwise (· ≤ ·)
  /-- Nobody is in it twice. -/
  nodup : response.partyGuestIds.Nodup
  /-- Who made it is in it. -/
  guest_mem : response.guestId ∈ response.partyGuestIds
  /-- The guests are the party. -/
  party : ∀ g, g ∈ response.partyGuestIds ↔ g ∈ dto.party

/-- The answer for a row describes what was created. -/
theorem Ledger.Row.describes {s : Ledger} {b : String × CreateReservationDto} {r : Reservation}
    {db : Db} {row : ReservationWithRoomAndGuests} (h : Ledger.Row s.cancelled b r)
    (hok : b.2.PartyOk) (hrow : db.include r = some row) :
    Describes (toReservationResponse row) b.1 b.2 := by
  have hmem : b.2.guestId ∈ r.guests := h.guests ▸ hok.guestId_mem
  have hparty := partyGuestIds_of_include hrow (List.ne_nil_of_mem hmem)
  have hres : row.reservation = r := by
    obtain ⟨room, -, rfl⟩ := Option.map_eq_some_iff.1 hrow
    rfl
  have hguest : (toReservationResponse row).guestId = b.2.guestId := by
    rw [← h.guestId, ← hres]
    rfl
  refine ⟨?_, hguest, ?_, ?_, ?_, ?_, fun g => ?_⟩
  · rw [← h.id, ← hres]
    rfl
  · rw [← h.checkInDay, ← hres]
    rfl
  · rw [hparty]
    exact List.pairwise_insertionSort _ _
  · rw [hparty, (List.perm_insertionSort _ _).nodup_iff, h.guests]
    exact hok.nodup
  · rw [hparty, hguest, List.mem_insertionSort]
    exact hmem
  · rw [hparty, List.mem_insertionSort, h.guests]

theorem CreateReservationDto.PartyOk.involves_iff {dto : CreateReservationDto} (h : dto.PartyOk)
    {guestId : String} : dto.Involves guestId ↔ guestId ∈ dto.party :=
  ⟨fun hi => hi.elim (fun he => he ▸ h.guestId_mem) fun hmem => hmem, Or.inr⟩

namespace Ledger

theorem cancelled_mono {s : Ledger} {id : String} (h : id ∈ s.cancelled) (c : Call) :
    id ∈ (s.serve c).cancelled := by
  cases c with
  | create airport uuid dto =>
    simp only [serve]
    split <;> exact h
  | cancel other =>
    simp only [serve]
    split
    · exact h
    · exact List.mem_cons_of_mem _ h

/-- A cancelled id stays so. -/
theorem cancelled_foldl {s : Ledger} {id : String} (h : id ∈ s.cancelled) (calls : List Call) :
    id ∈ (calls.foldl serve s).cancelled := by
  induction calls generalizing s with
  | nil => exact h
  | cons c calls ih => exact ih (cancelled_mono h c)

/-- What was cancelled at some point of the calls is in the history at the end. -/
theorem mem_cancelled {s : Ledger} {before after : List Call} {id : String}
    {q : Db × CancelReservationResponseDto}
    (h : Hotel.cancel (before.foldl serve s).db id = .ok q) :
    id ∈ ((before ++ .cancel id :: after).foldl serve s).cancelled := by
  rw [List.foldl_append, List.foldl_cons]
  refine cancelled_foldl ?_ after
  simp only [serve, h]
  exact List.mem_cons_self

end Ledger

/-- **Lookups are sound and complete.** After any calls from an empty store, with the rows of the
table read in any order, a guest has an answer exactly if some reservation for the guest is active.
The answer describes such a reservation, of the last check-in day among them, and the party in it
contains the guest. It is never a reservation that was cancelled at any point. -/
theorem findActiveByGuestId_correct (rooms : List Room) (roomKey : (rooms.map Room.id).Nodup)
    (calls : List Call) (guestId : String) (db : Db)
    (hdb : db.reservations.Perm
      (calls.foldl Ledger.serve (Ledger.initial rooms roomKey)).db.reservations) :
    let active := (calls.foldl Ledger.serve (Ledger.initial rooms roomKey)).active
    ((∃ response, db.findActiveByGuestId guestId = .ok (some response)) ↔
      ∃ b ∈ active, b.2.Involves guestId) ∧
    ∀ response, db.findActiveByGuestId guestId = .ok (some response) →
      (∃ b ∈ active, b.2.Involves guestId ∧ Describes response b.1 b.2 ∧
        guestId ∈ response.partyGuestIds ∧
        ∀ c ∈ active, c.2.Involves guestId → c.2.checkInDay ≤ response.checkInDay) ∧
      ∀ before id after, calls = before ++ .cancel id :: after →
        (∃ q, cancel (before.foldl Ledger.serve (Ledger.initial rooms roomKey)).db id = .ok q) →
        response.id ≠ id := by
  intro active
  set s := calls.foldl Ledger.serve (Ledger.initial rooms roomKey) with hs
  have hcon : s.Consistent := Ledger.consistent_foldl (Ledger.initial_consistent rooms roomKey) calls
  refine ⟨?_, fun response hsome => ?_⟩
  · rw [findActive_isSome_iff]
    constructor
    · rintro ⟨r, hr, hactive⟩
      obtain ⟨b, hb, hrow⟩ := Keyed.forall₂_left hcon.rows (hdb.mem_iff.1 hr)
      exact ⟨b, (hrow.activeFor_iff hb guestId).1 hactive⟩
    · rintro ⟨b, hb, hinv⟩
      have hcreated := Ledger.active_subset hb
      obtain ⟨r, hr, hrow⟩ := Keyed.forall₂_right hcon.rows hcreated
      exact ⟨r, hdb.mem_iff.2 hr, (hrow.activeFor_iff hcreated guestId).2 ⟨hb, hinv⟩⟩
  · obtain ⟨r, hr, hactive, hlast, row, hinc, rfl⟩ := findActive_eq_some hsome
    obtain ⟨b, hb, hrow⟩ := Keyed.forall₂_left hcon.rows (hdb.mem_iff.1 hr)
    obtain ⟨hba, hinv⟩ := (hrow.activeFor_iff hb guestId).1 hactive
    have hdesc := hrow.describes (hcon.party b hb) hinc
    refine ⟨⟨b, hba, hinv, hdesc, ?_, fun c hc hcinv => ?_⟩, ?_⟩
    · exact (hdesc.party guestId).2 ((hcon.party b hb).involves_iff.1 hinv)
    · have hcreated := Ledger.active_subset hc
      obtain ⟨t, ht, htrow⟩ := Keyed.forall₂_right hcon.rows hcreated
      have hle := hlast t (hdb.mem_iff.2 ht) ((htrow.activeFor_iff hcreated guestId).2 ⟨hc, hcinv⟩)
      rw [hdesc.checkInDay, ← htrow.checkInDay, ← hrow.checkInDay]
      exact hle
    · rintro before id after rfl ⟨q, hq⟩ heq
      have hmem : id ∈ s.cancelled := Ledger.mem_cancelled hq
      have hnot := of_decide_eq_true (List.mem_filter.1 hba).2
      exact hnot (hdesc.id ▸ heq ▸ hmem)

/-- A party of two is booked, and the second of them finds the reservation. -/
theorem findActiveByGuestId_party :
    let calls : List Call :=
      [.create (fun _ => none) "a"
        { stay "mango-miles" with partyGuestIds := some ["mango-miles", "kiki-smith"] }]
    ∃ response,
      (calls.foldl Ledger.serve
        (Ledger.initial oneRoom.rooms oneRoom.roomKey)).db.findActiveByGuestId "kiki-smith" =
          .ok (some response) :=
  (findActiveByGuestId_correct oneRoom.rooms oneRoom.roomKey _ "kiki-smith" _
    (List.Perm.refl _)).1.2 ⟨_, List.mem_cons_self, Or.inr (by decide)⟩

end Hotel
