import Webmeow.Parrot.Tools
import Webmeow.Lib.Isolation
import Webmeow.Lib.Runs

/-!
# What the tools tell a session

Two states of the services that agree on all aggregates and on the records of the session's guest
may differ in the records of everyone else. A sequence of tool calls is isolated from that
difference exactly when none of them gets through to a route that tells it: the queue snapshot and
the list of arrivals, a lookup of another guest, and a reservation by its id.
-/

namespace Parrot

open Isolation Runs

/-! ## Agreement -/

/-- The stamps behind the size and the waiting times of a gate, without the guests. -/
def gateStamps (gate : Airport.Gate) : Option ℚ × List ℚ :=
  (gate.currentlyProcessing.map Airport.Guest.queuedAt, gate.queue.map Airport.Guest.queuedAt)

/-- The airports agree on the aggregates and on what the session's guest is told about itself. -/
structure AirportAgree (session : Option String) (a b : Airport.Service) : Prop where
  /-- The configurations are the same. -/
  cfg : a.cfg = b.cfg
  /-- The clocks are the same. -/
  now : a.now = b.now
  /-- The statistics are the same. -/
  stats : a.getStats = b.getStats
  /-- The queues have the same times. -/
  stamps : ∀ g, gateStamps (a.system.gates g) = gateStamps (b.system.gates g)
  /-- The guest has the same rows. -/
  rows : ∀ guestId, session = some guestId →
    a.system.db.rows.filter (Airport.Arrival.isOf guestId) =
      b.system.db.rows.filter (Airport.Arrival.isOf guestId)
  /-- The guest has the same positions. -/
  position : ∀ guestId, session = some guestId → ∀ g,
    (a.system.gates g).position guestId = (b.system.gates g).position guestId

/-- The hotels agree on the rooms with their occupancy and on the reservations of the session's
guest. -/
structure HotelAgree (session : Option String) (a b : Hotel.Service) : Prop where
  /-- The days are the same. -/
  day : a.currentDay = b.currentDay
  /-- The rooms are the same. -/
  rooms : a.db.rooms = b.db.rooms
  /-- The rooms are listed with the same guests. -/
  occupancy : Hotel.findAll a.db a.currentDay = Hotel.findAll b.db b.currentDay
  /-- The guest has the same reservations. -/
  reservations : ∀ guestId, session = some guestId →
    a.db.reservations.filter (Hotel.Reservation.involves guestId) =
      b.db.reservations.filter (Hotel.Reservation.involves guestId)

/-- The services agree on what a session may see. -/
structure Agree (session : Option String) (s t : Services) : Prop where
  /-- The airports agree. -/
  airport : AirportAgree session s.airport t.airport
  /-- The hotels agree. -/
  hotel : HotelAgree session s.hotel t.hotel

variable {session : Option String}

theorem AirportAgree.refl (a : Airport.Service) : AirportAgree session a a :=
  ⟨rfl, rfl, rfl, fun _ => rfl, fun _ _ => rfl, fun _ _ _ => rfl⟩

theorem HotelAgree.refl (a : Hotel.Service) : HotelAgree session a a :=
  ⟨rfl, rfl, rfl, fun _ _ => rfl⟩

theorem AirportAgree.getArrival {a b : Airport.Service} {guestId : String}
    (h : AirportAgree (some guestId) a b) : a.getArrival guestId = b.getArrival guestId := by
  have hrow : a.system.db.getGuest guestId = b.system.db.getGuest guestId := by
    unfold Airport.Db.getGuest
    rw [h.rows guestId rfl]
  have hpos : ∀ g, a.getGuestPosition guestId g = b.getGuestPosition guestId g := by
    intro g
    unfold Airport.Service.getGuestPosition
    rw [h.cfg, h.position guestId rfl g]
  unfold Airport.Service.getArrival
  rw [hrow]
  cases b.system.db.getGuest guestId with
  | none => rfl
  | some row => simp only [hpos, h.now]

theorem HotelAgree.findActive {a b : Hotel.Service} {guestId : String}
    (h : HotelAgree (some guestId) a b) :
    a.db.findActiveByGuestId guestId = b.db.findActiveByGuestId guestId := by
  have hinclude : ∀ r, a.db.include r = b.db.include r := by
    intro r
    unfold Hotel.Db.include
    rw [h.rooms]
  unfold Hotel.Db.findActiveByGuestId Hotel.Db.findFirst
  simp only [h.reservations guestId rfl, hinclude]

/-! ## Routes -/

/-- The filters of the list of arrivals let some row pass. -/
def filtersPass (status passportType : Option String) : Bool :=
  ([Airport.Status.queued, .processing, .processed].any fun v => Airport.passes status v.name) &&
    [Airport.PassportType.EU, .nonEU].any fun v => Airport.passes passportType v.name

/-- The route tells something about other guests than the session's. -/
def AirportRoute.exposes (session : Option String) : AirportRoute → Bool
  | .queue => true
  | .arrivals status passportType => filtersPass status passportType
  | .arrival guestId => decide (session ≠ some guestId)
  | _ => false

/-- An id that no column can hold is refused, whoever asks. -/
def HotelRoute.exposes (session : Option String) : HotelRoute → Bool
  | .byGuest guestId => Hotel.fitsText guestId && decide (session ≠ some guestId)
  | .byId id => Hotel.fitsText id
  | _ => false

theorem filter_eq_nil_of_not_pass {status passportType : Option String}
    (h : filtersPass status passportType = false) (s : Airport.Service) :
    s.listArrivals status passportType = [] := by
  have hnone : ∀ row : Airport.Arrival, (Airport.passes status row.status.name &&
      Airport.passes passportType row.traveller.passportType.name) = false := by
    intro row
    by_contra hpass
    rw [Bool.not_eq_false, Bool.and_eq_true] at hpass
    have hall : filtersPass status passportType = true := by
      rw [filtersPass, Bool.and_eq_true, List.any_eq_true, List.any_eq_true]
      refine ⟨⟨row.status, ?_, hpass.1⟩, ⟨row.traveller.passportType, ?_, hpass.2⟩⟩
      · cases row.status <;> decide
      · cases row.traveller.passportType <;> decide
    rw [h] at hall
    cases hall
  unfold Airport.Service.listArrivals
  rw [List.filter_eq_nil_iff.2 fun row _ => by rw [hnone row]; exact Bool.false_ne_true]
  rfl

theorem AirportRoute.serve_congr {r : AirportRoute} (hr : r.exposes session = false)
    {a b : Airport.Service} (h : AirportAgree session a b) : r.serve a = r.serve b := by
  cases r with
  | stats => simp only [serve, h.stats]
  | queue => cases hr
  | arrivals status passportType =>
    simp only [serve, filter_eq_nil_of_not_pass hr]
  | arrival guestId =>
    have hs : session = some guestId := by simpa [exposes] using hr
    subst hs
    simp only [serve, h.getArrival]
  | health => rfl
  | unmatched status => rfl

theorem HotelRoute.serve_congr {r : HotelRoute} (hr : r.exposes session = false)
    {a b : Hotel.Service} (h : HotelAgree session a b) : r.serve a = r.serve b := by
  cases r with
  | rooms => simp only [serve, h.occupancy]
  | byGuest guestId =>
    by_cases htext : Hotel.fitsText guestId = true
    · have hs : session = some guestId := by simpa [exposes, htext] using hr
      subst hs
      simp only [serve, h.findActive]
    · simp only [serve, Hotel.Db.findActiveByGuestId, if_pos htext]
  | byId id =>
    have htext : ¬ Hotel.fitsText id = true := by simpa [exposes] using hr
    simp only [serve, Hotel.Db.findById, if_pos htext]
  | health => rfl
  | unmatched status => rfl

/-! ## States that differ in one guest -/

/-- There is always one more guest, whose id the hotel's columns can hold. -/
theorem exists_other (session : Option String) (who : String) :
    ∃ other, other ≠ who ∧ session ≠ some other ∧ Hotel.fitsText other = true := by
  -- an id that is longer than both
  set n := who.length + (session.getD "").length + 1 with hn
  have hlen : (String.ofList (List.replicate n 'x')).length = n := by
    rw [String.length_ofList, List.length_replicate]
  refine ⟨String.ofList (List.replicate n 'x'), fun h => ?_, fun h => ?_, ?_⟩
  · rw [h] at hlen
    omega
  · rw [h, Option.getD_some] at hn
    omega
  · simp only [Hotel.fitsText, String.toList_ofList, List.all_replicate]
    exact (Bool.if_true_left _ _).trans (Bool.or_true _)

section Airport

open Airport

/-- An arrival. -/
def guestRow (who : String) (passportType : PassportType) (status : Status) (id : ℕ) : Arrival :=
  ⟨id, ⟨who, "Kiki", "Smith", 30, passportType, .standard, false⟩, status, ⟨.EU, 1⟩, 0, none, none⟩

/-- The gate while the guest of a row is at it. -/
def gateFor (row : Arrival) : Gate :=
  match row.status with
  | .queued => ⟨[row.dump], none⟩
  | .processing => ⟨[], some (.delayed, row.dump)⟩
  | .processed => Gate.empty

/-- An airport with one gate of each type and one guest. -/
def oneGuest (who : String) (passportType : PassportType) (status : Status) : Airport.Service where
  cfg := ⟨1, 1⟩
  system :=
    { db := Db.empty.insert (guestRow who passportType status) fun _ => rfl
      gates := Function.update (fun _ => Gate.empty) ⟨.EU, 1⟩
        (gateFor (guestRow who passportType status 1))
      calls := [] }
  now := 0

theorem oneGuest_rows (who : String) (passportType : PassportType) (status : Status) :
    (oneGuest who passportType status).system.db.rows = [guestRow who passportType status 1] := rfl

theorem gateFor_stamps (who who' : String) (passportType : PassportType) (status : Status) :
    gateStamps (gateFor (guestRow who passportType status 1)) =
      gateStamps (gateFor (guestRow who' passportType status 1)) := by
  cases status <;> rfl

theorem gateFor_position {who guestId : String} (h : who ≠ guestId) (passportType : PassportType)
    (status : Status) : (gateFor (guestRow who passportType status 1)).position guestId = none := by
  cases status <;>
    simp [gateFor, guestRow, Gate.position, Gate.currentlyProcessing, Arrival.dump, Guest.isOf,
      Gate.empty, h]

/-- Whoever the one guest is, a session of somebody else agrees on it. -/
theorem oneGuest_agree {who who' : String} (h : session ≠ some who) (h' : session ≠ some who')
    (passportType : PassportType) (status : Status) :
    AirportAgree session (oneGuest who passportType status)
      (oneGuest who' passportType status) where
  cfg := rfl
  now := rfl
  stats := by cases status <;> rfl
  stamps := by
    intro g
    simp only [oneGuest, Function.update_apply]
    split_ifs
    · exact gateFor_stamps who who' passportType status
    · rfl
  rows := by
    rintro guestId rfl
    have hne : who ≠ guestId := fun he => h (by rw [he])
    have hne' : who' ≠ guestId := fun he => h' (by rw [he])
    simp [oneGuest_rows, Arrival.isOf, guestRow, hne, hne']
  position := by
    rintro guestId rfl g
    have hne : who ≠ guestId := fun he => h (by rw [he])
    have hne' : who' ≠ guestId := fun he => h' (by rw [he])
    simp only [oneGuest, Function.update_apply]
    split_ifs
    · rw [gateFor_position hne, gateFor_position hne']
    · rfl

theorem oneGuest_listArrivals {status? passport? : Option String} {status : Status}
    {passportType : PassportType} (hs : passes status? status.name = true)
    (hp : passes passport? passportType.name = true) (who : String) :
    (oneGuest who passportType status).listArrivals status? passport? =
      [guestRow who passportType status 1] := by
  unfold Airport.Service.listArrivals
  rw [oneGuest_rows, List.filter_cons_of_pos (by simp [guestRow, hs, hp])]
  rfl

theorem oneGuest_getArrival (who : String) :
    ((oneGuest who .EU .queued).getArrival who).status = "queued" := by
  simp [Airport.Service.getArrival, Db.getGuest, oneGuest_rows, guestRow, Arrival.isOf, Status.name]

theorem oneGuest_getArrival_other {who guestId : String} (h : who ≠ guestId) :
    (oneGuest who .EU .queued).getArrival guestId = notStarted guestId := by
  simp [Airport.Service.getArrival, Db.getGuest, oneGuest_rows, guestRow, Arrival.isOf, h]

/-- The snapshot of the queue names the one guest. -/
theorem oneGuest_queue (who name : String) :
    (∃ gate ∈ (oneGuest who .EU .queued).getAllGatesStatus.gates, ∃ e ∈ gate.queue,
      e.guest.traveller.guestId = name) ↔ who = name := by
  simp only [Airport.Service.getAllGatesStatus, List.mem_insertionSort]
  simp [oneGuest, Function.update_apply, Config.gateIds, gateStatus, gateFor, guestRow,
    Gate.currentlyProcessing, Gate.empty, queueEntry, Arrival.dump]

end Airport

/-- **An exposing route exposes**: two airports agree and only one of them gives this answer. -/
theorem AirportRoute.exposed {r : AirportRoute} (hr : r.exposes session = true) :
    ∃ a b body, AirportAgree session a b ∧ r.serve a = .ok (some body) ∧
      r.serve b ≠ .ok (some body) := by
  obtain ⟨who, -, hwho, -⟩ := exists_other session ""
  cases r with
  | stats => cases hr
  | health => cases hr
  | unmatched status => cases hr
  | queue =>
    obtain ⟨who', hne, hwho', -⟩ := exists_other session who
    refine ⟨_, _, _, oneGuest_agree hwho hwho' .EU .queued, rfl, fun he => hne ?_⟩
    injection he with he
    injection he with he
    injection he with he
    exact (oneGuest_queue who' who).1 (he ▸ (oneGuest_queue who who).2 rfl)
  | arrivals status? passport? =>
    obtain ⟨who', hne, hwho', -⟩ := exists_other session who
    simp only [exposes, filtersPass, Bool.and_eq_true, List.any_eq_true] at hr
    obtain ⟨⟨status, -, hs⟩, ⟨passportType, -, hp⟩⟩ := hr
    refine ⟨_, _, _, oneGuest_agree hwho hwho' passportType status, rfl, fun he => hne ?_⟩
    simp only [serve, oneGuest_listArrivals hs hp] at he
    injection he with he
    injection he with he
    injection he with he
    injection he with he
    injection he with _ he
    injection he
  | arrival guestId =>
    obtain ⟨who', hne, hwho', -⟩ := exists_other session guestId
    have hs : session ≠ some guestId := by simpa [exposes] using hr
    refine ⟨_, _, _, oneGuest_agree hs hwho' .EU .queued, rfl, fun he => ?_⟩
    simp only [serve, oneGuest_getArrival_other hne] at he
    injection he with he
    injection he with he
    injection he with he
    have hstatus := congrArg Airport.ArrivalResponse.status he
    rw [oneGuest_getArrival] at hstatus
    exact absurd hstatus (by simp [Airport.notStarted])

section Hotel

open Hotel

/-- The one reservation of `oneStay`. -/
def onlyStay (who id : String) : Reservation :=
  ⟨id, who, "room-standard-01", 1, 0, 1, .CONFIRMED, [who]⟩

theorem onlyStay_fits {who : String} (h : fitsText who = true) (id : String) :
    (onlyStay who id).fits = true := by
  simp [Reservation.fits, onlyStay, h, fitsInt4]

/-- A hotel with one room and one reservation in it. -/
def oneStay (who id : String) (hwho : fitsText who = true) : Hotel.Service where
  db :=
    { rooms := [⟨"room-standard-01", .STANDARD, 2, 100⟩]
      reservations := [onlyStay who id]
      roomKey := List.nodup_singleton _
      reservationKey := List.nodup_singleton _
      guestKey := fun _ hr => List.mem_singleton.1 hr ▸ List.nodup_singleton who
      roomRef := fun _ hr => List.mem_singleton.1 hr ▸ List.mem_singleton_self _
      columns := fun _ hr => List.mem_singleton.1 hr ▸ onlyStay_fits hwho id }
  currentDay := 0

/-- The hotel of a guest without a name. -/
def someStay : Hotel.Service := oneStay "" "" rfl

theorem oneStay_agree {who who' : String} (h : session ≠ some who) (h' : session ≠ some who')
    (hwho : fitsText who = true) (hwho' : fitsText who' = true) (id : String) :
    HotelAgree session (oneStay who id hwho) (oneStay who' id hwho') where
  day := rfl
  rooms := rfl
  occupancy := rfl
  reservations := by
    rintro guestId rfl
    have hne : who ≠ guestId := fun he => h (by rw [he])
    have hne' : who' ≠ guestId := fun he => h' (by rw [he])
    simp [oneStay, onlyStay, Reservation.involves, hne, hne', hne.symm, hne'.symm]

/-- What the hotel tells about the one reservation. -/
def oneStayResponse (who id : String) : ReservationResponseDto :=
  ⟨id, who, [who], "room-standard-01", .STANDARD, 1, 0, 1, .CONFIRMED⟩

theorem oneStay_findActive {who : String} (hwho : fitsText who = true) (id : String) :
    (oneStay who id hwho).db.findActiveByGuestId who = .ok (some (oneStayResponse who id)) := by
  simp [oneStay, onlyStay, Db.findActiveByGuestId, hwho, Db.findFirst, Reservation.involves,
    Db.include, toReservationResponse, partyGuestIdsFromReservation, oneStayResponse]

theorem oneStay_findActive_other {who guestId : String} (h : who ≠ guestId)
    (hwho : fitsText who = true) (hguest : fitsText guestId = true) (id : String) :
    (oneStay who id hwho).db.findActiveByGuestId guestId = .ok none := by
  simp [oneStay, onlyStay, Db.findActiveByGuestId, hguest, Db.findFirst, Reservation.involves, h,
    h.symm]

theorem oneStay_findById {who id : String} (hwho : fitsText who = true)
    (hid : fitsText id = true) :
    (oneStay who id hwho).db.findById id = .ok (oneStayResponse who id) := by
  simp [oneStay, onlyStay, Db.findById, hid, Db.findUnique, Db.include, toReservationResponse,
    partyGuestIdsFromReservation, oneStayResponse]

end Hotel

theorem HotelRoute.exposed {r : HotelRoute} (hr : r.exposes session = true) :
    ∃ a b body, HotelAgree session a b ∧ r.serve a = .ok (some body) ∧
      r.serve b ≠ .ok (some body) := by
  obtain ⟨who, -, hwho, htext⟩ := exists_other session ""
  cases r with
  | rooms => cases hr
  | health => cases hr
  | unmatched status => cases hr
  | byGuest guestId =>
    obtain ⟨who', hne, hwho', htext'⟩ := exists_other session guestId
    obtain ⟨hguest, hs⟩ : Hotel.fitsText guestId = true ∧ session ≠ some guestId := by
      simpa [exposes] using hr
    refine ⟨oneStay guestId "" hguest, oneStay who' "" htext',
      .reservation (oneStayResponse guestId ""), oneStay_agree hs hwho' hguest htext' "", ?_,
      fun he => ?_⟩
    · simp only [serve, oneStay_findActive, Option.map_some]
    · simp only [serve, oneStay_findActive_other hne htext' hguest, Option.map_none] at he
      injection he with he
      cases he
  | byId id =>
    obtain ⟨who', hne, hwho', htext'⟩ := exists_other session who
    refine ⟨oneStay who id htext, oneStay who' id htext', .reservation (oneStayResponse who id),
      oneStay_agree hwho hwho' htext htext' id, ?_, fun he => hne ?_⟩
    · simp only [serve, oneStay_findById htext hr]
    · simp only [serve, oneStay_findById htext' hr] at he
      injection he with he
      injection he with he
      injection he with he
      injection he

/-! ## Requests -/

variable {c : Client} {call : Call}

/-- A request to the airport on this path gets through to a route that exposes others. -/
def Client.airportExposes (c : Client) (session : Option String) (call : Call) (path : String) :
    Bool :=
  decide (call.airport = .delivered) && (c.airportRouteOf path).exposes session

/-- A request to the hotel shows the guest of the session at most. -/
def Client.hotelExposes (c : Client) (session : Option String) (call : Call) (path : String) :
    Bool :=
  decide (call.hotel = .delivered) && (c.hotelRouteOf path).exposes session

/-- Only a delivered response matters. -/
theorem fetch_congr {tr : Transport} {r r' : Response} (h : tr = .delivered → r = r') :
    fetch tr r = fetch tr r' := by
  cases tr with
  | delivered => rw [h rfl]
  | refused status => rfl
  | unavailable => rfl
  | broken => rfl

theorem fetch_delivered_iff {r : Response} {body : Body} :
    fetch .delivered r = .ok body ↔ r = .ok (some body) := by
  cases r with
  | rejected status => simp [fetch]
  | ok b =>
    cases b with
    | none => simp [fetch]
    | some b => simp [fetch]

theorem getAirport_congr {path : String} (he : c.airportExposes session call path = false)
    {s t : Services} (h : Agree session s t) :
    c.getAirport call s path = c.getAirport call t path := by
  refine fetch_congr fun htr => ?_
  rw [Client.airportExposes, htr, decide_eq_true rfl, Bool.true_and] at he
  exact AirportRoute.serve_congr he h.airport

theorem getHotel_congr {path : String} (he : c.hotelExposes session call path = false)
    {s t : Services} (h : Agree session s t) :
    c.getHotel call s path = c.getHotel call t path := by
  refine fetch_congr fun htr => ?_
  rw [Client.hotelExposes, htr, decide_eq_true rfl, Bool.true_and] at he
  exact HotelRoute.serve_congr he h.hotel

theorem getAirport_exposed {path : String} (he : c.airportExposes session call path = true) :
    ∃ a b body, AirportAgree session a b ∧ ∀ h h',
      c.getAirport call ⟨a, h⟩ path = .ok body ∧ c.getAirport call ⟨b, h'⟩ path ≠ .ok body := by
  rw [Client.airportExposes, Bool.and_eq_true, decide_eq_true_eq] at he
  obtain ⟨a, b, body, hab, ha, hb⟩ := AirportRoute.exposed he.2
  refine ⟨a, b, body, hab, fun h h' => ⟨?_, fun hb' => hb ?_⟩⟩
  · rw [Client.getAirport, he.1, fetch_delivered_iff]
    exact ha
  · rw [Client.getAirport, he.1, fetch_delivered_iff] at hb'
    exact hb'

theorem getHotel_exposed {path : String} (he : c.hotelExposes session call path = true) :
    ∃ a b body, HotelAgree session a b ∧ ∀ h h',
      c.getHotel call ⟨h, a⟩ path = .ok body ∧ c.getHotel call ⟨h', b⟩ path ≠ .ok body := by
  rw [Client.hotelExposes, Bool.and_eq_true, decide_eq_true_eq] at he
  obtain ⟨a, b, body, hab, ha, hb⟩ := HotelRoute.exposed he.2
  refine ⟨a, b, body, hab, fun h h' => ⟨?_, fun hb' => hb ?_⟩⟩
  · rw [Client.getHotel, he.1, fetch_delivered_iff]
    exact ha
  · rw [Client.getHotel, he.1, fetch_delivered_iff] at hb'
    exact hb'

/-- A request that the client does not choke on is answered somehow in some state. -/
theorem getAirport_answered (c : Client) (h : call.airport ≠ .broken) (path : String) :
    ∃ a, ∀ b, leg (c.getAirport call ⟨a, b⟩ path) ≠ none := by
  refine ⟨oneGuest "" .EU .queued, fun b => ?_⟩
  unfold Client.getAirport
  cases htr : call.airport with
  | broken => exact absurd htr h
  | refused status => exact Option.some_ne_none _
  | unavailable => exact Option.some_ne_none _
  | delivered =>
    cases c.airportRouteOf path <;> exact Option.some_ne_none _

theorem getHotel_answered (c : Client) (h : call.hotel ≠ .broken) (path : String) :
    ∃ b, ∀ a, leg (c.getHotel call ⟨a, b⟩ path) ≠ none := by
  unfold Client.getHotel
  cases htr : call.hotel with
  | broken => exact absurd htr h
  | refused status => exact ⟨someStay, fun _ => Option.some_ne_none _⟩
  | unavailable => exact ⟨someStay, fun _ => Option.some_ne_none _⟩
  | delivered =>
    cases c.hotelRouteOf path with
    | byGuest guestId =>
      by_cases htext : Hotel.fitsText guestId = true
      · -- the guest needs a reservation, otherwise the body is empty
        refine ⟨oneStay guestId "" htext, fun _ => ?_⟩
        simp only [HotelRoute.serve, oneStay_findActive, Option.map_some]
        exact Option.some_ne_none _
      · refine ⟨someStay, fun _ => ?_⟩
        simp only [HotelRoute.serve, Hotel.Db.findActiveByGuestId, if_pos htext]
        exact Option.some_ne_none _
    | byId id =>
      refine ⟨someStay, fun _ => ?_⟩
      simp only [HotelRoute.serve]
      cases someStay.db.findById id with
      | ok v => exact Option.some_ne_none _
      | error e => exact Option.some_ne_none _
    | rooms => exact ⟨someStay, fun _ => Option.some_ne_none _⟩
    | health => exact ⟨someStay, fun _ => Option.some_ne_none _⟩
    | unmatched status => exact ⟨someStay, fun _ => Option.some_ne_none _⟩

/-! ## Calls -/

/-- The tool, called so, tells something about other guests than the session's. The journey tool
tells nothing at all if one of its legs raises an exception. -/
def Tool.exposes (c : Client) (session : Option String) (call : Call)
    (kwargs : List (String × Json)) : Tool → Bool
  | .getAirportStats => c.airportExposes session call "/stats"
  | .getAirportQueueStatus => c.airportExposes session call "/queue"
  | .getHotelRooms => c.hotelExposes session call "/rooms"
  | .getGuestArrivalStatus =>
    match kwargs.lookup "guest_id" with
    | none => false
    | some id => c.airportExposes session call (arrivalPath c id)
  | .getGuestReservation =>
    match kwargs.lookup "guest_id" with
    | none => false
    | some id => c.hotelExposes session call (reservationPath c id)
  | .getGuestJourneyStatus =>
    match kwargs.lookup "guest_id" with
    | none => false
    | some id =>
      decide (call.airport ≠ .broken ∧ call.hotel ≠ .broken) &&
        (c.airportExposes session call (arrivalPath c id) ||
          c.hotelExposes session call (reservationPath c id))

/-- The call runs a tool that exposes others. -/
def Call.exposes (c : Client) (session : Option String) (call : Call) : Bool :=
  match DISPATCH.lookup call.name, call.arguments with
  | some tool, .obj kwargs => tool.exposes c session call kwargs
  | _, _ => false

theorem answer_body_iff {name : String} {e : Except Failure Body} {body : Body} :
    answer name (e.map .body) = some (.body body) ↔ e = .ok body := by
  cases e with
  | ok b => simp [answer, Except.map]
  | error f => cases f <;> simp [answer, Except.map]

theorem leg_value_iff {e : Except Failure Body} {body : Body} :
    leg e = some (.value body) ↔ e = .ok body := by
  cases e with
  | ok b => simp [leg]
  | error f => cases f <;> simp [leg]

/-- A journey that was answered shows both legs. -/
theorem answer_gather_iff {name : String} {id : Json} {a r : Except Failure Body} {x y : Leg} :
    answer name (gather id a r) = some (.journey id x y) ↔ leg a = some x ∧ leg r = some y := by
  unfold gather
  cases leg a with
  | none => simp [answer]
  | some x' =>
    cases leg r with
    | none => simp [answer]
    | some y' => simp [answer]

theorem gather_of_broken {id : Json} {a r : Except Failure Body} (h : leg a = none ∨ leg r = none) :
    gather id a r = .error .escaping := by
  unfold gather
  rcases h with h | h
  · rw [h]
  · rw [h]
    cases leg a <;> rfl

theorem withGuestId_congr {kwargs : List (String × Json)} {f g : Json → Except Failure ToolResult}
    (h : ∀ id, kwargs.lookup "guest_id" = some id → f id = g id) :
    withGuestId kwargs f = withGuestId kwargs g := by
  unfold withGuestId
  cases hid : kwargs.lookup "guest_id" with
  | none => rfl
  | some id => exact h id hid

/-- A client that raises on one of the legs raises in every state. -/
theorem gather_broken (h : call.airport = .broken ∨ call.hotel = .broken) (id : Json)
    (s : Services) (p q : String) :
    gather id (c.getAirport call s p) (c.getHotel call s q) = .error .escaping := by
  refine gather_of_broken ?_
  rcases h with h | h
  · exact Or.inl (by simp only [Client.getAirport, h, fetch, leg])
  · exact Or.inr (by simp only [Client.getHotel, h, fetch, leg])

theorem Tool.run_congr {tool : Tool} {kwargs : List (String × Json)}
    (he : tool.exposes c session call kwargs = false) {s t : Services} (h : Agree session s t) :
    tool.run c call kwargs s = tool.run c call kwargs t := by
  cases tool with
  | getAirportStats => simp only [run, getAirport_congr he h]
  | getAirportQueueStatus => simp only [run, getAirport_congr he h]
  | getHotelRooms => simp only [run, getHotel_congr he h]
  | getGuestArrivalStatus =>
    refine withGuestId_congr fun id hid => ?_
    simp only [exposes, hid] at he
    rw [getAirport_congr he h]
  | getGuestReservation =>
    refine withGuestId_congr fun id hid => ?_
    simp only [exposes, hid] at he
    rw [getHotel_congr he h]
  | getGuestJourneyStatus =>
    refine withGuestId_congr fun id hid => ?_
    simp only [exposes, hid, Bool.and_eq_false_iff, Bool.or_eq_false_iff] at he
    rcases he with he | ⟨ha, hr⟩
    · have hbroken : call.airport = .broken ∨ call.hotel = .broken := by
        by_contra hn
        push Not at hn
        exact absurd hn (of_decide_eq_false he)
      rw [gather_broken hbroken, gather_broken hbroken]
    · rw [getAirport_congr ha h, getHotel_congr hr h]

/-- Two states that a call of the airport alone tells apart. -/
theorem airport_distinguished (name : String) {path : String}
    (he : c.airportExposes session call path = true) : ∃ s t, Agree session s t ∧
      answer name ((c.getAirport call s path).map .body) ≠
        answer name ((c.getAirport call t path).map .body) := by
  obtain ⟨a, b, body, hab, hget⟩ := getAirport_exposed he
  have hotel := someStay
  refine ⟨⟨a, hotel⟩, ⟨b, hotel⟩, ⟨hab, HotelAgree.refl hotel⟩, fun h => ?_⟩
  rw [answer_body_iff.2 (hget hotel hotel).1] at h
  exact (hget hotel hotel).2 (answer_body_iff.1 h.symm)

theorem hotel_distinguished (name : String) {path : String}
    (he : c.hotelExposes session call path = true) : ∃ s t, Agree session s t ∧
      answer name ((c.getHotel call s path).map .body) ≠
        answer name ((c.getHotel call t path).map .body) := by
  obtain ⟨a, b, body, hab, hget⟩ := getHotel_exposed he
  have airport := oneGuest "" .EU .queued
  refine ⟨⟨airport, a⟩, ⟨airport, b⟩, ⟨AirportAgree.refl airport, hab⟩, fun h => ?_⟩
  rw [answer_body_iff.2 (hget airport airport).1] at h
  exact (hget airport airport).2 (answer_body_iff.1 h.symm)

/-- Two states that differ in one leg of the journey, while the other leg is answered. -/
theorem journey_distinguished (name : String) {id : Json} {p q : String}
    (ha : call.airport ≠ .broken) (hh : call.hotel ≠ .broken)
    (he : c.airportExposes session call p = true ∨ c.hotelExposes session call q = true) :
    ∃ s t, Agree session s t ∧
      answer name (gather id (c.getAirport call s p) (c.getHotel call s q)) ≠
        answer name (gather id (c.getAirport call t p) (c.getHotel call t q)) := by
  rcases he with he | he
  · obtain ⟨a, b, body, hab, hget⟩ := getAirport_exposed he
    obtain ⟨hotel, hans⟩ := getHotel_answered c hh q
    obtain ⟨y, hy⟩ := Option.ne_none_iff_exists'.1 (hans a)
    refine ⟨⟨a, hotel⟩, ⟨b, hotel⟩, ⟨hab, HotelAgree.refl hotel⟩, fun h => ?_⟩
    have hx := leg_value_iff.2 (hget hotel hotel).1
    rw [answer_gather_iff.2 ⟨hx, hy⟩] at h
    exact (hget hotel hotel).2 (leg_value_iff.1 (answer_gather_iff.1 h.symm).1)
  · obtain ⟨a, b, body, hab, hget⟩ := getHotel_exposed he
    obtain ⟨airport, hans⟩ := getAirport_answered c ha p
    obtain ⟨x, hx⟩ := Option.ne_none_iff_exists'.1 (hans a)
    refine ⟨⟨airport, a⟩, ⟨airport, b⟩, ⟨AirportAgree.refl airport, hab⟩, fun h => ?_⟩
    have hy := leg_value_iff.2 (hget airport airport).1
    rw [answer_gather_iff.2 ⟨hx, hy⟩] at h
    exact (hget airport airport).2 (leg_value_iff.1 (answer_gather_iff.1 h.symm).2)

theorem Tool.run_distinguished {tool : Tool} {kwargs : List (String × Json)} (name : String)
    (he : tool.exposes c session call kwargs = true) : ∃ s t, Agree session s t ∧
      answer name (tool.run c call kwargs s) ≠ answer name (tool.run c call kwargs t) := by
  cases tool with
  | getAirportStats => exact airport_distinguished name he
  | getAirportQueueStatus => exact airport_distinguished name he
  | getHotelRooms => exact hotel_distinguished name he
  | getGuestArrivalStatus =>
    simp only [exposes] at he
    split at he
    · cases he
    · rename_i id hid
      simp only [run, withGuestId, hid]
      exact airport_distinguished name he
  | getGuestReservation =>
    simp only [exposes] at he
    split at he
    · cases he
    · rename_i id hid
      simp only [run, withGuestId, hid]
      exact hotel_distinguished name he
  | getGuestJourneyStatus =>
    simp only [exposes] at he
    split at he
    · cases he
    · rename_i id hid
      simp only [run, withGuestId, hid]
      simp only [Bool.and_eq_true, Bool.or_eq_true, decide_eq_true_eq] at he
      exact journey_distinguished name he.1.1 he.1.2 he.2

/-- One call returns the same in all states that agree exactly when it exposes nobody else. -/
theorem executeTool_isolated_iff (c : Client) (session : Option String) (call : Call) :
    (∀ s t, Agree session s t → executeTool c session call s = executeTool c session call t) ↔
      call.exposes c session = false := by
  unfold executeTool Call.exposes
  cases DISPATCH.lookup call.name with
  | none => exact ⟨fun _ => rfl, fun _ _ _ _ => rfl⟩
  | some tool =>
    cases call.arguments with
    | obj kwargs =>
      constructor
      · intro h
        by_contra he
        rw [Bool.not_eq_false] at he
        obtain ⟨s, t, hst, hne⟩ := Tool.run_distinguished call.name he
        exact hne (h s t hst)
      · intro he s t hst
        simp only [Tool.run_congr he hst]
    | _ => exact ⟨fun _ => rfl, fun _ _ _ _ => rfl⟩

/-- **Isolation of a session, exactly**: for every session, with a guest or anonymous, and every
sequence of tool calls, the results are the same in all histories of the services that agree on the
aggregates and on the session's own records if and only if no call gets through to a route that
exposes other guests. -/
theorem session_isolated_iff (c : Client) (session : Option String) (calls : List Call) :
    Isolated (executeTool c session) (Agree session) calls ↔
      ∀ call ∈ calls, call.exposes c session = false := by
  rw [isolated_iff]
  exact forall₂_congr fun call _ => executeTool_isolated_iff c session call

/-- No session may look at the queue. -/
theorem queue_exposes
    (hpath : (c.airportTarget (c.airportServiceUrl ++ "/queue")).path = ["queue"]) :
    c.airportExposes session call "/queue" = decide (call.airport = .delivered) := by
  simp only [Client.airportExposes, Client.airportRouteOf, airportRoute, hpath,
    AirportRoute.exposes, Bool.and_true]

/-- A lookup of an id that its URL leads to is for the session's own id only. -/
theorem arrival_exposes {id : String}
    (hpath : (c.airportTarget (c.airportServiceUrl ++ ("/arrivals/" ++ id))).path =
      ["arrivals", id]) :
    c.airportExposes session call (arrivalPath c (.str id)) =
      decide (call.airport = .delivered ∧ session ≠ some id) := by
  simp only [Client.airportExposes, Client.airportRouteOf, arrivalPath, Client.format, airportRoute,
    hpath, AirportRoute.exposes, Bool.decide_and]

section Leak

/-- The default settings; only the URL of the queue matters here. -/
def localClient : Client where
  airportServiceUrl := "http://localhost:3001"
  hotelServiceUrl := "http://localhost:3000"
  str := fun _ => ""
  airportTarget := fun url =>
    ⟨if url = "http://localhost:3001/queue" then ["queue"] else [], fun _ => none, 404⟩
  hotelTarget := fun _ => ⟨[], fun _ => none, 404⟩

/-- A call for the queues. -/
def queueCall : Call := ⟨"get_airport_queue_status", .obj [], .delivered, .delivered⟩

/-- A guest arrives and is put into a queue. -/
def checkIn (who : String) : List Airport.Event :=
  [.arrive ⟨who, "Kiki", "Smith", 30, .EU, .standard, false⟩, .choose 0 0, .commit 0, .enqueue 0]

theorem checkIn_reaches (who : String) : ∃ calls,
    run (Airport.System.step ⟨1, 1⟩) .initial (checkIn who) =
      some { (oneGuest who .EU .queued).system with calls := calls } :=
  ⟨_, rfl⟩

/-- **An anonymous session reads the queue**: after a check-in of one guest or of another the
airports agree on everything an anonymous session may know, and the tool names the guest. -/
theorem anonymous_reads_queue : ∃ s t : Services,
    run (Airport.System.step ⟨1, 1⟩) .initial (checkIn "guest-kiki-0001") =
      some s.airport.system ∧
    run (Airport.System.step ⟨1, 1⟩) .initial (checkIn "guest-mango-0002") =
      some t.airport.system ∧
    Agree none s t ∧
      executeTool localClient none queueCall s ≠ executeTool localClient none queueCall t := by
  obtain ⟨calls, hkiki⟩ := checkIn_reaches "guest-kiki-0001"
  obtain ⟨calls', hmango⟩ := checkIn_reaches "guest-mango-0002"
  have hagree : AirportAgree none (oneGuest "guest-kiki-0001" .EU .queued)
      (oneGuest "guest-mango-0002" .EU .queued) := oneGuest_agree (by simp) (by simp) .EU .queued
  refine ⟨⟨⟨⟨1, 1⟩, _, 0⟩, someStay⟩, ⟨⟨⟨1, 1⟩, _, 0⟩, someStay⟩, hkiki, hmango,
    ⟨?_, ?_⟩, ?_⟩
  · exact ⟨rfl, rfl, hagree.stats, hagree.stamps, hagree.rows, hagree.position⟩
  · exact HotelAgree.refl _
  · intro h
    injection h with h
    injection h with h
    injection h with h
    have hname := (oneGuest_queue "guest-mango-0002" "guest-kiki-0001").1
      (h ▸ (oneGuest_queue "guest-kiki-0001" "guest-kiki-0001").2 rfl)
    exact absurd hname (by decide)

end Leak

end Parrot
