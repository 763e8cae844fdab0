import Webmeow.Hotel.Server
import Webmeow.Hotel.Proofs.ReservationProofs

/-!
# Double bookings under concurrent requests

A `create` counts the overlapping stays of a room in one step and inserts its own stay in a later
one. A run is free of double bookings exactly when no insert rests on a count that has become stale
in between.
-/

namespace Hotel

open Runs Interleaving

/-- The pending states of a `create`: its days were accepted and nothing is inserted yet. -/
def CreatePc.Pending : CreatePc → Prop
  | .publish _ => False
  | .settled _ => False
  | _ => True

/-- What is known about a thread, whatever the other threads do: a pending `create` asks for a
non-empty stay, and before its insert every row that its count would find has a non-empty stay. -/
def Thread.Sound (srv : Server) : Thread → Prop
  | .create dto pc =>
    (pc.Pending → dto.checkInDay < dto.checkOutDay) ∧
    ∀ party room, pc = .insert party room →
      ∀ r ∈ srv.db.reservations, r.overlapping room dto = true → r.checkInDay < r.checkOutDay
  | .cancel _ _ => True

/-- The step is an insert that the database accepts although the count of its room, taken again now,
would not be zero any more. -/
def staleInsert (p : System) : Event Request Input → Bool
  | .request _ => false
  | .advance i x =>
    match p.threads[i]? with
    | some (.create dto (.insert party room)) =>
      (p.store.db.insertReservation
        (newReservation dto party.partyGuestIds room x.uuid)).isSome &&
      decide (overlappingReservationCount p.store.db.reservations room dto ≠ 0)
    | _ => false

/-! ## What a step can do -/

/-- A scan settles or goes on to a count. -/
theorem scan_cases (dto : CreateReservationDto) (party : Party) (rooms : List Room) :
    scan dto party rooms = .settled (.error (noAvailableRooms dto)) ∨
      ∃ room rest, scan dto party rooms = .count party room rest := by
  unfold scan
  split
  · exact Or.inl rfl
  · exact Or.inr ⟨_, _, rfl⟩

/-- The steps of a `create`: only an accepted insert changes the database, a pending state comes
from a pending state, and the insert is reached through a count of zero. -/
theorem createStep_cases {srv srv' : Server} {dto : CreateReservationDto} {x : Input}
    {pc pc' : CreatePc} (h : createStep srv dto x pc = some (srv', pc')) :
    (pc'.Pending → pc.Pending) ∧
    (∀ party room, pc' = .insert party room →
      srv' = srv ∧ overlappingReservationCount srv.db.reservations room dto = 0) ∧
    (srv'.db = srv.db ∨
      ∃ party room, pc = .insert party room ∧
        srv.db.insertReservation (newReservation dto party.partyGuestIds room x.uuid) =
          some srv'.db) := by
  cases pc with
  | airport party =>
    simp only [createStep] at h
    split at h <;> cases h
    · exact ⟨fun _ => trivial, nofun, Or.inl rfl⟩
    · exact ⟨fun _ => trivial, nofun, Or.inl rfl⟩
  | findRooms party =>
    simp only [createStep] at h
    split_ifs at h <;> cases h
    · exact ⟨fun _ => trivial, nofun, Or.inl rfl⟩
    · refine ⟨fun _ => trivial, fun _ _ e => ?_, Or.inl rfl⟩
      rcases scan_cases dto party (srv.db.findRooms dto.roomType) with hs | ⟨_, _, hs⟩
      · rw [hs] at e; cases e
      · rw [hs] at e; cases e
  | count party room rest =>
    simp only [createStep] at h
    cases hcount : countOverlapping srv.db.reservations room dto with
    | error e =>
      rw [hcount] at h
      cases h
      exact ⟨fun _ => trivial, nofun, Or.inl rfl⟩
    | ok n =>
      rw [hcount] at h
      obtain ⟨-, hn⟩ := countOverlapping_eq_ok_iff.1 hcount
      simp only at h
      split_ifs at h with hc <;> cases h
      · refine ⟨fun _ => trivial, fun _ _ e => ?_, Or.inl rfl⟩
        cases e
        exact ⟨rfl, hn.trans hc⟩
      · refine ⟨fun _ => trivial, fun _ _ e => ?_, Or.inl rfl⟩
        rcases scan_cases dto party rest with hs | ⟨_, _, hs⟩
        · rw [hs] at e; cases e
        · rw [hs] at e; cases e
  | insert party room =>
    simp only [createStep] at h
    split at h
    · cases h
      exact ⟨fun _ => trivial, nofun, Or.inl rfl⟩
    · rename_i db' row hdb
      cases h
      have hins := (createReservation_eq_ok_iff.1 hdb).1
      exact ⟨fun hp => hp.elim, nofun, Or.inr ⟨party, room, rfl, hins⟩⟩
  | publish row =>
    cases h
    exact ⟨fun hp => hp.elim, nofun, Or.inl rfl⟩
  | settled result => cases h

/-- The steps of a `cancel`: the database stays as it is or one row is cancelled. -/
theorem cancelStep_cases {srv srv' : Server} {id : String} {pc pc' : CancelPc}
    (h : cancelStep srv id pc = some (srv', pc')) :
    srv'.db = srv.db ∨ srv'.db = srv.db.cancelReservation id := by
  cases pc with
  | find =>
    simp only [cancelStep] at h
    split_ifs at h
    · split at h
      · cases h; exact Or.inl rfl
      · split_ifs at h <;> cases h <;> exact Or.inl rfl
    · cases h; exact Or.inl rfl
  | update =>
    simp only [cancelStep] at h
    split at h
    · cases h; exact Or.inl rfl
    · cases h; exact Or.inr rfl
  | publish row => cases h; exact Or.inl rfl
  | settled result => cases h

/-- What a step of any thread does to the database. -/
theorem act_cases {srv srv' : Server} {t t' : Thread} {x : Input}
    (h : act srv t x = some (srv', t')) :
    srv'.db = srv.db ∨ (∃ id, srv'.db = srv.db.cancelReservation id) ∨
      ∃ dto party room, t = .create dto (.insert party room) ∧
        srv.db.insertReservation (newReservation dto party.partyGuestIds room x.uuid) =
          some srv'.db := by
  cases t with
  | create dto pc =>
    obtain ⟨⟨s1, pc1⟩, hq, he⟩ := Option.map_eq_some_iff.1 h
    cases he
    rcases (createStep_cases hq).2.2 with hdb | ⟨party, room, rfl, hdb⟩
    · exact Or.inl hdb
    · exact Or.inr (Or.inr ⟨dto, party, room, rfl, hdb⟩)
  | cancel id pc =>
    obtain ⟨⟨s1, pc1⟩, hq, he⟩ := Option.map_eq_some_iff.1 h
    cases he
    rcases cancelStep_cases hq with hdb | hdb
    · exact Or.inl hdb
    · exact Or.inr (Or.inl ⟨id, hdb⟩)

/-- An insert that the database accepts is carried out: the new row can be read back. -/
theorem act_insert {srv srv' : Server} {dto : CreateReservationDto} {party : Party} {room : Room}
    {x : Input} {db' : Db} {t' : Thread}
    (hdb : srv.db.insertReservation (newReservation dto party.partyGuestIds room x.uuid) = some db')
    (h : act srv (.create dto (.insert party room)) x = some (srv', t')) :
    srv'.db.reservations =
      srv.db.reservations ++ [newReservation dto party.partyGuestIds room x.uuid] := by
  obtain ⟨⟨s1, pc1⟩, hq, he⟩ := Option.map_eq_some_iff.1 h
  cases he
  obtain ⟨row, hrow⟩ := createReservation_of_insert hdb
  simp only [createStep, hrow] at hq
  cases hq
  exact (insertReservation_eq_some hdb).2

/-- A stale insert is one of a stay that overlaps by now. -/
theorem stale_cases {p : System} {i : ℕ} {x : Input} {t : Thread} (hi : p.threads[i]? = some t)
    (h : staleInsert p (.advance i x) = true) :
    ∃ dto party room db', t = .create dto (.insert party room) ∧
      p.store.db.insertReservation (newReservation dto party.partyGuestIds room x.uuid) =
        some db' ∧
      overlappingReservationCount p.store.db.reservations room dto ≠ 0 := by
  simp only [staleInsert] at h
  split at h
  · rename_i dto party room hi'
    rw [hi] at hi'
    rw [Bool.and_eq_true, Option.isSome_iff_exists, decide_eq_true_eq] at h
    obtain ⟨⟨db', hdb⟩, hcount⟩ := h
    exact ⟨dto, party, room, db', Option.some.inj hi', hdb, hcount⟩
  · cases h

/-! ## The assertion about threads is free of interference -/

/-- A request that comes in is sound. -/
theorem start_sound (srv : Server) (r : Request) : (start r).Sound srv := by
  cases r with
  | cancel id => trivial
  | create dto =>
    simp only [start, createStart, checkDays]
    split_ifs with hd
    · exact ⟨fun hp => hp.elim, nofun⟩
    · refine ⟨fun _ => not_le.1 hd, fun _ _ e => ?_⟩
      revert e
      simp only
      split <;> intro e <;> cases e

/-- A row that a count would find after a step of another thread has a non-empty stay if all rows
it would have found before had one. -/
theorem Thread.Sound.mono {srv srv' : Server} {u : Thread} (hu : u.Sound srv)
    (hrows : ∀ r ∈ srv'.db.reservations, r.checkInDay < r.checkOutDay ∨
      ∀ room dto, r.overlapping room dto = true →
        ∃ s ∈ srv.db.reservations, s.overlapping room dto = true ∧
          s.checkInDay = r.checkInDay ∧ s.checkOutDay = r.checkOutDay) : u.Sound srv' := by
  cases u with
  | cancel id pc => trivial
  | create dto pc =>
    refine ⟨hu.1, fun party room e r hr ho => ?_⟩
    rcases hrows r hr with hd | hold
    · exact hd
    · obtain ⟨s, hs, hso, h1, h2⟩ := hold room dto ho
      have := hu.2 party room e s hs hso
      omega

/-- A row that overlaps after a cancellation did before. -/
theorem overlapping_of_cancelIf {id : String} {r : Reservation} {room : Room}
    {dto : CreateReservationDto} (h : (r.cancelIf id).overlapping room dto = true) :
    r.overlapping room dto = true := by
  rcases cancelIf_cases id r with e | e
  · rwa [e] at h
  · rw [e] at h
    simp [Reservation.overlapping] at h

/-- A step keeps every request sound. -/
theorem act_sound {srv srv' : Server} {t t' : Thread} {x : Input} (ht : t.Sound srv)
    (h : act srv t x = some (srv', t')) :
    t'.Sound srv' ∧ ∀ u, Thread.Sound srv u → Thread.Sound srv' u := by
  constructor
  · cases t with
    | cancel id pc =>
      obtain ⟨q, -, he⟩ := Option.map_eq_some_iff.1 h
      cases he
      trivial
    | create dto pc =>
      obtain ⟨⟨s1, pc1⟩, hq, he⟩ := Option.map_eq_some_iff.1 h
      cases he
      obtain ⟨hpend, hins, -⟩ := createStep_cases hq
      refine ⟨fun hp => ht.1 (hpend hp), fun party room e r hr ho => ?_⟩
      -- the count that led here found nothing, so there is no such row
      obtain ⟨rfl, hzero⟩ := hins party room e
      rw [overlappingReservationCount_eq_zero.1 hzero r hr] at ho
      cases ho
  · intro u hu
    refine hu.mono fun r hr => ?_
    rcases act_cases h with hdb | ⟨id, hdb⟩ | ⟨dto, party, room, rfl, hdb⟩
    · rw [hdb] at hr
      exact Or.inr fun room dto ho => ⟨r, hr, ho, rfl, rfl⟩
    · rw [hdb, cancelReservation_reservations] at hr
      obtain ⟨s, hs, rfl⟩ := List.mem_map.1 hr
      refine Or.inr fun room dto ho => ⟨s, hs, overlapping_of_cancelIf ho, ?_⟩
      rcases cancelIf_cases id s with e | e <;> rw [e] <;> exact ⟨rfl, rfl⟩
    · rw [(insertReservation_eq_some hdb).2] at hr
      rcases List.mem_append.1 hr with hr | hr
      · exact Or.inr fun room dto ho => ⟨r, hr, ho, rfl, rfl⟩
      · rw [List.mem_singleton.1 hr]
        exact Or.inl (ht.1 trivial)

/-- All threads of a system are sound. -/
def System.Sound (p : System) : Prop := ∀ t ∈ p.threads, t.Sound p.store

/-- A step keeps the system sound. -/
theorem step_sound (p : System) (e : Event Request Input) (p' : System) (h : p.Sound)
    (hs : step p e = some p') : p'.Sound :=
  (Pool.invariant_step (fun s r _ => start_sound s r)
    (fun _ _ _ _ _ _ ht ha => ⟨trivial, act_sound ht ha⟩) p e p' ⟨trivial, h⟩ hs).2

/-! ## The exact condition -/

/-- A step keeps the table free of double bookings exactly when it is not a stale insert. -/
theorem step_noDoubleBooking_iff (p : System) (e : Event Request Input) (p' : System)
    (hsound : p.Sound) (h : NoDoubleBooking p.store.db.reservations) (hs : step p e = some p') :
    NoDoubleBooking p'.store.db.reservations ↔ staleInsert p e = false := by
  cases e with
  | request r =>
    cases hs
    exact ⟨fun _ => rfl, fun _ => h⟩
  | advance i x =>
    obtain ⟨t, s', t', hi, ha, rfl⟩ := Pool.step_advance_iff.1 hs
    constructor
    · intro hn
      by_contra hstale
      obtain ⟨dto, party, room, db', rfl, hdb, hcount⟩ :=
        stale_cases hi (Bool.eq_true_of_not_eq_false hstale)
      rw [Ne, overlappingReservationCount_eq_zero] at hcount
      push Not at hcount
      obtain ⟨r, hr, ho⟩ := hcount
      have ho : r.overlapping room dto = true := Bool.eq_true_of_not_eq_false ho
      have hts := hsound _ (List.mem_of_getElem? hi)
      rw [act_insert hdb ha, noDoubleBooking_append_iff] at hn
      exact not_compatible_of_overlapping ho (hts.2 party room rfl r hr ho) (hts.1 trivial) _ _
        (hn.2 r hr)
    · intro hf
      rcases act_cases ha with hdb | ⟨id, hdb⟩ | ⟨dto, party, room, rfl, hdb⟩
      · rw [hdb]; exact h
      · rw [hdb]; exact h.cancel id
      · have hzero : overlappingReservationCount p.store.db.reservations room dto = 0 := by
          simpa [staleInsert, hi, hdb] using hf
        rw [(insertReservation_eq_some hdb).2, noDoubleBooking_append_iff]
        refine ⟨h, fun s hs => ?_⟩
        exact compatible_of_not_overlapping (overlappingReservationCount_eq_zero.1 hzero s hs) _ _

theorem initial_sound (db : Db) : (System.initial db).Sound := by
  intro t ht
  cases ht

/-- **No double booking, exactly**: from every table without double bookings and in every
interleaving of creates and cancels, all states stay free of double bookings if and only if every
accepted insert happens while the overlap count that chose its room is still zero. -/
theorem noDoubleBooking_iff_no_staleInsert (db : Db) (h : NoDoubleBooking db.reservations)
    (es : List (Event Request Input)) (p : System)
    (hr : run step (System.initial db) es = some p) :
    Always step (fun q => NoDoubleBooking q.store.db.reservations) (System.initial db) es ↔
      Throughout step (fun q e => staleInsert q e = false) (System.initial db) es :=
  always_iff_throughout step_sound step_noDoubleBooking_iff (initial_sound db) h hr

section Race

/-- One standard room for two, nothing reserved. -/
def oneRoom : Db :=
  Db.vacant [⟨"room-standard-01", .STANDARD, 2, 100⟩] (by simp)

/-- A stay of two nights. -/
def stay (guestId : String) : CreateReservationDto where
  guestId := guestId
  partyGuestIds := none
  roomType := .STANDARD
  guestCount := 1
  checkInDay := 1
  checkOutDay := 3

/-- An airport that is not asked, and a key. -/
def input (uuid : String) : Input := ⟨fun _ => none, uuid⟩

/-- Two creates for the same days that both count before either inserts. -/
def racingCreates : List (Event Request Input) :=
  [.request (.create (stay "mango-miles")), .request (.create (stay "kiki-smith")),
    .advance 0 (input ""), .advance 1 (input ""), .advance 0 (input ""), .advance 1 (input ""),
    .advance 0 (input ""), .advance 1 (input ""), .advance 0 (input "a"), .advance 1 (input "b")]

/-- The same two creates, one after the other: the second finds no room. -/
def serialCreates : List (Event Request Input) :=
  [.request (.create (stay "mango-miles")), .request (.create (stay "kiki-smith")),
    .advance 0 (input ""), .advance 0 (input ""), .advance 0 (input ""), .advance 0 (input "a"),
    .advance 1 (input ""), .advance 1 (input ""), .advance 1 (input "")]

/-- Both racing creates are confirmed for the only room, on the same day. -/
theorem racingCreates_doubleBooking :
    NoDoubleBooking oneRoom.reservations ∧
      ∃ p, run step (System.initial oneRoom) racingCreates = some p ∧
        ¬ NoDoubleBooking p.store.db.reservations := by
  refine ⟨List.Pairwise.nil, _, rfl, fun h => ?_⟩
  have hc := List.pairwise_iff_getElem.1 h 0 1 (by decide) (by decide) (by decide)
  exact hc rfl rfl rfl 1 ⟨by decide, by decide⟩

/-- Two requests one after the other book no room twice. -/
theorem serialCreates_noDoubleBooking :
    Always step (fun q => NoDoubleBooking q.store.db.reservations) (System.initial oneRoom)
      serialCreates :=
  (noDoubleBooking_iff_no_staleInsert oneRoom List.Pairwise.nil serialCreates _ rfl).2 (by decide)

end Race

end Hotel
