import Webmeow.Hotel.Lifecycle
import Webmeow.Hotel.Proofs.DoubleBookingProofs

/-!
# One lifecycle event per reservation

Every row that is stored causes one `ReservationConfirmed`, whatever the interleaving. A `cancel`
decides by the status that it has read before its update, so a reservation causes a second
`ReservationCancelled` exactly when an update finds the row cancelled already.
-/

namespace Hotel

open Runs Interleaving

/-! ## What a step can do -/

/-- The steps of a thread, seen from the lifecycle of the reservations: nothing happens, a row is
inserted, a row is cancelled, or a publication is made. -/
inductive Effect (srv : Server) (t : ServiceThread) (srv' : Server) (t' : ServiceThread) : Prop
  /-- No row changes and no event is published. -/
  | silent (hsrv : srv' = srv) (ht : t.publishing = none) (ht' : t'.publishing = none)
      (hupdate : ∀ id, t' = .write (.cancel id .update) →
        id ∈ srv.db.ids ∧ srv.db.isCancelled id = false)
      (hmissing : ∀ id, t = .write (.cancel id .update) → id ∉ srv.db.ids)
  /-- A row is inserted, and its confirmation is to be published. -/
  | insert (r : Reservation) (hnew : r.id ∉ srv.db.ids) (hconf : r.status = .CONFIRMED)
      (hrows : srv'.db.reservations = srv.db.reservations ++ [r])
      (hpub : srv'.published = srv.published) (ht : t.publishing = none)
      (ht' : t'.publishing = some (.ReservationConfirmed, r.id))
      (hother : ∀ id, t ≠ .write (.cancel id .update))
  /-- A row is cancelled, and its cancellation is to be published. -/
  | update (id : String) (hid : id ∈ srv.db.ids) (htu : t = .write (.cancel id .update))
      (hdb : srv'.db = srv.db.cancelReservation id) (hpub : srv'.published = srv.published)
      (ht' : t'.publishing = some (.ReservationCancelled, id))
  /-- An event is published. -/
  | publish (type : HotelBroadcastEventType) (e : HotelBroadcastEvent)
      (ht : t.publishing = some (type, e.reservationId)) (hdb : srv'.db = srv.db)
      (hpub : srv'.published = srv.published ++ [(type, e)]) (ht' : t'.publishing = none)
      (hdone : ∀ id, t' ≠ .write (.cancel id .update))

/-- An id is cancelled if its row is. -/
theorem isCancelled_iff {db : Db} {id : String} :
    db.isCancelled id = true ↔ ∃ r ∈ db.reservations, r.id = id ∧ r.status = .CANCELLED := by
  simp [Db.isCancelled]

/-- By the primary key, a row that is found decides whether its id is cancelled. -/
theorem isCancelled_of_findUnique {db : Db} {id : String} {row : ReservationWithRoomAndGuests}
    (h : db.findUnique id = some row) :
    id ∈ db.ids ∧ row.reservation.id = id ∧
      (db.isCancelled id = true ↔ row.reservation.status = .CANCELLED) := by
  obtain ⟨r, hr, hrow⟩ := Option.bind_eq_some_iff.1 h
  obtain ⟨hmem, hid⟩ := (Keyed.find_iff db.reservationKey).1 hr
  obtain ⟨room, -, rfl⟩ := Option.map_eq_some_iff.1 hrow
  refine ⟨hid ▸ List.mem_map_of_mem hmem, hid, ?_⟩
  rw [isCancelled_iff]
  constructor
  · rintro ⟨s, hs, hsid, hst⟩
    have hsame := (Keyed.find_iff db.reservationKey).2 ⟨hs, hsid⟩
    rw [hr, Option.some.injEq] at hsame
    exact hsame ▸ hst
  · intro hst
    exact ⟨r, hmem, hid, hst⟩

/-- A stored reservation is found, by the foreign key together with its room. -/
theorem findUnique_isSome_of_mem {db : Db} {id : String} (h : id ∈ db.ids) :
    (db.findUnique id).isSome = true := by
  obtain ⟨r, hr, rfl⟩ := List.mem_map.1 h
  obtain ⟨row, hrow, -⟩ := include_of_mem hr
  have hfind := Keyed.find_of_mem db.reservationKey hr
  rw [Db.findUnique, hfind, Option.bind_some, hrow]
  rfl

@[simp]
theorem ids_cancelReservation (db : Db) (id : String) : (db.cancelReservation id).ids = db.ids := by
  simp [Db.ids, Function.comp_def]

/-- What a step of `create` does. -/
theorem createStep_effect {srv srv' : Server} {dto : CreateReservationDto} {x : Input}
    {pc pc' : CreatePc} (h : createStep srv dto x pc = some (srv', pc')) :
    Effect srv (.write (.create dto pc)) srv' (.write (.create dto pc')) := by
  have hcreate : ∀ q id, ServiceThread.write (.create dto q) ≠ .write (.cancel id .update) :=
    fun q id he => by cases he
  have hsilent : ∀ {q q' : CreatePc}, (ServiceThread.write (.create dto q)).publishing = none →
      (ServiceThread.write (.create dto q')).publishing = none →
      Effect srv (.write (.create dto q)) srv (.write (.create dto q')) := fun hq hq' =>
    .silent rfl hq hq' (fun id he => absurd he (hcreate _ id)) fun id he => absurd he (hcreate _ id)
  have hscan : ∀ party rooms, (ServiceThread.write (.create dto (scan dto party rooms))).publishing
      = none := by
    intro party rooms
    rcases scan_cases dto party rooms with hs | ⟨room, rest, hs⟩
    · rw [hs]; rfl
    · rw [hs]; rfl
  cases pc with
  | airport party =>
    simp only [createStep] at h
    split at h <;> cases h
    · exact hsilent rfl rfl
    · exact hsilent rfl rfl
  | findRooms party =>
    simp only [createStep] at h
    split_ifs at h <;> cases h
    · exact hsilent rfl rfl
    · exact hsilent rfl (hscan _ _)
  | count party room rest =>
    simp only [createStep] at h
    cases hcount : countOverlapping srv.db.reservations room dto with
    | error e =>
      rw [hcount] at h
      cases h
      exact hsilent rfl rfl
    | ok n =>
      rw [hcount] at h
      simp only at h
      split_ifs at h <;> cases h
      · exact hsilent rfl rfl
      · exact hsilent rfl (hscan _ _)
  | insert party room =>
    simp only [createStep] at h
    split at h
    · cases h
      exact hsilent rfl rfl
    · rename_i db' row hdb
      cases h
      obtain ⟨hins, hrow⟩ := createReservation_eq_ok_iff.1 hdb
      have hnew := (insertReservation_isSome_iff.1 (Option.isSome_iff_exists.2 ⟨_, hins⟩)).1
      have hres : row.reservation = newReservation dto party.partyGuestIds room x.uuid := by
        obtain ⟨r, -, rfl⟩ := Option.map_eq_some_iff.1 hrow
        rfl
      refine .insert _ hnew rfl (insertReservation_eq_some hins).2 rfl rfl ?_ (hcreate _)
      simp only [ServiceThread.publishing, Thread.publishing, hres]
  | publish row =>
    cases h
    exact .publish .ReservationConfirmed _ rfl rfl rfl rfl (hcreate _)
  | settled result => cases h

/-- What a step of `cancel` does. -/
theorem cancelStep_effect {srv srv' : Server} {id : String} {pc pc' : CancelPc}
    (h : cancelStep srv id pc = some (srv', pc')) :
    Effect srv (.write (.cancel id pc)) srv' (.write (.cancel id pc')) := by
  cases pc with
  | find =>
    simp only [cancelStep] at h
    split_ifs at h
    · split at h
      · cases h
        exact .silent rfl rfl rfl (fun _ he => by cases he) fun _ he => by cases he
      · rename_i row hfind
        obtain ⟨hid, -, hcan⟩ := isCancelled_of_findUnique hfind
        split_ifs at h with hst <;> cases h
        · exact .silent rfl rfl rfl (fun _ he => by cases he) fun _ he => by cases he
        · refine .silent rfl rfl rfl (fun other he => ?_) fun _ he => by cases he
          cases he
          exact ⟨hid, Bool.eq_false_iff.2 fun hc => hst (hcan.1 hc)⟩
    · cases h
      exact .silent rfl rfl rfl (fun _ he => by cases he) fun _ he => by cases he
  | update =>
    simp only [cancelStep] at h
    split at h
    · rename_i hfind
      cases h
      refine .silent rfl rfl rfl (fun _ he => by cases he) fun other he hmem => ?_
      cases he
      have hids : id ∈ (srv.db.cancelReservation id).ids := by
        rw [ids_cancelReservation]
        exact hmem
      have hsome := findUnique_isSome_of_mem hids
      rw [hfind] at hsome
      cases hsome
    · rename_i row hfind
      cases h
      obtain ⟨hid, hrow, -⟩ := isCancelled_of_findUnique hfind
      have hmem : id ∈ srv.db.ids := by
        simpa [Db.ids, Function.comp_def] using hid
      refine .update id hmem rfl rfl rfl ?_
      simp only [ServiceThread.publishing, Thread.publishing, hrow]
  | publish row =>
    cases h
    exact .publish .ReservationCancelled _ rfl rfl rfl rfl fun _ he => by cases he
  | settled result => cases h

/-- What a step of any request does. -/
theorem actService_effect {srv srv' : Server} {t t' : ServiceThread} {x : Input}
    (h : actService srv t x = some (srv', t')) : Effect srv t srv' t' := by
  cases t with
  | write t =>
    obtain ⟨⟨s1, t1⟩, hq, he⟩ := Option.map_eq_some_iff.1 h
    cases he
    cases t with
    | create dto pc =>
      obtain ⟨⟨s2, pc2⟩, hq2, he2⟩ := Option.map_eq_some_iff.1 hq
      cases he2
      exact createStep_effect hq2
    | cancel id pc =>
      obtain ⟨⟨s2, pc2⟩, hq2, he2⟩ := Option.map_eq_some_iff.1 hq
      cases he2
      exact cancelStep_effect hq2
  | findById id answer =>
    cases answer <;> cases h
    exact .silent rfl rfl rfl nofun nofun
  | findActiveByGuestId guestId answer =>
    cases answer <;> cases h
    exact .silent rfl rfl rfl nofun nofun

/-! ## Counting the causes -/

/-- A thread that is not publishing causes what it goes on to publish. -/
theorem caused_of_published_eq {p : ServiceSystem} {i : ℕ} {t : ServiceThread} (t' : ServiceThread)
    {srv' : Server} (hi : p.threads[i]? = some t) (hpub : srv'.published = p.store.published)
    (ht : t.publishing = none) (type : HotelBroadcastEventType) (id : String) :
    ServiceSystem.caused ⟨srv', p.threads.set i t'⟩ type id =
      p.caused type id + if t'.publishing = some (type, id) then 1 else 0 := by
  have hcount := countP_set hi t' fun u => decide (u.publishing = some (type, id))
  simp only [ht, reduceCtorEq, decide_false, Bool.false_eq_true, if_false, add_zero,
    decide_eq_true_eq] at hcount
  simp only [ServiceSystem.caused, hpub, hcount]
  omega

/-- A publication was caused before it is made. -/
theorem caused_of_publish {p : ServiceSystem} {i : ℕ} {t t' : ServiceThread} {srv' : Server}
    {type' : HotelBroadcastEventType} {e : HotelBroadcastEvent}
    (hi : p.threads[i]? = some t) (ht : t.publishing = some (type', e.reservationId))
    (hpub : srv'.published = p.store.published ++ [(type', e)]) (ht' : t'.publishing = none)
    (type : HotelBroadcastEventType) (id : String) :
    ServiceSystem.caused ⟨srv', p.threads.set i t'⟩ type id = p.caused type id := by
  have hcount := countP_set hi t' fun u => decide (u.publishing = some (type, id))
  simp only [ht, ht', reduceCtorEq, decide_false, Bool.false_eq_true, if_false, add_zero,
    decide_eq_true_eq, Option.some.injEq, Prod.mk.injEq] at hcount
  simp only [ServiceSystem.caused, hpub, List.countP_append, List.countP_singleton,
    decide_eq_true_eq]
  omega

theorem start_publishing (r : ServiceRequest) : (startService r).publishing = none := by
  cases r with
  | findById id => rfl
  | findActiveByGuestId guestId => rfl
  | write r =>
    cases r with
    | cancel id => rfl
    | create dto =>
      simp only [startService, start, createStart]
      split
      · rfl
      · split <;> rfl

theorem start_not_update (r : ServiceRequest) (id : String) :
    startService r ≠ .write (.cancel id .update) := by
  cases r with
  | findById id => nofun
  | findActiveByGuestId guestId => nofun
  | write r => cases r <;> nofun

/-- A new request has caused nothing. -/
theorem caused_request (p : ServiceSystem) (r : ServiceRequest) (type : HotelBroadcastEventType)
    (id : String) :
    ServiceSystem.caused { p with threads := p.threads ++ [startService r] } type id =
      p.caused type id := by
  simp [ServiceSystem.caused, List.countP_append, start_publishing]

/-! ## The account of the rows -/

/-- The rows cancelled after an update. -/
theorem isCancelled_cancelReservation {db : Db} {id other : String} (hid : id ∈ db.ids) :
    (db.cancelReservation id).isCancelled other = true ↔
      db.isCancelled other = true ∨ other = id := by
  simp only [isCancelled_iff, cancelReservation_reservations, List.mem_map]
  constructor
  · rintro ⟨_, ⟨r, hr, rfl⟩, hrid, hst⟩
    rw [Reservation.cancelIf_id] at hrid
    by_cases he : r.id = id
    · exact Or.inr (hrid.symm.trans he)
    · rw [Reservation.cancelIf, if_neg he] at hst
      exact Or.inl ⟨r, hr, hrid, hst⟩
  · rintro (⟨r, hr, hrid, hst⟩ | rfl)
    · refine ⟨r.cancelIf id, ⟨r, hr, rfl⟩, by simpa using hrid, ?_⟩
      rcases cancelIf_cases id r with he | he
      · rw [he]; exact hst
      · rw [he]
    · obtain ⟨r, hr, hrid⟩ := List.mem_map.1 hid
      refine ⟨r.cancelIf other, ⟨r, hr, rfl⟩, by simpa using hrid, ?_⟩
      rw [Reservation.cancelIf, if_pos hrid]

theorem isCancelled_append {db db' : Db} {r : Reservation} (hr : r.status = .CONFIRMED)
    (hrows : db'.reservations = db.reservations ++ [r]) (id : String) :
    db'.isCancelled id = db.isCancelled id := by
  simp [Db.isCancelled, hrows, hr]

/-- The publications caused since the database `db` account for the rows: a row inserted since then
has caused its confirmation, and the rows cancelled since then are those with a cancellation. -/
structure Accounted (db : Db) (p : ServiceSystem) : Prop where
  /-- No row is lost. -/
  kept : ∀ id ∈ db.ids, id ∈ p.store.db.ids
  /-- The new rows have one confirmation each. -/
  confirmed : ∀ id, p.caused .ReservationConfirmed id =
    if id ∈ p.store.db.ids ∧ id ∉ db.ids then 1 else 0
  /-- The rows cancelled since have a cancellation. -/
  cancelled : ∀ id, p.store.db.isCancelled id = true ↔
    db.isCancelled id = true ∨ 0 < p.caused .ReservationCancelled id
  /-- Only rows that were not cancelled at first are being cancelled. -/
  updating : ∀ id, .write (.cancel id .update) ∈ p.threads →
    id ∈ p.store.db.ids ∧ db.isCancelled id = false

theorem initial_accounted (db : Db) : Accounted db (ServiceSystem.initial db) where
  kept := fun _ h => h
  confirmed := by simp [ServiceSystem.initial, ServiceSystem.caused]
  cancelled := by simp [ServiceSystem.initial, ServiceSystem.caused]
  updating := nofun

/-- A new request keeps the system accounted for. -/
theorem Accounted.request {db : Db} {p : ServiceSystem} (h : Accounted db p) (r : ServiceRequest) :
    Accounted db { p with threads := p.threads ++ [startService r] } where
  kept := h.kept
  confirmed := fun id => by rw [caused_request]; exact h.confirmed id
  cancelled := fun id => by rw [caused_request]; exact h.cancelled id
  updating := by
    intro id hid
    rcases List.mem_append.1 hid with hid | hid
    · exact h.updating id hid
    · exact absurd (List.mem_singleton.1 hid).symm (start_not_update r id)

/-- The threads at an update after a step: those from before, and the one that made the step. -/
theorem updating_set {p : ServiceSystem} {i : ℕ} {t' : ServiceThread} {id : String}
    (h : .write (.cancel id .update) ∈ p.threads.set i t') :
    .write (.cancel id .update) ∈ p.threads ∨ t' = .write (.cancel id .update) :=
  (List.mem_or_eq_of_mem_set h).imp_right Eq.symm

/-- A step of a request keeps the system accounted for. -/
theorem Accounted.advance {db : Db} {p : ServiceSystem} (h : Accounted db p) {i : ℕ}
    {t t' : ServiceThread} {srv' : Server} (hi : p.threads[i]? = some t)
    (heff : Effect p.store t srv' t') : Accounted db ⟨srv', p.threads.set i t'⟩ := by
  cases heff with
  | silent hsrv ht ht' hupdate hmissing =>
    subst hsrv
    have hcaused := caused_of_published_eq t' hi rfl ht
    simp only [ht', reduceCtorEq, if_false, add_zero] at hcaused
    refine ⟨h.kept, fun id => ?_, fun id => ?_, fun id hid => ?_⟩
    · rw [hcaused]; exact h.confirmed id
    · rw [hcaused]; exact h.cancelled id
    · rcases updating_set hid with hid | he
      · exact h.updating id hid
      · obtain ⟨hmem, hnot⟩ := hupdate id he
        refine ⟨hmem, Bool.eq_false_iff.2 fun hc => ?_⟩
        rw [(h.cancelled id).2 (Or.inl hc)] at hnot
        cases hnot
  | insert r hnew hconf hrows hpub ht ht' hother =>
    have hcaused := caused_of_published_eq t' hi hpub ht
    have hids : ∀ id, id ∈ srv'.db.ids ↔ id ∈ p.store.db.ids ∨ id = r.id := by
      simp [Db.ids, hrows]
    have hold : r.id ∉ db.ids := fun hmem => hnew (h.kept _ hmem)
    refine ⟨fun id hid => (hids id).2 (Or.inl (h.kept id hid)), fun id => ?_, fun id => ?_,
      fun id hid => ?_⟩
    · rw [hcaused, h.confirmed, ht']
      by_cases he : id = r.id
      · subst he
        simp [hnew, hold, hids]
      · have hne : ¬ r.id = id := fun hc => he hc.symm
        simp [hids, he, hne]
    · rw [hcaused, ht']
      simp only [isCancelled_append hconf hrows, Option.some.injEq, Prod.mk.injEq, reduceCtorEq,
        false_and, if_false, add_zero]
      exact h.cancelled id
    · rcases updating_set hid with hid | he
      · exact ⟨(hids id).2 (Or.inl (h.updating id hid).1), (h.updating id hid).2⟩
      · rw [he] at ht'
        cases ht'
  | update id hid htu hdb hpub ht' =>
    have ht : t.publishing = none := by rw [htu]; rfl
    have hcaused := caused_of_published_eq t' hi hpub ht
    refine ⟨fun j hj => ?_, fun j => ?_, fun j => ?_, fun j hj => ?_⟩
    · simpa [hdb] using h.kept j hj
    · rw [hcaused, ht']
      simpa [hdb] using h.confirmed j
    · rw [hcaused, ht']
      simp only [hdb, isCancelled_cancelReservation hid, h.cancelled, Option.some.injEq,
        Prod.mk.injEq, true_and]
      by_cases he : id = j
      · simp [he]
      · have hne : ¬ j = id := fun hc => he hc.symm
        simp [he, hne]
    · rcases updating_set hj with hj | he
      · simpa [hdb] using h.updating j hj
      · rw [he] at ht'
        cases ht'
  | publish type e ht hdb hpub ht' hdone =>
    have hcaused := caused_of_publish hi ht hpub ht'
    refine ⟨fun id hid => ?_, fun id => ?_, fun id => ?_, fun id hid => ?_⟩
    · simpa [hdb] using h.kept id hid
    · simpa [hdb, hcaused] using h.confirmed id
    · simpa [hdb, hcaused] using h.cancelled id
    · rcases updating_set hid with hid | he
      · simpa [hdb] using h.updating id hid
      · exact absurd he (hdone id)

theorem Accounted.step {db : Db} {p : ServiceSystem} {e : Event ServiceRequest Input}
    {p' : ServiceSystem} (h : Accounted db p) (hs : serviceStep p e = some p') :
    Accounted db p' := by
  cases e with
  | request r =>
    cases hs
    exact h.request r
  | advance i x =>
    obtain ⟨t, s', t', hi, ha, rfl⟩ := Pool.step_advance_iff.1 hs
    exact h.advance hi (actService_effect ha)

/-! ## The exact condition -/

/-- The lifecycle of the reservations so far: a row stored since the database `db` has caused one
confirmation and an older row none, no reservation has caused two cancellations, and what was
cancelled is stored. -/
structure OneEach (db : Db) (p : ServiceSystem) : Prop where
  /-- A new row has one confirmation. -/
  confirmed : ∀ id ∈ p.store.db.ids, id ∉ db.ids → p.caused .ReservationConfirmed id = 1
  /-- A row that was there has none. -/
  earlier : ∀ id ∈ db.ids, p.caused .ReservationConfirmed id = 0
  /-- No row has two cancellations. -/
  cancelled : ∀ id, p.caused .ReservationCancelled id ≤ 1
  /-- A cancellation is of a row. -/
  stored : ∀ id, 0 < p.caused .ReservationCancelled id → id ∈ p.store.db.ids

theorem isCancelled_mem_ids {db : Db} {id : String} (h : db.isCancelled id = true) : id ∈ db.ids := by
  obtain ⟨r, hr, hid, -⟩ := isCancelled_iff.1 h
  exact hid ▸ List.mem_map_of_mem hr

/-- All but the number of cancellations follows from the account of the rows. -/
theorem Accounted.oneEach_iff {db : Db} {p : ServiceSystem} (h : Accounted db p) :
    OneEach db p ↔ ∀ id, p.caused .ReservationCancelled id ≤ 1 := by
  constructor
  · exact fun ho => ho.cancelled
  · intro hone
    refine ⟨fun id hid hnew => ?_, fun id hid => ?_, hone, fun id hpos => ?_⟩
    · rw [h.confirmed, if_pos ⟨hid, hnew⟩]
    · rw [h.confirmed, if_neg fun hc => hc.2 hid]
    · exact isCancelled_mem_ids ((h.cancelled id).2 (Or.inr hpos))

/-- A repeated update cancels a row that is cancelled. -/
theorem repeatedUpdate_iff {p : ServiceSystem} {i : ℕ} {x : Input} {t : ServiceThread}
    (hi : p.threads[i]? = some t) : repeatedUpdate p (.advance i x) = true ↔
      ∃ id, t = .write (.cancel id .update) ∧ p.store.db.isCancelled id = true := by
  simp only [repeatedUpdate, hi]
  split
  · rename_i id he
    rw [Option.some.inj he]
    constructor
    · exact fun hc => ⟨id, rfl, hc⟩
    · rintro ⟨other, ho, hc⟩
      cases ho
      exact hc
  · rename_i hnot
    simp only [Bool.false_eq_true, false_iff]
    rintro ⟨id, rfl, -⟩
    exact hnot id rfl

/-- A step leaves every reservation with at most one cancellation exactly when it is not a repeated
update. -/
theorem Accounted.cancelled_le_one_iff {db : Db} {p : ServiceSystem} (h : Accounted db p)
    (hone : ∀ id, p.caused .ReservationCancelled id ≤ 1) {i : ℕ} {x : Input}
    {t t' : ServiceThread} {srv' : Server} (hi : p.threads[i]? = some t)
    (heff : Effect p.store t srv' t') :
    (∀ id, ServiceSystem.caused ⟨srv', p.threads.set i t'⟩ .ReservationCancelled id ≤ 1) ↔
      repeatedUpdate p (.advance i x) = false := by
  rw [← Bool.not_eq_true, repeatedUpdate_iff hi]
  cases heff with
  | silent hsrv ht ht' hupdate hmissing =>
    subst hsrv
    have hcaused := caused_of_published_eq t' hi rfl ht
    simp only [ht', reduceCtorEq, if_false, add_zero] at hcaused
    simp only [hcaused]
    refine ⟨fun _ => ?_, fun _ => hone⟩
    rintro ⟨id, hu, hc⟩
    exact hmissing id hu (isCancelled_mem_ids hc)
  | insert r hnew hconf hrows hpub ht ht' hother =>
    have hcaused : ∀ id, ServiceSystem.caused ⟨srv', p.threads.set i t'⟩ .ReservationCancelled id =
        p.caused .ReservationCancelled id := by
      intro id
      rw [caused_of_published_eq t' hi hpub ht, ht']
      simp
    simp only [hcaused]
    refine ⟨fun _ => ?_, fun _ => hone⟩
    rintro ⟨id, hu, -⟩
    exact hother id hu
  | update id hid htu hdb hpub ht' =>
    have ht : t.publishing = none := by rw [htu]; rfl
    have hcaused := caused_of_published_eq t' hi hpub ht .ReservationCancelled
    simp only [ht', Option.some.injEq, Prod.mk.injEq, true_and] at hcaused
    have hfresh : db.isCancelled id = false :=
      (h.updating id (htu ▸ List.mem_of_getElem? hi)).2
    constructor
    · rintro hle ⟨other, hu, hc⟩
      rw [htu] at hu
      cases hu
      -- the row was cancelled since the start, so it has caused a cancellation already
      have hpos : 0 < p.caused .ReservationCancelled id := by
        rcases (h.cancelled id).1 hc with hold | hpos
        · rw [hfresh] at hold
          cases hold
        · exact hpos
      have hboth := hle id
      rw [hcaused, if_pos rfl] at hboth
      omega
    · intro hnot j
      rw [hcaused]
      split_ifs with he
      · subst he
        have hzero : ¬ 0 < p.caused .ReservationCancelled id := fun hpos =>
          hnot ⟨id, htu, (h.cancelled id).2 (Or.inr hpos)⟩
        omega
      · exact hone j
  | publish type e ht hdb hpub ht' hdone =>
    have hcaused := caused_of_publish hi ht hpub ht'
    simp only [hcaused]
    refine ⟨fun _ => ?_, fun _ => hone⟩
    rintro ⟨id, rfl, -⟩
    cases ht

/-- A step keeps one event each if and only if it is no repeated update. -/
theorem step_oneEach_iff {db : Db} (p : ServiceSystem) (e : Event ServiceRequest Input)
    (p' : ServiceSystem) (h : Accounted db p) (hone : OneEach db p)
    (hs : serviceStep p e = some p') : OneEach db p' ↔ repeatedUpdate p e = false := by
  rw [(h.step hs).oneEach_iff]
  cases e with
  | request r =>
    cases hs
    simp only [caused_request]
    exact ⟨fun _ => rfl, fun _ => hone.cancelled⟩
  | advance i x =>
    obtain ⟨t, s', t', hi, ha, rfl⟩ := Pool.step_advance_iff.1 hs
    exact h.cancelled_le_one_iff hone.cancelled hi (actService_effect ha)

theorem initial_oneEach (db : Db) : OneEach db (ServiceSystem.initial db) :=
  (initial_accounted db).oneEach_iff.2 fun _ => Nat.zero_le _

/-! ## A cancelled reservation stays cancelled -/

/-- A cancelled row stays so. -/
theorem isCancelled_step {p p' : ServiceSystem} {e : Event ServiceRequest Input} {id : String}
    (hs : serviceStep p e = some p') (h : p.store.db.isCancelled id = true) :
    p'.store.db.isCancelled id = true := by
  cases e with
  | request r =>
    cases hs
    exact h
  | advance i x =>
    obtain ⟨t, s', t', hi, ha, rfl⟩ := Pool.step_advance_iff.1 hs
    cases actService_effect ha with
    | silent hsrv => rw [hsrv]; exact h
    | insert r hnew hconf hrows => rw [isCancelled_append hconf hrows]; exact h
    | update other hid htu hdb =>
      rw [hdb]
      exact (isCancelled_cancelReservation hid).2 (Or.inl h)
    | publish type e ht hdb => rw [hdb]; exact h

/-- Whatever happens after some state of the run, a reservation that is cancelled there is cancelled
at the end. -/
def StaysCancelled (db : Db) (es : List (Event ServiceRequest Input)) : Prop :=
  ∀ before after, es = before ++ after → ∀ q p,
    run serviceStep (ServiceSystem.initial db) before = some q →
    run serviceStep (ServiceSystem.initial db) es = some p →
    ∀ r ∈ q.store.db.reservations, r.status = .CANCELLED →
      ∀ s ∈ p.store.db.reservations, s.id = r.id → s.status = .CANCELLED

/-- A cancelled row stays so in every run. -/
theorem isCancelled_run {p p' : ServiceSystem} {es : List (Event ServiceRequest Input)} {id : String}
    (hr : run serviceStep p es = some p') (h : p.store.db.isCancelled id = true) :
    p'.store.db.isCancelled id = true := by
  have hall : Always serviceStep (fun q => q.store.db.isCancelled id = true) p es :=
    always_of_invariant (fun _ _ _ hq hs => isCancelled_step hs hq) h
  exact hall.last hr

theorem status_of_isCancelled {db : Db} {s : Reservation} (hs : s ∈ db.reservations)
    (h : db.isCancelled s.id = true) : s.status = .CANCELLED := by
  obtain ⟨r, hr, hid, hst⟩ := isCancelled_iff.1 h
  have hsame := Keyed.find_of_mem db.reservationKey hs
  rw [(Keyed.find_iff db.reservationKey).2 ⟨hr, hid⟩] at hsame
  exact Option.some.inj hsame ▸ hst

/-- No reservation is confirmed again. -/
theorem staysCancelled (db : Db) (es : List (Event ServiceRequest Input)) :
    StaysCancelled db es := by
  rintro before after rfl q p hq hp r hr hst s hs hid
  obtain ⟨q', hq', hafter⟩ := run_append_iff.1 hp
  rw [hq, Option.some.injEq] at hq'
  subst hq'
  have hc := isCancelled_run hafter (isCancelled_iff.2 ⟨r, hr, rfl, hst⟩)
  exact status_of_isCancelled hs (hid ▸ hc)

/-- **One lifecycle event each, exactly.** From every database and in every interleaving of
creates, cancels and reads: each row stored in the run causes one confirmation, no reservation
causes two cancellations, none is cancelled before it is stored and none is confirmed again, if and
only if no `cancel` updates a row that is cancelled already. -/
theorem lifecycle_iff_no_repeatedUpdate (db : Db) (es : List (Event ServiceRequest Input))
    (p : ServiceSystem) (hr : run serviceStep (ServiceSystem.initial db) es = some p) :
    (Always serviceStep (OneEach db) (ServiceSystem.initial db) es ∧ StaysCancelled db es) ↔
      Throughout serviceStep (fun q e => repeatedUpdate q e = false) (ServiceSystem.initial db)
        es := by
  rw [and_iff_left (staysCancelled db es)]
  exact always_iff_throughout (fun _ _ _ h hs => h.step hs) step_oneEach_iff
    (initial_accounted db) (initial_oneEach db) hr

section Race

/-- One confirmed reservation. -/
def oneStay : Db where
  rooms := oneRoom.rooms
  reservations := [⟨"a", "mango-miles", "room-standard-01", 1, 1, 3, .CONFIRMED, ["mango-miles"]⟩]
  roomKey := oneRoom.roomKey
  reservationKey := by simp
  guestKey := by simp
  roomRef := by simp [oneRoom, Db.vacant]
  columns := by decide

/-- Two cancels that both read before either updates. -/
def racingCancels : List (Event ServiceRequest Input) :=
  [.request (.write (.cancel "a")), .request (.write (.cancel "a")), .advance 0 (input ""),
    .advance 1 (input ""), .advance 0 (input ""), .advance 1 (input ""), .advance 0 (input ""),
    .advance 1 (input "")]

/-- The same two cancels, one after the other: the second answers at once. -/
def serialCancels : List (Event ServiceRequest Input) :=
  [.request (.write (.cancel "a")), .request (.write (.cancel "a")), .advance 0 (input ""),
    .advance 0 (input ""), .advance 0 (input ""), .advance 1 (input "")]

/-- Both racing cancels publish the cancellation of the one reservation. -/
theorem racingCancels_twice :
    ∃ p, run serviceStep (ServiceSystem.initial oneStay) racingCancels = some p ∧
      p.store.published.countP
        (fun e => decide (e.1 = .ReservationCancelled ∧ e.2.reservationId = "a")) = 2 ∧
      ¬ OneEach oneStay p := by
  refine ⟨_, rfl, by decide, fun h => ?_⟩
  exact absurd (h.cancelled "a") (by decide)

/-- Two cancellations one after the other publish once. -/
theorem serialCancels_once :
    Always serviceStep (OneEach oneStay) (ServiceSystem.initial oneStay) serialCancels ∧
      StaysCancelled oneStay serialCancels :=
  (lifecycle_iff_no_repeatedUpdate oneStay serialCancels _ rfl).2 (by decide)

end Race

end Hotel
