import Webmeow.Beach.Desk
import Webmeow.Beach.Proofs.BookExactProofs
import Webmeow.Beach.Proofs.CheckedInProofs
import Webmeow.Lib.Simulation

/-!
# The service is the desk

Requests that are served one after another get the answers of the desk. The tables of the service stand
for a desk when the bookings are the graph of the seats, and every request keeps that.
-/

namespace Beach

open FunctionGraph Simulation

/-- Tables that stand for a desk. -/
structure Kept (db : Db) (d : Desk) : Prop where
  /-- The same activities. -/
  activities : d.activities = db.activities
  /-- The same visitors. -/
  visitors : d.visitors = db.visitors
  /-- The bookings are the seats. -/
  seats : IsGraph db.bookings d.seat

/-- Tables that a service without races keeps. -/
structure Db.Sound (db : Db) : Prop where
  /-- Visitors have one booking at most. -/
  one : OneBookingPerVisitor db
  /-- Visitors with a booking are checked in. -/
  checkedIn : BookersCheckedIn db
  /-- Bookings are for activities that exist. -/
  activities : ∀ row ∈ db.bookings, ∃ activity ∈ db.activities, activity.id = row.1
  /-- No activity is overbooked. -/
  capacity : ∀ activity ∈ db.activities, (db.rowsOf activity.id).card ≤ activity.capacity.toNat

variable {db : Db} {d : Desk} {a v : String}

/-! ## The desk of sound tables -/

/-- Whatever row `limit(1)` returns, it is the one of the visitor. -/
theorem pick_isGraph (hone : OneBookingPerVisitor db) (limit : LimitOne) :
    IsGraph db.bookings fun v => limit.pick (db.activitiesOf v) := by
  intro a v
  constructor
  · intro hmem
    obtain ⟨b, hpick⟩ := Option.isSome_iff_exists.1
      (limit.isSome (db.activitiesOf v) ⟨a, mem_activitiesOf.2 hmem⟩)
    have hb : (b, v) ∈ db.bookings := mem_activitiesOf.1 (limit.mem _ _ hpick)
    have he : b = a := congrArg Prod.fst (hone (b, v) hb (a, v) hmem rfl)
    exact hpick.trans (congrArg some he)
  · exact fun hpick => mem_activitiesOf.1 (limit.mem _ _ hpick)

/-- The desk that sound tables stand for. -/
def Db.desk (db : Db) (h : db.Sound) : Desk :=
  have hgraph := pick_isGraph h.one LimitOne.least
  { activities := db.activities
    activityKey := db.activityKey
    visitors := db.visitors
    seat := fun v => LimitOne.least.pick (db.activitiesOf v)
    finite := hgraph.finite
    seatedCheckedIn := by
      intro v hv
      obtain ⟨a, ha⟩ := Option.isSome_iff_exists.1 hv
      exact h.checkedIn (a, v) ((hgraph a v).2 ha)
    seatedActivity := fun v a ha => h.activities (a, v) ((hgraph a v).2 ha)
    seatedCapacity := by
      intro activity hactivity
      rw [← hgraph.card_fibre activity.id]
      exact h.capacity activity hactivity }

/-- Sound tables stand for their desk. -/
theorem desk_kept (h : db.Sound) : Kept db (db.desk h) where
  activities := rfl
  visitors := rfl
  seats := pick_isGraph h.one LimitOne.least

/-! ## What the queries return -/

/-- The grouping of all bookings gives an activity its own ones. -/
theorem bookedVisitorsByActivityIds_getD {ids : List String} (ha : a ∈ ids) :
    (db.bookedVisitorsByActivityIds ids a).getD ∅ = (db.rowsOf a).image Prod.snd := by
  have hrows : ((db.bookings.filter fun row => row.1 ∈ ids).filter fun row => row.1 = a) =
      db.rowsOf a := by
    rw [Finset.filter_filter]
    refine Finset.filter_congr fun row _ => ⟨fun hrow => hrow.2, fun hrow => ⟨?_, hrow⟩⟩
    rw [hrow]
    exact ha
  have hids : ids.isEmpty = false := by
    rw [List.isEmpty_eq_false_iff]
    exact List.ne_nil_of_mem ha
  unfold Db.bookedVisitorsByActivityIds
  rw [hids, if_neg Bool.false_ne_true]
  dsimp only
  rw [hrows]
  by_cases hempty : (db.rowsOf a).image Prod.snd = ∅
  · rw [if_pos hempty, hempty]
    rfl
  · rw [if_neg hempty]
    rfl

theorem mem_bookedVisitors {activity : Activity} (hact : db.findById a = some activity) :
    v ∈ activity.bookedVisitors ↔ (a, v) ∈ db.bookings := by
  obtain ⟨row, -, rfl⟩ := Option.map_eq_some_iff.1 hact
  show v ∈ (db.rowsOf a).image Prod.snd ↔ (a, v) ∈ db.bookings
  rw [Finset.mem_image]
  constructor
  · rintro ⟨⟨b, u⟩, hrow, rfl⟩
    obtain ⟨hmem, rfl⟩ := Finset.mem_filter.1 hrow
    exact hmem
  · exact fun hmem => ⟨(a, v), Finset.mem_filter.2 ⟨hmem, rfl⟩, rfl⟩

namespace Kept

variable (h : Kept db d)
include h

/-- A visitor has one seat. -/
theorem one : OneBookingPerVisitor db := fun _ hr _ hr' he => h.seats.unique hr hr' he

/-- The rows of an activity are its seats. -/
theorem taken (a : String) : (db.rowsOf a).card = d.taken a := h.seats.card_fibre a

/-- Every choice of a row is the seat. -/
theorem pick (limit : LimitOne) (v : String) : limit.pick (db.activitiesOf v) = d.seat v :=
  congrFun ((pick_isGraph h.one limit).ext h.seats) v

/-- Tables that stand for a desk are sound. -/
theorem sound : db.Sound where
  one := h.one
  checkedIn row hrow := by
    rw [← h.visitors]
    exact d.seatedCheckedIn row.2 (Option.isSome_iff_exists.2 ⟨row.1, (h.seats row.1 row.2).1 hrow⟩)
  activities row hrow := by
    rw [← h.activities]
    exact d.seatedActivity row.2 row.1 ((h.seats row.1 row.2).1 hrow)
  capacity activity hactivity := by
    rw [h.taken]
    exact d.seatedCapacity activity (h.activities ▸ hactivity)

/-- There is one desk that tables stand for. -/
theorem desk_eq : db.desk h.sound = d :=
  Desk.ext h.activities.symm h.visitors.symm ((desk_kept h.sound).seats.ext h.seats)

/-! ## Reading -/

/-- What is left of an activity is what the desk has left. -/
theorem toResponse (row : ActivityRow) :
    (toActivity row ((db.rowsOf row.id).image Prod.snd)).toResponse = d.response row := by
  unfold Activity.toResponse Desk.response Activity.remaining toActivity
  rw [bookedVisitors_card, h.taken]

/-- An activity is found as it is on offer. -/
theorem findById (a : String) : (db.findById a).map Activity.toResponse =
    d.list.find? fun response => response.activity_id = a := by
  unfold Db.findById Desk.list
  rw [List.find?_map, h.activities]
  have hsame : ((fun response => decide (response.activity_id = a)) ∘ d.response) =
      fun row : ActivityRow => decide (row.id = a) := rfl
  rw [hsame, Option.map_map]
  cases hfind : db.activities.find? fun row => row.id = a with
  | none => rfl
  | some row =>
    have hid : row.id = a := by simpa using List.find?_some hfind
    subst hid
    exact congrArg some (h.toResponse row)

theorem findById_none_iff (a : String) :
    db.findById a = none ↔ ∀ row ∈ d.activities, row.id ≠ a := by
  unfold Db.findById
  rw [Option.map_eq_none_iff, List.find?_eq_none, h.activities]
  refine forall₂_congr fun row _ => not_congr ?_
  exact decide_eq_true_iff

/-- All activities are found as they are on offer. -/
theorem findAll : db.findAll.map Activity.toResponse = d.list := by
  unfold Db.findAll Desk.list
  rw [List.map_map, h.activities]
  refine List.map_congr_left fun row hrow => ?_
  have hid : row.id ∈ db.activities.map ActivityRow.id := List.mem_map_of_mem hrow
  show (toActivity row ((db.bookedVisitorsByActivityIds (db.activities.map ActivityRow.id)
    row.id).getD ∅)).toResponse = d.response row
  rw [bookedVisitorsByActivityIds_getD hid]
  exact h.toResponse row

/-- The activity of a visitor is the one of the seat. -/
theorem findByBookedVisitor (v : String) (limit : LimitOne) :
    (db.findByBookedVisitor v limit).map Activity.id = d.seat v := by
  unfold Db.findByBookedVisitor
  rw [h.pick]
  cases hseat : d.seat v with
  | none => rfl
  | some a =>
    obtain ⟨row, hrow, rfl⟩ := d.seatedActivity v a hseat
    rw [h.activities] at hrow
    rw [Option.bind_some, findById_of_mem hrow]
    rfl

/-! ## Booking -/

/-- Who may book may sit. -/
theorem bookable_iff (a v : String) : Bookable db a v ↔ d.MaySit a v := by
  have hfree : (∃ row ∈ db.activities, row.id = a ∧ ((db.rowsOf a).card : Int) < row.capacity) ↔
      ∃ row ∈ d.activities, row.id = a ∧ (d.taken a : Int) < row.capacity := by
    rw [h.taken, h.activities]
  constructor
  · intro hb
    refine ⟨hb.notBlank, hfree.1 hb.free, ?_, fun hseat => hb.notBooked ((h.seats a v).2 hseat)⟩
    rw [h.visitors]
    exact hb.checkedIn
  · intro hs
    refine ⟨hs.notBlank, hfree.2 hs.free, ?_, fun hmem => hs.notSeated ((h.seats a v).1 hmem)⟩
    rw [← h.visitors]
    exact hs.checkedIn

/-- The service gives the reasons of the desk. -/
theorem refusal (hno : ¬ d.MaySit a v) (limit : LimitOne) :
    (bookActivity db a v limit).1 = some (d.refusal a v) := by
  unfold bookActivity Desk.refusal
  by_cases hblank : isBlank v = true
  · rw [if_pos hblank, if_pos hblank]
  rw [if_neg hblank, if_neg hblank]
  have hblank' : isBlank v = false := Bool.eq_false_iff.2 hblank
  cases hact : db.findById a with
  | none => rw [if_pos ((h.findById_none_iff a).1 hact)]
  | some activity =>
    have hsome : ¬ ∀ row ∈ d.activities, row.id ≠ a := by
      intro hnone
      rw [(h.findById_none_iff a).2 hnone] at hact
      cases hact
    have hcurrent := currentActivity_iff (v := v) h.one hact limit
    rw [if_neg hsome, Db.findVisitor, ← h.visitors]
    cases hvis : d.visitors v with
    | none => rfl
    | some checkedIn =>
      cases checkedIn with
      | false => rfl
      | true =>
        rw [if_neg (Option.some_ne_none true), if_neg (by decide)]
        dsimp only [Option.map_some]
        rw [if_neg (not_not_intro rfl), bookingError]
        by_cases hbooked : d.seat v = some a
        · rw [if_pos hbooked, if_pos (hcurrent.2 ((h.seats a v).2 hbooked))]
        · have hnot : ¬ (a, v) ∈ db.bookings := fun hmem => hbooked ((h.seats a v).1 hmem)
          have hfull : activity.isFull = true := by
            by_contra hfull
            refine hno ((h.bookable_iff a v).1 ⟨hblank', ?_, h.visitors ▸ hvis, hnot⟩)
            exact free_iff.2 ⟨activity, hact, Bool.eq_false_iff.2 hfull⟩
          rw [if_neg hbooked, if_neg fun hc => hnot (hcurrent.1 hc), if_pos hfull]

/-- A booking that may happen. -/
theorem sit (hs : d.MaySit a v) : Kept (db.book a v) (d.sit a v hs) where
  activities := h.activities
  visitors := h.visitors
  seats := h.seats.replace a v

/-- The service books as the desk does. -/
theorem bookActivity (a v : String) (limit : LimitOne) :
    (bookActivity db a v limit).1 = (d.book a v).1 ∧
      Kept (bookActivity db a v limit).2 (d.book a v).2 := by
  unfold Desk.book
  by_cases hs : d.MaySit a v
  · have hsuccess := (bookActivity_success_iff h.one limit).2 ((h.bookable_iff a v).2 hs)
    rw [dif_pos hs]
    rcases bookActivity_db db a v limit with ⟨-, hdb⟩ | ⟨hne, -⟩
    · rw [hdb]
      exact ⟨hsuccess, h.sit hs⟩
    · exact absurd hsuccess hne
  · have herror := h.refusal hs limit
    rw [dif_neg hs]
    rcases bookActivity_db db a v limit with ⟨heq, -⟩ | ⟨-, hdb⟩
    · rw [herror] at heq
      cases heq
    · rw [hdb]
      exact ⟨herror, h⟩

/-! ## The other changes -/

/-- A cancellation of the visitor's booking. -/
theorem leave (v : String) (hs : d.seat v = some a) : Kept (db.cancel a v) (d.leave v) where
  activities := h.activities
  visitors := h.visitors
  seats := by
    have hsame : (db.cancel a v).bookings = db.bookings.filter fun row => row.2 ≠ v :=
      h.seats.filter_pair hs
    rw [hsame]
    exact h.seats.erase v

/-- The service cancels as the desk does. -/
theorem cancelActivity (a v : String) :
    (cancelActivity db a v).1 = (d.cancel a v).1 ∧
      Kept (cancelActivity db a v).2 (d.cancel a v).2 := by
  unfold Beach.cancelActivity Desk.cancel
  cases hact : db.findById a with
  | none =>
    rw [if_pos ((h.findById_none_iff a).1 hact)]
    exact ⟨rfl, h⟩
  | some activity =>
    have hsome : ¬ ∀ row ∈ d.activities, row.id ≠ a := by
      intro hnone
      rw [(h.findById_none_iff a).2 hnone] at hact
      cases hact
    rw [if_neg hsome]
    dsimp only
    by_cases hblank : isBlank v = true
    · rw [if_pos hblank, if_pos hblank]
      exact ⟨rfl, h⟩
    · rw [if_neg hblank, if_neg hblank]
      have hbooked : v ∈ activity.bookedVisitors ↔ d.seat v = some a := by
        rw [← h.seats a v]
        exact mem_bookedVisitors hact
      by_cases hs : d.seat v = some a
      · rw [if_neg (not_not_intro (hbooked.2 hs)), if_pos hs]
        exact ⟨rfl, h.leave v hs⟩
      · rw [if_pos fun hmem => hs (hbooked.1 hmem), if_neg hs]
        exact ⟨rfl, h⟩

/-- A check-in. -/
theorem welcome (v : String) : Kept (db.checkIn v) (d.welcome v) where
  activities := h.activities
  visitors := by
    funext u
    by_cases hu : u = v
    · subst hu
      exact (Function.update_self u (some true) d.visitors).trans (if_pos rfl).symm
    · have hold : d.visitors u = db.visitors u := congrFun h.visitors u
      exact (Function.update_of_ne hu (some true) d.visitors).trans (hold.trans (if_neg hu).symm)
  seats := h.seats

/-- A check-out. -/
theorem farewell (v : String) : Kept (db.checkOut v) (d.farewell v) where
  activities := h.activities
  visitors := by
    funext u
    have hold : d.visitors u = db.visitors u := congrFun h.visitors u
    show Function.update d.visitors v ((d.visitors v).map fun _ => false) u =
      if u = v then (db.visitors u).map fun _ => false else db.visitors u
    by_cases hu : u = v
    · subst hu
      rw [Function.update_self, if_pos rfl, hold]
    · rw [Function.update_of_ne hu, if_neg hu, hold]
  seats := h.seats.erase v

/-! ## Requests -/

/-- The queries are refused for what cannot be read. -/
theorem bookRaises_iff (a v : String) : bookRaises db a v = true ↔ d.Illegible a v := by
  have hexists : (db.findById a).isSome = true ↔ ∃ row ∈ d.activities, row.id = a := by
    rw [← Option.ne_none_iff_isSome, Ne, h.findById_none_iff]
    push Not
    rfl
  unfold bookRaises Desk.Illegible
  rw [Bool.and_eq_true, Bool.or_eq_true, Bool.and_eq_true, hexists, Bool.not_eq_true',
    Bool.not_eq_true', Bool.not_eq_true']

theorem book (a : String) (request : Received) (limit : LimitOne) :
    (Beach.book db a request limit).1 = (d.serve (.book a request)).1 ∧
      Kept (Beach.book db a request limit).2 (d.serve (.book a request)).2 := by
  unfold Beach.book Desk.serve
  dsimp only [Desk.read]
  by_cases ha : isBlank a = true
  · rw [if_pos ha, if_pos ha]
    exact ⟨rfl, h⟩
  rw [if_neg ha, if_neg ha]
  cases request with
  | error status => exact ⟨rfl, h⟩
  | ok v =>
    dsimp only [Desk.answer]
    by_cases hraises : bookRaises db a v = true
    · rw [if_pos hraises, if_pos ((h.bookRaises_iff a v).1 hraises)]
      exact ⟨rfl, h⟩
    · rw [if_neg hraises, if_neg fun hi => hraises ((h.bookRaises_iff a v).2 hi)]
      obtain ⟨hanswer, hkept⟩ := h.bookActivity a v limit
      exact ⟨by rw [hanswer], hkept⟩

theorem cancel (a : String) (request : Received) :
    (Beach.cancel db a request).1 = (d.serve (.cancel a request)).1 ∧
      Kept (Beach.cancel db a request).2 (d.serve (.cancel a request)).2 := by
  unfold Beach.cancel Desk.serve
  dsimp only [Desk.read]
  by_cases ha : isBlank a = true
  · rw [if_pos ha, if_pos ha]
    exact ⟨rfl, h⟩
  rw [if_neg ha, if_neg ha]
  cases request with
  | error status => exact ⟨rfl, h⟩
  | ok v =>
    dsimp only
    by_cases htext : fitsText a = true
    · obtain ⟨hanswer, hkept⟩ := h.cancelActivity a v
      rw [if_neg (not_not_intro htext), if_pos htext]
      exact ⟨congrArg (respondOutcome · "cancelled") hanswer, hkept⟩
    · rw [if_pos htext, if_neg htext]
      exact ⟨rfl, h⟩

theorem getActivityByGuest (v : String) (limit : LimitOne) :
    (Beach.getActivityByGuest db v limit, db).1 = (d.serve (.getActivityByGuest v)).1 ∧
      Kept db (d.serve (.getActivityByGuest v)).2 := by
  unfold Beach.getActivityByGuest Desk.serve
  dsimp only [Desk.read]
  by_cases hv : isBlank v = true
  · rw [if_pos hv, if_pos hv]
    exact ⟨rfl, h⟩
  rw [if_neg hv, if_neg hv]
  by_cases htext : fitsText v = true
  · rw [if_neg (not_not_intro htext), if_pos htext, h.findByBookedVisitor v limit]
    exact ⟨rfl, h⟩
  · rw [if_pos htext, if_neg htext]
    exact ⟨rfl, h⟩

theorem getActivity (a : String) :
    Beach.getActivity db a = (d.serve (.getActivity a)).1 ∧
      Kept db (d.serve (.getActivity a)).2 := by
  unfold Beach.getActivity Desk.serve
  dsimp only [Desk.read]
  by_cases ha : isBlank a = true
  · rw [if_pos ha, if_pos ha]
    exact ⟨rfl, h⟩
  rw [if_neg ha, if_neg ha]
  by_cases htext : fitsText a = true
  · rw [if_neg (not_not_intro htext), if_pos htext]
    dsimp only [Desk.answer]
    rw [← h.findById a]
    cases db.findById a with
    | none => exact ⟨rfl, h⟩
    | some activity => exact ⟨rfl, h⟩
  · rw [if_pos htext, if_neg htext]
    exact ⟨rfl, h⟩

theorem checkInVisitor (request : Received) :
    (Beach.checkInVisitor db request).1 = (d.serve (.checkInVisitor request)).1 ∧
      Kept (Beach.checkInVisitor db request).2 (d.serve (.checkInVisitor request)).2 := by
  cases request with
  | error status => exact ⟨rfl, h⟩
  | ok v =>
    unfold Beach.checkInVisitor Desk.serve
    dsimp only [Desk.read]
    by_cases hv : isBlank v = true
    · rw [if_pos hv, if_pos hv]
      exact ⟨rfl, h⟩
    rw [if_neg hv, if_neg hv]
    by_cases htext : fitsText v = true
    · have hnew : ((db.visitors v).isNone = true ∧ ¬ fitsVisitorId v = true) ↔
          d.visitors v = none ∧ ¬ fitsVisitorId v = true := by
        rw [Option.isNone_iff_eq_none, h.visitors]
      rw [if_neg (not_not_intro htext), if_pos htext]
      dsimp only [Desk.answer]
      by_cases hlong : d.visitors v = none ∧ ¬ fitsVisitorId v = true
      · rw [if_pos (hnew.2 hlong), if_pos hlong]
        exact ⟨rfl, h⟩
      · rw [if_neg fun hl => hlong (hnew.1 hl), if_neg hlong]
        exact ⟨rfl, h.welcome v⟩
    · rw [if_pos htext, if_neg htext]
      exact ⟨rfl, h⟩

theorem checkOutVisitor (request : Received) :
    (Beach.checkOutVisitor db request).1 = (d.serve (.checkOutVisitor request)).1 ∧
      Kept (Beach.checkOutVisitor db request).2 (d.serve (.checkOutVisitor request)).2 := by
  cases request with
  | error status => exact ⟨rfl, h⟩
  | ok v =>
    unfold Beach.checkOutVisitor Desk.serve
    dsimp only [Desk.read]
    by_cases hv : isBlank v = true
    · rw [if_pos hv, if_pos hv]
      exact ⟨rfl, h⟩
    rw [if_neg hv, if_neg hv]
    by_cases htext : fitsText v = true
    · rw [if_neg (not_not_intro htext), if_pos htext]
      exact ⟨rfl, h.farewell v⟩
    · rw [if_pos htext, if_neg htext]
      exact ⟨rfl, h⟩

/-- Every request gets the answer of the desk and leaves tables that stand for it. -/
theorem serve (call : HttpRequest × LimitOne) :
    (activityRoutes db call).1 = (d.serve call.1).1 ∧
      Kept (activityRoutes db call).2 (d.serve call.1).2 := by
  obtain ⟨request, limit⟩ := call
  cases request with
  | health => exact ⟨rfl, h⟩
  | root => exact ⟨rfl, h⟩
  | book a request => exact h.book a request limit
  | cancel a request => exact h.cancel a request
  | getActivityByGuest v => exact h.getActivityByGuest v limit
  | getActivity a => exact h.getActivity a
  | getActivities => exact ⟨congrArg (fun all => Response.mk 200 (.activities all)) h.findAll, h⟩
  | checkInVisitor request => exact h.checkInVisitor request
  | checkOutVisitor request => exact h.checkOutVisitor request

end Kept

/-! ## Runs -/

/-- The service as a machine. -/
def tablesStep (db : Db) (call : HttpRequest × LimitOne) : Option (Db × Response) :=
  some (activityRoutes db call).swap

/-- **The service is the desk**: from all sound tables, and for every sequence of requests that are
served one after another, the answers are those of the desk that the tables stand for, whatever rows the
queries of the service return first, and the tables stay sound and stand for the desk that is reached. -/
theorem served_like_a_desk (db : Db) (h : db.Sound) (calls : List (HttpRequest × LimitOne)) :
    ∃ db' responses, ∃ h' : db'.Sound, trace tablesStep db calls = some (db', responses) ∧
      trace Desk.step (db.desk h) (calls.map Prod.fst) = some (db'.desk h', responses) := by
  have hsim : ∀ s t call, Kept s t → ∃ s' t' response, tablesStep s call = some (s', response) ∧
      (fun d call => Desk.step d call.1) t call = some (t', response) ∧ Kept s' t' := by
    intro s t call hkept
    obtain ⟨hanswer, hkept'⟩ := hkept.serve call
    refine ⟨_, _, _, rfl, ?_, hkept'⟩
    show some ((t.serve call.1).2, (t.serve call.1).1) = _
    rw [← hanswer]
  obtain ⟨db', d', responses, htables, hdesk, hkept⟩ :=
    trace_of_simulation hsim calls db (db.desk h) (desk_kept h)
  refine ⟨db', responses, hkept.sound, htables, ?_⟩
  rw [trace_map, hkept.desk_eq]
  exact hdesk

/-- Ann changes from one activity with one place to another, and Bob takes the place that she leaves. -/
def changeOver : List (HttpRequest × LimitOne) :=
  [(.book "surf" (.ok "bob"), .least), (.checkInVisitor (.ok "bob"), .least),
    (.book "surf" (.ok "bob"), .least), (.book "yoga" (.ok "ann"), .least),
    (.book "surf" (.ok "bob"), .least), (.getActivityByGuest "ann", .least)]

/-- Ann is the only one. -/
theorem switchDb_sound : switchDb.Sound where
  one r hr r' hr' _ := by rw [Finset.mem_singleton.1 hr, Finset.mem_singleton.1 hr']
  checkedIn := by
    intro row hrow
    rw [Finset.mem_singleton.1 hrow]
    rfl
  activities := by
    intro row hrow
    rw [Finset.mem_singleton.1 hrow]
    exact ⟨_, List.mem_cons_self, rfl⟩
  capacity := by decide

/-- So the desk answers. -/
theorem changeOver_like_a_desk :
    ∃ d', trace Desk.step (switchDb.desk switchDb_sound) (changeOver.map Prod.fst) = some (d',
      [⟨404, .error (some "Visitor not found")⟩, ⟨200, .status "checked_in"⟩,
        ⟨409, .error (some "Activity is full")⟩, ⟨200, .status "booked"⟩, ⟨200, .status "booked"⟩,
        ⟨200, .activityId (some "yoga")⟩]) := by
  obtain ⟨db', responses, h', htables, hdesk⟩ :=
    served_like_a_desk switchDb switchDb_sound changeOver
  have hanswers : (trace tablesStep switchDb changeOver).map Prod.snd = some _ :=
    congrArg (Option.map Prod.snd) htables
  refine ⟨db'.desk h', hdesk.trans (congrArg (fun r => some (db'.desk h', r)) ?_)⟩
  exact Option.some.inj (hanswers.symm.trans (by decide))

end Beach
