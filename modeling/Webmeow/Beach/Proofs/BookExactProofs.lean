import Webmeow.Beach.Proofs.CapacityProofs
import Webmeow.Beach.Proofs.TransactionsProofs

/-!
# A booking, exactly

When `BookActivityUseCase.execute` books and what it does to the tables, for visitors with and without an
earlier booking.
-/

namespace Beach

/-- A visitor may book an activity. -/
structure Bookable (db : Db) (activityId visitorId : String) : Prop where
  /-- The visitor has an id. -/
  notBlank : isBlank visitorId = false
  /-- The activity exists and has fewer bookings than its capacity. -/
  free : ∃ row ∈ db.activities, row.id = activityId ∧
    ((db.rowsOf activityId).card : Int) < row.capacity
  /-- The visitor exists and is checked in. -/
  checkedIn : db.visitors visitorId = some true
  /-- It is not booked already. -/
  notBooked : (activityId, visitorId) ∉ db.bookings

/-- The tables after a booking. -/
structure BookedExactly (db db' : Db) (activityId visitorId : String) : Prop where
  /-- No activity changes. -/
  activities : db'.activities = db.activities
  /-- No visitor changes. -/
  visitors : db'.visitors = db.visitors
  /-- The rows of the visitor are gone, and there is one new row. -/
  bookings : ∀ row, row ∈ db'.bookings ↔
    row = (activityId, visitorId) ∨ row ∈ db.bookings ∧ row.2 ≠ visitorId
  /-- Every other activity gets a place if and only if the visitor has left it. -/
  others : ∀ id activity, id ≠ activityId → db.findById id = some activity →
    ∃ activity', db'.findById id = some activity' ∧
      activity'.remaining = activity.remaining + if (id, visitorId) ∈ db.bookings then 1 else 0

variable {db : Db} {a v : String}

/-! ## The reads -/

theorem mem_activitiesOf : a ∈ db.activitiesOf v ↔ (a, v) ∈ db.bookings := by
  unfold Db.activitiesOf
  rw [Finset.mem_image]
  constructor
  · rintro ⟨⟨b, u⟩, hrow, rfl⟩
    obtain ⟨hmem, rfl⟩ := Finset.mem_filter.1 hrow
    exact hmem
  · intro h
    exact ⟨(a, v), Finset.mem_filter.2 ⟨h, rfl⟩, rfl⟩

/-- The id of an activity that is found is the one that was asked for. -/
theorem findById_id {activity : Activity} (h : db.findById a = some activity) : activity.id = a := by
  obtain ⟨row, hrow, rfl⟩ := Option.map_eq_some_iff.1 h
  have hid : row.id = a := by simpa using List.find?_some hrow
  exact hid

/-- Where a visitor has one booking at most, the visitor's current activity is the requested one if and
only if the visitor has a row for it. -/
theorem currentActivity_iff (hone : OneBookingPerVisitor db) {activity : Activity}
    (hact : db.findById a = some activity) (limit : LimitOne) :
    ((db.findByBookedVisitor v limit).any fun current => current.id = a) = true ↔
      (a, v) ∈ db.bookings := by
  rw [Option.any_eq_true]
  constructor
  · rintro ⟨current, hcurrent, hid⟩
    obtain ⟨b, hpick, hfind⟩ := Option.bind_eq_some_iff.1 hcurrent
    have hb : b = a := (findById_id hfind).symm.trans (of_decide_eq_true hid)
    rw [← hb]
    exact mem_activitiesOf.1 (limit.mem _ _ hpick)
  · intro hbooked
    obtain ⟨b, hpick⟩ := Option.isSome_iff_exists.1
      (limit.isSome (db.activitiesOf v) ⟨a, mem_activitiesOf.2 hbooked⟩)
    have hb : b = a :=
      congrArg Prod.fst (hone _ (mem_activitiesOf.1 (limit.mem _ _ hpick)) _ hbooked rfl)
    refine ⟨activity, Option.bind_eq_some_iff.2 ⟨b, hpick, ?_⟩, decide_eq_true (findById_id hact)⟩
    rw [hb]
    exact hact

/-- The activity exists and is not full. -/
theorem free_iff :
    (∃ row ∈ db.activities, row.id = a ∧ ((db.rowsOf a).card : Int) < row.capacity) ↔
      ∃ activity, db.findById a = some activity ∧ activity.isFull = false := by
  constructor
  · rintro ⟨row, hrow, rfl, hlt⟩
    refine ⟨_, findById_of_mem hrow, ?_⟩
    simp only [Activity.isFull, toActivity, bookedVisitors_card, decide_eq_false_iff_not, not_le]
    exact hlt
  · rintro ⟨activity, hact, hfull⟩
    obtain ⟨row, hrow, hid, hcap, hcard⟩ := findById_eq_some hact
    simp only [Activity.isFull, decide_eq_false_iff_not, not_le] at hfull
    exact ⟨row, hrow, hid, by omega⟩

/-! ## The outcome -/

/-- A booking that runs alone succeeds exactly for those who may book. -/
theorem bookActivity_success_iff (hone : OneBookingPerVisitor db) (limit : LimitOne) :
    (bookActivity db a v limit).1 = none ↔ Bookable db a v := by
  unfold bookActivity
  by_cases hblank : isBlank v = true
  · rw [if_pos hblank]
    refine iff_of_false (fun h => by cases h) fun h => ?_
    rw [h.notBlank] at hblank
    cases hblank
  rw [if_neg hblank]
  have hblank' : isBlank v = false := Bool.eq_false_iff.2 hblank
  cases hact : db.findById a with
  | none =>
    refine iff_of_false (fun h => by cases h) fun h => ?_
    obtain ⟨activity, hsome, -⟩ := free_iff.1 h.free
    rw [hact] at hsome
    cases hsome
  | some activity =>
    have hcurrent := currentActivity_iff (v := v) hone hact limit
    cases hvis : db.visitors v with
    | none =>
      simp only [Db.findVisitor, hvis, Option.map_none]
      refine iff_of_false (fun h => by cases h) fun h => ?_
      have := h.checkedIn
      rw [hvis] at this
      cases this
    | some checkedIn =>
      simp only [Db.findVisitor, hvis, Option.map_some]
      cases checkedIn with
      | false =>
        refine iff_of_false (fun h => by cases h) fun h => ?_
        have := h.checkedIn
        rw [hvis] at this
        cases this
      | true =>
        simp only [not_true_eq_false, if_false, bookingError]
        by_cases hbooked : (a, v) ∈ db.bookings
        · rw [if_pos (hcurrent.2 hbooked)]
          exact iff_of_false (fun h => by cases h) fun h => h.notBooked hbooked
        · rw [if_neg (fun h => hbooked (hcurrent.1 h))]
          cases hfull : activity.isFull with
          | true =>
            refine iff_of_false (fun h => by cases h) fun h => ?_
            obtain ⟨activity', hsome, hfree⟩ := free_iff.1 h.free
            rw [hact] at hsome
            cases hsome
            rw [hfull] at hfree
            cases hfree
          | false =>
            exact iff_of_true rfl ⟨hblank', free_iff.2 ⟨activity, hact, hfull⟩, hvis, hbooked⟩

/-- A success has done what `book` does, an error nothing. -/
theorem bookActivity_db (db : Db) (a v : String) (limit : LimitOne) :
    (bookActivity db a v limit).1 = none ∧ (bookActivity db a v limit).2 = db.book a v ∨
      (bookActivity db a v limit).1 ≠ none ∧ (bookActivity db a v limit).2 = db := by
  unfold bookActivity
  by_cases hblank : isBlank v = true
  · rw [if_pos hblank]
    exact Or.inr ⟨Option.some_ne_none _, rfl⟩
  rw [if_neg hblank]
  cases db.findById a with
  | none => exact Or.inr ⟨Option.some_ne_none _, rfl⟩
  | some activity =>
    cases db.findVisitor v with
    | none => exact Or.inr ⟨Option.some_ne_none _, rfl⟩
    | some visitor =>
      dsimp only
      by_cases hin : ¬ visitor.checkedIn = true
      · rw [if_pos hin]
        exact Or.inr ⟨Option.some_ne_none _, rfl⟩
      · rw [if_neg hin]
        cases bookingError a activity (db.findByBookedVisitor v limit) with
        | some e => exact Or.inr ⟨Option.some_ne_none _, rfl⟩
        | none => exact Or.inl ⟨rfl, rfl⟩

/-! ## The tables -/

/-- Another activity loses the row of the visitor, if it has one. -/
theorem book_rowsOf_other_eq {b : String} (hne : b ≠ a) :
    (db.book a v).rowsOf b = (db.rowsOf b).erase (b, v) := by
  ext row
  simp only [Db.rowsOf, Db.book, Finset.mem_filter, Finset.mem_insert, Finset.mem_erase]
  constructor
  · rintro ⟨rfl | ⟨hmem, hv⟩, hb⟩
    · exact absurd hb.symm hne
    · exact ⟨fun he => hv (congrArg Prod.snd he), hmem, hb⟩
  · rintro ⟨hrow, hmem, hb⟩
    exact ⟨Or.inr ⟨hmem, fun hv => hrow (Prod.ext hb hv)⟩, hb⟩

theorem book_remaining_other {b : String} (hne : b ≠ a) {activity : Activity}
    (h : db.findById b = some activity) :
    ∃ activity', (db.book a v).findById b = some activity' ∧
      activity'.remaining = activity.remaining + if (b, v) ∈ db.bookings then 1 else 0 := by
  obtain ⟨row, hrow, rfl⟩ := Option.map_eq_some_iff.1 h
  refine ⟨toActivity row (((db.book a v).rowsOf b).image Prod.snd), ?_, ?_⟩
  · unfold Db.findById
    rw [show (db.book a v).activities = db.activities from rfl, hrow]
    rfl
  · have hmem : (b, v) ∈ db.rowsOf b ↔ (b, v) ∈ db.bookings := by simp [Db.rowsOf]
    simp only [Activity.remaining, toActivity, bookedVisitors_card]
    rw [book_rowsOf_other_eq hne]
    by_cases hbooked : (b, v) ∈ db.bookings
    · have hcard := Finset.card_erase_add_one (hmem.2 hbooked)
      rw [if_pos hbooked]
      omega
    · rw [if_neg hbooked, Finset.erase_eq_of_notMem (fun h => hbooked (hmem.1 h))]
      omega

/-- `book` changes nothing else. -/
theorem book_bookedExactly (db : Db) (a v : String) : BookedExactly db (db.book a v) a v where
  activities := rfl
  visitors := rfl
  bookings row := by simp [Db.book]
  others _ _ hne h := book_remaining_other hne h

/-- Ann is booked on one of two activities with a place each. -/
def switchDb : Db where
  activities := [⟨"surf", "Surfing", none, 1⟩, ⟨"yoga", "Yoga", none, 1⟩]
  activityKey := by decide
  visitors := fun u => if u = "ann" then some true else none
  bookings := {("surf", "ann")}

end Beach
