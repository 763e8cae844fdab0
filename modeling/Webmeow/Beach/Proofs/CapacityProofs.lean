import Webmeow.Beach.Server
import Webmeow.Lib.Keyed

/-!
# Capacity under concurrent bookings

A booking decides that its activity is not full in one transaction and inserts its row in another.
The capacity is respected exactly when no row is inserted into an activity that has filled up in the
meantime.
-/

namespace Beach

open Runs Interleaving

/-- No activity has more rows than places, and none that is read has a negative remainder. -/
def CapacityRespected (db : Db) : Prop :=
  (∀ row ∈ db.activities, ((db.rowsOf row.id).card : Int) ≤ row.capacity) ∧
    ∀ id activity, db.findById id = some activity → 0 ≤ activity.remaining

/-- The step inserts a new row for an activity that is full now, whatever the request has seen. -/
def overbooks (p : System) : Event Request LimitOne → Bool
  | .request _ => false
  | .advance i _ =>
    match p.threads[i]? with
    | some (.book activityId visitorId .book) =>
      decide ((activityId, visitorId) ∉ p.store.bookings) &&
        (p.store.findById activityId).any Activity.isFull
    | _ => false

/-! ## Counting rows -/

/-- Within one activity the visitor determines the row. -/
theorem bookedVisitors_card (db : Db) (id : String) :
    ((db.rowsOf id).image Prod.snd).card = (db.rowsOf id).card := by
  refine Finset.card_image_of_injOn ?_
  intro a ha b hb hab
  have h1 : a.1 = id := (Finset.mem_filter.1 ha).2
  have h2 : b.1 = id := (Finset.mem_filter.1 hb).2
  exact Prod.ext (h1.trans h2.symm) hab

/-- An activity that is found has the capacity and the bookings of its row. -/
theorem findById_eq_some {db : Db} {id : String} {activity : Activity}
    (h : db.findById id = some activity) :
    ∃ row ∈ db.activities, row.id = id ∧ activity.capacity = row.capacity ∧
      activity.bookedVisitors.card = (db.rowsOf id).card := by
  obtain ⟨row, hrow, rfl⟩ := Option.map_eq_some_iff.1 h
  have hid : row.id = id := by simpa using List.find?_some hrow
  exact ⟨row, List.mem_of_find?_eq_some hrow, hid, rfl, bookedVisitors_card db id⟩

/-- By the primary key, the row of an activity is the one that is found. -/
theorem findById_of_mem {db : Db} {row : ActivityRow} (h : row ∈ db.activities) :
    db.findById row.id = some (toActivity row ((db.rowsOf row.id).image Prod.snd)) := by
  unfold Db.findById
  rw [Keyed.find_of_mem db.activityKey h]
  rfl

/-- It is enough to look at the tables. -/
theorem capacityRespected_iff {db : Db} :
    CapacityRespected db ↔
      ∀ row ∈ db.activities, ((db.rowsOf row.id).card : Int) ≤ row.capacity := by
  refine ⟨fun h => h.1, fun h => ⟨h, fun id activity hf => ?_⟩⟩
  obtain ⟨row, hrow, rfl, hcap, hcard⟩ := findById_eq_some hf
  have := h row hrow
  unfold Activity.remaining
  omega

/-! ## The transactions -/

/-- Removing rows respects every capacity. -/
theorem CapacityRespected.mono {db db' : Db} (h : CapacityRespected db)
    (ha : db'.activities = db.activities) (hb : db'.bookings ⊆ db.bookings) :
    CapacityRespected db' := by
  rw [capacityRespected_iff] at h ⊢
  intro row hrow
  rw [ha] at hrow
  have hsub : db'.rowsOf row.id ⊆ db.rowsOf row.id := Finset.filter_subset_filter _ hb
  have hcard := Finset.card_le_card hsub
  have := h row hrow
  omega

theorem book_rowsOf_self (db : Db) (a v : String) :
    (db.book a v).rowsOf a = insert (a, v) (db.rowsOf a) := by
  ext row
  simp only [Db.rowsOf, Db.book, Finset.mem_filter, Finset.mem_insert]
  constructor
  · rintro ⟨h | ⟨h1, -⟩, h2⟩
    · exact Or.inl h
    · exact Or.inr ⟨h1, h2⟩
  · rintro (rfl | ⟨h1, h2⟩)
    · exact ⟨Or.inl rfl, rfl⟩
    · by_cases hv : row.2 = v
      · exact ⟨Or.inl (Prod.ext h2 hv), h2⟩
      · exact ⟨Or.inr ⟨h1, hv⟩, h2⟩

/-- Other activities lose rows at most. -/
theorem book_rowsOf_other (db : Db) {a b : String} (v : String) (hne : b ≠ a) :
    (db.book a v).rowsOf b ⊆ db.rowsOf b := by
  intro row hrow
  simp only [Db.rowsOf, Db.book, Finset.mem_filter, Finset.mem_insert] at hrow ⊢
  obtain ⟨h | ⟨h1, -⟩, h2⟩ := hrow
  · rw [h] at h2
    exact absurd h2.symm hne
  · exact ⟨h1, h2⟩

/-- Booking respects the capacities exactly when it renews a row or finds a free place. -/
theorem book_capacityRespected_iff {db : Db} (h : CapacityRespected db) (a v : String) :
    CapacityRespected (db.book a v) ↔
      ((a, v) ∈ db.bookings ∨ ∀ activity, db.findById a = some activity → activity.isFull = false) := by
  have hmem : (a, v) ∈ db.rowsOf a ↔ (a, v) ∈ db.bookings := by simp [Db.rowsOf]
  rw [capacityRespected_iff] at h ⊢
  constructor
  · intro h'
    by_contra hcon
    push Not at hcon
    obtain ⟨hnot, activity, hf, hfull⟩ := hcon
    obtain ⟨row, hrow, rfl, hcap, hcard⟩ := findById_eq_some hf
    have hle := h' row hrow
    rw [book_rowsOf_self, Finset.card_insert_of_notMem (by rwa [hmem])] at hle
    have hfull : activity.isFull = true := Bool.eq_true_of_not_eq_false hfull
    simp only [Activity.isFull, decide_eq_true_eq] at hfull
    omega
  · intro hok row hrow
    by_cases hid : row.id = a
    · subst hid
      rw [book_rowsOf_self]
      rcases hok with hin | hfree
      · rw [Finset.insert_eq_of_mem (hmem.2 hin)]
        exact h row hrow
      · have hnf := hfree _ (findById_of_mem hrow)
        simp only [Activity.isFull, toActivity, bookedVisitors_card, decide_eq_false_iff_not,
          not_le] at hnf
        have := Finset.card_insert_le (row.id, v) (db.rowsOf row.id)
        omega
    · have hcard := Finset.card_le_card (book_rowsOf_other db v hid)
      have := h row hrow
      omega

/-- The transactions of a step: a booking, or one of the others, or a read. -/
theorem act_transaction {db db' : Db} {t t' : Thread} {limit : LimitOne}
    (h : act db t limit = some (db', t')) :
    (∃ a v, t = .book a v .book ∧ db' = db.book a v) ∨
      ((∀ a v, t ≠ .book a v .book) ∧
        (db' = db ∨ (∃ a v, db' = db.cancel a v) ∨ (∃ v, db' = db.checkIn v) ∨
          ∃ v, db' = db.checkOut v)) := by
  cases t with
  | book a v pc =>
    obtain ⟨⟨db1, pc1⟩, hq, he⟩ := Option.map_eq_some_iff.1 h
    cases he
    cases pc with
    | findActivity =>
      simp only [bookStep] at hq
      split at hq <;> cases hq <;> exact Or.inr ⟨nofun, Or.inl rfl⟩
    | findVisitor activity =>
      simp only [bookStep] at hq
      split at hq
      · cases hq; exact Or.inr ⟨nofun, Or.inl rfl⟩
      · split_ifs at hq <;> cases hq <;> exact Or.inr ⟨nofun, Or.inl rfl⟩
    | findCurrent activity =>
      simp only [bookStep] at hq
      split at hq <;> cases hq <;> exact Or.inr ⟨nofun, Or.inl rfl⟩
    | book => cases hq; exact Or.inl ⟨a, v, rfl, rfl⟩
    | done e => cases hq
  | cancel a v pc =>
    obtain ⟨⟨db1, pc1⟩, hq, he⟩ := Option.map_eq_some_iff.1 h
    cases he
    cases pc with
    | findActivity =>
      simp only [cancelStep] at hq
      split at hq
      · cases hq; exact Or.inr ⟨nofun, Or.inl rfl⟩
      · split_ifs at hq <;> cases hq <;> exact Or.inr ⟨nofun, Or.inl rfl⟩
    | cancel => cases hq; exact Or.inr ⟨nofun, Or.inr (Or.inl ⟨a, v, rfl⟩)⟩
    | done e => cases hq
  | checkIn v called =>
    simp only [act] at h
    split_ifs at h
    cases h
    exact Or.inr ⟨nofun, Or.inr (Or.inr (Or.inl ⟨v, rfl⟩))⟩
  | checkOut v called =>
    simp only [act] at h
    split_ifs at h
    cases h
    exact Or.inr ⟨nofun, Or.inr (Or.inr (Or.inr ⟨v, rfl⟩))⟩

/-- What a step of a thread does to the tables: a booking transaction, or no new row. -/
theorem act_cases {db db' : Db} {t t' : Thread} {limit : LimitOne}
    (h : act db t limit = some (db', t')) :
    (∃ a v, t = .book a v .book ∧ db' = db.book a v) ∨
      ((∀ a v, t ≠ .book a v .book) ∧ db'.activities = db.activities ∧
        db'.bookings ⊆ db.bookings) := by
  rcases act_transaction h with hbook | ⟨hno, rfl | ⟨a, v, rfl⟩ | ⟨v, rfl⟩ | ⟨v, rfl⟩⟩
  · exact Or.inl hbook
  · exact Or.inr ⟨hno, rfl, Finset.Subset.refl _⟩
  · exact Or.inr ⟨hno, rfl, Finset.filter_subset _ _⟩
  · exact Or.inr ⟨hno, rfl, Finset.Subset.refl _⟩
  · exact Or.inr ⟨hno, rfl, Finset.filter_subset _ _⟩

/-- A step respects the capacities exactly when it does not overbook. -/
theorem step_capacityRespected_iff (p : System) (e : Event Request LimitOne) (p' : System)
    (h : CapacityRespected p.store) (hs : step p e = some p') :
    CapacityRespected p'.store ↔ overbooks p e = false := by
  cases e with
  | request r =>
    cases hs
    exact ⟨fun _ => rfl, fun _ => h⟩
  | advance i limit =>
    obtain ⟨t, db', t', hi, ha, rfl⟩ := Pool.step_advance_iff.1 hs
    rcases act_cases ha with ⟨a, v, rfl, rfl⟩ | ⟨hno, hact, hsub⟩
    · rw [book_capacityRespected_iff h]
      simp only [overbooks, hi, Bool.and_eq_false_iff, decide_eq_false_iff_not, not_not,
        Option.any_eq_false]
    · refine ⟨fun _ => ?_, fun _ => h.mono hact hsub⟩
      simp only [overbooks, hi]
      split
      · rename_i a v he
        exact absurd (Option.some.inj he) (hno a v)
      · rfl

theorem initial_capacityRespected_iff (db : Db) (h : db.bookings = ∅) :
    CapacityRespected db ↔ ∀ row ∈ db.activities, 0 ≤ row.capacity := by
  rw [capacityRespected_iff]
  simp [Db.rowsOf, h]

/-- **Capacity, exactly**: for every activity table and every interleaving that starts without
bookings, no activity ever has more rows than places if and only if no activity has a negative
capacity and no step inserts a new row for an activity that is full at that moment. -/
theorem capacityRespected_iff_no_overbooks (db : Db) (hdb : db.bookings = ∅)
    (es : List (Event Request LimitOne)) (p : System)
    (hr : run step (System.initial db) es = some p) :
    Always step (fun q => CapacityRespected q.store) (System.initial db) es ↔
      (∀ row ∈ db.activities, 0 ≤ row.capacity) ∧
        Throughout step (fun q e => overbooks q e = false) (System.initial db) es := by
  have hexact := fun h => always_iff_throughout (J := fun _ => True)
    (P := fun q : System => CapacityRespected q.store)
    (fun _ _ _ _ _ => trivial) (fun q e q' _ => step_capacityRespected_iff q e q')
    (s := System.initial db) trivial h hr
  rw [← initial_capacityRespected_iff db hdb]
  constructor
  · intro hA
    exact ⟨hA.head, (hexact hA.head).1 hA⟩
  · rintro ⟨h0, hT⟩
    exact (hexact h0).2 hT

/-! ## Two visitors and one place -/

/-- One place, two visitors who are checked in. -/
def onePlaceDb : Db where
  activities := [⟨"surf", "Surfing", none, 1⟩]
  activityKey := by decide
  visitors := fun v => if v = "ann" ∨ v = "bob" then some true else none
  bookings := ∅

/-- Both requests read the activity before either of them books it. -/
def racingBookings : List (Event Request LimitOne) :=
  [.request (.book "surf" "ann"), .request (.book "surf" "bob"),
    .advance 0 .least, .advance 1 .least, .advance 0 .least, .advance 1 .least,
    .advance 0 .least, .advance 1 .least, .advance 0 .least, .advance 1 .least]

/-- The same bookings, one after the other; the second visitor is refused. -/
def serialBookings : List (Event Request LimitOne) :=
  [.request (.book "surf" "ann"), .request (.book "surf" "bob"),
    .advance 0 .least, .advance 0 .least, .advance 0 .least, .advance 0 .least,
    .advance 1 .least, .advance 1 .least, .advance 1 .least]

/-- Two visitors have one place. -/
theorem racingBookings_overbooked :
    onePlaceDb.bookings = ∅ ∧
      ∃ p, run step (System.initial onePlaceDb) racingBookings = some p ∧
        ¬ CapacityRespected p.store := by
  refine ⟨rfl, _, rfl, fun h => ?_⟩
  have := h.1 ⟨"surf", "Surfing", none, 1⟩ (by decide)
  revert this
  decide

/-- One after another they have not. -/
theorem serialBookings_capacityRespected :
    (∀ row ∈ onePlaceDb.activities, 0 ≤ row.capacity) ∧
      Always step (fun q => CapacityRespected q.store) (System.initial onePlaceDb)
        serialBookings := by
  have hrow : ∀ row ∈ onePlaceDb.activities, 0 ≤ row.capacity := by decide
  obtain ⟨p, hp⟩ : ∃ p, run step (System.initial onePlaceDb) serialBookings = some p := ⟨_, rfl⟩
  exact ⟨hrow, (capacityRespected_iff_no_overbooks onePlaceDb rfl serialBookings p hp).2
    ⟨hrow, by decide⟩⟩

end Beach
