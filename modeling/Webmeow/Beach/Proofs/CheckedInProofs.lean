import Webmeow.Beach.Proofs.CapacityProofs

/-!
# Bookings of visitors who have left

A booking verifies that its visitor is checked in in one transaction and inserts its row in another. A
check-out in between removes the bookings that are there, not the one that comes.
-/

namespace Beach

open Runs Interleaving

/-- Every row of `activity_bookings` belongs to a visitor who is checked in. -/
def BookersCheckedIn (db : Db) : Prop := ∀ row ∈ db.bookings, db.visitors row.2 = some true

/-- The step inserts a row for a visitor who is not checked in now, whatever the request has seen. -/
def booksAbsent (p : System) : Event Request LimitOne → Bool
  | .request _ => false
  | .advance i _ =>
    match p.threads[i]? with
    | some (.book _ visitorId .book) => p.store.visitors visitorId ≠ some true
    | _ => false

/-! ## The transactions -/

/-- The new row must be for a visitor who is checked in. -/
theorem book_bookersCheckedIn_iff {db : Db} (h : BookersCheckedIn db) (a v : String) :
    BookersCheckedIn (db.book a v) ↔ db.visitors v = some true := by
  constructor
  · intro h'
    exact h' (a, v) (Finset.mem_insert_self _ _)
  · intro hv row hrow
    rcases Finset.mem_insert.1 hrow with rfl | hrow
    · exact hv
    · exact h row (Finset.mem_filter.1 hrow).1

/-- Fewer bookings are no harm. -/
theorem BookersCheckedIn.cancel {db : Db} (h : BookersCheckedIn db) (a v : String) :
    BookersCheckedIn (db.cancel a v) := by
  intro row hrow
  exact h row (Finset.mem_filter.1 hrow).1

/-- Nor are more visitors. -/
theorem BookersCheckedIn.checkIn {db : Db} (h : BookersCheckedIn db) (v : String) :
    BookersCheckedIn (db.checkIn v) := by
  intro row hrow
  show (if row.2 = v then some true else db.visitors row.2) = some true
  split_ifs
  · rfl
  · exact h row hrow

/-- A check-out takes the visitor's rows along. -/
theorem BookersCheckedIn.checkOut {db : Db} (h : BookersCheckedIn db) (v : String) :
    BookersCheckedIn (db.checkOut v) := by
  intro row hrow
  obtain ⟨hmem, hne⟩ := Finset.mem_filter.1 hrow
  show (if row.2 = v then (db.visitors row.2).map fun _ => false else db.visitors row.2) = some true
  rw [if_neg hne]
  exact h row hmem

/-- A step keeps the bookings to visitors who are checked in exactly when it books for nobody else. -/
theorem step_bookersCheckedIn_iff (p : System) (e : Event Request LimitOne) (p' : System)
    (h : BookersCheckedIn p.store) (hs : step p e = some p') :
    BookersCheckedIn p'.store ↔ booksAbsent p e = false := by
  cases e with
  | request r =>
    cases hs
    exact ⟨fun _ => rfl, fun _ => h⟩
  | advance i limit =>
    obtain ⟨t, db', t', hi, ha, rfl⟩ := Pool.step_advance_iff.1 hs
    have hquiet : (∀ a v, t ≠ .book a v .book) → booksAbsent p (.advance i limit) = false := by
      intro hno
      simp only [booksAbsent, hi]
      split
      · rename_i a v he
        exact absurd (Option.some.inj he) (hno a v)
      · rfl
    rcases act_transaction ha with ⟨a, v, rfl, rfl⟩ | ⟨hno, rfl | ⟨a, v, rfl⟩ | ⟨v, rfl⟩ | ⟨v, rfl⟩⟩
    · rw [book_bookersCheckedIn_iff h]
      simp [booksAbsent, hi]
    · exact ⟨fun _ => hquiet hno, fun _ => h⟩
    · exact ⟨fun _ => hquiet hno, fun _ => h.cancel a v⟩
    · exact ⟨fun _ => hquiet hno, fun _ => h.checkIn v⟩
    · exact ⟨fun _ => hquiet hno, fun _ => h.checkOut v⟩

/-- **Bookings and check-outs, exactly**: in every interleaving that starts without bookings, every row
always belongs to a visitor who is checked in if and only if no booking transaction runs for a
visitor who is not checked in at that moment. -/
theorem bookersCheckedIn_iff_no_absent (db : Db) (hdb : db.bookings = ∅)
    (es : List (Event Request LimitOne)) (p : System)
    (hr : run step (System.initial db) es = some p) :
    Always step (fun q => BookersCheckedIn q.store) (System.initial db) es ↔
      Throughout step (fun q e => booksAbsent q e = false) (System.initial db) es := by
  have h0 : BookersCheckedIn db := by
    intro row hrow
    rw [hdb] at hrow
    cases hrow
  exact always_iff_throughout (J := fun _ => True) (P := fun q : System => BookersCheckedIn q.store)
    (fun _ _ _ _ _ => trivial) (fun q e q' _ => step_bookersCheckedIn_iff q e q') trivial h0 hr

/-! ## A check-out between the check and the insert -/

/-- The visitor leaves after the request has seen that she is checked in. -/
def leavesWhileBooking : List (Event Request LimitOne) :=
  [.request (.book "surf" "ann"), .request (.checkOut "ann"),
    .advance 0 .least, .advance 0 .least, .advance 1 .least, .advance 0 .least, .advance 0 .least]

/-- The visitor leaves after the booking. -/
def leavesAfterBooking : List (Event Request LimitOne) :=
  [.request (.book "surf" "ann"), .request (.checkOut "ann"),
    .advance 0 .least, .advance 0 .least, .advance 0 .least, .advance 0 .least, .advance 1 .least]

/-- The visitor is gone when the row is inserted. -/
theorem leavesWhileBooking_absent :
    onePlaceDb.bookings = ∅ ∧
      ∃ p, run step (System.initial onePlaceDb) leavesWhileBooking = some p ∧
        ("surf", "ann") ∈ p.store.bookings ∧ ¬BookersCheckedIn p.store := by
  refine ⟨rfl, _, rfl, by decide, fun h => ?_⟩
  exact absurd (h ("surf", "ann") (by decide)) (by decide)

/-- Who leaves later takes the row along. -/
theorem leavesAfterBooking_checkedIn :
    onePlaceDb.bookings = ∅ ∧
      Always step (fun q => BookersCheckedIn q.store) (System.initial onePlaceDb)
        leavesAfterBooking := by
  obtain ⟨p, hp⟩ : ∃ p, run step (System.initial onePlaceDb) leavesAfterBooking = some p := ⟨_, rfl⟩
  exact ⟨rfl, (bookersCheckedIn_iff_no_absent onePlaceDb rfl leavesAfterBooking p hp).2 (by decide)⟩

end Beach
