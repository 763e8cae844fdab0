import Webmeow.Beach.Transactions

/-!
# One booking per visitor under snapshot isolation

`book` deletes the visitor's rows and inserts one, but it deletes only what its snapshot shows. The
pair key does not stop a second row of the visitor for another activity, so the uniqueness rests on
the snapshot of every committing `book`.
-/

namespace Beach

open Runs SnapshotIsolation

/-- No two rows of `activity_bookings` have the same visitor. -/
def OneBookingPerVisitor (db : Db) : Prop :=
  ∀ r ∈ db.bookings, ∀ r' ∈ db.bookings, r.2 = r'.2 → r = r'

/-- A `book` commits although its visitor has a committed row that its snapshot does not show. -/
def overlooks (s : Session) : Event Program → Bool
  | .begin _ => false
  | .commit i =>
    match s.active[i]? with
    | some t =>
      match t.program with
      | .book _ v =>
        s.validates transactions t &&
          decide (∃ row ∈ s.committed.bookings, row.2 = v ∧ row ∉ t.snapshot.bookings)
      | _ => false
    | none => false

/-! ## Transactions that are not interrupted -/

/-- A program whose snapshot is the current data does what the repository call does. -/
theorem install_book_self (db : Db) (a v : String) :
    (Program.book a v).install db db = db.book a v := by
  refine Db.ext rfl rfl ?_
  ext row
  simp only [Program.install, Program.deleted, Db.book, Finset.mem_insert, Finset.mem_sdiff,
    Finset.mem_filter]
  tauto

theorem install_cancel_self (db : Db) (a v : String) :
    (Program.cancel a v).install db db = db.cancel a v := by
  refine Db.ext rfl rfl ?_
  ext row
  simp only [Program.install, Program.deleted, Db.cancel, Finset.mem_sdiff, Finset.mem_filter]
  tauto

theorem install_checkOut_self (db : Db) (v : String) :
    (Program.checkOut v).install db db = db.checkOut v := by
  refine Db.ext rfl ?_ ?_
  · funext u
    simp only [Program.install, Db.checkOut]
    by_cases h : u = v
    · subst h
      cases hu : db.visitors u <;> simp
    · simp [h]
  · ext row
    simp only [Program.install, Program.deleted, Db.checkOut, Finset.mem_sdiff, Finset.mem_filter]
    tauto

/-! ## Commits -/

theorem OneBookingPerVisitor.mono {db db' : Db} (h : OneBookingPerVisitor db)
    (hb : db'.bookings ⊆ db.bookings) : OneBookingPerVisitor db' :=
  fun r hr r' hr' he => h r (hb hr) r' (hb hr') he

/-- Only `book` adds a row. -/
theorem install_bookings_subset {p : Program} (snapshot db : Db) (hp : ∀ a v, p ≠ .book a v) :
    (p.install snapshot db).bookings ⊆ db.bookings := by
  cases p with
  | book a v => exact absurd rfl (hp a v)
  | cancel a v => exact Finset.sdiff_subset
  | checkIn v => exact Finset.Subset.refl _
  | checkOut v => exact Finset.sdiff_subset

theorem mem_install_book {snapshot db : Db} {a v : String} {row : String × String} :
    row ∈ ((Program.book a v).install snapshot db).bookings ↔
      row = (a, v) ∨ row ∈ db.bookings ∧ ¬ (row ∈ snapshot.bookings ∧ row.2 = v) := by
  simp only [Program.install, Program.deleted, Finset.mem_insert, Finset.mem_sdiff,
    Finset.mem_filter]

/-- The primary key: a committing `book` that finds its own row has seen and deleted it. -/
theorem own_row_in_snapshot {s : Session} {t : Txn Db Program} {a v : String}
    (ht : t.program = .book a v) (hv : s.validates transactions t = true)
    (hrow : (a, v) ∈ s.committed.bookings) : (a, v) ∈ t.snapshot.bookings := by
  have hmod : RowKey.booking a v ∈ transactions.modified t.program t.snapshot :=
    State.validates_inserted hv (by simp [transactions, Program.inserted, ht])
      (by simpa [transactions, Db.present] using hrow)
  simp only [transactions, ht, Program.deleted, Program.updatedVisitor, Finset.union_empty,
    Finset.mem_image, Finset.mem_filter, RowKey.booking.injEq] at hmod
  obtain ⟨row, ⟨hmem, -⟩, h1, h2⟩ := hmod
  rw [← h1, ← h2]
  exact hmem

/-- A committing `book` keeps the rows unique exactly when it sees all rows of its visitor. -/
theorem book_oneBooking_iff {s : Session} {t : Txn Db Program} {a v : String}
    (h : OneBookingPerVisitor s.committed) (ht : t.program = .book a v)
    (hv : s.validates transactions t = true) :
    OneBookingPerVisitor ((Program.book a v).install t.snapshot s.committed) ↔
      ∀ row ∈ s.committed.bookings, row.2 = v → row ∈ t.snapshot.bookings := by
  constructor
  · intro h' row hrow hvis
    by_contra hnot
    have hkept : row ∈ ((Program.book a v).install t.snapshot s.committed).bookings :=
      mem_install_book.2 (Or.inr ⟨hrow, fun hc => hnot hc.1⟩)
    have hnew : (a, v) ∈ ((Program.book a v).install t.snapshot s.committed).bookings :=
      mem_install_book.2 (Or.inl rfl)
    have heq : row = (a, v) := h' row hkept (a, v) hnew hvis
    subst heq
    exact hnot (own_row_in_snapshot ht hv hrow)
  · intro hsee r hr r' hr' he
    -- an older row that survives belongs to another visitor
    have hother : ∀ q, q ∈ s.committed.bookings ∧ ¬ (q ∈ t.snapshot.bookings ∧ q.2 = v) →
        q.2 ≠ v := fun q hq hqv => hq.2 ⟨hsee q hq.1 hqv, hqv⟩
    rcases mem_install_book.1 hr with rfl | hold
    · rcases mem_install_book.1 hr' with rfl | hold'
      · rfl
      · exact absurd he.symm (hother r' hold')
    · rcases mem_install_book.1 hr' with rfl | hold'
      · exact absurd he (hother r hold)
      · exact h r hold.1 r' hold'.1 he

/-- A commit harms exactly if it overlooks a row. -/
theorem step_oneBooking_iff (s : Session) (e : Event Program) (s' : Session)
    (h : OneBookingPerVisitor s.committed) (hs : transactionStep s e = some s') :
    OneBookingPerVisitor s'.committed ↔ overlooks s e = false := by
  cases e with
  | begin p =>
    cases hs
    exact ⟨fun _ => rfl, fun _ => h⟩
  | commit i =>
    obtain ⟨t, hi, ⟨hv, hc⟩ | ⟨hv, hc⟩⟩ := State.step_commit_cases hs
    · rw [hc]
      simp only [overlooks, hi]
      cases hp : t.program with
      | book a v =>
        show OneBookingPerVisitor ((Program.book a v).install t.snapshot s.committed) ↔ _
        rw [book_oneBooking_iff h hp hv]
        simp only [hv, Bool.true_and, decide_eq_false_iff_not, not_exists, not_and, not_not]
      | cancel a v =>
        exact ⟨fun _ => rfl, fun _ => h.mono (install_bookings_subset _ _ fun _ _ he => by cases he)⟩
      | checkIn v =>
        exact ⟨fun _ => rfl, fun _ => h.mono (install_bookings_subset _ _ fun _ _ he => by cases he)⟩
      | checkOut v =>
        exact ⟨fun _ => rfl, fun _ => h.mono (install_bookings_subset _ _ fun _ _ he => by cases he)⟩
    · rw [hc]
      refine ⟨fun _ => ?_, fun _ => h⟩
      simp only [overlooks, hi, hv, Bool.false_and]
      split <;> rfl

/-- **One booking per visitor, exactly**: in every interleaving of transactions that starts without
bookings, no committed state has two rows of one visitor if and only if no `book` commits while its
visitor has a committed row that the snapshot of the `book` does not show. -/
theorem oneBookingPerVisitor_iff_no_overlooks (db : Db) (hdb : db.bookings = ∅)
    (es : List (Event Program)) (s : Session)
    (hr : run transactionStep (State.initial db) es = some s) :
    Always transactionStep (fun q => OneBookingPerVisitor q.committed) (State.initial db) es ↔
      Throughout transactionStep (fun q e => overlooks q e = false) (State.initial db) es := by
  have h0 : OneBookingPerVisitor db := by
    intro r hmem
    rw [hdb] at hmem
    exact absurd hmem (Finset.notMem_empty r)
  exact always_iff_throughout (J := fun _ => True)
    (P := fun q : Session => OneBookingPerVisitor q.committed)
    (fun _ _ _ _ _ => trivial) (fun q e q' _ => step_oneBooking_iff q e q')
    (s := State.initial db) trivial h0 hr

/-! ## One visitor, two activities -/

/-- Two activities without bookings. -/
def emptyDb : Db where
  activities := [⟨"surf", "Surfing", none, 5⟩, ⟨"yoga", "Yoga", none, 5⟩]
  activityKey := by decide
  visitors := fun v => if v = "ann" then some true else none
  bookings := ∅

/-- Both transactions start on the empty table; neither deletes or inserts a row of the other. -/
def concurrentBooks : List (Event Program) :=
  [.begin (.book "surf" "ann"), .begin (.book "yoga" "ann"), .commit 0, .commit 0]

/-- The second booking starts after the first one has committed and replaces it. -/
def successiveBooks : List (Event Program) :=
  [.begin (.book "surf" "ann"), .commit 0, .begin (.book "yoga" "ann"), .commit 0]

/-- Ann has two bookings. -/
theorem concurrentBooks_two_rows :
    emptyDb.bookings = ∅ ∧
      ∃ s, run transactionStep (State.initial emptyDb) concurrentBooks = some s ∧
        ¬ OneBookingPerVisitor s.committed := by
  refine ⟨rfl, _, rfl, fun h => ?_⟩
  have := h ("surf", "ann") (by decide) ("yoga", "ann") (by decide) rfl
  revert this
  decide

/-- One after another they leave one. -/
theorem successiveBooks_oneBooking :
    emptyDb.bookings = ∅ ∧
      Always transactionStep (fun q => OneBookingPerVisitor q.committed) (State.initial emptyDb)
        successiveBooks := by
  obtain ⟨s, hs⟩ : ∃ s, run transactionStep (State.initial emptyDb) successiveBooks = some s :=
    ⟨_, rfl⟩
  exact ⟨rfl, (oneBookingPerVisitor_iff_no_overlooks emptyDb rfl successiveBooks s hs).2 (by decide)⟩

end Beach
