import Mathlib.Data.Finset.Card
import Mathlib.Data.Finset.Image
import Mathlib.Data.Finset.Max
import Mathlib.Data.String.Basic

/-!
# Beach activities

The three tables of the beach service, the two repositories and the two use cases run without
interruption. `activity_bookings` has the pair of its columns as primary key, so it is a finite set
of pairs; `visitors` is keyed by its id. `limit(1)` may return any row, so the choice is an argument.
-/

namespace Beach

/-- `Char.isWhitespace` of Kotlin: Unicode separators and the whitespace control characters. -/
def isWhitespace (c : Char) : Bool :=
  let n := c.toNat
  (0x9 ≤ n && n ≤ 0xD) || (0x1C ≤ n && n ≤ 0x20) || n == 0xA0 || n == 0x1680 ||
    (0x2000 ≤ n && n ≤ 0x200A) || n == 0x2028 || n == 0x2029 || n == 0x202F || n == 0x205F ||
    n == 0x3000

/-- `CharSequence.isBlank` of Kotlin. -/
def isBlank (s : String) : Bool := s.toList.all isWhitespace

/-- `ActivityErrors` and `VisitorErrors`, as far as a use case returns them. -/
inductive Error where
  | ACTIVITY_NOT_FOUND
  | ACTIVITY_FULL
  | ACTIVITY_ALREADY_BOOKED
  | VISITOR_NOT_FOUND
  | VISITOR_MISSING_ID
  | VISITOR_NOT_CHECKED_IN
deriving DecidableEq, Repr

/-- The texts of the constants. -/
def Error.message : Error → String
  | .ACTIVITY_NOT_FOUND => "Activity not found"
  | .ACTIVITY_FULL => "Activity is full"
  | .ACTIVITY_ALREADY_BOOKED => "Already booked"
  | .VISITOR_NOT_FOUND => "Visitor not found"
  | .VISITOR_MISSING_ID => "Missing visitor id"
  | .VISITOR_NOT_CHECKED_IN => "Visitor is not checked in"

/-- A row of `activities`. -/
structure ActivityRow where
  /-- The primary key. -/
  id : String
  /-- `name` -/
  name : String
  /-- `description` -/
  description : Option String
  /-- The number of places. -/
  capacity : Int
deriving DecidableEq, Repr

/-- An activity as the repository returns it, with the visitors booked on it. -/
structure Activity where
  /-- `id` -/
  id : String
  /-- `name` -/
  name : String
  /-- `description` -/
  description : Option String
  /-- `capacity` -/
  capacity : Int
  /-- The visitors with a booking. -/
  bookedVisitors : Finset String
deriving DecidableEq

/-- `remaining()`: the places that are left. -/
def Activity.remaining (a : Activity) : Int := a.capacity - a.bookedVisitors.card

/-- `isFull()`. -/
def Activity.isFull (a : Activity) : Bool := decide (a.capacity ≤ a.bookedVisitors.card)

/-- A visitor as the repository returns one. -/
structure Visitor where
  /-- `id` -/
  id : String
  /-- On the beach now. -/
  checkedIn : Bool
deriving DecidableEq, Repr

/-- The tables of the service. -/
@[ext]
structure Db where
  /-- The rows of `activities`, in the order of the table. -/
  activities : List ActivityRow
  /-- `id` is the primary key of `activities`. -/
  activityKey : (activities.map ActivityRow.id).Nodup
  /-- The column `checked_in` of `visitors`, by id. -/
  visitors : String → Option Bool
  /-- The rows of `activity_bookings`: activity and visitor. -/
  bookings : Finset (String × String)

/-- Which row a `limit(1)` returns, given the activity ids of the matching rows. -/
structure LimitOne where
  /-- The activity of the row that is returned. -/
  pick : Finset String → Option String
  /-- It is one of the matching rows. -/
  mem : ∀ s a, pick s = some a → a ∈ s
  /-- If there are rows, one is returned. -/
  isSome : ∀ s : Finset String, s.Nonempty → (pick s).isSome

/-- A scan in the order of the ids. -/
def LimitOne.least : LimitOne where
  pick s := if h : s.Nonempty then some (s.min' h) else none
  mem s a h := by
    split_ifs at h with hs
    rw [← Option.some.inj h]
    exact s.min'_mem hs
  isSome s hs := by rw [dif_pos hs]; rfl

/-! ## The repositories -/

/-- The rows of `activity_bookings` for one activity. -/
def Db.rowsOf (db : Db) (activityId : String) : Finset (String × String) :=
  db.bookings.filter fun row => row.1 = activityId

/-- The activities on which a visitor has a row. -/
def Db.activitiesOf (db : Db) (visitorId : String) : Finset String :=
  (db.bookings.filter fun row => row.2 = visitorId).image Prod.fst

/-- `toActivity`: the row with its visitors. -/
def toActivity (row : ActivityRow) (bookedVisitors : Finset String) : Activity :=
  ⟨row.id, row.name, row.description, row.capacity, bookedVisitors⟩

/-- `PostgresActivityRepository.findById`. -/
def Db.findById (db : Db) (id : String) : Option Activity :=
  (db.activities.find? fun row => row.id = id).map fun row =>
    toActivity row ((db.rowsOf id).image Prod.snd)

/-- `PostgresActivityRepository.findByBookedVisitor`. -/
def Db.findByBookedVisitor (db : Db) (visitorId : String) (limit : LimitOne) : Option Activity :=
  (limit.pick (db.activitiesOf visitorId)).bind db.findById

/-- `PostgresActivityRepository.book`: one transaction that deletes the visitor's rows and inserts
the new one. -/
def Db.book (db : Db) (activityId visitorId : String) : Db :=
  { db with
    bookings := insert (activityId, visitorId)
      (db.bookings.filter fun row => row.2 ≠ visitorId) }

/-- `PostgresActivityRepository.cancel`. -/
def Db.cancel (db : Db) (activityId visitorId : String) : Db :=
  { db with bookings := db.bookings.filter fun row => ¬ (row.1 = activityId ∧ row.2 = visitorId) }

/-- `PostgresVisitorRepository.findById`. -/
def Db.findVisitor (db : Db) (id : String) : Option Visitor :=
  (db.visitors id).map fun checkedIn => ⟨id, checkedIn⟩

/-- `PostgresVisitorRepository.checkIn`: update or insert. -/
def Db.checkIn (db : Db) (id : String) : Db :=
  { db with visitors := fun v => if v = id then some true else db.visitors v }

/-- `PostgresVisitorRepository.checkOut`: the bookings go, an existing visitor is checked out. -/
def Db.checkOut (db : Db) (id : String) : Db :=
  { db with
    bookings := db.bookings.filter fun row => row.2 ≠ id
    visitors := fun v => if v = id then (db.visitors v).map fun _ => false else db.visitors v }

/-! ## The use cases -/

/-- The checks of `BookActivityUseCase` after its three reads; `none` lets the booking happen. -/
def bookingError (activityId : String) (activity : Activity) (currentActivity : Option Activity) :
    Option Error :=
  if currentActivity.any fun current => current.id = activityId then some .ACTIVITY_ALREADY_BOOKED
  else if activity.isFull then some .ACTIVITY_FULL
  else none

/-- `BookActivityUseCase.execute` without interruption. -/
def bookActivity (db : Db) (activityId visitorId : String) (limit : LimitOne) :
    Option Error × Db :=
  if isBlank visitorId then (some .VISITOR_MISSING_ID, db)
  else match db.findById activityId with
    | none => (some .ACTIVITY_NOT_FOUND, db)
    | some activity =>
      match db.findVisitor visitorId with
      | none => (some .VISITOR_NOT_FOUND, db)
      | some visitor =>
        if ¬ visitor.checkedIn then (some .VISITOR_NOT_CHECKED_IN, db)
        else match bookingError activityId activity (db.findByBookedVisitor visitorId limit) with
          | some e => (some e, db)
          | none => (none, db.book activityId visitorId)

/-- `CancelActivityUseCase.execute` without interruption. Cancelling what is not booked is not an
error. -/
def cancelActivity (db : Db) (activityId visitorId : String) : Option Error × Db :=
  match db.findById activityId with
  | none => (some .ACTIVITY_NOT_FOUND, db)
  | some activity =>
    if isBlank visitorId then (some .VISITOR_MISSING_ID, db)
    else if visitorId ∉ activity.bookedVisitors then (none, db)
    else (none, db.cancel activityId visitorId)

end Beach
