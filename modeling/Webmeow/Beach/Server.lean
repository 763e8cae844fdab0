import Webmeow.Beach.Activity
import Webmeow.Lib.Interleaving

/-!
# Concurrent requests to the beach

Each repository call is a transaction of its own, so a use case is a thread that is suspended before
every repository call. The fullness of an activity is judged on what the first call returned.
-/

namespace Beach

open Interleaving

/-- The next repository call of a `BookActivityUseCase.execute`, or its result. -/
inductive BookPc where
  /-- `activityRepository.findById` is next. -/
  | findActivity
  /-- `visitorRepository.findById` is next. -/
  | findVisitor (activity : Activity)
  /-- `findByBookedVisitor` is next. -/
  | findCurrent (activity : Activity)
  /-- `activityRepository.book` is next. -/
  | book
  /-- The use case has returned. -/
  | done (error : Option Error)

/-- The next repository call of a `CancelActivityUseCase.execute`, or its result. -/
inductive CancelPc where
  /-- `activityRepository.findById` is next. -/
  | findActivity
  /-- `activityRepository.cancel` is next. -/
  | cancel
  /-- The use case has returned. -/
  | done (error : Option Error)

/-- The requests that change a table. -/
inductive Request where
  | book (activityId visitorId : String)
  | cancel (activityId visitorId : String)
  | checkIn (visitorId : String)
  | checkOut (visitorId : String)

/-- A request under way, with its repository calls so far. -/
inductive Thread where
  | book (activityId visitorId : String) (pc : BookPc)
  | cancel (activityId visitorId : String) (pc : CancelPc)
  /-- Before or after its one call. -/
  | checkIn (visitorId : String) (called : Bool)
  /-- Before or after its one call. -/
  | checkOut (visitorId : String) (called : Bool)

/-- A request before its first repository call. Only `BookActivityUseCase` checks the id before it.
-/
def start : Request → Thread
  | .book a v => .book a v (if isBlank v then .done (some .VISITOR_MISSING_ID) else .findActivity)
  | .cancel a v => .cancel a v .findActivity
  | .checkIn v => .checkIn v false
  | .checkOut v => .checkOut v false

/-- The next repository call of `BookActivityUseCase`, and the code up to the one after it. -/
def bookStep (db : Db) (activityId visitorId : String) (limit : LimitOne) :
    BookPc → Option (Db × BookPc)
  | .findActivity =>
    match db.findById activityId with
    | none => some (db, .done (some .ACTIVITY_NOT_FOUND))
    | some activity => some (db, .findVisitor activity)
  | .findVisitor activity =>
    match db.findVisitor visitorId with
    | none => some (db, .done (some .VISITOR_NOT_FOUND))
    | some visitor =>
      if ¬ visitor.checkedIn then some (db, .done (some .VISITOR_NOT_CHECKED_IN))
      else some (db, .findCurrent activity)
  | .findCurrent activity =>
    match bookingError activityId activity (db.findByBookedVisitor visitorId limit) with
    | some e => some (db, .done (some e))
    | none => some (db, .book)
  | .book => some (db.book activityId visitorId, .done none)
  | .done _ => none

/-- The next repository call of `CancelActivityUseCase`. -/
def cancelStep (db : Db) (activityId visitorId : String) : CancelPc → Option (Db × CancelPc)
  | .findActivity =>
    match db.findById activityId with
    | none => some (db, .done (some .ACTIVITY_NOT_FOUND))
    | some activity =>
      if isBlank visitorId then some (db, .done (some .VISITOR_MISSING_ID))
      else if visitorId ∉ activity.bookedVisitors then some (db, .done none)
      else some (db, .cancel)
  | .cancel => some (db.cancel activityId visitorId, .done none)
  | .done _ => none

/-- The next repository call of a thread. -/
def act (db : Db) (t : Thread) (limit : LimitOne) : Option (Db × Thread) :=
  match t with
  | .book a v pc => (bookStep db a v limit pc).map fun q => (q.1, .book a v q.2)
  | .cancel a v pc => (cancelStep db a v pc).map fun q => (q.1, .cancel a v q.2)
  | .checkIn v called => if called then none else some (db.checkIn v, .checkIn v true)
  | .checkOut v called => if called then none else some (db.checkOut v, .checkOut v true)

/-- The beach service with all its requests. -/
abbrev System := Pool Db Thread

/-- A request arrives, or a thread makes its next call. -/
def step : System → Event Request LimitOne → Option System := Pool.step start act

/-- The tables without requests. -/
def System.initial (db : Db) : System := ⟨db, []⟩

end Beach
