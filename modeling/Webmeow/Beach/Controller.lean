import Webmeow.Beach.Activity

/-!
# The HTTP interface of the beach

`ActivityController` behind its routes, for requests that are served one after another. A body that
Ktor cannot decode is the status Ktor answers with.
-/

namespace Beach

/-- `ActivityErrors.ACTIVITY_NOT_BOOKED`, which no use case returns. -/
def ACTIVITY_NOT_BOOKED : String := "Activity not booked"

/-- `ActivityErrors.MISSING_ACTIVITY_ID`. -/
def MISSING_ACTIVITY_ID : String := "Missing activity id"

/-- `VisitorErrors.VISITOR_ALREADY_BOOKED_OTHER_ACTIVITY`, which no use case returns. -/
def VISITOR_ALREADY_BOOKED_OTHER_ACTIVITY : String := "Visitor already booked another activity"

/-- An activity in an answer. -/
structure ActivityResponse where
  /-- `activity_id` -/
  activity_id : String
  /-- `activity_name` -/
  activity_name : String
  /-- `description` -/
  description : Option String
  /-- `capacity` -/
  capacity : Int
  /-- The places that are left. -/
  remaining : Int
deriving DecidableEq, Repr

/-- The body of an answer. -/
inductive Body where
  /-- `mapOf("status" to ...)`. -/
  | status (status : String)
  /-- `ErrorResponse`. -/
  | error (error : Option String)
  /-- The activity of a visitor, or `null`. -/
  | activityId (activity_id : Option String)
  | activity (response : ActivityResponse)
  /-- All activities, in the order of the table. -/
  | activities (activities : List ActivityResponse)
  | text (text : String)
  /-- Of an exception that no code of the service handles. -/
  | empty
deriving DecidableEq, Repr

/-- An answer: status and body. -/
structure Response where
  /-- The status code of HTTP. -/
  status : Nat
  /-- The body. -/
  body : Body
deriving DecidableEq, Repr

/-- What `call.receive<VisitorRequest>()` gives: the id, or the status of its exception. -/
abbrev Received := Except Nat String

/-- A request that has matched a route, with the value of the route's parameter. -/
inductive HttpRequest where
  /-- `GET /health`. -/
  | health
  /-- `GET /`. -/
  | root
  /-- `POST /activity/book/{activity_id}`. -/
  | book (activity_id : String) (request : Received)
  /-- `POST /activity/cancel/{activity_id}`. -/
  | cancel (activity_id : String) (request : Received)
  /-- `GET /activity/by-guest/{visitor_id}`. -/
  | getActivityByGuest (visitor_id : String)
  /-- `GET /activity/{activity_id}`. -/
  | getActivity (activity_id : String)
  /-- `GET /activities`. -/
  | getActivities
  /-- `POST /visitor/check-in`. -/
  | checkInVisitor (request : Received)
  /-- `POST /visitor/check-out`. -/
  | checkOutVisitor (request : Received)
deriving DecidableEq

/-! ## The repository calls that the use cases do without -/

/-- `bookedVisitorsByActivityIds`: the bookings of all these activities, grouped. An activity without
bookings has no entry. -/
def Db.bookedVisitorsByActivityIds (db : Db) (activityIds : List String) (activityId : String) :
    Option (Finset String) :=
  if activityIds.isEmpty then none
  else
    let rows := db.bookings.filter fun row => row.1 ∈ activityIds
    let group := (rows.filter fun row => row.1 = activityId).image Prod.snd
    if group = ∅ then none else some group

/-- `PostgresActivityRepository.findAll`, in the order of the table. -/
def Db.findAll (db : Db) : List Activity :=
  let bookingsByActivity := db.bookedVisitorsByActivityIds (db.activities.map ActivityRow.id)
  db.activities.map fun row => toActivity row ((bookingsByActivity row.id).getD ∅)

/-- A string that a query may carry: PostgreSQL has no U+0000 in a text. -/
def fitsText (s : String) : Bool := s.toList.all fun c => c.toNat != 0

/-- `varchar("id", 50)` of `VisitorsTable`: a longer id cannot be inserted. -/
def fitsVisitorId (id : String) : Bool := decide (id.length ≤ 50)

/-! ## The controller -/

/-- `respondError`: the status that belongs to the text of an error. -/
def respondError (error : String) : Response :=
  if error = Error.message .ACTIVITY_NOT_FOUND ∨ error = Error.message .VISITOR_NOT_FOUND then
    ⟨404, .error (some error)⟩
  else if error = Error.message .ACTIVITY_FULL ∨ error = Error.message .ACTIVITY_ALREADY_BOOKED ∨
      error = ACTIVITY_NOT_BOOKED ∨ error = VISITOR_ALREADY_BOOKED_OTHER_ACTIVITY then
    ⟨409, .error (some error)⟩
  else if error = Error.message .VISITOR_NOT_CHECKED_IN then ⟨403, .error (some error)⟩
  else ⟨400, .error (some error)⟩

/-- The fields of `ActivityResponse`. -/
def Activity.toResponse (activity : Activity) : ActivityResponse :=
  ⟨activity.id, activity.name, activity.description, activity.capacity, activity.remaining⟩

/-- The answer to a use case that has run. -/
def respondOutcome (outcome : Option Error) (status : String) : Response :=
  match outcome with
  | some error => respondError error.message
  | none => ⟨200, .status status⟩

/-- A query of `BookActivityUseCase` is refused: `findById` with the activity, or after it
`findVisitor` with the visitor. -/
def bookRaises (db : Db) (activityId visitorId : String) : Bool :=
  !isBlank visitorId &&
    (!fitsText activityId || (db.findById activityId).isSome && !fitsText visitorId)

/-- `book`. -/
def book (db : Db) (activityId : String) (request : Received) (limit : LimitOne) : Response × Db :=
  if isBlank activityId then (respondError MISSING_ACTIVITY_ID, db)
  else match request with
    | .error status => (⟨status, .empty⟩, db)
    | .ok id =>
      if bookRaises db activityId id then (⟨500, .empty⟩, db)
      else
        let outcome := bookActivity db activityId id limit
        (respondOutcome outcome.1 "booked", outcome.2)

/-- `cancel`. The visitor is in a query only if there is a booking, so only the activity may be
refused. -/
def cancel (db : Db) (activityId : String) (request : Received) : Response × Db :=
  if isBlank activityId then (respondError MISSING_ACTIVITY_ID, db)
  else match request with
    | .error status => (⟨status, .empty⟩, db)
    | .ok id =>
      if ¬ fitsText activityId then (⟨500, .empty⟩, db)
      else
        let outcome := cancelActivity db activityId id
        (respondOutcome outcome.1 "cancelled", outcome.2)

/-- `getActivityByGuest`: the activity of a visitor. -/
def getActivityByGuest (db : Db) (visitorId : String) (limit : LimitOne) : Response :=
  if isBlank visitorId then respondError (Error.message .VISITOR_MISSING_ID)
  else if ¬ fitsText visitorId then ⟨500, .empty⟩
  else ⟨200, .activityId ((db.findByBookedVisitor visitorId limit).map Activity.id)⟩

/-- `getActivity`: one activity. -/
def getActivity (db : Db) (activityId : String) : Response :=
  if isBlank activityId then respondError MISSING_ACTIVITY_ID
  else if ¬ fitsText activityId then ⟨500, .empty⟩
  else match db.findById activityId with
    | none => respondError (Error.message .ACTIVITY_NOT_FOUND)
    | some activity => ⟨200, .activity activity.toResponse⟩

/-- `getActivities`: all activities. -/
def getActivities (db : Db) : Response := ⟨200, .activities (db.findAll.map Activity.toResponse)⟩

/-- `checkInVisitor`. An insert or a query that is refused is an exception that nobody handles. -/
def checkInVisitor (db : Db) (request : Received) : Response × Db :=
  match request with
  | .error status => (⟨status, .empty⟩, db)
  | .ok id =>
    if isBlank id then (respondError (Error.message .VISITOR_MISSING_ID), db)
    else if ¬ fitsText id then (⟨500, .empty⟩, db)
    else if (db.visitors id).isNone ∧ ¬ fitsVisitorId id then (⟨500, .empty⟩, db)
    else (⟨200, .status "checked_in"⟩, db.checkIn id)

/-- `checkOutVisitor`. -/
def checkOutVisitor (db : Db) (request : Received) : Response × Db :=
  match request with
  | .error status => (⟨status, .empty⟩, db)
  | .ok id =>
    if isBlank id then (respondError (Error.message .VISITOR_MISSING_ID), db)
    else if ¬ fitsText id then (⟨500, .empty⟩, db)
    else (⟨200, .status "checked_out"⟩, db.checkOut id)

/-- `activityRoutes`: the next request, with the row that each `limit(1)` of it returns. -/
def activityRoutes (db : Db) (call : HttpRequest × LimitOne) : Response × Db :=
  match call.1 with
  | .health => (⟨200, .status "ok"⟩, db)
  | .root => (⟨200, .text "Hello"⟩, db)
  | .book activityId request => book db activityId request call.2
  | .cancel activityId request => cancel db activityId request
  | .getActivityByGuest visitorId => (getActivityByGuest db visitorId call.2, db)
  | .getActivity activityId => (getActivity db activityId, db)
  | .getActivities => (getActivities db, db)
  | .checkInVisitor request => checkInVisitor db request
  | .checkOutVisitor request => checkOutVisitor db request

end Beach
