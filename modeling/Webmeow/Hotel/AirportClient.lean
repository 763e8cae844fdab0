import Webmeow.Airport.Endpoints
import Webmeow.Hotel.Reservation
import Webmeow.Lib.WebUrl

/-!
# The hotel asks the airport

`AirportService` of the hotel puts a guest id into the URL of the airport service as it is. Which
route answers is decided by the URL parser and by Flask.
-/

namespace Hotel

/-- The routes of the airport service for a `GET` request. -/
inductive AirportRoute where
  /-- `GET /arrivals/<guest_id>` -/
  | arrival (guestId : String)
  /-- `GET /arrivals` -/
  | arrivals
  /-- `GET /queue` -/
  | queue
  /-- `GET /stats` -/
  | stats
  /-- `GET /health` -/
  | health
  /-- Any other path. -/
  | notFound
deriving DecidableEq

/-- Flask compares the decoded path; the variable of `/arrivals/<guest_id>` is one segment that is
not empty. -/
def airportRoute (path : List Char) : AirportRoute :=
  if path = "/arrivals".toList then .arrivals
  else if path = "/queue".toList then .queue
  else if path = "/stats".toList then .stats
  else if path = "/health".toList then .health
  else
    match path.dropPrefix? "/arrivals/".toList with
    | some guestId =>
      if guestId ≠ [] ∧ '/' ∉ guestId then .arrival (String.ofList guestId) else .notFound
    | none => .notFound

/-- The route that a request for `${airportServiceUrl}/arrivals/${guestId}` takes. -/
def arrivalRequest (guestId : String) : AirportRoute :=
  airportRoute (WebUrl.requestPath ("/arrivals/".toList ++ guestId.toList))

/-- `body.status` of an answer that is ok, which is undefined for the routes that answer without a
status; `none` if the answer is not ok. -/
def AirportRoute.status (airport : Airport.Service) : AirportRoute → Option (Option String)
  | .arrival guestId => some (some (airport.getArrival guestId).status)
  | .arrivals => some none
  | .queue => some none
  | .stats => some none
  | .health => some (some "ok")
  | .notFound => none

/-- `none` for the airport is one that is not configured or cannot be reached. -/
def hasGuestClearedProcessing (airport : Option Airport.Service) (guestId : String) :
    Option Bool :=
  match airport with
  | none => none
  | some airport =>
    ((arrivalRequest guestId).status airport).map fun status => decide (status = some "processed")

example : (["mango-miles", "ann lee", "ann?x", "x/../ann", "%61nn", "a/b", "../queue", ""].map
    arrivalRequest) = [.arrival "mango-miles", .arrival "ann lee", .arrival "ann", .arrival "ann",
      .arrival "ann", .notFound, .queue, .notFound] := by
  decide

end Hotel
