import Webmeow.Airport.Endpoints
import Webmeow.Hotel.Lookup

/-!
# The tools of the parrot

`execute_tool` of `tools.py` and the downstream calls of `services.py`, with the read endpoints of
the airport and the hotel behind them. A tool result is kept as the value that `json.dumps` is
given. How the HTTP client reads a URL and the servers its path is left open; the route tables of
the two services are not.
-/

namespace Parrot

/-- The state of the services that the tools read. -/
structure Services where
  /-- The airport. -/
  airport : Airport.Service
  /-- The hotel. -/
  hotel : Hotel.Service

/-- A value that `json.loads` returns; a float is kept as its literal. -/
inductive Json where
  | null
  | bool (b : Bool)
  | int (n : Int)
  | float (literal : String)
  | str (s : String)
  | arr (items : List Json)
  | obj (fields : List (String × Json))

/-! ## Requests and responses -/

/-- What a server makes of a URL: the segments of the path, the query parameters, and the status
with which it answers if no route has this path. -/
structure Target where
  /-- The segments of the path. -/
  path : List String
  /-- The parameters of the query. -/
  query : String → Option String
  /-- The status a server answers an unknown path with. -/
  unmatched : ℕ

/-- The JSON value of a response. -/
inductive Body where
  /-- `GET /stats` -/
  | stats (v : Airport.Stats)
  /-- `GET /queue` -/
  | queue (v : Airport.AllGatesStatus)
  /-- `GET /arrivals` -/
  | arrivals (rows : List Airport.Arrival)
  /-- `GET /arrivals/<guest_id>` -/
  | arrival (v : Airport.ArrivalResponse)
  /-- `GET /rooms` -/
  | rooms (v : List Hotel.RoomView)
  /-- A reservation. -/
  | reservation (v : Hotel.ReservationResponseDto)
  /-- `{"status": "ok"}` -/
  | health

/-- The answer of a service. -/
inductive Response where
  /-- A success; the body may be empty. -/
  | ok (body : Option Body)
  /-- A status that `raise_for_status` rejects. -/
  | rejected (status : ℕ)

/-- The routes of `routes.py` that answer a `GET`. -/
inductive AirportRoute where
  /-- `GET /stats` -/
  | stats
  /-- `GET /queue` -/
  | queue
  /-- `GET /arrivals` -/
  | arrivals (status passportType : Option String)
  /-- `GET /arrivals/<guest_id>` -/
  | arrival (guestId : String)
  /-- `GET /health` -/
  | health
  /-- Any other path. -/
  | unmatched (status : ℕ)

/-- The route of a target. -/
def airportRoute (t : Target) : AirportRoute :=
  match t.path with
  | ["stats"] => .stats
  | ["queue"] => .queue
  | ["arrivals"] => .arrivals (t.query "status") (t.query "passport_type")
  | ["arrivals", guestId] => .arrival guestId
  | ["health"] => .health
  | _ => .unmatched t.unmatched

/-- What the airport answers. -/
def AirportRoute.serve (s : Airport.Service) : AirportRoute → Response
  | .stats => .ok (some (.stats s.getStats))
  | .queue => .ok (some (.queue s.getAllGatesStatus))
  | .arrivals status passportType => .ok (some (.arrivals (s.listArrivals status passportType)))
  | .arrival guestId => .ok (some (.arrival (s.getArrival guestId)))
  | .health => .ok (some .health)
  | .unmatched status => .rejected status

/-- The routes of the hotel's controllers that answer a `GET`. -/
inductive HotelRoute where
  /-- `GET /rooms` -/
  | rooms
  /-- `GET /reservation/by-guest/:guest_id` -/
  | byGuest (guestId : String)
  /-- `GET /reservation/:id` -/
  | byId (id : String)
  /-- `GET /health` -/
  | health
  /-- Any other path. -/
  | unmatched (status : ℕ)

/-- The route of a target. -/
def hotelRoute (t : Target) : HotelRoute :=
  match t.path with
  | ["rooms"] => .rooms
  | ["reservation", "by-guest", guestId] => .byGuest guestId
  | ["reservation", id] => .byId id
  | ["health"] => .health
  | _ => .unmatched t.unmatched

/-- What the hotel answers. -/
def HotelRoute.serve (s : Hotel.Service) : HotelRoute → Response
  | .rooms => .ok (some (.rooms (Hotel.findAll s.db s.currentDay)))
  -- a handler that returns `null` sends an empty body
  | .byGuest guestId =>
    match s.db.findActiveByGuestId guestId with
    | .ok answer => .ok (answer.map .reservation)
    | .error e => .rejected e.status.code
  | .byId id =>
    match s.db.findById id with
    | .ok v => .ok (some (.reservation v))
    | .error e => .rejected e.status.code
  | .health => .ok (some .health)
  | .unmatched status => .rejected status

/-- What becomes of a request on the network. -/
inductive Transport where
  /-- The service answers. -/
  | delivered
  /-- Something else answers in the service's place, or the service fails. -/
  | refused (status : ℕ)
  /-- `httpx.ConnectError` or `httpx.TimeoutException` -/
  | unavailable
  /-- Any other exception of the client. -/
  | broken
deriving DecidableEq

/-- Why a request has no body. -/
inductive Failure where
  /-- `httpx.HTTPStatusError` -/
  | httpStatus (status : ℕ)
  /-- `httpx.ConnectError` or `httpx.TimeoutException` -/
  | unavailable
  /-- An exception that `execute_tool` does not catch. -/
  | escaping

/-- `get`, `raise_for_status` and `json`; an empty body is no JSON. -/
def fetch (tr : Transport) (response : Response) : Except Failure Body :=
  match tr with
  | .unavailable => .error .unavailable
  | .broken => .error .escaping
  | .refused status => .error (.httpStatus status)
  | .delivered =>
    match response with
    | .rejected status => .error (.httpStatus status)
    | .ok none => .error .escaping
    | .ok (some body) => .ok body

/-! ## The downstream calls -/

/-- The settings with the parts that are not the service's own: how Python writes a value that is
not a string, and how the two servers read a URL. -/
structure Client where
  /-- `airport_service_url` -/
  airportServiceUrl : String
  /-- `hotel_service_url` -/
  hotelServiceUrl : String
  /-- `str` -/
  str : Json → String
  /-- How the airport reads a URL. -/
  airportTarget : String → Target
  /-- How the hotel reads a URL. -/
  hotelTarget : String → Target

/-- A value in an f-string. -/
def Client.format (c : Client) : Json → String
  | .str s => s
  | v => c.str v

/-- A call of a tool, with what becomes of a request to each service during the call. -/
structure Call where
  /-- The name of the tool. -/
  name : String
  /-- The arguments. -/
  arguments : Json
  /-- What happens to a request to the airport. -/
  airport : Transport
  /-- What happens to a request to the hotel. -/
  hotel : Transport

/-- The route of a path of the airport. -/
def Client.airportRouteOf (c : Client) (path : String) : AirportRoute :=
  airportRoute (c.airportTarget (c.airportServiceUrl ++ path))

/-- The route of a path of the hotel. -/
def Client.hotelRouteOf (c : Client) (path : String) : HotelRoute :=
  hotelRoute (c.hotelTarget (c.hotelServiceUrl ++ path))

/-- A request to a path of the airport. -/
def Client.getAirport (c : Client) (call : Call) (s : Services) (path : String) :
    Except Failure Body :=
  fetch call.airport ((c.airportRouteOf path).serve s.airport)

/-- A request to a path of the hotel. -/
def Client.getHotel (c : Client) (call : Call) (s : Services) (path : String) :
    Except Failure Body :=
  fetch call.hotel ((c.hotelRouteOf path).serve s.hotel)

/-- A leg of the journey tool: its value or `{"error": marker}`. -/
inductive Leg where
  /-- The body. -/
  | value (body : Body)
  /-- The error marker. -/
  | error (marker : String)

/-- What a tool returns, before `json.dumps`. -/
inductive ToolResult where
  /-- What a service answered. -/
  | body (b : Body)
  /-- What both services answered about a guest. -/
  | journey (guestId : Json) (arrival reservation : Leg)
  /-- `{"error": message}` -/
  | error (message : String)

/-- What a journey shows of a service, unless the exception escapes. -/
def leg : Except Failure Body → Option Leg
  | .ok body => some (.value body)
  | .error (.httpStatus status) =>
    some (.error (if status = 404 then "not_found" else "status_" ++ toString status))
  | .error .unavailable => some (.error "unavailable")
  | .error .escaping => none

/-- `asyncio.gather` of the two legs. -/
def gather (guestId : Json) (arrival reservation : Except Failure Body) :
    Except Failure ToolResult :=
  match leg arrival, leg reservation with
  | some a, some r => .ok (.journey guestId a r)
  | _, _ => .error .escaping

/-! ## `execute_tool` -/

/-- The tools. -/
inductive Tool where
  | getAirportStats
  | getAirportQueueStatus
  | getHotelRooms
  | getGuestArrivalStatus
  | getGuestReservation
  | getGuestJourneyStatus

/-- `_DISPATCH` -/
def DISPATCH : List (String × Tool) :=
  [("get_airport_stats", .getAirportStats),
    ("get_airport_queue_status", .getAirportQueueStatus),
    ("get_hotel_rooms", .getHotelRooms),
    ("get_guest_arrival_status", .getGuestArrivalStatus),
    ("get_guest_reservation", .getGuestReservation),
    ("get_guest_journey_status", .getGuestJourneyStatus)]

/-- The path of an arrival. -/
def arrivalPath (c : Client) (guestId : Json) : String := "/arrivals/" ++ c.format guestId

/-- The path of the reservation of a guest. -/
def reservationPath (c : Client) (guestId : Json) : String :=
  "/reservation/by-guest/" ++ c.format guestId

/-- A function of `services.py` with a `guest_id`, which has to be among the keywords. -/
def withGuestId (kwargs : List (String × Json)) (f : Json → Except Failure ToolResult) :
    Except Failure ToolResult :=
  match kwargs.lookup "guest_id" with
  | none => .error .escaping
  | some guestId => f guestId

/-- What a tool returns. -/
def Tool.run (c : Client) (call : Call) (kwargs : List (String × Json)) (s : Services) :
    Tool → Except Failure ToolResult
  | .getAirportStats => (c.getAirport call s "/stats").map .body
  | .getAirportQueueStatus => (c.getAirport call s "/queue").map .body
  | .getHotelRooms => (c.getHotel call s "/rooms").map .body
  | .getGuestArrivalStatus =>
    withGuestId kwargs fun id => (c.getAirport call s (arrivalPath c id)).map .body
  | .getGuestReservation =>
    withGuestId kwargs fun id => (c.getHotel call s (reservationPath c id)).map .body
  | .getGuestJourneyStatus =>
    withGuestId kwargs fun id =>
      gather id (c.getAirport call s (arrivalPath c id)) (c.getHotel call s (reservationPath c id))

/-- The `except` clauses of `execute_tool`. -/
def answer (name : String) : Except Failure ToolResult → Option ToolResult
  | .ok result => some result
  | .error (.httpStatus status) =>
    some (.error (if status = 404 then "Not found" else "Service returned " ++ toString status))
  | .error .unavailable => some (.error ("Service unavailable for " ++ name))
  | .error .escaping => none

/-- `execute_tool`, `none` if an exception escapes. The guest of the session is passed and not
used. -/
def executeTool (c : Client) (_allowedGuestId : Option String) (call : Call) (s : Services) :
    Option ToolResult :=
  match DISPATCH.lookup call.name with
  | none => some (.error ("Unknown tool: " ++ call.name))
  | some tool =>
    match call.arguments with
    | .obj kwargs => answer call.name (tool.run c call kwargs s)
    -- `**arguments` needs a mapping
    | _ => none

end Parrot
