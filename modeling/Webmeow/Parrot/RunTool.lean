import Webmeow.Parrot.Tools
import Webmeow.Parrot.History

/-!
# Running one tool call

`_run_one_tool` of `llm.py` with `execute_tool` and the functions of `services.py`, for any argument
string the model emits and anything that becomes of the requests to the services. `none` is an
exception that nothing here catches.
-/

namespace Parrot

/-- What `json.loads` makes of a string. -/
inductive Loaded where
  /-- A value. -/
  | value (v : Json)
  /-- `JSONDecodeError` -/
  | decodeError
  /-- Another exception: a nesting that is too deep or an integer that is too long. -/
  | raised

/-- The exceptions of a request that are defined by `httpx`. -/
inductive HttpxError where
  | connectTimeout
  | readTimeout
  | writeTimeout
  | poolTimeout
  | connectError
  | readError
  | writeError
  | closeError
  | proxyError
  | unsupportedProtocol
  | localProtocolError
  | remoteProtocolError
  | decodingError
  | tooManyRedirects
  | invalidUrl
deriving DecidableEq, Repr

/-- `httpx.TimeoutException` is the base class of four of them. -/
def HttpxError.isTimeout : HttpxError → Bool
  | .connectTimeout => true
  | .readTimeout => true
  | .writeTimeout => true
  | .poolTimeout => true
  | _ => false

/-- `except (httpx.ConnectError, httpx.TimeoutException)` -/
def HttpxError.isUnavailable (e : HttpxError) : Bool := e = .connectError || e.isTimeout

/-- What becomes of a request. -/
inductive HttpOutcome where
  /-- A response. -/
  | response (status : ℕ) (body : List UInt8)
  /-- An exception of `httpx`. -/
  | httpx (e : HttpxError)
  /-- An exception that is not one of `httpx`. -/
  | raised

/-- The settings, and what the code relies on beyond itself: `json`, the writing of a value in an
f-string, the JSON of a response body, and the client. -/
structure Runtime where
  /-- `airport_service_url` -/
  airportServiceUrl : String
  /-- `hotel_service_url` -/
  hotelServiceUrl : String
  /-- `json.loads` -/
  loads : String → Loaded
  /-- `json.dumps` -/
  dumps : Json → String
  /-- `str` -/
  str : Json → String
  /-- `Response.json`, `none` if it raises an exception. -/
  json : List UInt8 → Option Json
  /-- `client.get` -/
  get : String → HttpOutcome

/-- A value in an f-string. -/
def Runtime.format (rt : Runtime) : Json → String
  | .str s => s
  | v => rt.str v

/-! ## The downstream calls -/

/-- `raise_for_status` and `json` of what a request came to. -/
def Runtime.read (rt : Runtime) : HttpOutcome → Except Failure Json
  | .raised => .error .escaping
  | .httpx e => .error (if e.isUnavailable then .unavailable else .escaping)
  | .response status body =>
    if 200 ≤ status ∧ status ≤ 299 then
      match rt.json body with
      | some v => .ok v
      | none => .error .escaping
    else .error (.httpStatus status)

/-- What a URL answers, if it is a success that can be read. -/
def Runtime.fetch (rt : Runtime) (url : String) : Except Failure Json := rt.read (rt.get url)

/-- The URL of an arrival. -/
def Runtime.arrivalUrl (rt : Runtime) (guestId : Json) : String :=
  rt.airportServiceUrl ++ "/arrivals/" ++ rt.format guestId

/-- The URL of the reservation of a guest. -/
def Runtime.reservationUrl (rt : Runtime) (guestId : Json) : String :=
  rt.hotelServiceUrl ++ "/reservation/by-guest/" ++ rt.format guestId

/-- `{"error": message}` -/
def errorMarker (message : String) : Json := .obj [("error", .str message)]

/-- `_leg` of the journey tool. -/
def Runtime.leg (rt : Runtime) (url : String) : Except Failure Json :=
  match rt.fetch url with
  | .ok v => .ok v
  | .error (.httpStatus status) =>
    .ok (errorMarker (if status = 404 then "not_found" else "status_" ++ toString status))
  | .error .unavailable => .ok (errorMarker "unavailable")
  | .error .escaping => .error .escaping

/-- The keyword `guest_id`, without which three of the functions cannot be called. -/
def guestIdOf (kwargs : List (String × Json)) : Except Failure Json :=
  match kwargs.lookup "guest_id" with
  | none => .error .escaping
  | some guestId => .ok guestId

/-- The functions of `_DISPATCH`, applied to `**arguments`. -/
def Runtime.dispatch (rt : Runtime) (kwargs : List (String × Json)) : Tool → Except Failure Json
  | .getAirportStats => rt.fetch (rt.airportServiceUrl ++ "/stats")
  | .getAirportQueueStatus => rt.fetch (rt.airportServiceUrl ++ "/queue")
  | .getHotelRooms => rt.fetch (rt.hotelServiceUrl ++ "/rooms")
  | .getGuestArrivalStatus => do
    let guestId ← guestIdOf kwargs
    rt.fetch (rt.arrivalUrl guestId)
  | .getGuestReservation => do
    let guestId ← guestIdOf kwargs
    rt.fetch (rt.reservationUrl guestId)
  | .getGuestJourneyStatus => do
    let guestId ← guestIdOf kwargs
    let arrival ← rt.leg (rt.arrivalUrl guestId)
    let reservation ← rt.leg (rt.reservationUrl guestId)
    return .obj [("guest_id", guestId), ("arrival", arrival), ("reservation", reservation)]

/-! ## `execute_tool` and `_run_one_tool` -/

/-- The `except` clauses of `execute_tool`. -/
def Runtime.answer (rt : Runtime) (name : String) : Except Failure Json → Option String
  | .ok v => some (rt.dumps v)
  | .error (.httpStatus status) =>
    some (rt.dumps (errorMarker
      (if status = 404 then "Not found" else "Service returned " ++ toString status)))
  | .error .unavailable => some (rt.dumps (errorMarker ("Service unavailable for " ++ name)))
  | .error .escaping => none

/-- `_DISPATCH.get(name)` -/
def toolOf (name : Option String) : Option Tool := name.bind fun name => DISPATCH.lookup name

/-- `execute_tool`; the guest of the session is passed and not used. -/
def Runtime.executeTool (rt : Runtime) (name : Option String) (arguments : Json)
    (_allowedGuestId : Option String) : Option String :=
  match toolOf name with
  | none => some (rt.dumps (errorMarker ("Unknown tool: " ++ name.getD "None")))
  | some tool =>
    match arguments with
    | .obj kwargs => rt.answer (name.getD "None") (rt.dispatch kwargs tool)
    -- `**arguments` needs a mapping
    | _ => none

/-- The `try` of `_run_one_tool`; only a `JSONDecodeError` is caught. -/
def Runtime.parseArguments (rt : Runtime) (argumentsStr : String) : Option Json :=
  if argumentsStr = "" then some (.obj [])
  else
    match rt.loads argumentsStr with
    | .value v => some v
    | .decodeError => some (.obj [])
    | .raised => none

/-- The message with the result of a call, if no exception escapes. -/
def Runtime.runOneTool (rt : Runtime) (call : ToolCall) (guestId : Option String) :
    Option Message := do
  let arguments ← rt.parseArguments call.argumentsStr
  let result ← rt.executeTool call.name arguments guestId
  return .tool call.id result

end Parrot
