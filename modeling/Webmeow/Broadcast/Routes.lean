import Webmeow.Broadcast.EventBus

/-!
# The routes of the broadcast service

The handlers of `routes/` behind `express.json`, which refuses a body that is larger than its limit.
The route that Express takes for a path is part of a request. The `source` of an event of `/public/`
is whatever the body says, so it need not be a string.
-/

namespace Broadcast

open JsonText

/-- The routes that lead to an event. -/
inductive Endpoint where
  | airportArrival
  | hotelConfirm
  | hotelCancel
  | beachFull
  | beachAvailable
  | publicAnnouncement
  | adminAnnouncement
deriving DecidableEq

/-- Their paths. -/
def Endpoint.path : Endpoint → String
  | .airportArrival => "/airport/arrival"
  | .hotelConfirm => "/hotel/confirm"
  | .hotelCancel => "/hotel/cancel"
  | .beachFull => "/beach/full"
  | .beachAvailable => "/beach/available"
  | .publicAnnouncement => "/public/"
  | .adminAnnouncement => "/admin/announcement"

/-- All of them. -/
def endpoints : List Endpoint :=
  [.airportArrival, .hotelConfirm, .hotelCancel, .beachFull, .beachAvailable, .publicAnnouncement,
    .adminAnnouncement]

/-- The route of a path that is spelled as in the source. -/
def endpointOf (path : String) : Option Endpoint := endpoints.find? fun e => e.path = path

/-- A `POST` to one of the routes. -/
structure Request where
  /-- The endpoint it is posted to. -/
  endpoint : Endpoint
  /-- The header `X-Admin-Passcode`. -/
  passcode : Option String
  /-- The text of the body, unless there is none or it is not declared as JSON. -/
  body : Option (List Char)

/-- The length of a body in bytes of UTF-8. -/
def bodySize (text : List Char) : ℕ := text.foldl (fun n c => n + c.utf8Size) 0

/-- `req.body`. `express.json` refuses a body above its `limit`, and in its strict mode it takes
objects and arrays. -/
def readBody (limit : ℕ) : Option (List Char) → Option Value
  | none => some (.obj [])
  | some [] => some (.obj [])
  | some text =>
    if limit < bodySize text then none
    else
      match JsonText.parse text with
      | some (.obj members) => some (.obj members)
      | some (.arr items) => some (.arr items)
      | _ => none

/-- The generated id and the time of an event. -/
structure Stamp where
  /-- From `randomUUID`. -/
  id : List UInt16
  /-- From `toISOString`. -/
  timestamp : List UInt16

/-- An event whose source is any value, or missing, as a caller may send one. -/
structure PostedEvent where
  /-- `id` -/
  id : List UInt16
  /-- `type` -/
  type : EventType
  /-- `timestamp` -/
  timestamp : List UInt16
  /-- As the body has it. -/
  source : Option Value
  /-- `payload` -/
  payload : Value

/-- The object that is stringified; a property that is `undefined` is left out. -/
def PostedEvent.object (e : PostedEvent) : Value :=
  .obj ([property "id" (.str e.id), property "type" (text e.type.value),
    property "timestamp" (.str e.timestamp)] ++ (e.source.map (property "source")).toList ++
      [property "payload" e.payload])

/-- An event of the service itself. -/
def IslandEvent.posted (e : IslandEvent) : PostedEvent :=
  ⟨e.id, e.type, e.timestamp, some (.str e.source), e.payload⟩

/-- How a request ends. -/
inductive Outcome where
  /-- The event is broadcast and the request succeeds. -/
  | broadcast (event : PostedEvent)
  /-- The request gets an error. -/
  | refused (status : ℕ) (error : String)
  /-- `express.json` does not accept the body. -/
  | malformed

/-- The event that is broadcast. -/
def Outcome.event : Outcome → Option PostedEvent
  | .broadcast event => some event
  | _ => none

/-! ## The handlers -/

/-- The handler of a service's endpoint, which wraps the whole body. -/
def serviceEvent (type : EventType) (source : String) (stamp : Stamp) (body : Value) :
    IslandEvent where
  id := stamp.id
  type := type
  timestamp := stamp.timestamp
  source := Utf16.ofString source
  payload := .obj [property "body" body]

/-- The handler of `/public/`. -/
def publicEvent (stamp : Stamp) (body : Value) : PostedEvent where
  id := stamp.id
  type := .publicAnnouncement
  timestamp := stamp.timestamp
  source := body.get "guestName"
  payload := .obj ((body.get "message").map (property "message")).toList

/-- The environment of the service. -/
structure Env where
  /-- `ADMIN_PASSCODE`, if it is set. -/
  ADMIN_PASSCODE : Option String
  /-- `VITE_ADMIN_PASSCODE`, if it is set. -/
  VITE_ADMIN_PASSCODE : Option String
  /-- The `limit` of `express.json`, in bytes. The source leaves it at the default of 100 kB. -/
  bodyLimit : ℕ

/-- `s || rest` -/
def orElse (s : Option String) (rest : String) : String :=
  if s.getD "" = "" then rest else s.getD ""

/-- `configuredAdminPasscode`; empty texts count as missing. -/
def configuredAdminPasscode (env : Env) : String :=
  orElse env.ADMIN_PASSCODE (orElse env.VITE_ADMIN_PASSCODE "")

/-- The white space and the line terminators that `trim` removes. -/
def isWhiteSpace (u : UInt16) : Bool :=
  u ∈ [0x09, 0x0A, 0x0B, 0x0C, 0x0D, 0x20, 0xA0, 0x1680, 0x2028, 0x2029, 0x202F, 0x205F, 0x3000,
    0xFEFF] || (0x2000 ≤ u && u ≤ 0x200A)

/-- `String.prototype.trim`. -/
def trim (s : List UInt16) : List UInt16 :=
  ((s.dropWhile isWhiteSpace).reverse.dropWhile isWhiteSpace).reverse

/-- `req.body.message` of an announcement, trimmed. -/
def announcementMessage (body : Value) : List UInt16 :=
  ((stringOf (body.get "message")).map trim).getD []

/-- The sender of an announcement, `Admin` by default. -/
def announcementSender (body : Value) : List UInt16 :=
  match stringOf (body.get "sender") with
  | some sender => if trim sender = [] then Utf16.ofString "Admin" else trim sender
  | none => Utf16.ofString "Admin"

/-- The event of an announcement to the resort. -/
def resortEvent (stamp : Stamp) (body : Value) : IslandEvent where
  id := stamp.id
  type := .resortAnnouncement
  timestamp := stamp.timestamp
  source := Utf16.ofString "broadcast"
  payload :=
    .obj [property "message" (.str (announcementMessage body)),
      property "sender" (.str (announcementSender body)), property "channel" (text "resort-wide")]

/-- The request has the passcode that is configured. -/
def Authorized (env : Env) (passcode : Option String) : Prop :=
  configuredAdminPasscode env ≠ "" ∧ passcode.getD "" = configuredAdminPasscode env

instance (env : Env) (passcode : Option String) : Decidable (Authorized env passcode) :=
  inferInstanceAs (Decidable (_ ∧ _))

/-- The handler of `/admin/announcement`. -/
def adminAnnouncement (env : Env) (passcode : Option String) (stamp : Stamp) (body : Value) :
    Outcome :=
  if ¬Authorized env passcode then .refused 403 "Admin authorization required"
  else if announcementMessage body = [] then .refused 400 "Announcement message is required"
  else .broadcast (resortEvent stamp body).posted

/-- The handler of a route, for a body that was read. -/
def handle (env : Env) (r : Request) (stamp : Stamp) (body : Value) : Outcome :=
  match r.endpoint with
  | .airportArrival => .broadcast (serviceEvent .airportArrival "airport" stamp body).posted
  | .hotelConfirm => .broadcast (serviceEvent .hotelConfirm "hotel" stamp body).posted
  | .hotelCancel => .broadcast (serviceEvent .hotelCancel "hotel" stamp body).posted
  | .beachFull => .broadcast (serviceEvent .beachFull "beach" stamp body).posted
  | .beachAvailable => .broadcast (serviceEvent .beachAvailable "beach" stamp body).posted
  | .publicAnnouncement => .broadcast (publicEvent stamp body)
  | .adminAnnouncement => adminAnnouncement env r.passcode stamp body

/-- `express.json` and the handler. -/
def serve (env : Env) (r : Request) (stamp : Stamp) : Outcome :=
  match readBody env.bodyLimit r.body with
  | none => .malformed
  | some body => handle env r stamp body

/-- The requests of a sequence that lead to an event, with the events in their order. -/
def posted (env : Env) (requests : List (Request × Stamp)) : List (Request × PostedEvent) :=
  requests.filterMap fun p => (serve env p.1 p.2).event.map fun e => (p.1, e)

end Broadcast
