import Webmeow.Broadcast.Routes
import Webmeow.Frontend.NormalizeEvent
import Webmeow.Frontend.EventsStore

/-!
# From a request to the feed

The broadcast service with its routes and one browser that is connected to it. A request is broadcast to
the clients of that moment; the browser handles the messages of its response one after the other, at any
later time, and its user clears channels in between.
-/

namespace Frontend

open JsonText Broadcast

/-! ## The service -/

/-- What `broadcast` writes to every client. -/
def postedText (e : PostedEvent) : String :=
  "event: " ++ e.type.value ++ "\n" ++ "data: " ++ String.ofList (stringify e.object) ++ "\n\n"

/-- The text the bus writes for an announcement is its event text. -/
theorem postedText_posted (e : IslandEvent) : postedText e.posted = eventText e := rfl

/-- `broadcast` of `eventBus.ts`, for an event whose source is any value. -/
def publish (bus : EventBus) (e : PostedEvent) : EventBus where
  clients := bus.clients
  responses := writeAll (postedText e) bus.clients bus.responses
  connected := by
    intro c hc
    rw [length_writeAll]
    exact bus.connected c hc
  nodup := bus.nodup

/-- To publish an announcement is to broadcast it. -/
theorem publish_posted (bus : EventBus) (e : IslandEvent) :
    publish bus e.posted = bus.broadcast e := rfl

/-- What reaches the broadcast service. -/
inductive ServiceEvent where
  /-- A request is posted. -/
  | request (r : Request) (stamp : Stamp)
  /-- `GET /events` -/
  | connect
  /-- The response of a client closes. -/
  | responseClose (client : ℕ)
  /-- The request of a client closes. -/
  | requestClose (client : ℕ)

/-- The event to which a request leads. -/
def ServiceEvent.posts (env : Env) : ServiceEvent → Option PostedEvent
  | .request r stamp => (serve env r stamp).event
  | _ => none

/-- The event bus after one event. -/
def serviceStep (env : Env) (bus : EventBus) (e : ServiceEvent) : EventBus :=
  match e with
  | .request r stamp => ((serve env r stamp).event.map (publish bus)).getD bus
  | .connect => bus.addClient
  | .responseClose client => bus.removeClient client
  | .requestClose client => bus.removeClient client

/-! ## The browser -/

/-- The types of event the hook listens to. -/
def SSE_EVENT_TYPES : List String :=
  ["airport.arrival", "hotel.reservation_confirmed", "hotel.reservation_cancelled",
    "beach.activity_full", "beach.activity_available", "public.announcement", "resort.announcement"]

/-- The types for which `handleMessage` is registered, `onmessage` being for those without one. -/
def listensTo (type : List Char) : Bool :=
  type = "message".toList || SSE_EVENT_TYPES.any fun t => t.toList = type

/-- The listeners of the `EventSource` on a message. -/
def EventsState.onMessage (state : EventsState) (m : EventStream.Message)
    (randomUUID : ChannelId → List UInt16) : EventsState :=
  if listensTo m.type then
    match handleMessage m.data with
    | some event => state.ingestEvent event true randomUUID
    | none => state
  else state

/-- The messages of a response so far. -/
def messages (bus : EventBus) (client : ℕ) : List EventStream.Message :=
  EventStream.parse ((bus.responses.getD client []).flatMap String.toList)

/-- The service, the number of messages that the browser has handled and its event store. -/
structure Feed where
  /-- The event bus of the service. -/
  bus : EventBus
  /-- How many messages of its stream the browser has handled. -/
  handled : ℕ
  /-- The store of the browser. -/
  store : EventsState

/-- A service without clients and a browser with an empty store. -/
def Feed.initial : Feed := ⟨EventBus.initial, 0, EventsState.initial⟩

/-- What can happen at the service and the browser. -/
inductive FeedEvent where
  /-- Something happens at the service. -/
  | service (e : ServiceEvent)
  /-- The browser handles the next message. -/
  | message (randomUUID : ChannelId → List UInt16)
  /-- The browser clears a channel. -/
  | clear (channel : ChannelId)

/-- The browser is the client with this number. -/
def Feed.step (env : Env) (browser : ℕ) (s : Feed) : FeedEvent → Option Feed
  | .service e => some { s with bus := serviceStep env s.bus e }
  | .message randomUUID =>
    (messages s.bus browser)[s.handled]?.map fun m =>
      { s with handled := s.handled + 1, store := s.store.onMessage m randomUUID }
  | .clear channel => some { s with store := s.store.clearEvents channel }

/-! ## What is expected -/

/-- What the service has to say to one client. -/
structure Audience where
  /-- How many clients have connected. -/
  arrivals : ℕ
  /-- Whether the browser is connected. -/
  present : Bool
  /-- The events broadcast while it was. -/
  posts : List PostedEvent

/-- Nobody has connected. -/
def Audience.initial : Audience := ⟨0, false, []⟩

/-- The client with number `c` is present from its connect to the first close that a handler sees, and
an event is for it if it is present then. -/
def Audience.after (env : Env) (c : ℕ) (a : Audience) (e : ServiceEvent) : Audience :=
  match e with
  | .request _ _ =>
    { a with posts := if a.present then a.posts ++ (e.posts env).toList else a.posts }
  | .connect => { a with arrivals := a.arrivals + 1, present := a.present || a.arrivals = c }
  | .responseClose d => { a with present := a.present && d ≠ c }
  | .requestClose d => { a with present := a.present && d ≠ c }

/-- The event at the service, if it is one. -/
def FeedEvent.service? : FeedEvent → Option ServiceEvent
  | .service e => some e
  | _ => none

/-- The events that are posted while the browser is a client, in order. -/
def audience (env : Env) (browser : ℕ) (es : List FeedEvent) : Audience :=
  (es.filterMap FeedEvent.service?).foldl (Audience.after env browser) Audience.initial

/-- What the frontend makes of a posted event. -/
def readPosted (e : PostedEvent) : BroadcastEvent :=
  islandEvent e.object e.id (Utf16.ofString e.type.value)

/-- The `n`-th message that the browser handles is the `n`-th post, the one before all being the
greeting. -/
def storeCalls (posts : List PostedEvent) : ℕ → List FeedEvent → List StoreCall
  | _, [] => []
  | n, .service _ :: es => storeCalls posts n es
  | 0, .message _ :: es => storeCalls posts 1 es
  | n + 1, .message randomUUID :: es =>
    (posts[n]?.map fun e => .ingestEvent (readPosted e) true randomUUID).toList ++
      storeCalls posts (n + 2) es
  | n, .clear channel :: es => .clearEvents channel :: storeCalls posts n es

end Frontend
