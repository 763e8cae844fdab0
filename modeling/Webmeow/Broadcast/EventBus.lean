import Webmeow.Lib.JsonText
import Webmeow.Lib.EventStream
import Mathlib.Data.List.Nodup

/-!
# The event bus

`eventBus.ts` and the `/events` route of the broadcast service. The responses are numbered by their
requests; each is kept as the texts that were written to it. A client goes with the first of two
handlers, one on the response and one on the request, that sees the connection close.
-/

namespace Broadcast

open JsonText

/-- The names of the events. -/
inductive EventType where
  | airportArrival
  | hotelConfirm
  | hotelCancel
  | beachFull
  | beachAvailable
  | publicAnnouncement
  | resortAnnouncement
deriving DecidableEq

/-- As they are written. -/
def EventType.value : EventType → String
  | .airportArrival => "airport.arrival"
  | .hotelConfirm => "hotel.reservation_confirmed"
  | .hotelCancel => "hotel.reservation_cancelled"
  | .beachFull => "beach.activity_full"
  | .beachAvailable => "beach.activity_available"
  | .publicAnnouncement => "public.announcement"
  | .resortAnnouncement => "resort.announcement"

/-- An event as the service makes it, with its texts in UTF-16. -/
structure IslandEvent where
  /-- From `randomUUID`. -/
  id : List UInt16
  /-- `type` -/
  type : EventType
  /-- From `toISOString`. -/
  timestamp : List UInt16
  /-- The name of the publisher. -/
  source : List UInt16
  /-- `payload` -/
  payload : Value

/-- A property of an object literal. -/
def property (name : String) (v : Value) : List UInt16 × Value := (Utf16.ofString name, v)

/-- A string of the source. -/
def text (s : String) : Value := .str (Utf16.ofString s)

/-- The object that is stringified. -/
def IslandEvent.object (e : IslandEvent) : Value :=
  .obj [property "id" (.str e.id), property "type" (text e.type.value),
    property "timestamp" (.str e.timestamp), property "source" (.str e.source),
    property "payload" e.payload]

/-- `{ type: "connected" }` -/
def connectedObject : Value := .obj [property "type" (text "connected")]

/-- `clients` and what was written to every response. -/
structure EventBus where
  /-- `clients`, by the numbers of their responses. -/
  clients : List ℕ
  /-- What was written to each response, in the order of the connections. -/
  responses : List (List String)
  /-- A client has a response. -/
  connected : ∀ c ∈ clients, c < responses.length
  /-- Nobody is listed twice. -/
  nodup : clients.Nodup

/-- Nobody is connected. -/
def EventBus.initial : EventBus where
  clients := []
  responses := []
  connected := fun _ h => absurd h List.not_mem_nil
  nodup := List.nodup_nil

/-- `client.write(text)` -/
def write (text : String) (responses : List (List String)) (client : ℕ) : List (List String) :=
  responses.modify client fun writes => writes ++ [text]

/-- `clients.forEach((client) => client.write(text))` -/
def writeAll (text : String) (clients : List ℕ) (responses : List (List String)) :
    List (List String) :=
  clients.foldl (write text) responses

theorem length_writeAll (text : String) (clients : List ℕ) (responses : List (List String)) :
    (writeAll text clients responses).length = responses.length := by
  unfold writeAll
  induction clients generalizing responses with
  | nil => rfl
  | cons c clients ih => rw [List.foldl_cons, ih, write, List.length_modify]

/-- What `addClient` writes. -/
def greeting : List String :=
  ["event: connected\n", "data: " ++ String.ofList (stringify connectedObject) ++ "\n\n"]

/-- `addClient`: a new response with its greeting. -/
def EventBus.addClient (bus : EventBus) : EventBus where
  clients := bus.clients ++ [bus.responses.length]
  responses := bus.responses ++ [greeting]
  connected := by
    intro c hc
    rw [List.length_append]
    rcases List.mem_append.1 hc with hc | hc
    · exact Nat.lt_add_right 1 (bus.connected c hc)
    · rw [List.mem_singleton.1 hc]
      exact Nat.lt_succ_self _
  nodup := by
    rw [List.nodup_append]
    refine ⟨bus.nodup, List.nodup_singleton _, fun a ha b hb hab => ?_⟩
    rw [List.mem_singleton.1 hb] at hab
    exact absurd (bus.connected a ha) (hab ▸ Nat.lt_irrefl _)

/-- `clients.indexOf(res)` and `clients.splice(index, 1)` -/
def removeFrom (clients : List ℕ) (client : ℕ) : List ℕ :=
  match clients.idxOf? client with
  | none => clients
  | some index => clients.eraseIdx index

theorem removeFrom_sublist (clients : List ℕ) (client : ℕ) :
    (removeFrom clients client).Sublist clients := by
  unfold removeFrom
  split
  · exact List.Sublist.refl _
  · exact List.eraseIdx_sublist _ _

/-- `removeClient`. -/
def EventBus.removeClient (bus : EventBus) (client : ℕ) : EventBus where
  clients := removeFrom bus.clients client
  responses := bus.responses
  connected := fun c hc => bus.connected c ((removeFrom_sublist bus.clients client).mem hc)
  nodup := (removeFrom_sublist bus.clients client).nodup bus.nodup

/-- What `broadcast` writes to every client. -/
def eventText (e : IslandEvent) : String :=
  "event: " ++ e.type.value ++ "\n" ++ "data: " ++ String.ofList (stringify e.object) ++ "\n\n"

/-- `broadcast`: the event is written to all clients. -/
def EventBus.broadcast (bus : EventBus) (e : IslandEvent) : EventBus where
  clients := bus.clients
  responses := writeAll (eventText e) bus.clients bus.responses
  connected := by
    intro c hc
    rw [length_writeAll]
    exact bus.connected c hc
  nodup := bus.nodup

/-! ## Runs -/

/-- What happens at the bus. -/
inductive Event where
  /-- `GET /events` -/
  | connect
  /-- The handler on the response sees the close. -/
  | responseClose (client : ℕ)
  /-- The handler on the request sees the close. -/
  | requestClose (client : ℕ)
  | broadcast (e : IslandEvent)

/-- The bus after an event. -/
def step (bus : EventBus) : Event → EventBus
  | .connect => bus.addClient
  | .responseClose client => bus.removeClient client
  | .requestClose client => bus.removeClient client
  | .broadcast e => bus.broadcast e

/-- The bus after events. -/
def run (bus : EventBus) (events : List Event) : EventBus := events.foldl step bus

/-! ## The client -/

/-- The bytes of a response are those of its writes. -/
def bytesOf (writes : List String) : ByteArray :=
  writes.foldl (fun bytes text => bytes ++ text.toUTF8) ByteArray.empty

/-- The type and the decoded data of a message. -/
def readMessage (m : EventStream.Message) : Option (String × Value) :=
  (JsonText.parse m.data).map fun v => (String.ofList m.type, v)

/-- What a client reads from a stream. -/
def received (bytes : ByteArray) : Option (List (String × Value)) :=
  (String.fromUTF8? bytes).bind fun text => (EventStream.parse text.toList).mapM readMessage

end Broadcast
