import Webmeow.Lib.JsonText

/-!
# Broadcast events of the frontend

`normalizeIslandEvent` of `use-broadcast.ts` with the schema of `types/broadcast.ts`. A message is
first read by the schema, which wants a `channel`, and else as an `IslandEvent` of the broadcast
service, of which it searches several places.
-/

namespace Frontend

open JsonText

/-- The channels of the event feed. -/
inductive ChannelId where
  | Airport
  | Hotel
  | Beach
  | Parrot
  | Broadcast
  | ResortWide
deriving DecidableEq

/-- The id of the channel in the source. -/
def ChannelId.value : ChannelId → String
  | .Airport => "airport"
  | .Hotel => "hotel"
  | .Beach => "beach"
  | .Parrot => "parrot"
  | .Broadcast => "broadcast"
  | .ResortWide => "resort-wide"

/-- An event as the store of the browser keeps it. -/
structure BroadcastEvent where
  /-- The id of the event, in UTF-16 code units as the other texts. -/
  id : List UInt16
  /-- The channel that shows it. -/
  channel : ChannelId
  /-- The type of the event. -/
  eventType : List UInt16
  /-- The text that is shown. -/
  message : List UInt16
  /-- Who sent it. -/
  sender : List UInt16
  /-- The guest it is about, if any. -/
  guestId : Option (List UInt16)
  /-- The name of that guest, if given. -/
  guestName : Option (List UInt16)
  /-- The data that came with it, if any. -/
  data : Option Value

/-! ## `BroadcastEventSchema` -/

/-- `z.enum(ChannelId)` -/
def channelOf (s : List UInt16) : Option ChannelId :=
  [ChannelId.Airport, .Hotel, .Beach, .Parrot, .Broadcast, .ResortWide].find? fun c =>
    Utf16.ofString c.value = s

/-- `z.string().optional()` -/
def optionalString : Option Value → Option (Option (List UInt16))
  | none => some none
  | some (.str s) => some (some s)
  | some _ => none

/-- `z.record(z.string(), z.unknown()).optional()` -/
def optionalRecord : Option Value → Option (Option Value)
  | none => some none
  | some (.obj members) => some (some (.obj members))
  | some _ => none

/-- `BroadcastEventSchema.safeParse`; an array has none of the properties. -/
def safeParse (raw : Value) : Option BroadcastEvent := do
  let id ← stringOf (raw.get "id")
  let channel ← (stringOf (raw.get "channel")).bind channelOf
  let eventType ← stringOf (raw.get "event_type")
  let message ← stringOf (raw.get "message")
  let sender ← stringOf (raw.get "sender")
  let guestId ← optionalString (raw.get "guest_id")
  let guestName ← optionalString (raw.get "guest_name")
  let data ← optionalRecord (raw.get "data")
  some ⟨id, channel, eventType, message, sender, guestId, guestName, data⟩

/-! ## `normalizeIslandEvent` -/

/-- An object or an array stays, anything else reads as an empty object. -/
def asRecord : Option Value → Value
  | some (.obj members) => .obj members
  | some (.arr items) => .arr items
  | _ => .obj []

/-- `Object.keys(record).length > 0` -/
def hasKeys : Value → Bool
  | .obj members => !members.isEmpty
  | .arr items => !items.isEmpty
  | _ => false

/-- The channel of the service that is named as the source, else the resort-wide one. -/
def channelFromSource (source : Option Value) : ChannelId :=
  match stringOf source with
  | none => .ResortWide
  | some s =>
    if s = Utf16.ofString "airport" then .Airport
    else if s = Utf16.ofString "hotel" then .Hotel
    else if s = Utf16.ofString "beach" then .Beach
    else if s = Utf16.ofString "parrot" then .Parrot
    else if s = Utf16.ofString "broadcast" then .Broadcast
    else .ResortWide

/-- The event that is read from an object with this id and type. -/
def islandEvent (event : Value) (id type : List UInt16) : BroadcastEvent :=
  let payload := asRecord (event.get "payload")
  let body := asRecord (payload.get "body")
  let nestedPayload := asRecord (body.get "payload")
  let directPayload := if hasKeys nestedPayload then nestedPayload else asRecord (body.get "data")
  { id := id
    channel := channelFromSource (event.get "source")
    eventType := type
    message :=
      match stringOf (nestedPayload.get "message") with
      | some message => message
      | none =>
        match stringOf (body.get "message") with
        | some message => message
        | none => (stringOf (payload.get "message")).getD type
    sender :=
      match stringOf (payload.get "sender") with
      | some sender => sender
      | none => (stringOf (event.get "source")).getD (Utf16.ofString "broadcast")
    guestId :=
      match stringOf (nestedPayload.get "guest_id") with
      | some guestId => some guestId
      | none => stringOf (directPayload.get "guest_id")
    guestName := none
    data :=
      some (.obj (((event.get "timestamp").map fun t => (Utf16.ofString "timestamp", t)).toList ++
        [(Utf16.ofString "payload", payload)])) }

/-- The event of the store for a value read from the stream, if it is an event at all. -/
def normalizeIslandEvent (raw : Value) : Option BroadcastEvent :=
  match safeParse raw with
  | some event => some event
  | none =>
    let event := asRecord (some raw)
    match stringOf (event.get "id"), stringOf (event.get "type") with
    | some id, some type => some (islandEvent event id type)
    | _, _ => none

/-- What `handleMessage` gives the store for the data of a message. -/
def handleMessage (data : List Char) : Option BroadcastEvent :=
  (JsonText.parse data).bind normalizeIslandEvent

end Frontend
