import Webmeow.Broadcast.Publishers
import Webmeow.Frontend.NormalizeEvent

/-!
# Service events reach the frontend intact

The object of an event has no `channel`, so the schema never accepts it, and `normalizeIslandEvent`
reads it as an `IslandEvent`. For what the hotel and the airport post the places it searches are
those where they put the message and the guest.
-/

namespace Frontend

open JsonText Broadcast

/-! ## The object of an event -/

@[simp] theorem get_id (e : PostedEvent) : e.object.get "id" = some (.str e.id) := by
  obtain ⟨_, _, _, source, _⟩ := e
  cases source with
  | none => rfl
  | some source => rfl

@[simp] theorem get_type (e : PostedEvent) : e.object.get "type" = some (text e.type.value) := by
  obtain ⟨_, _, _, source, _⟩ := e
  cases source with
  | none => rfl
  | some source => rfl

@[simp] theorem get_source (e : PostedEvent) : e.object.get "source" = e.source := by
  obtain ⟨_, _, _, source, _⟩ := e
  cases source with
  | none => rfl
  | some source => rfl

@[simp] theorem get_channel (e : PostedEvent) : e.object.get "channel" = none := by
  obtain ⟨_, _, _, source, _⟩ := e
  cases source with
  | none => rfl
  | some source => rfl

/-- The schema does not accept the object of an event. -/
theorem safeParse_object (e : PostedEvent) : safeParse e.object = none := by
  rw [safeParse, get_id, get_channel]
  rfl

/-- Every event of the broadcast service is read as an `IslandEvent`. -/
theorem handleMessage_object (e : PostedEvent) :
    handleMessage (stringify e.object) =
      some (islandEvent e.object e.id (Utf16.ofString e.type.value)) := by
  have hrecord : asRecord (some e.object) = e.object := rfl
  rw [handleMessage, parse_stringify, Option.bind_some, normalizeIslandEvent, safeParse_object]
  simp only [hrecord, get_id, get_type]
  rfl

/-- The channel of an island event is read off its source. -/
theorem islandEvent_channel (event : Value) (id type : List UInt16) :
    (islandEvent event id type).channel = channelFromSource (event.get "source") := rfl

/-! ## The places of the message and the guest -/

section Places

variable (type : EventType) (source : String) (stamp : Stamp) (body : Value)

/-- What is read from an event of a service. -/
def readService : BroadcastEvent :=
  islandEvent (serviceEvent type source stamp body).object stamp.id (Utf16.ofString type.value)

/-- The hotel's way: both are found under `payload`. -/
theorem read_nested (hrecord : asRecord (some body) = body)
    {nested : List (List UInt16 × Value)} {message guestId : List UInt16}
    (hpayload : body.get "payload" = some (.obj nested))
    (hmessage : (Value.obj nested).get "message" = some (.str message))
    (hguest : (Value.obj nested).get "guest_id" = some (.str guestId)) :
    (readService type source stamp body).message = message ∧
      (readService type source stamp body).guestId = some guestId := by
  have hbody : asRecord ((asRecord
      ((serviceEvent type source stamp body).object.get "payload")).get "body") = body := hrecord
  have hnested : asRecord (body.get "payload") = .obj nested := by rw [hpayload]; rfl
  simp only [readService, islandEvent, hbody, hnested, hmessage, hguest, stringOf]
  exact ⟨trivial, trivial⟩

/-- The airport's way: the message is found in the body and the guest under `data`. -/
theorem read_direct (hrecord : asRecord (some body) = body)
    {data : List (List UInt16 × Value)} {message guestId : List UInt16}
    (hpayload : body.get "payload" = none) (hmessage : body.get "message" = some (.str message))
    (hdata : body.get "data" = some (.obj data))
    (hguest : (Value.obj data).get "guest_id" = some (.str guestId)) :
    (readService type source stamp body).message = message ∧
      (readService type source stamp body).guestId = some guestId := by
  have hbody : asRecord ((asRecord
      ((serviceEvent type source stamp body).object.get "payload")).get "body") = body := hrecord
  have hnested : asRecord (body.get "payload") = .obj [] := by rw [hpayload]; rfl
  have hempty : ∀ name, (Value.obj []).get name = none := fun _ => rfl
  have hkeys : hasKeys (.obj []) = false := rfl
  have hdirect : asRecord (body.get "data") = .obj data := by rw [hdata]; rfl
  simp only [readService, islandEvent, hbody, hnested, hempty, hkeys, hdirect, hmessage, hguest,
    stringOf, Bool.false_eq_true, if_false]
  exact ⟨trivial, trivial⟩

end Places

/-! ## From a post to the store -/

/-- What the frontend makes of a post: the broadcast service serves it and stringifies the event,
and the frontend handles the text. -/
def deliver (env : Env) (stamp : Stamp) (post : Post) : Option BroadcastEvent :=
  post.request.bind fun r =>
    (serve env r stamp).event.bind fun e => handleMessage (stringify e.object)

/-- An object or an array within the limit is read as it was written. -/
theorem readBody_record {limit : ℕ} {t : List Char} {body : Value}
    (h : JsonText.parse t = some body) (hrecord : asRecord (some body) = body)
    (hsize : bodySize t ≤ limit) : readBody limit (some t) = some body := by
  cases t with
  | nil => cases h
  | cons c cs =>
    rw [readBody, if_neg (not_lt.2 hsize), h]
    · cases body with
      | null => cases hrecord
      | bool b => cases hrecord
      | num n => cases hrecord
      | str s => cases hrecord
      | arr items => rfl
      | obj members => rfl
    · exact List.cons_ne_nil c cs

/-- A post to the endpoint of a service. -/
theorem deliver_service {post : Post} {endpoint : Endpoint} {type : EventType} {source : String}
    {body : Value} (env : Env) (stamp : Stamp) (hpath : endpointOf post.path = some endpoint)
    (htext : JsonText.parse post.text = some body) (hrecord : asRecord (some body) = body)
    (hsize : bodySize post.text ≤ env.bodyLimit)
    (hhandle : ∀ passcode body stamp v, handle env ⟨endpoint, passcode, body⟩ stamp v =
      .broadcast (serviceEvent type source stamp v).posted) :
    deliver env stamp post = some (readService type source stamp body) := by
  have hserve : serve env ⟨endpoint, none, some post.text⟩ stamp =
      .broadcast (serviceEvent type source stamp body).posted := by
    rw [serve, readBody_record htext hrecord hsize]
    exact hhandle none (some post.text) stamp body
  rw [deliver, Post.request, hpath, Option.map_some, Option.bind_some, hserve]
  exact handleMessage_object _

/-- The event is on the channel and has the type, the message and the guest. -/
structure Intact (e : BroadcastEvent) (channel : ChannelId) (type : EventType)
    (message guestId : String) : Prop where
  /-- The channel is the one of the service. -/
  channel : e.channel = channel
  /-- The type is the one of the endpoint. -/
  type : e.eventType = Utf16.ofString type.value
  /-- The message is the one that was sent. -/
  message : e.message = Utf16.ofString message
  /-- The guest is the one that was sent. -/
  guestId : e.guestId = some (Utf16.ofString guestId)

/-- The endpoint of each event of the hotel. -/
def hotelEndpoint : Hotel.HotelBroadcastEventType → Endpoint
  | .ReservationConfirmed => .hotelConfirm
  | .ReservationCancelled => .hotelCancel

/-- The event type of the endpoint. -/
def hotelEventType : Hotel.HotelBroadcastEventType → EventType
  | .ReservationConfirmed => .hotelConfirm
  | .ReservationCancelled => .hotelCancel

/-- The URL the hotel posts to is that endpoint. -/
theorem endpointOf_hotel (eventType : Hotel.HotelBroadcastEventType) :
    endpointOf (getEndpointForEvent eventType) = some (hotelEndpoint eventType) := by
  cases eventType with
  | ReservationConfirmed => decide
  | ReservationCancelled => decide

/-- How the service handles an event of the hotel. -/
theorem handle_hotel (env : Env) (eventType : Hotel.HotelBroadcastEventType)
    (passcode : Option String) (body : Option (List Char)) (stamp : Stamp) (v : Value) :
    handle env ⟨hotelEndpoint eventType, passcode, body⟩ stamp v =
      .broadcast (serviceEvent (hotelEventType eventType) "hotel" stamp v).posted := by
  cases eventType with
  | ReservationConfirmed => rfl
  | ReservationCancelled => rfl

/-- An event of the hotel is delivered intact. -/
theorem hotel_delivered (env : Env) (stamp : Stamp) (eventType : Hotel.HotelBroadcastEventType)
    (event : Hotel.HotelBroadcastEvent)
    (hsize : bodySize (hotelPost eventType event).text ≤ env.bodyLimit) :
    ∃ e, deliver env stamp (hotelPost eventType event) = some e ∧
      Intact e .Hotel (hotelEventType eventType) event.message event.guestId := by
  have hrecord : asRecord (some (hotelObject eventType event)) = hotelObject eventType event := rfl
  have hdeliver : deliver env stamp (hotelPost eventType event) = _ :=
    deliver_service env stamp (endpointOf_hotel eventType) (parse_stringify _) hrecord hsize
      (handle_hotel env eventType)
  obtain ⟨hmessage, hguest⟩ := read_nested (hotelEventType eventType) "hotel" stamp
    (hotelObject eventType event) hrecord rfl rfl rfl
  exact ⟨_, hdeliver, rfl, rfl, hmessage, hguest⟩

/-- An arrival is delivered intact. -/
theorem airport_delivered (float : ℚ → Number) (env : Env) (stamp : Stamp) (result : Airport.Guest)
    (waitTimeSeconds : ℚ)
    (hsize : bodySize (arrivalPost float result waitTimeSeconds).text ≤ env.bodyLimit) :
    ∃ e, deliver env stamp (arrivalPost float result waitTimeSeconds) = some e ∧
      Intact e .Airport .airportArrival (arrivalMessage result waitTimeSeconds)
        result.traveller.guestId := by
  have hpath : endpointOf "/airport/arrival" = some .airportArrival := by decide
  have hrecord : asRecord (some (arrivalObject float result waitTimeSeconds)) =
      arrivalObject float result waitTimeSeconds := rfl
  have hdeliver : deliver env stamp (arrivalPost float result waitTimeSeconds) = _ :=
    deliver_service env stamp hpath (parse_dumps _) hrecord hsize fun _ _ _ _ => rfl
  obtain ⟨hmessage, hguest⟩ := read_direct .airportArrival "airport" stamp
    (arrivalObject float result waitTimeSeconds) hrecord rfl rfl rfl rfl
  exact ⟨_, hdeliver, rfl, rfl, hmessage, hguest⟩

/-- **Service events reach the frontend intact**: for every event that the hotel posts and every
guest that a gate of the airport has processed, as far as the text is not larger than `express.json`
of the broadcast service allows. -/
theorem service_events_intact (float : ℚ → Number) (env : Env) (stamp : Stamp) :
    (∀ eventType event, bodySize (hotelPost eventType event).text ≤ env.bodyLimit →
      ∃ e, deliver env stamp (hotelPost eventType event) = some e ∧
        Intact e .Hotel (hotelEventType eventType) event.message event.guestId) ∧
    ∀ (guest : Airport.Guest) (now : ℚ), ∃ post,
      publishEvent float (guest.finish now) = some post ∧
        (bodySize post.text ≤ env.bodyLimit → ∃ e, deliver env stamp post = some e ∧
          Intact e .Airport .airportArrival
            (arrivalMessage (guest.finish now) (now - guest.queuedAt)) guest.traveller.guestId) :=
  ⟨fun eventType event hsize => hotel_delivered env stamp eventType event hsize, fun guest now =>
    ⟨_, rfl, fun hsize =>
      airport_delivered float env stamp (guest.finish now) (now - guest.queuedAt) hsize⟩⟩

/-- A confirmation for a couple, in a text far below the limit of 100 kB. -/
def coupleConfirmed : Hotel.HotelBroadcastEvent where
  message := "Hotel reservation confirmed."
  reservationId := "a"
  guestId := "mango-miles"
  partyGuestIds := ["kiki-smith", "mango-miles"]
  roomType := .SUITE
  guestCount := 2
  checkInDay := 1
  checkOutDay := 3

/-- A confirmation for two guests is small enough and arrives intact. -/
theorem coupleConfirmed_intact :
    bodySize (hotelPost .ReservationConfirmed coupleConfirmed).text ≤ 102400 ∧
      ∃ e, deliver ⟨none, none, 102400⟩ ⟨[], []⟩ (hotelPost .ReservationConfirmed coupleConfirmed) =
          some e ∧
        Intact e .Hotel .hotelConfirm "Hotel reservation confirmed." "mango-miles" := by
  have hsize : bodySize (hotelPost .ReservationConfirmed coupleConfirmed).text ≤ 102400 := by
    decide +kernel
  exact ⟨hsize, (service_events_intact (fun q => Number.ofInt q.floor) ⟨none, none, 102400⟩
    ⟨[], []⟩).1 .ReservationConfirmed coupleConfirmed hsize⟩

end Frontend
