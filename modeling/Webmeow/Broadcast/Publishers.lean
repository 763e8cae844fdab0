import Webmeow.Broadcast.Routes
import Webmeow.Hotel.Server
import Webmeow.Airport.Endpoints
import Webmeow.Lib.JsonDumps
import Mathlib.Data.Rat.Floor

/-!
# The publishers of the hotel and the airport

What `BroadcastService` of the hotel and `BroadcastClient` of the airport post to the broadcast
service. The two bodies differ: the hotel puts its event under `payload`, the airport puts the
message at the top and the guest under `data`. Only the text that Python prints for a float is left
open; numbers keep their literal on the way.
-/

namespace Broadcast

open JsonText

/-- A JSON text that is posted to a path of the broadcast service. -/
structure Post where
  /-- Behind the URL of the service. -/
  path : String
  /-- The body. -/
  text : List Char

/-- The request that the broadcast service receives; the publishers send no passcode. -/
def Post.request (post : Post) : Option Request :=
  (endpointOf post.path).map fun endpoint => ⟨endpoint, none, some post.text⟩

/-! ## The hotel -/

/-- `HotelBroadcastEventType` as it is written. -/
def hotelEventName : Hotel.HotelBroadcastEventType → String
  | .ReservationConfirmed => "hotel.reservation_confirmed"
  | .ReservationCancelled => "hotel.reservation_cancelled"

/-- `getEndpointForEvent`. -/
def getEndpointForEvent : Hotel.HotelBroadcastEventType → String
  | .ReservationConfirmed => "/hotel/confirm"
  | .ReservationCancelled => "/hotel/cancel"

/-- A number without a fraction. -/
def integer (z : Int) : Value := .num (Number.ofInt z)

/-- The object that the hotel posts. -/
def hotelEventObject (event : Hotel.HotelBroadcastEvent) : Value :=
  .obj [property "message" (text event.message),
    property "reservation_id" (text event.reservationId), property "guest_id" (text event.guestId),
    property "party_guest_ids" (.arr (event.partyGuestIds.map text)),
    property "room_type" (text event.roomType.name),
    property "guest_count" (integer event.guestCount),
    property "check_in_day" (integer event.checkInDay),
    property "check_out_day" (integer event.checkOutDay)]

/-- `{ type: eventType, payload: event }` -/
def hotelObject (eventType : Hotel.HotelBroadcastEventType) (event : Hotel.HotelBroadcastEvent) :
    Value :=
  .obj [property "type" (text (hotelEventName eventType)),
    property "payload" (hotelEventObject event)]

/-- The request of `publishHotelEvent`. -/
def hotelPost (eventType : Hotel.HotelBroadcastEventType) (event : Hotel.HotelBroadcastEvent) :
    Post where
  path := getEndpointForEvent eventType
  text := stringify (hotelObject eventType event)

/-- Without a `BROADCAST_SERVICE_URL` nothing is sent. -/
def publishHotelEvent (broadcastServiceUrl : Option String)
    (eventType : Hotel.HotelBroadcastEventType) (event : Hotel.HotelBroadcastEvent) : Option Post :=
  if broadcastServiceUrl.getD "" = "" then none else some (hotelPost eventType event)

/-! ## The airport -/

/-- The nearest integer, and of two equally near ones the even one. -/
def roundHalfEven (q : ℚ) : Int :=
  let rest := q - ⌊q⌋
  if rest < 1 / 2 then ⌊q⌋
  else if 1 / 2 < rest then ⌊q⌋ + 1
  else if ⌊q⌋ % 2 = 0 then ⌊q⌋ else ⌊q⌋ + 1

/-- The format `.0f`, which keeps the sign of what is rounded to zero. -/
def fixed (q : ℚ) : String :=
  if q < 0 then "-" ++ toString (roundHalfEven (-q)) else toString (roundHalfEven q)

/-- `gate.split('-')[0]` -/
def splitHead (gate : String) : String := String.ofList (gate.toList.takeWhile (· ≠ '-'))

/-- The sentence of `publish_event`. -/
def arrivalMessage (result : Airport.Guest) (waitTimeSeconds : ℚ) : String :=
  result.traveller.name ++ " " ++ result.traveller.surname ++ " (ID: " ++
    result.traveller.guestId ++ ") " ++ result.status.name ++ " at " ++
    splitHead result.gate.name ++ " Passport Gate (" ++ result.gate.name ++ "). Passport: " ++
    result.traveller.passportType.name ++ ", Wait: " ++ fixed waitTimeSeconds ++ "s game time"

variable (float : ℚ → Number)

/-- The dictionary that `publish_event` posts. -/
def arrivalObject (result : Airport.Guest) (waitTimeSeconds : ℚ) : Value :=
  .obj [property "channel" (text "resort-wide"),
    property "message" (text (arrivalMessage result waitTimeSeconds)),
    property "sender" (text "airport-service"),
    property "data"
      (.obj [property "guest_id" (text result.traveller.guestId),
        property "name" (text result.traveller.name),
        property "surname" (text result.traveller.surname),
        property "age" (integer result.traveller.age),
        property "passport_type" (text result.traveller.passportType.name),
        property "priority" (text result.traveller.priority.name),
        property "disability" (.bool result.traveller.disability),
        property "status" (text result.status.name), property "gate" (text result.gate.name),
        property "queued_at" (.num (float result.queuedAt)),
        property "processed_at" ((result.processedAt.map fun t => .num (float t)).getD .null),
        property "wait_time_seconds" (.num (float waitTimeSeconds))])]

/-- The request of `publish_event`. -/
def arrivalPost (result : Airport.Guest) (waitTimeSeconds : ℚ) : Post where
  path := "/airport/arrival"
  text := dumps (arrivalObject float result waitTimeSeconds)

/-- `BroadcastClient.publish_event`. Formatting the waiting time of a guest without one raises, and
the exception is dropped. -/
def publishEvent (result : Airport.Guest) : Option Post :=
  result.waitTimeSeconds.map (arrivalPost float result)

end Broadcast
