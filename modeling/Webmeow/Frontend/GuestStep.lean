import Mathlib.Logic.Function.Basic
import Mathlib.Data.Rat.Defs

/-!
# One step of a simulated guest

`machine.ts` and `actions.ts`: the handler of the guest's stage runs an action, which awaits calls of
the backend, and goes on with what the action returns. What a handler has taken from the state of the
guest is kept in its continuation.
-/

namespace Frontend.Traffic

/-- The ids of `syntheticGuests`. -/
def syntheticGuests : List String :=
  ["sim-guest-mango-0001", "sim-guest-coral-0002", "sim-guest-palm-0003", "sim-guest-lagoon-0004",
    "sim-guest-sunny-0005", "sim-guest-breeze-0006", "sim-guest-coconut-0007", "sim-guest-pearl-0008",
    "sim-guest-tide-0009", "sim-guest-dune-0010", "sim-guest-wave-0011", "sim-guest-shell-0012",
    "sim-guest-reef-0013", "sim-guest-cove-0014", "sim-guest-gale-0015", "sim-guest-drift-0016"]

/-- The stages of a simulated guest. -/
inductive SimGuestStage where
  | new
  | arrived
  | hotelBooked
  | beachBooked

/-- The state of a simulated guest, with what each stage has to remember. -/
inductive SimGuestState where
  | new
  | arrived (gate : String)
  | hotelBooked (gate reservationId : String)
  | beachBooked (gate reservationId activityId : String)
deriving DecidableEq

/-- The states of `syntheticGuests`; no other guest is sampled. -/
abbrev GuestStates := String → SimGuestState

/-- The state a stage is seeded with. -/
def seedState : SimGuestStage → SimGuestState
  | .new => .new
  | .arrived => .arrived ""
  | .hotelBooked | .beachBooked => .hotelBooked "" ""

/-- Every guest is new. -/
def createInitialState : GuestStates := fun _ => seedState .new

/-- The settings of `env` that the generator reads. -/
structure Env where
  /-- `VITE_TRAFFIC_GENERATOR` -/
  trafficGeneratorEnabled : Bool
  /-- `VITE_PARROT_TRAFFIC` -/
  parrotTrafficEnabled : Bool
  /-- `VITE_PARROT_CHAT_COOLDOWN_MS` -/
  parrotChatCooldownMs : ℤ

/-! ## Actions -/

/-- The call whose promise an action awaits. -/
inductive Call where
  /-- `postArrival` of `arrive`. -/
  | postArrival
  /-- `getArrivalStatus` of `bookHotel`. -/
  | getArrivalStatus
  /-- `getReservationByGuest` of `bookHotel`, in the `try` block. -/
  | existingReservation
  /-- `postReservation` of `bookHotel`. -/
  | postReservation
  /-- `getReservationByGuest` of `bookHotel`, in the `catch` block. -/
  | recoverReservation
  /-- `postChat` of `askParrot`. -/
  | postChat
  /-- `getReservationByGuest` of `bookRandomActivity`. -/
  | activeReservation
  /-- `checkInVisitor` of `bookRandomActivity`. -/
  | checkInVisitor
  /-- `getActivityByGuest` of `bookRandomActivity`. -/
  | getActivityByGuest
  /-- `getActivities` of `bookRandomActivity`. -/
  | getActivities
  /-- `bookActivity` of `bookRandomActivity`. -/
  | bookActivity (activityId : String)
  /-- `cancelActivity` of `cancelBeachActivity`. -/
  | cancelActivity (activityId : String)
  /-- `cancelReservation` of `cancelHotelReservation`. -/
  | cancelReservation (reservationId : String)
deriving DecidableEq

/-- The status the airport reports for an arrival. -/
inductive ArrivalStatusValue where
  | notStarted
  | queued
  | processing
  | processed
deriving DecidableEq

/-- What a promise settles with, reduced to what the actions read of it. -/
inductive Answer where
  /-- The call throws. -/
  | error
  /-- The gate of the arrival. -/
  | arrival (gate : String)
  /-- The status of the arrival. -/
  | arrivalStatus (status : ArrivalStatusValue)
  /-- The id of the reservation. -/
  | reservation (id : String)
  /-- The id of the active reservation, if there is one. -/
  | reservationByGuest (id : Option String)
  /-- The id of the activity the guest has booked, if there is one. -/
  | activityByGuest (activityId : Option String)
  /-- The activities with their remaining places. -/
  | activities (activities : List (String × ℤ))
  /-- The call succeeds with nothing the step reads. -/
  | ok

/-- An action that awaits a call, or has returned. -/
inductive Action where
  /-- The action awaits a call. -/
  | awaiting (call : Call)
  /-- The action has returned its value. -/
  | returned (value : Option String)
deriving DecidableEq

/-- A string passes an `if` unless it is `null` or empty. -/
def truthy (value : Option String) : Option String := value.filter (· ≠ "")

/-- The guest registers at the airport. -/
def arrive : Action := .awaiting .postArrival

/-- The guest books a room, after asking whether the arrival is processed. -/
def bookHotel : Action := .awaiting .getArrivalStatus

/-- The guest books one of the activities that have places left. -/
def bookRandomActivity : Action := .awaiting .activeReservation

/-- The guest cancels the activity. -/
def cancelBeachActivity (activityId : String) : Action := .awaiting (.cancelActivity activityId)

/-- The guest cancels the reservation. -/
def cancelHotelReservation (reservationId : String) : Action :=
  .awaiting (.cancelReservation reservationId)

/-- The action, and the time of the last chat. -/
def askParrot (env : Env) (lastParrotChatAt now : ℤ) : Action × ℤ :=
  if env.parrotTrafficEnabled = false then (.returned none, lastParrotChatAt)
  else if now - lastParrotChatAt < env.parrotChatCooldownMs then (.returned none, lastParrotChatAt)
  else (.awaiting .postChat, now)

/-- The action after the answer to the awaited call, up to its next call or its end; `sample` is the
index that `sample` draws. -/
def Call.settle (sample : ℕ) : Call → Answer → Option Action
  | .postArrival, .arrival gate => some (.returned (some gate))
  | .postArrival, .error => some (.returned none)
  | .getArrivalStatus, .arrivalStatus status =>
    some (if status ≠ .processed then .returned none else .awaiting .existingReservation)
  | .existingReservation, .reservationByGuest (some id) => some (.returned (some id))
  | .existingReservation, .reservationByGuest none => some (.awaiting .postReservation)
  | .postReservation, .reservation id => some (.returned (some id))
  | .getArrivalStatus, .error | .existingReservation, .error | .postReservation, .error =>
    some (.awaiting .recoverReservation)
  | .recoverReservation, .reservationByGuest id => some (.returned id)
  | .recoverReservation, .error => some (.returned none)
  | .postChat, .ok | .postChat, .error => some (.returned none)
  | .activeReservation, .reservationByGuest none => some (.returned none)
  | .activeReservation, .reservationByGuest (some _) => some (.awaiting .checkInVisitor)
  | .checkInVisitor, .ok => some (.awaiting .getActivityByGuest)
  | .getActivityByGuest, .activityByGuest activityId =>
    some (match truthy activityId with
      | some id => .returned (some id)
      | none => .awaiting .getActivities)
  | .getActivities, .activities activities =>
    let available := activities.filter fun a => 0 < a.2
    if available.length = 0 then some (.returned none)
    else available[sample]?.map fun activity => .awaiting (.bookActivity activity.1)
  | .bookActivity activityId, .ok => some (.returned (some activityId))
  | .activeReservation, .error | .checkInVisitor, .error | .getActivityByGuest, .error
  | .getActivities, .error | .bookActivity _, .error => some (.returned none)
  | .cancelActivity _, .ok | .cancelActivity _, .error => some (.returned none)
  | .cancelReservation _, .ok | .cancelReservation _, .error => some (.returned none)
  | _, _ => none

/-! ## Handlers -/

/-- What a handler does after the action that it awaits, with what it needs of the guest's state. -/
inductive Continuation where
  /-- The guest becomes `arrived`. -/
  | afterArrive
  /-- The guest becomes `hotelBooked`. -/
  | afterBookHotel (gate : String)
  /-- Nothing changes. -/
  | afterAskParrot
  /-- The guest becomes `beachBooked`. -/
  | afterBookRandomActivity (gate reservationId : String)
  /-- After the activity of a guest whose reservation is cancelled too. -/
  | beforeCancelHotel (reservationId : String)
  /-- The guest becomes `new`. -/
  | afterCancelHotel (reservationId : String)
  /-- The guest becomes `hotelBooked` again. -/
  | afterCancelBeach (gate reservationId : String)
deriving DecidableEq

/-- A handler awaits an action, or ends and may have set a new state of the guest. -/
inductive HandlerStep where
  /-- An action is started, and what follows it is known. -/
  | await (next : Continuation) (action : Action)
  /-- The handler ends, with the state it sets. -/
  | finish (setState : Option SimGuestState)
deriving DecidableEq

/-- A new guest arrives. -/
def handleNew : HandlerStep := .await .afterArrive arrive

/-- `random` is the outcome of `Math.random`. -/
def handleArrived (env : Env) (lastParrotChatAt now : ℤ) (random : ℚ) (gate : String) :
    HandlerStep × ℤ :=
  if random < 4 / 5 then (.await (.afterBookHotel gate) bookHotel, lastParrotChatAt)
  else
    let q := askParrot env lastParrotChatAt now
    (.await .afterAskParrot q.1, q.2)

/-- A guest with a room books an activity, asks the parrot or does nothing. -/
def handleHotelBooked (env : Env) (lastParrotChatAt now : ℤ) (random : ℚ)
    (gate reservationId : String) : HandlerStep × ℤ :=
  if random < 1 / 4 then
    (.await (.afterBookRandomActivity gate reservationId) bookRandomActivity, lastParrotChatAt)
  else if random < 13 / 20 then
    let q := askParrot env lastParrotChatAt now
    (.await .afterAskParrot q.1, q.2)
  else (.finish none, lastParrotChatAt)

/-- A guest with an activity cancels both bookings or the activity alone, asks the parrot or does
nothing. -/
def handleBeachBooked (env : Env) (lastParrotChatAt now : ℤ) (random : ℚ)
    (gate reservationId activityId : String) : HandlerStep × ℤ :=
  if random < 1 / 10 then
    (.await (.beforeCancelHotel reservationId) (cancelBeachActivity activityId), lastParrotChatAt)
  else if random < 1 / 4 then
    (.await (.afterCancelBeach gate reservationId) (cancelBeachActivity activityId),
      lastParrotChatAt)
  else if random < 9 / 20 then
    let q := askParrot env lastParrotChatAt now
    (.await .afterAskParrot q.1, q.2)
  else (.finish none, lastParrotChatAt)

/-- `STAGE_HANDLERS`: the handler of the stage, up to its first `await`. -/
def stageHandler (env : Env) (lastParrotChatAt now : ℤ) (random : ℚ) :
    SimGuestState → HandlerStep × ℤ
  | .new => (handleNew, lastParrotChatAt)
  | .arrived gate => handleArrived env lastParrotChatAt now random gate
  | .hotelBooked gate reservationId =>
    handleHotelBooked env lastParrotChatAt now random gate reservationId
  | .beachBooked gate reservationId activityId =>
    handleBeachBooked env lastParrotChatAt now random gate reservationId activityId

/-- The handler goes on with the value that the action has returned. -/
def Continuation.resume (value : Option String) : Continuation → HandlerStep
  | .afterArrive => .finish ((truthy value).map fun gate => .arrived gate)
  | .afterBookHotel gate =>
    .finish ((truthy value).map fun reservationId => .hotelBooked gate reservationId)
  | .afterAskParrot => .finish none
  | .afterBookRandomActivity gate reservationId =>
    .finish ((truthy value).map fun activityId => .beachBooked gate reservationId activityId)
  | .beforeCancelHotel reservationId =>
    .await (.afterCancelHotel reservationId) (cancelHotelReservation reservationId)
  | .afterCancelHotel _ => .finish (some .new)
  | .afterCancelBeach gate reservationId => .finish (some (.hotelBooked gate reservationId))

end Frontend.Traffic
