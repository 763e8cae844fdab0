import Mathlib.Logic.Function.Basic
import Webmeow.Frontend.NormalizeEvent

/-!
# The event store of the frontend

`events-store.ts`: the last events of each channel, newest first, and how many there have been. The ids
that `crypto.randomUUID` generates are an argument of the call, one for each channel.
-/

namespace Frontend

/-- How many events a channel keeps. -/
def MAX_EVENTS : ℕ := 100

/-- The type of an event that every channel shows. -/
def RESORT_ANNOUNCEMENT_TYPE : List UInt16 := Utf16.ofString "resort.announcement"

/-- `Object.values(ChannelId)` -/
def channelIds : List ChannelId := [.Airport, .Hotel, .Beach, .Parrot, .Broadcast, .ResortWide]

/-- The state of the events store. -/
structure EventsState where
  /-- The events of each channel, newest first. -/
  events : ChannelId → List BroadcastEvent
  /-- How many events each channel was given. -/
  activityTick : ChannelId → ℕ

/-- No channel has an event. -/
def createEmptyChannelEvents : ChannelId → List BroadcastEvent := fun _ => []

/-- Every tick is at zero. -/
def createEmptyActivityTicks : ChannelId → ℕ := fun _ => 0

/-- The store as it is created. -/
def EventsState.initial : EventsState := ⟨createEmptyChannelEvents, createEmptyActivityTicks⟩

/-- The event in front of the others, of which only the newest stay. -/
def prependEvent (events : List BroadcastEvent) (event : BroadcastEvent) : List BroadcastEvent :=
  let next := event :: events
  if MAX_EVENTS < next.length then next.take MAX_EVENTS else next

/-- One event goes to one channel; both read the state before the call. -/
def EventsState.put (next state : EventsState) (channel : ChannelId) (event : BroadcastEvent) :
    EventsState where
  events := Function.update next.events channel (prependEvent (state.events channel) event)
  activityTick := Function.update next.activityTick channel (state.activityTick channel + 1)

/-- The event goes to its own channel and, if mirrored, to the resort-wide one; an announcement of
the resort goes to all. -/
def EventsState.ingestEvent (state : EventsState) (event : BroadcastEvent)
    (mirrorToResortWide : Bool) (randomUUID : ChannelId → List UInt16) : EventsState :=
  if event.eventType = RESORT_ANNOUNCEMENT_TYPE then
    channelIds.foldl (fun next channel =>
      let channelEvent : BroadcastEvent :=
        { event with
          id := if channel = event.channel then event.id else randomUUID channel
          channel := channel }
      next.put state channel channelEvent) state
  else
    let next := state.put state event.channel event
    if mirrorToResortWide = true ∧ event.channel ≠ .ResortWide then
      let mirroredEvent : BroadcastEvent :=
        { event with id := randomUUID .ResortWide, channel := .ResortWide }
      next.put state .ResortWide mirroredEvent
    else next

/-- The channel loses its events and keeps its tick. -/
def EventsState.clearEvents (state : EventsState) (channel : ChannelId) : EventsState :=
  { state with events := Function.update state.events channel [] }

/-- A call of the store. -/
inductive StoreCall where
  | ingestEvent (event : BroadcastEvent) (mirrorToResortWide : Bool)
      (randomUUID : ChannelId → List UInt16)
  | clearEvents (channel : ChannelId)

/-- The store after one call. -/
def EventsState.call (state : EventsState) : StoreCall → EventsState
  | .ingestEvent event mirror uuid => state.ingestEvent event mirror uuid
  | .clearEvents channel => state.clearEvents channel

/-- The store after some calls. -/
def EventsState.after (calls : List StoreCall) : EventsState :=
  calls.foldl EventsState.call EventsState.initial

end Frontend
