import Mathlib.Data.List.DropRight
import Mathlib.Order.Basic
import Webmeow.Frontend.EventsStore

/-!
# What a channel shows

A call delivers at most one copy of its event to a channel. A channel shows the last copies that were
delivered to it since it was cleared, and its activity counts all copies there have ever been.
-/

namespace Frontend

/-! ## Deliveries -/

/-- The copy of an event that a channel gets. -/
def BroadcastEvent.copyFor (event : BroadcastEvent) (randomUUID : ChannelId → List UInt16)
    (channel : ChannelId) : BroadcastEvent :=
  { event with
    id := if channel = event.channel then event.id else randomUUID channel
    channel := channel }

/-- An announcement is for every channel, any other event for its own one, and for the one of the
whole resort if it is mirrored. -/
def BroadcastEvent.isFor (event : BroadcastEvent) (mirrorToResortWide : Bool) (channel : ChannelId) :
    Prop :=
  event.eventType = RESORT_ANNOUNCEMENT_TYPE ∨ channel = event.channel ∨
    mirrorToResortWide = true ∧ channel = .ResortWide

instance (event : BroadcastEvent) (mirror : Bool) (channel : ChannelId) :
    Decidable (event.isFor mirror channel) :=
  inferInstanceAs (Decidable (_ ∨ _ ∨ _ ∧ _))

/-- What a call delivers to a channel. -/
def StoreCall.delivered (channel : ChannelId) : StoreCall → Option BroadcastEvent
  | .ingestEvent event mirror uuid =>
    if event.isFor mirror channel then some (event.copyFor uuid channel) else none
  | .clearEvents _ => none

/-- Whether the call clears the channel. -/
def StoreCall.clears (channel : ChannelId) : StoreCall → Bool
  | .ingestEvent _ _ _ => false
  | .clearEvents c => c = channel

/-- The deliveries to a channel, in order. -/
def deliveries (channel : ChannelId) (calls : List StoreCall) : List BroadcastEvent :=
  calls.filterMap (StoreCall.delivered channel)

/-- The calls after the last one that clears the channel. -/
def sinceClear (channel : ChannelId) (calls : List StoreCall) : List StoreCall :=
  calls.rtakeWhile fun c => !c.clears channel

/-! ## One call -/

/-- `prependEvent` keeps the newest events. -/
theorem prependEvent_eq_take (events : List BroadcastEvent) (event : BroadcastEvent) :
    prependEvent events event = (event :: events).take MAX_EVENTS := by
  unfold prependEvent
  simp only
  split_ifs with h
  · rfl
  · rw [List.take_of_length_le (not_lt.1 h)]

/-- Prepending to the last deliveries gives the last deliveries. -/
theorem prependEvent_take (events : List BroadcastEvent) (event : BroadcastEvent) :
    prependEvent (events.take MAX_EVENTS) event = (event :: events).take MAX_EVENTS := by
  rw [prependEvent_eq_take, MAX_EVENTS, List.take_succ_cons, List.take_succ_cons, List.take_take]
  rfl

/-- The copy for an event's own channel is the event. -/
theorem copyFor_own (event : BroadcastEvent) (uuid : ChannelId → List UInt16) :
    event.copyFor uuid event.channel = event := by
  simp [BroadcastEvent.copyFor]

/-- A channel that gets a copy shows it first. -/
def Delivers (state next : EventsState) (channel : ChannelId) : Option BroadcastEvent → Prop
  | none => next.events channel = state.events channel ∧
      next.activityTick channel = state.activityTick channel
  | some event => next.events channel = prependEvent (state.events channel) event ∧
      next.activityTick channel = state.activityTick channel + 1

theorem put_self (next state : EventsState) (channel : ChannelId) (event : BroadcastEvent) :
    Delivers state (next.put state channel event) channel (some event) :=
  ⟨Function.update_self .., Function.update_self ..⟩

/-- `put` leaves the other channels alone. -/
theorem put_other {next state : EventsState} {channel c : ChannelId} (hne : c ≠ channel)
    (event : BroadcastEvent) {copy : Option BroadcastEvent} (h : Delivers state next c copy) :
    Delivers state (next.put state channel event) c copy := by
  have hevents : (next.put state channel event).events c = next.events c :=
    Function.update_of_ne hne ..
  have htick : (next.put state channel event).activityTick c = next.activityTick c :=
    Function.update_of_ne hne ..
  cases copy with
  | none => exact ⟨hevents.trans h.1, htick.trans h.2⟩
  | some copy => exact ⟨hevents.trans h.1, htick.trans h.2⟩

/-- The loop over the channels gives each of them its copy. -/
theorem foldl_put (state : EventsState) (copy : ChannelId → BroadcastEvent) (cs : List ChannelId)
    {c : ChannelId} (hc : c ∈ cs) (next : EventsState) :
    Delivers state (cs.foldl (fun next channel => next.put state channel (copy channel)) next) c
      (some (copy c)) := by
  induction cs using List.reverseRecOn generalizing next with
  | nil => cases hc
  | append_singleton cs channel ih =>
    rw [List.foldl_append, List.foldl_cons, List.foldl_nil]
    by_cases he : c = channel
    · rw [he]
      exact put_self _ state channel _
    · have hin : c ∈ cs := by
        rcases List.mem_append.1 hc with h | h
        · exact h
        · exact absurd (List.mem_singleton.1 h) he
      exact put_other he _ (ih hin next)

theorem mem_channelIds (c : ChannelId) : c ∈ channelIds := by
  cases c <;> decide

theorem delivers_refl (state : EventsState) (c : ChannelId) : Delivers state state c none :=
  ⟨rfl, rfl⟩

/-- A channel the event is for is delivered its copy. -/
theorem delivered_of_isFor {event : BroadcastEvent} {mirror : Bool} {c : ChannelId}
    (h : event.isFor mirror c) (uuid : ChannelId → List UInt16) :
    (StoreCall.ingestEvent event mirror uuid).delivered c = some (event.copyFor uuid c) := if_pos h

/-- A channel the event is not for is delivered nothing. -/
theorem delivered_of_not_isFor {event : BroadcastEvent} {mirror : Bool} {c : ChannelId}
    (h : ¬event.isFor mirror c) (uuid : ChannelId → List UInt16) :
    (StoreCall.ingestEvent event mirror uuid).delivered c = none := if_neg h

/-- A call gives each channel what it delivers to it. -/
theorem ingestEvent_delivers (state : EventsState) (event : BroadcastEvent) (mirror : Bool)
    (uuid : ChannelId → List UInt16) (c : ChannelId) :
    Delivers state (state.ingestEvent event mirror uuid) c
      ((StoreCall.ingestEvent event mirror uuid).delivered c) := by
  unfold EventsState.ingestEvent
  by_cases htype : event.eventType = RESORT_ANNOUNCEMENT_TYPE
  · rw [if_pos htype, delivered_of_isFor (Or.inl htype)]
    exact foldl_put state (event.copyFor uuid) channelIds (mem_channelIds c) state
  · rw [if_neg htype]
    have howned : Delivers state (state.put state event.channel event) event.channel (some event) :=
      put_self state state event.channel event
    by_cases hown : c = event.channel
    · subst hown
      rw [delivered_of_isFor (Or.inr (Or.inl rfl)), copyFor_own]
      simp only
      split_ifs with hmirror
      · exact put_other hmirror.2 _ howned
      · exact howned
    · have hothers : Delivers state (state.put state event.channel event) c none :=
        put_other hown event (delivers_refl state c)
      simp only
      split_ifs with hmirror
      · obtain ⟨htrue, hchannel⟩ := hmirror
        by_cases hresort : c = .ResortWide
        · subst hresort
          rw [delivered_of_isFor (Or.inr (Or.inr ⟨htrue, rfl⟩)), BroadcastEvent.copyFor,
            if_neg hown]
          exact put_self ..
        · rw [delivered_of_not_isFor]
          · exact put_other hresort _ hothers
          · rintro (h | h | ⟨-, h⟩)
            · exact htype h
            · exact hown h
            · exact hresort h
      · rw [delivered_of_not_isFor]
        · exact hothers
        · rintro (h | h | ⟨htrue, rfl⟩)
          · exact htype h
          · exact hown h
          · exact hmirror ⟨htrue, fun h => hown h.symm⟩

/-! ## Sequences of calls -/

theorem after_concat (calls : List StoreCall) (call : StoreCall) :
    EventsState.after (calls ++ [call]) = (EventsState.after calls).call call :=
  List.foldl_concat ..

theorem deliveries_concat (c : ChannelId) (calls : List StoreCall) (call : StoreCall) :
    deliveries c (calls ++ [call]) = deliveries c calls ++ (call.delivered c).toList := by
  unfold deliveries
  rw [List.filterMap_append]
  cases h : call.delivered c with
  | none => simp [h]
  | some event => simp [h]

theorem sinceClear_concat_of_clears {c : ChannelId} {call : StoreCall} (h : call.clears c = true)
    (calls : List StoreCall) : sinceClear c (calls ++ [call]) = [] :=
  List.rtakeWhile_concat_neg _ _ _ (by simp [h])

theorem sinceClear_concat {c : ChannelId} {call : StoreCall} (h : call.clears c = false)
    (calls : List StoreCall) : sinceClear c (calls ++ [call]) = sinceClear c calls ++ [call] :=
  List.rtakeWhile_concat_pos _ _ _ (by simp [h])

/-- What a channel shows and counts after some calls. -/
def Shows (state : EventsState) (calls : List StoreCall) (c : ChannelId) : Prop :=
  state.events c = (deliveries c (sinceClear c calls)).reverse.take MAX_EVENTS ∧
    state.activityTick c = (deliveries c calls).length

/-- A channel goes on showing its deliveries when an event is ingested. -/
theorem Shows.ingestEvent {state : EventsState} {calls : List StoreCall} {c : ChannelId}
    (h : Shows state calls c) (event : BroadcastEvent) (mirror : Bool)
    (uuid : ChannelId → List UInt16) :
    Shows (state.ingestEvent event mirror uuid) (calls ++ [.ingestEvent event mirror uuid]) c := by
  obtain ⟨hevents, htick⟩ := h
  have hdelivers := ingestEvent_delivers state event mirror uuid c
  unfold Shows
  rw [sinceClear_concat rfl, deliveries_concat, deliveries_concat]
  cases hcopy : (StoreCall.ingestEvent event mirror uuid).delivered c with
  | none =>
    rw [hcopy] at hdelivers
    simpa [hdelivers.1, hdelivers.2] using ⟨hevents, htick⟩
  | some copy =>
    rw [hcopy] at hdelivers
    rw [hdelivers.1, hdelivers.2, hevents, htick, prependEvent_take]
    simp

/-- A channel goes on showing its deliveries when some channel is cleared. -/
theorem Shows.clearEvents {state : EventsState} {calls : List StoreCall} {c : ChannelId}
    (h : Shows state calls c) (channel : ChannelId) :
    Shows (state.clearEvents channel) (calls ++ [.clearEvents channel]) c := by
  obtain ⟨hevents, htick⟩ := h
  have hcount : deliveries c (calls ++ [.clearEvents channel]) = deliveries c calls := by
    rw [deliveries_concat]
    exact List.append_nil _
  refine ⟨?_, by rw [hcount]; exact htick⟩
  by_cases hc : channel = c
  · have hclears : (StoreCall.clearEvents channel).clears c = true := decide_eq_true hc
    rw [sinceClear_concat_of_clears hclears, hc]
    exact Function.update_self ..
  · have hclears : (StoreCall.clearEvents channel).clears c = false := decide_eq_false hc
    rw [sinceClear_concat hclears, deliveries_concat]
    have hkept : (state.clearEvents channel).events c = state.events c :=
      Function.update_of_ne (Ne.symm hc) ..
    rw [hkept, hevents]
    exact congrArg (fun l => (List.reverse l).take MAX_EVENTS) (List.append_nil _).symm

/-- **What a channel shows**: after every sequence of calls, the list of a channel is the first hundred,
newest first, of the copies delivered to it since it was last cleared, and its activity is the number
of all copies delivered to it. A copy differs from its event only in the id and the channel, and the one
for the event's own channel keeps the id. -/
theorem channel_shows_deliveries (calls : List StoreCall) (c : ChannelId) :
    (EventsState.after calls).events c =
        ((deliveries c (sinceClear c calls)).reverse).take 100 ∧
      (EventsState.after calls).activityTick c = (deliveries c calls).length ∧
      ∀ event mirror uuid copy,
        (StoreCall.ingestEvent event mirror uuid).delivered c = some copy →
          copy = { event with id := copy.id, channel := c } ∧
            (c = event.channel → copy.id = event.id) := by
  have hshows : Shows (EventsState.after calls) calls c := by
    induction calls using List.reverseRecOn with
    | nil => exact ⟨rfl, rfl⟩
    | append_singleton calls call ih =>
      rw [after_concat]
      cases call with
      | ingestEvent event mirror uuid => exact ih.ingestEvent event mirror uuid
      | clearEvents channel => exact ih.clearEvents channel
  refine ⟨hshows.1, hshows.2, fun event mirror uuid copy hcopy => ?_⟩
  by_cases hfor : event.isFor mirror c
  · rw [delivered_of_isFor hfor, Option.some.injEq] at hcopy
    subst hcopy
    exact ⟨rfl, fun hc => if_pos hc⟩
  · rw [delivered_of_not_isFor hfor] at hcopy
    cases hcopy

end Frontend
