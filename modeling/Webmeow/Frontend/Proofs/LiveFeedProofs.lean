import Webmeow.Broadcast.Proofs.DeliveryProofs
import Webmeow.Frontend.LiveFeed
import Webmeow.Frontend.Proofs.NormalizeProofs
import Webmeow.Frontend.Proofs.EventsStoreProofs

/-!
# The feed shows what was posted

The response of a client is the greeting and the events that were posted while it was a client. So the
messages that the browser has handled are the first ones of these, and its store is what the store calls
for them and the clears in between make of it.
-/

namespace Frontend

open JsonText hiding parse
open Broadcast EventStream Runs

/-! ## The messages of a response -/

/-- The content of the stream frame of a posted event. -/
def postedContent (e : PostedEvent) : Content :=
  content e.type.value e.type.value_oneLine e.type.value_ne_nil e.object

/-- The text of a posted event is its frame. -/
theorem postedText_toList (e : PostedEvent) :
    (postedText e).toList = frame (postedContent e).type (postedContent e).data := by
  simp [postedText, postedContent, content, frame]

/-- The message of a posted event. -/
def postedMessage (e : PostedEvent) : Message := ⟨e.type.value.toList, stringify e.object, []⟩

/-- A stream parses into the greeting and the posted messages. -/
theorem parse_writes (posts : List PostedEvent) :
    parse ((greeting ++ posts.map postedText).flatMap String.toList) =
      ⟨"connected".toList, stringify connectedObject, []⟩ :: posts.map postedMessage := by
  have htext : (greeting ++ posts.map postedText).flatMap String.toList =
      (greetingContent :: posts.map postedContent).flatMap fun m => frame m.type m.data := by
    rw [List.flatMap_append, greeting_toList, List.flatMap_cons, List.flatMap_map, List.flatMap_map]
    simp only [postedText_toList]
  rw [htext, parse_frames, List.map_cons, List.map_map]
  rfl

/-! ## One message -/

/-- Nothing listens to the greeting. -/
theorem onMessage_greeting (state : EventsState) (uuid : ChannelId → List UInt16) :
    state.onMessage ⟨"connected".toList, stringify connectedObject, []⟩ uuid = state :=
  if_neg (show ¬listensTo "connected".toList = true by decide)

/-- The hook listens to every type of event. -/
theorem listensTo_value (t : EventType) : listensTo t.value.toList = true := by
  cases t <;> decide

/-- A posted message is ingested as the event that was posted. -/
theorem onMessage_posted (state : EventsState) (e : PostedEvent) (uuid : ChannelId → List UInt16) :
    state.onMessage (postedMessage e) uuid = state.ingestEvent (readPosted e) true uuid := by
  have hread : handleMessage (stringify e.object) = some (readPosted e) := handleMessage_object e
  have hlistens : listensTo (postedMessage e).type = true := listensTo_value e.type
  rw [EventsState.onMessage, if_pos hlistens, postedMessage, hread]

/-! ## Store calls -/

/-- Whether the browser handles a message. -/
def FeedEvent.isMessage : FeedEvent → Bool
  | .message _ => true
  | _ => false

theorem storeCalls_append (posts : List PostedEvent) (n : ℕ) (es es' : List FeedEvent) :
    storeCalls posts n (es ++ es') =
      storeCalls posts n es ++ storeCalls posts (n + es.countP FeedEvent.isMessage) es' := by
  induction es generalizing n with
  | nil => rfl
  | cons e es ih =>
    cases e with
    | service e => exact ih n
    | clear channel => exact congrArg _ (ih n)
    | message uuid =>
      have hcount : (FeedEvent.message uuid :: es).countP FeedEvent.isMessage =
          es.countP FeedEvent.isMessage + 1 := List.countP_cons_of_pos rfl
      rw [hcount]
      cases n with
      | zero =>
        have hnext := ih 1
        rw [Nat.add_comm 1] at hnext
        rw [Nat.zero_add]
        exact hnext
      | succ n =>
        have hsum : n + 1 + (es.countP FeedEvent.isMessage + 1) =
            n + 2 + es.countP FeedEvent.isMessage := by omega
        rw [hsum, List.cons_append, storeCalls, storeCalls, ih (n + 2), List.append_assoc]

/-- Later posts do not matter to the messages that were handled before. -/
theorem storeCalls_posts (posts more : List PostedEvent) (n : ℕ) (es : List FeedEvent)
    (h : n + es.countP FeedEvent.isMessage ≤ posts.length + 1) :
    storeCalls (posts ++ more) n es = storeCalls posts n es := by
  induction es generalizing n with
  | nil => rfl
  | cons e es ih =>
    cases e with
    | service e => exact ih n h
    | clear channel => exact congrArg _ (ih n h)
    | message uuid =>
      rw [List.countP_cons_of_pos (by rfl)] at h
      cases n with
      | zero => exact ih 1 (by omega)
      | succ n =>
        rw [storeCalls, storeCalls, List.getElem?_append_left (by omega), ih (n + 2) (by omega)]

/-! ## The service and its clients -/

theorem audience_service (env : Env) (browser : ℕ) (es : List FeedEvent) (e : ServiceEvent) :
    audience env browser (es ++ [.service e]) = (audience env browser es).after env browser e := by
  rw [audience, List.filterMap_append, List.foldl_append]
  rfl

theorem audience_other (env : Env) (browser : ℕ) (es : List FeedEvent) {e : FeedEvent}
    (he : e.service? = none) : audience env browser (es ++ [e]) = audience env browser es := by
  rw [audience, List.filterMap_append, List.foldl_append, List.filterMap_cons_none he]
  rfl

/-- The list of clients and the response of the browser are as the posts say. -/
structure Attended (browser : ℕ) (bus : EventBus) (a : Audience) : Prop where
  /-- The bus has one response for each client. -/
  arrivals : bus.responses.length = a.arrivals
  /-- The browser is among the clients while it is connected. -/
  present : browser ∈ bus.clients ↔ a.present = true
  /-- Its response holds the greeting and the events since. -/
  response : ∀ writes, bus.responses[browser]? = some writes →
    writes = greeting ++ a.posts.map postedText

/-- Before its connect nothing is for the browser. -/
def Audience.NotYet (a : Audience) (browser : ℕ) : Prop :=
  a.arrivals ≤ browser → a.present = false ∧ a.posts = []

section Service

variable {env : Env} {browser : ℕ} {bus : EventBus} {a : Audience}

theorem Attended.initial : Attended browser EventBus.initial Audience.initial where
  arrivals := rfl
  present := ⟨fun h => absurd h List.not_mem_nil, nofun⟩
  response := nofun

/-- A new client is attended. -/
theorem Attended.addClient (h : Attended browser bus a) (hnot : a.NotYet browser) :
    Attended browser bus.addClient (a.after env browser .connect) where
  arrivals := by
    show (bus.responses ++ [greeting]).length = a.arrivals + 1
    rw [List.length_append, h.arrivals]
    rfl
  present := by
    show browser ∈ bus.clients ++ [bus.responses.length] ↔ (a.present || a.arrivals = browser) = true
    rw [List.mem_append, List.mem_singleton, h.present, h.arrivals, Bool.or_eq_true,
      decide_eq_true_eq, @eq_comm _ browser]
  response := by
    intro writes hw
    show writes = greeting ++ a.posts.map postedText
    have hw : (bus.responses ++ [greeting])[browser]? = some writes := hw
    rcases Nat.lt_or_ge browser bus.responses.length with hlt | hge
    · rw [List.getElem?_append_left hlt] at hw
      exact h.response writes hw
    · -- the new response is the browser's own
      rw [List.getElem?_append_right hge] at hw
      obtain ⟨-, hposts⟩ := hnot (h.arrivals ▸ hge)
      rw [hposts, List.map_nil, List.append_nil]
      exact List.mem_singleton.1 (List.mem_of_getElem? hw)

/-- A client that leaves is attended no more. -/
theorem Attended.removeClient (h : Attended browser bus a) (d : ℕ) :
    Attended browser (bus.removeClient d) { a with present := a.present && d ≠ browser } where
  arrivals := h.arrivals
  present := by
    show browser ∈ removeFrom bus.clients d ↔ _
    rw [mem_removeFrom bus.nodup, h.present, Bool.and_eq_true, decide_eq_true_eq, and_comm,
      @ne_comm _ browser]
  response := h.response

/-- A published event reaches the clients that are there. -/
theorem Attended.publish (h : Attended browser bus a) (e : PostedEvent) :
    Attended browser (publish bus e)
      { a with posts := if a.present then a.posts ++ [e] else a.posts } where
  arrivals := (length_writeAll _ _ _).trans h.arrivals
  present := h.present
  response := by
    intro writes hw
    have hlt : browser < bus.responses.length := by
      rw [← length_writeAll (postedText e) bus.clients bus.responses]
      exact (List.getElem?_eq_some_iff.1 hw).1
    have hold := List.getElem?_eq_getElem hlt
    have hnew := writeAll_getElem? bus.nodup (postedText e) hold
    have hwrites := Option.some.inj (hw.symm.trans hnew)
    rw [h.response _ hold] at hwrites
    rw [hwrites]
    by_cases hp : browser ∈ bus.clients
    · rw [if_pos hp, if_pos (h.present.1 hp), List.map_append, List.append_assoc]
      rfl
    · rw [if_neg hp, if_neg (fun hpresent => hp (h.present.2 hpresent))]

/-- One event of the service. -/
theorem Attended.serviceStep (h : Attended browser bus a) (hnot : a.NotYet browser)
    (e : ServiceEvent) : Attended browser (serviceStep env bus e) (a.after env browser e) := by
  cases e with
  | connect => exact h.addClient hnot
  | responseClose d => exact h.removeClient d
  | requestClose d => exact h.removeClient d
  | request r stamp =>
    rw [Frontend.serviceStep, Audience.after]
    cases hposts : (serve env r stamp).event with
    | none =>
      have hsame : (if a.present then a.posts ++ (ServiceEvent.posts env (.request r stamp)).toList
          else a.posts) = a.posts := by
        rw [ServiceEvent.posts, hposts, Option.toList_none, List.append_nil, ite_self]
      rw [hsame]
      exact h
    | some e =>
      rw [ServiceEvent.posts, hposts]
      exact h.publish e

theorem Audience.NotYet.after (h : a.NotYet browser) (e : ServiceEvent) :
    (a.after env browser e).NotYet browser := by
  cases e with
  | connect =>
    intro hle
    have hlt : a.arrivals < browser := hle
    obtain ⟨hpresent, hposts⟩ := h (Nat.le_of_lt hlt)
    refine ⟨?_, hposts⟩
    show (a.present || decide (a.arrivals = browser)) = false
    rw [hpresent, decide_eq_false (Nat.ne_of_lt hlt)]
    rfl
  | responseClose d =>
    intro hle
    obtain ⟨hpresent, hposts⟩ := h hle
    exact ⟨by rw [Audience.after, hpresent, Bool.false_and], hposts⟩
  | requestClose d =>
    intro hle
    obtain ⟨hpresent, hposts⟩ := h hle
    exact ⟨by rw [Audience.after, hpresent, Bool.false_and], hposts⟩
  | request r stamp =>
    intro hle
    obtain ⟨hpresent, hposts⟩ := h hle
    refine ⟨hpresent, ?_⟩
    show (if a.present then _ else a.posts) = []
    rw [hpresent]
    exact hposts

end Service

/-! ## The feed -/

/-- The store is what the handled messages and the clears have made of it. -/
structure Feed.Shown (env : Env) (browser : ℕ) (es : List FeedEvent) (s : Feed) : Prop where
  /-- The bus and the audience agree. -/
  attended : Attended browser s.bus (audience env browser es)
  /-- A browser that is still to connect was sent nothing. -/
  notYet : (audience env browser es).NotYet browser
  /-- The messages handled are counted. -/
  handled : s.handled = es.countP FeedEvent.isMessage
  /-- No message is handled before it is sent. -/
  bound : s.handled ≤ (audience env browser es).posts.length + 1
  /-- The store is what the calls of the browser make of it. -/
  store : s.store = EventsState.after (storeCalls (audience env browser es).posts 0 es)

section Step

variable {env : Env} {browser : ℕ} {es : List FeedEvent} {s : Feed}

/-- The next message is the greeting or a post. -/
theorem Attended.message {bus : EventBus} {a : Audience} (h : Attended browser bus a) {n : ℕ}
    {m : Message} (hm : (messages bus browser)[n]? = some m) :
    (n = 0 ∧ m = ⟨"connected".toList, stringify connectedObject, []⟩) ∨
      ∃ k e, n = k + 1 ∧ a.posts[k]? = some e ∧ m = postedMessage e := by
  unfold messages at hm
  cases hw : bus.responses[browser]? with
  | none =>
    rw [List.getD_eq_getElem?_getD, hw] at hm
    cases hm
  | some writes =>
    rw [List.getD_eq_getElem?_getD, hw, Option.getD_some, h.response writes hw, parse_writes] at hm
    cases n with
    | zero => exact Or.inl ⟨rfl, (Option.some.inj hm).symm⟩
    | succ n =>
      rw [List.getElem?_cons_succ, List.getElem?_map] at hm
      obtain ⟨e, he, rfl⟩ := Option.map_eq_some_iff.1 hm
      exact Or.inr ⟨n, e, rfl, he, rfl⟩

/-- Another event of the service changes neither the store nor the calls so far. -/
theorem Feed.Shown.service (h : s.Shown env browser es) (e : ServiceEvent) :
    Feed.Shown env browser (es ++ [.service e]) { s with bus := serviceStep env s.bus e } := by
  obtain ⟨more, hmore⟩ : ∃ more, ((audience env browser es).after env browser e).posts =
      (audience env browser es).posts ++ more := by
    cases e with
    | request r stamp =>
      by_cases hp : (audience env browser es).present = true
      · exact ⟨_, if_pos hp⟩
      · exact ⟨[], by rw [List.append_nil]; exact if_neg hp⟩
    | _ => exact ⟨[], (List.append_nil _).symm⟩
  have hbound := h.bound
  have hcount := h.handled
  refine ⟨?_, ?_, ?_, ?_, ?_⟩
  · rw [audience_service]
    exact h.attended.serviceStep h.notYet e
  · rw [audience_service]
    exact h.notYet.after e
  · rw [List.countP_append]
    exact hcount
  · rw [audience_service, hmore, List.length_append]
    show s.handled ≤ _
    omega
  · rw [audience_service, hmore, storeCalls_append, storeCalls_posts _ _ _ _ (by omega)]
    show s.store = _
    rw [h.store, storeCalls, storeCalls, List.append_nil]

/-- Clearing a channel keeps the feed shown. -/
theorem Feed.Shown.clear (h : s.Shown env browser es) (channel : ChannelId) :
    Feed.Shown env browser (es ++ [.clear channel])
      { s with store := s.store.clearEvents channel } := by
  have hsame : audience env browser (es ++ [.clear channel]) = audience env browser es :=
    audience_other env browser es rfl
  refine ⟨hsame ▸ h.attended, hsame ▸ h.notYet, ?_, hsame ▸ h.bound, ?_⟩
  · rw [List.countP_append]
    exact h.handled
  · rw [hsame, storeCalls_append]
    show s.store.clearEvents channel = EventsState.after (_ ++ [.clearEvents channel])
    rw [after_concat, ← h.store]
    rfl

/-- The browser handles the greeting, or the post of that number. -/
theorem Feed.Shown.message (h : s.Shown env browser es) {m : Message}
    (hm : (messages s.bus browser)[s.handled]? = some m) (uuid : ChannelId → List UInt16) :
    Feed.Shown env browser (es ++ [.message uuid])
      { s with handled := s.handled + 1, store := s.store.onMessage m uuid } := by
  have hsame : audience env browser (es ++ [.message uuid]) = audience env browser es :=
    audience_other env browser es rfl
  have hhandled : s.handled + 1 = (es ++ [FeedEvent.message uuid]).countP FeedEvent.isMessage := by
    rw [List.countP_append, h.handled]
    rfl
  rcases h.attended.message hm with ⟨hzero, rfl⟩ | ⟨k, e, hk, he, rfl⟩
  · refine ⟨hsame ▸ h.attended, hsame ▸ h.notYet, hhandled, ?_, ?_⟩
    · rw [hsame]
      show s.handled + 1 ≤ _
      omega
    · rw [hsame, storeCalls_append, ← h.handled, hzero, Nat.zero_add, storeCalls, storeCalls,
        List.append_nil]
      exact (onMessage_greeting s.store uuid).trans h.store
  · have hlt : k < (audience env browser es).posts.length := (List.getElem?_eq_some_iff.1 he).1
    refine ⟨hsame ▸ h.attended, hsame ▸ h.notYet, hhandled, ?_, ?_⟩
    · rw [hsame]
      show s.handled + 1 ≤ _
      omega
    · rw [hsame, storeCalls_append, ← h.handled, Nat.zero_add, hk, storeCalls, he]
      show s.store.onMessage _ uuid =
        EventsState.after (_ ++ [.ingestEvent (readPosted e) true uuid])
      rw [onMessage_posted, after_concat, ← h.store]
      rfl

theorem Feed.Shown.step (h : s.Shown env browser es) {e : FeedEvent} {s' : Feed}
    (hs : s.step env browser e = some s') : s'.Shown env browser (es ++ [e]) := by
  cases e with
  | service e => cases hs; exact h.service e
  | clear channel => cases hs; exact h.clear channel
  | message uuid =>
    obtain ⟨m, hm, rfl⟩ := Option.map_eq_some_iff.1 hs
    exact h.message hm uuid

end Step

theorem Feed.shown_initial (env : Env) (browser : ℕ) : Feed.initial.Shown env browser [] where
  attended := Attended.initial
  notYet := fun _ => ⟨rfl, rfl⟩
  handled := rfl
  bound := Nat.zero_le _
  store := rfl

/-- Every feed a run reaches is shown. -/
theorem run_shown {env : Env} {browser : ℕ} {es : List FeedEvent} {s : Feed}
    (hrun : run (Feed.step env browser) Feed.initial es = some s) : s.Shown env browser es := by
  induction es using List.reverseRecOn generalizing s with
  | nil =>
    rw [run_nil, Option.some.injEq] at hrun
    exact hrun ▸ Feed.shown_initial env browser
  | append_singleton es e ih =>
    obtain ⟨s', hs', hstep⟩ := run_concat_iff.1 hrun
    exact (ih hs').step hstep

/-- Ids for mirrored events, all empty. -/
def noUuid : ChannelId → List UInt16 := fun _ => []

/-- A guest says hello to the whole resort. -/
def helloRequest : Request where
  endpoint := .publicAnnouncement
  passcode := none
  body :=
    some (stringify (.obj [property "guestName" (text "Mia"), property "message" (text "Hello")]))

/-- A public announcement is posted. -/
def helloPosted : FeedEvent := .service (.request helloRequest ⟨Utf16.ofString "1", []⟩)

/-- The browser is the second client. One post is too early for it, one is cleared, one is shown. -/
def lateBrowser : List FeedEvent :=
  [.service .connect, helloPosted, .service .connect, helloPosted, .message noUuid, .message noUuid,
    .clear .ResortWide, helloPosted, .message noUuid]

end Frontend
