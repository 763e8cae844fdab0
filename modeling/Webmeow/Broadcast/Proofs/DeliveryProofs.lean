import Webmeow.Broadcast.EventBus
import Webmeow.Lib.JsonRoundTrip

/-!
# Delivery of events

A client reads the greeting and then exactly what was broadcast between its connect and the first
close that one of its two handlers saw. The first half is about the list of clients, the second about
the texts: an event is stringified into one line, so its frame is one message.
-/

namespace Broadcast

open JsonText EventStream

/-! ## What is expected -/

/-- What happens after the connect of a client, which is the `client`-th one. -/
def sinceConnect : ℕ → List Event → List Event
  | _, [] => []
  | 0, .connect :: es => es
  | client + 1, .connect :: es => sinceConnect client es
  | client, .responseClose _ :: es => sinceConnect client es
  | client, .requestClose _ :: es => sinceConnect client es
  | client, .broadcast _ :: es => sinceConnect client es

/-- The event does not remove the client. -/
def Event.keeps (client : ℕ) : Event → Bool
  | .responseClose c => c ≠ client
  | .requestClose c => c ≠ client
  | _ => true

/-- The event that is broadcast. -/
def Event.broadcast? : Event → Option IslandEvent
  | .broadcast e => some e
  | _ => none

/-- The events that are broadcast before the client is removed. -/
def broadcastsUntilClose (client : ℕ) (es : List Event) : List IslandEvent :=
  (es.takeWhile (Event.keeps client)).filterMap Event.broadcast?

/-- The events that are broadcast between the client's connect and its removal. -/
def broadcastsFor (client : ℕ) (es : List Event) : List IslandEvent :=
  broadcastsUntilClose client (sinceConnect client es)

/-! ## The clients -/

theorem mem_removeFrom {clients : List ℕ} (h : clients.Nodup) {client c : ℕ} :
    c ∈ removeFrom clients client ↔ c ≠ client ∧ c ∈ clients := by
  have herase : removeFrom clients client = clients.erase client :=
    (List.erase_eq_eraseIdx clients client).symm
  rw [herase]
  exact h.mem_erase_iff

/-- A client gets the text once, the others nothing. -/
theorem writeAll_getElem? {clients : List ℕ} (h : clients.Nodup) (text : String)
    {responses : List (List String)} {c : ℕ} {writes : List String}
    (hc : responses[c]? = some writes) :
    (writeAll text clients responses)[c]? =
      some (if c ∈ clients then writes ++ [text] else writes) := by
  unfold writeAll
  induction clients generalizing responses writes with
  | nil => exact hc
  | cons d clients ih =>
    obtain ⟨hd, hrest⟩ := List.nodup_cons.1 h
    have hwrite : (write text responses d)[c]? = some (if d = c then writes ++ [text] else writes) := by
      rw [write, List.getElem?_modify, hc]
      rfl
    rw [List.foldl_cons, ih hrest hwrite]
    by_cases hdc : d = c
    · subst hdc
      rw [if_neg hd, if_pos rfl, if_pos List.mem_cons_self]
    · simp [hdc, Ne.symm hdc]

/-- What a response is still to get: the events until its close, if it is a client. -/
def awaited (bus : EventBus) (c : ℕ) (es : List Event) : List String :=
  if c ∈ bus.clients then (broadcastsUntilClose c es).map eventText else []

/-- Who connects does not matter to those who are there. -/
theorem awaited_connect (bus : EventBus) {c : ℕ} (hc : c < bus.responses.length) (es : List Event) :
    awaited bus.addClient c es = awaited bus c (.connect :: es) := by
  have hmem : c ∈ bus.addClient.clients ↔ c ∈ bus.clients := by
    rw [EventBus.addClient, List.mem_append, List.mem_singleton]
    exact or_iff_left (Nat.ne_of_lt hc)
  exact if_congr hmem rfl rfl

/-- Both close handlers remove the client, the second one finds it gone. -/
theorem awaited_close (bus : EventBus) {client : ℕ} {e : Event}
    (he : e = .responseClose client ∨ e = .requestClose client) (c : ℕ) (es : List Event) :
    awaited (bus.removeClient client) c es = awaited bus c (e :: es) := by
  have hkeeps : e.keeps c = decide (client ≠ c) := by
    rcases he with rfl | rfl <;> rfl
  have hbroadcast : e.broadcast? = none := by
    rcases he with rfl | rfl <;> rfl
  have hmem : c ∈ (bus.removeClient client).clients ↔ c ≠ client ∧ c ∈ bus.clients :=
    mem_removeFrom bus.nodup
  unfold awaited broadcastsUntilClose
  rw [List.takeWhile_cons, hkeeps]
  by_cases hc : c = client
  · subst hc
    rw [if_neg fun h => (hmem.1 h).1 rfl, decide_eq_false fun h => h rfl]
    exact (ite_self _).symm
  · rw [if_pos (decide_eq_true (Ne.symm hc)), List.filterMap_cons_none hbroadcast]
    refine if_congr ?_ rfl rfl
    rw [hmem]
    exact and_iff_right hc

/-- A client gets what is broadcast while it is connected. -/
theorem awaited_broadcast (bus : EventBus) (e : IslandEvent) (c : ℕ) (es : List Event) :
    awaited bus c (.broadcast e :: es) =
      (if c ∈ bus.clients then [eventText e] else []) ++ awaited (bus.broadcast e) c es := by
  unfold awaited
  by_cases hc : c ∈ bus.clients
  · have hc' : c ∈ (bus.broadcast e).clients := hc
    rw [if_pos hc, if_pos hc, if_pos hc']
    rfl
  · have hc' : c ∉ (bus.broadcast e).clients := hc
    rw [if_neg hc, if_neg hc, if_neg hc']
    rfl

/-- **A response gets what it awaits**, and nothing else. -/
theorem run_getElem? (es : List Event) (bus : EventBus) {c : ℕ} {writes : List String}
    (hc : bus.responses[c]? = some writes) :
    (run bus es).responses[c]? = some (writes ++ awaited bus c es) := by
  induction es generalizing bus writes with
  | nil =>
    rw [show awaited bus c [] = [] from ite_self _, List.append_nil]
    exact hc
  | cons e es ih =>
    have hlt : c < bus.responses.length := (List.getElem?_eq_some_iff.1 hc).1
    show (run (step bus e) es).responses[c]? = _
    cases e with
    | connect =>
      have hnext : bus.addClient.responses[c]? = some writes :=
        (List.getElem?_append_left hlt).trans hc
      rw [step, ih bus.addClient hnext, awaited_connect bus hlt]
    | responseClose client =>
      rw [step, ih (bus.removeClient client) hc, awaited_close bus (Or.inl rfl)]
    | requestClose client =>
      rw [step, ih (bus.removeClient client) hc, awaited_close bus (Or.inr rfl)]
    | broadcast e =>
      have hnext : (bus.broadcast e).responses[c]? = _ :=
        writeAll_getElem? bus.nodup (eventText e) hc
      rw [step, ih (bus.broadcast e) hnext, awaited_broadcast]
      split_ifs with hmem
      · rw [List.append_assoc]
      · rw [List.nil_append]

/-- A response that is still to come. -/
theorem run_getElem?_new (es : List Event) (bus : EventBus) (client : ℕ) {writes : List String}
    (h : (run bus es).responses[bus.responses.length + client]? = some writes) :
    writes = greeting ++
      (broadcastsUntilClose (bus.responses.length + client) (sinceConnect client es)).map eventText := by
  induction es generalizing bus client with
  | nil =>
    have hnone : bus.responses[bus.responses.length + client]? = none :=
      List.getElem?_eq_none (Nat.le_add_right _ _)
    exact absurd (hnone.symm.trans h) (by simp)
  | cons e es ih =>
    have hrun : (run (step bus e) es).responses[bus.responses.length + client]? = some writes := h
    cases e with
    | connect =>
      have hlen : bus.addClient.responses.length = bus.responses.length + 1 := by
        rw [EventBus.addClient, List.length_append]
        rfl
      cases client with
      | zero =>
        have hnew : bus.addClient.responses[bus.responses.length]? = some greeting :=
          List.getElem?_concat_length
        have hmem : bus.responses.length ∈ bus.addClient.clients :=
          List.mem_append_right _ (List.mem_singleton_self _)
        rw [Nat.add_zero] at hrun ⊢
        have hall := run_getElem? es bus.addClient hnew
        rw [awaited, if_pos hmem] at hall
        exact Option.some.inj (hrun.symm.trans hall)
      | succ client =>
        have hshift : bus.responses.length + (client + 1) = bus.addClient.responses.length + client := by
          rw [hlen]
          omega
        rw [hshift] at hrun ⊢
        exact ih bus.addClient client hrun
    | responseClose c => exact ih (bus.removeClient c) client hrun
    | requestClose c => exact ih (bus.removeClient c) client hrun
    | broadcast e =>
      have hlen : (bus.broadcast e).responses.length = bus.responses.length :=
        length_writeAll _ _ _
      rw [← hlen] at hrun ⊢
      exact ih (bus.broadcast e) client hrun

/-! ## The texts -/

/-- What is encoded can be decoded. -/
theorem fromUTF8?_toUTF8 (s : String) : String.fromUTF8? s.toUTF8 = some s := by
  rw [String.fromUTF8?, String.toUTF8_eq_toByteArray, dif_pos s.isValidUTF8]
  rfl

/-- Encoding the parts is encoding the whole. -/
theorem foldl_toUTF8 (writes : List String) (s : String) :
    writes.foldl (fun bytes text => bytes ++ text.toUTF8) s.toUTF8 =
      (writes.foldl (· ++ ·) s).toUTF8 := by
  induction writes generalizing s with
  | nil => rfl
  | cons w writes ih =>
    rw [List.foldl_cons, List.foldl_cons, ← ih (s ++ w)]
    simp only [String.toUTF8_eq_toByteArray, String.toByteArray_append]

/-- The bytes of the writes are those of the text they make up. -/
theorem bytesOf_eq (writes : List String) : bytesOf writes = (String.join writes).toUTF8 :=
  foldl_toUTF8 writes ""

theorem toList_join (writes : List String) :
    (String.join writes).toList = writes.flatMap String.toList := by
  have hfold : ∀ s : String, (writes.foldl (· ++ ·) s).toList =
      s.toList ++ writes.flatMap String.toList := by
    induction writes with
    | nil => exact fun s => (List.append_nil _).symm
    | cons w writes ih =>
      intro s
      rw [List.foldl_cons, ih, String.toList_append, List.append_assoc, List.flatMap_cons]
  exact hfold ""

/-- The frame of an object. -/
def content (type : String) (ht : OneLine type.toList) (hne : type.toList ≠ []) (v : Value) :
    Content where
  type := type.toList
  data := stringify v
  type_oneLine := ht
  data_oneLine := inLine_stringify v
  type_ne_nil := hne

/-- A name has no line break. -/
theorem EventType.value_oneLine (t : EventType) : OneLine t.value.toList := by
  cases t <;> decide

theorem EventType.value_ne_nil (t : EventType) : t.value.toList ≠ [] := by
  cases t <;> decide

/-- The greeting as a frame. -/
def greetingContent : Content :=
  content "connected" (by decide) (by decide) connectedObject

/-- An event as a frame. -/
def eventContent (e : IslandEvent) : Content :=
  content e.type.value e.type.value_oneLine e.type.value_ne_nil e.object

/-- What is written is a frame. -/
theorem eventText_toList (e : IslandEvent) :
    (eventText e).toList = frame (eventContent e).type (eventContent e).data := by
  simp [eventText, eventContent, content, frame]

/-- So is the greeting. -/
theorem greeting_toList :
    greeting.flatMap String.toList = frame greetingContent.type greetingContent.data := by
  simp [greeting, greetingContent, content, frame]

/-- The writes of a response are frames. -/
theorem writes_toList (events : List IslandEvent) :
    (greeting ++ events.map eventText).flatMap String.toList =
      (greetingContent :: events.map eventContent).flatMap fun m => frame m.type m.data := by
  rw [List.flatMap_append, greeting_toList, List.flatMap_cons, List.flatMap_map, List.flatMap_map]
  simp only [eventText_toList]

/-- Reading back what was written, one after another. -/
theorem mapM_map_eq_some {α β γ : Type} {k : α → β} {f : β → Option γ} {g : α → γ} {l : List α}
    (h : ∀ a ∈ l, f (k a) = some (g a)) : (l.map k).mapM f = some (l.map g) := by
  induction l with
  | nil => rfl
  | cons a l ih =>
    rw [List.map_cons, List.mapM_cons, h a List.mem_cons_self,
      ih fun b hb => h b (List.mem_cons_of_mem a hb)]
    rfl

/-- A message whose data is the text of a value is read as that value. -/
theorem readMessage_content (type : String) (ht : OneLine type.toList) (hne : type.toList ≠ [])
    (v : Value) :
    readMessage ⟨(content type ht hne v).type, (content type ht hne v).data, []⟩ =
      some (type, v) := by
  show ((JsonText.parse (stringify v)).map fun w => (String.ofList type.toList, w)) = some (type, v)
  rw [parse_stringify, String.ofList_toList]
  rfl

/-- **Reading the writes**: the greeting, then the events. -/
theorem received_writes (events : List IslandEvent) :
    received (bytesOf (greeting ++ events.map eventText)) =
      some (("connected", connectedObject) :: events.map fun e => (e.type.value, e.object)) := by
  have htext : (String.join (greeting ++ events.map eventText)).toList =
      (greetingContent :: events.map eventContent).flatMap fun m => frame m.type m.data := by
    rw [toList_join, writes_toList]
  have hgreeting : readMessage ⟨greetingContent.type, greetingContent.data, []⟩ =
      some ("connected", connectedObject) := readMessage_content _ _ _ _
  have hevents : ((events.map eventContent).map fun m => (⟨m.type, m.data, []⟩ : Message)).mapM
      readMessage = some (events.map fun e => (e.type.value, e.object)) := by
    rw [List.map_map]
    exact mapM_map_eq_some fun e _ => readMessage_content _ _ _ _
  rw [received, bytesOf_eq, fromUTF8?_toUTF8, Option.bind_some, htext, parse_frames, List.map_cons,
    List.mapM_cons, hgreeting, hevents]
  rfl

/-- **End-to-end delivery**: for every sequence of connects, closes and broadcasts, what a client reads
from the bytes written to its response is the `connected` event and then exactly the events that were
broadcast between its connect and its removal, in order, each once. -/
theorem client_receives_broadcasts (es : List Event) (client : ℕ) (writes : List String)
    (h : (run EventBus.initial es).responses[client]? = some writes) :
    received (bytesOf writes) =
      some (("connected", connectedObject) ::
        (broadcastsFor client es).map fun e => (e.type.value, e.object)) := by
  have hwrites : writes = greeting ++ (broadcastsUntilClose client (sinceConnect client es)).map
      eventText := by
    have hnew := run_getElem?_new es EventBus.initial client
      (show (run EventBus.initial es).responses[0 + client]? = some writes by rwa [Nat.zero_add])
    rwa [show EventBus.initial.responses.length + client = client from Nat.zero_add client] at hnew
  rw [hwrites, received_writes]
  rfl

/-- A message with line breaks, a line separator and a surrogate on its own. -/
def stormWarning : IslandEvent where
  id := Utf16.ofString "1"
  type := .publicAnnouncement
  timestamp := Utf16.ofString "2026-01-01T00:00:00.000Z"
  source := Utf16.ofString "public"
  payload := .arr [.str (Utf16.ofString "storm\r\n\n\u2028" ++ [0xD83D]), .null]

/-- The second client comes after the warning; the first leaves before the second one and closes
twice. -/
def twoClients : List Event :=
  [.connect, .broadcast stormWarning, .connect, .requestClose 0, .broadcast stormWarning,
    .responseClose 0]

/-- The client reads the greeting and the event. -/
theorem first_client_receives :
    ∃ writes, (run EventBus.initial twoClients).responses[0]? = some writes ∧
      received (bytesOf writes) = some [("connected", connectedObject),
        ("public.announcement", stormWarning.object)] :=
  ⟨_, rfl, client_receives_broadcasts twoClients 0 _ rfl⟩

end Broadcast
