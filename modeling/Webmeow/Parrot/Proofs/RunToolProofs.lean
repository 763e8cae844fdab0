import Webmeow.Parrot.RunTool
import Webmeow.Parrot.Chat

/-!
# When a tool call comes back with a message

An exception escapes from `_run_one_tool` when the arguments are JSON but no object, when a tool for
guests is called without a guest, and when a request fails in another way than the listed ones or
succeeds with a body that is not JSON.
-/

namespace Parrot

/-! ## The requests of a tool -/

/-- The tool asks for a guest id. -/
def Tool.needsGuestId : Tool → Bool
  | .getAirportStats => false
  | .getAirportQueueStatus => false
  | .getHotelRooms => false
  | .getGuestArrivalStatus => true
  | .getGuestReservation => true
  | .getGuestJourneyStatus => true

/-- The URLs that a tool of no guest asks for. -/
def Runtime.publicUrls (rt : Runtime) : Tool → List String
  | .getAirportStats => [rt.airportServiceUrl ++ "/stats"]
  | .getAirportQueueStatus => [rt.airportServiceUrl ++ "/queue"]
  | .getHotelRooms => [rt.hotelServiceUrl ++ "/rooms"]
  | _ => []

/-- The URLs that a tool asks for about a guest. -/
def Runtime.guestUrls (rt : Runtime) (guestId : Json) : Tool → List String
  | .getGuestArrivalStatus => [rt.arrivalUrl guestId]
  | .getGuestReservation => [rt.reservationUrl guestId]
  | .getGuestJourneyStatus => [rt.arrivalUrl guestId, rt.reservationUrl guestId]
  | _ => []

/-- What can become of a request without an exception that escapes: a status that is no success, a
success with a JSON body, no connection, or a timeout. -/
def Runtime.Handles (rt : Runtime) : HttpOutcome → Prop
  | .raised => False
  | .httpx e => e.isUnavailable = true
  | .response status body => 200 ≤ status ∧ status ≤ 299 → (rt.json body).isSome = true

/-- The keywords that an argument string stands for: those of a JSON object, or none at all for a
string that is empty or not JSON. -/
def Runtime.Keywords (rt : Runtime) (argumentsStr : String) (kwargs : List (String × Json)) :
    Prop :=
  (argumentsStr ≠ "" ∧ rt.loads argumentsStr = .value (.obj kwargs)) ∨
    ((argumentsStr = "" ∨ rt.loads argumentsStr = .decodeError) ∧ kwargs = [])

/-- The keywords have the guest that the tool needs, and all its requests are handled. -/
def Runtime.Serves (rt : Runtime) (kwargs : List (String × Json)) (tool : Tool) : Prop :=
  (∀ url ∈ rt.publicUrls tool, rt.Handles (rt.get url)) ∧
    (tool.needsGuestId = true → ∃ guestId, kwargs.lookup "guest_id" = some guestId ∧
      ∀ url ∈ rt.guestUrls guestId tool, rt.Handles (rt.get url))

/-- The call can be run: `json.loads` fails in no other way than it is expected to, and a tool that
is known gets the keywords it needs and is served. -/
def Runtime.CanRun (rt : Runtime) (call : ToolCall) : Prop :=
  (call.argumentsStr = "" ∨ rt.loads call.argumentsStr ≠ .raised) ∧
    ∀ tool, toolOf call.name = some tool →
      ∃ kwargs, rt.Keywords call.argumentsStr kwargs ∧ rt.Serves kwargs tool

/-! ## What escapes -/

theorem read_escapes_iff (rt : Runtime) (o : HttpOutcome) :
    rt.read o ≠ .error .escaping ↔ rt.Handles o := by
  cases o with
  | raised => simp [Runtime.read, Runtime.Handles]
  | httpx e =>
    simp only [Runtime.read, Runtime.Handles]
    by_cases he : e.isUnavailable = true
    · simp [he]
    · simp [he]
  | response status body =>
    simp only [Runtime.read, Runtime.Handles]
    by_cases hs : 200 ≤ status ∧ status ≤ 299
    · rw [if_pos hs]
      cases rt.json body with
      | none => simp [hs]
      | some v => simp
    · rw [if_neg hs]
      simp [hs]

theorem fetch_escapes_iff (rt : Runtime) (url : String) :
    rt.fetch url ≠ .error .escaping ↔ rt.Handles (rt.get url) := read_escapes_iff rt _

/-- A leg turns every other failure into a value. -/
theorem leg_cases (rt : Runtime) (url : String) :
    ((∃ v, rt.leg url = .ok v) ∧ rt.Handles (rt.get url)) ∨
      (rt.leg url = .error .escaping ∧ ¬rt.Handles (rt.get url)) := by
  rw [← fetch_escapes_iff, not_not, Runtime.leg]
  cases h : rt.fetch url with
  | ok v => exact Or.inl ⟨⟨v, rfl⟩, nofun⟩
  | error e =>
    cases e with
    | httpStatus status => exact Or.inl ⟨⟨_, rfl⟩, nofun⟩
    | unavailable => exact Or.inl ⟨⟨_, rfl⟩, nofun⟩
    | escaping => exact Or.inr ⟨rfl, rfl⟩

theorem answer_isSome_iff (rt : Runtime) (name : String) (r : Except Failure Json) :
    (∃ content, rt.answer name r = some content) ↔ r ≠ .error .escaping := by
  cases r with
  | ok v => simp [Runtime.answer]
  | error e => cases e <;> simp [Runtime.answer]

/-- A tool for a guest does not get further without one. -/
theorem guestIdOf_bind_iff {kwargs : List (String × Json)} {f : Json → Except Failure Json}
    {P : Json → Prop} (hf : ∀ guestId, f guestId ≠ .error .escaping ↔ P guestId) :
    guestIdOf kwargs >>= f ≠ .error .escaping ↔
      ∃ guestId, kwargs.lookup "guest_id" = some guestId ∧ P guestId := by
  cases h : kwargs.lookup "guest_id" with
  | none => simp [guestIdOf, h, bind, Except.bind]
  | some guestId => simp [guestIdOf, h, bind, Except.bind, hf]

theorem journey_escapes_iff (rt : Runtime) (guestId : Json) :
    (do
      let arrival ← rt.leg (rt.arrivalUrl guestId)
      let reservation ← rt.leg (rt.reservationUrl guestId)
      return Json.obj [("guest_id", guestId), ("arrival", arrival), ("reservation", reservation)]) ≠
        .error .escaping ↔
      rt.Handles (rt.get (rt.arrivalUrl guestId)) ∧
        rt.Handles (rt.get (rt.reservationUrl guestId)) := by
  rcases leg_cases rt (rt.arrivalUrl guestId) with ⟨⟨a, ha⟩, hha⟩ | ⟨ha, hha⟩
  · rcases leg_cases rt (rt.reservationUrl guestId) with ⟨⟨r, hr⟩, hhr⟩ | ⟨hr, hhr⟩
    · simp [ha, hr, hha, hhr, bind, Except.bind, pure, Except.pure]
    · simp [ha, hr, hhr, bind, Except.bind]
  · simp [ha, hha, bind, Except.bind]

theorem dispatch_escapes_iff (rt : Runtime) (kwargs : List (String × Json)) (tool : Tool) :
    rt.dispatch kwargs tool ≠ .error .escaping ↔ rt.Serves kwargs tool := by
  cases tool with
  | getAirportStats => simp [Runtime.dispatch, Runtime.Serves, Runtime.publicUrls,
      Tool.needsGuestId, ← fetch_escapes_iff]
  | getAirportQueueStatus => simp [Runtime.dispatch, Runtime.Serves, Runtime.publicUrls,
      Tool.needsGuestId, ← fetch_escapes_iff]
  | getHotelRooms => simp [Runtime.dispatch, Runtime.Serves, Runtime.publicUrls,
      Tool.needsGuestId, ← fetch_escapes_iff]
  | getGuestArrivalStatus =>
    rw [Runtime.dispatch, guestIdOf_bind_iff fun _ => fetch_escapes_iff rt _]
    simp [Runtime.Serves, Runtime.publicUrls, Runtime.guestUrls, Tool.needsGuestId]
  | getGuestReservation =>
    rw [Runtime.dispatch, guestIdOf_bind_iff fun _ => fetch_escapes_iff rt _]
    simp [Runtime.Serves, Runtime.publicUrls, Runtime.guestUrls, Tool.needsGuestId]
  | getGuestJourneyStatus =>
    rw [Runtime.dispatch, guestIdOf_bind_iff fun _ => journey_escapes_iff rt _]
    simp [Runtime.Serves, Runtime.publicUrls, Runtime.guestUrls, Tool.needsGuestId]

/-! ## `_run_one_tool` -/

theorem executeTool_isSome_iff (rt : Runtime) (name : Option String) (arguments : Json)
    (guestId : Option String) :
    (∃ content, rt.executeTool name arguments guestId = some content) ↔
      ∀ tool, toolOf name = some tool → ∃ kwargs, arguments = .obj kwargs ∧ rt.Serves kwargs tool := by
  unfold Runtime.executeTool
  cases htool : toolOf name with
  | none => simp
  | some tool =>
    cases arguments with
    | obj kwargs =>
      simp only [answer_isSome_iff, dispatch_escapes_iff, Option.some.injEq, Json.obj.injEq,
        exists_eq_left', forall_eq']
    | _ => simp

/-- What `json.loads` and the `except` behind it leave of an argument string. -/
theorem parseArguments_eq_some_iff {rt : Runtime} {argumentsStr : String} :
    (∃ arguments, rt.parseArguments argumentsStr = some arguments) ↔
      (argumentsStr = "" ∨ rt.loads argumentsStr ≠ .raised) := by
  unfold Runtime.parseArguments
  by_cases hs : argumentsStr = ""
  · simp [hs]
  · cases hl : rt.loads argumentsStr with
    | value v => simp [hs]
    | decodeError => simp [hs]
    | raised => simp [hs]

theorem keywords_iff {rt : Runtime} {argumentsStr : String} {kwargs : List (String × Json)} :
    rt.parseArguments argumentsStr = some (.obj kwargs) ↔ rt.Keywords argumentsStr kwargs := by
  unfold Runtime.parseArguments Runtime.Keywords
  by_cases hs : argumentsStr = ""
  · simp [hs, eq_comm]
  · cases hl : rt.loads argumentsStr with
    | value v => simp [hs]
    | decodeError => simp [hs, eq_comm]
    | raised => simp [hs]

theorem runOneTool_isSome_iff (rt : Runtime) (call : ToolCall) (guestId : Option String) :
    (∃ content, rt.runOneTool call guestId = some (.tool call.id content)) ↔ rt.CanRun call := by
  unfold Runtime.CanRun
  rw [← parseArguments_eq_some_iff]
  simp only [← keywords_iff]
  cases hargs : rt.parseArguments call.argumentsStr with
  | none => simp [Runtime.runOneTool, hargs]
  | some arguments =>
    have hrun : (∃ content, rt.runOneTool call guestId = some (.tool call.id content)) ↔
        ∃ content, rt.executeTool call.name arguments guestId = some content := by
      cases hresult : rt.executeTool call.name arguments guestId with
      | none => simp [Runtime.runOneTool, hargs, hresult]
      | some content => simp [Runtime.runOneTool, hargs, hresult]
    rw [hrun, executeTool_isSome_iff]
    simp

/-! ## The chat around it -/

/-- What `chat` meets when it awaits `_run_one_tool`. -/
def Runtime.toolStimulus (rt : Runtime) (call : ToolCall) (guestId : Option String) : Stimulus :=
  match rt.runOneTool call guestId with
  | some (.tool _ content) => .toolReturned content
  | _ => .raised

/-- A tool message takes `chat` to the next call, the next round or its return. -/
theorem chatCalls_not_badGateway (store : ConversationStore) (req : ChatRequest) (turn : Turn)
    (now : ℚ) (left : ℕ) (rest : List ToolCall) (store' : ConversationStore) (detail : String) :
    chatCalls store req turn now left rest ≠ (store', .settled (.badGateway detail)) := by
  intro h
  cases rest with
  | nil =>
    cases left with
    | zero => cases (Prod.mk.inj h).2
    | succ left => cases (Prod.mk.inj h).2
  | cons call rest => cases (Prod.mk.inj h).2

/-- The call comes back with a message for its id, and `chat` does not raise an exception at it,
whatever it has done before. -/
def Runtime.ComesBack (rt : Runtime) (call : ToolCall) (guestId : Option String) : Prop :=
  (∃ content, rt.runOneTool call guestId = some (.tool call.id content)) ∧
    ∀ (app : App) (store : ConversationStore) (req : ChatRequest) (now : ℚ) (turn : Turn) (left : ℕ)
      (rest : List ToolCall) (store' : ConversationStore) (detail : String),
      chatStep app store req ⟨rt.toolStimulus call guestId, now⟩ (.runTool turn left call rest) ≠
        some (store', .settled (.badGateway detail))

/-- **Tool calls that come back**: a call comes back if and only if it can be run. -/
theorem comesBack_iff_canRun (rt : Runtime) (call : ToolCall) (guestId : Option String) :
    rt.ComesBack call guestId ↔ rt.CanRun call := by
  rw [Runtime.ComesBack, runOneTool_isSome_iff, and_iff_left_of_imp]
  intro hrun app store req now turn left rest store' detail
  obtain ⟨content, hcontent⟩ := (runOneTool_isSome_iff rt call guestId).2 hrun
  have hstimulus : rt.toolStimulus call guestId = .toolReturned content := by
    rw [Runtime.toolStimulus, hcontent]
  simp only [chatStep, hstimulus, ne_eq, Option.some.injEq]
  exact chatCalls_not_badGateway _ _ _ _ _ _ _ _

section MisreadArguments

/-- The `json` functions on the texts that occur here, and a hotel that answers a guest without a
reservation as its framework does, with a success and an empty body. -/
def quietRuntime : Runtime where
  airportServiceUrl := "http://localhost:3001"
  hotelServiceUrl := "http://localhost:3000"
  loads s :=
    if s = "[]" then .value (.arr [])
    else if s = "\x7b\x7d" then .value (.obj [])
    else if s = "\x7b\"guest_id\": \"kiki-smith\"\x7d" then
      .value (.obj [("guest_id", .str "kiki-smith")])
    else .decodeError
  dumps
    | .obj [] => "\x7b\x7d"
    | _ => "null"
  str _ := "None"
  json body := if body = [123, 125] then some (.obj []) else none
  get url :=
    if url = "http://localhost:3001/stats" then .response 200 [123, 125]
    else if url = "http://localhost:3000/rooms" then .httpx .readError
    else .response 200 []

/-- Arguments that are a list, a tool for guests without a guest, a guest without a reservation, and a
connection that breaks while the answer is read: each raises an exception, and `/chat` ends with the
error for an outage of the model. With arguments that are not JSON the same tool returns. -/
theorem misreadArguments_escape :
    quietRuntime.runOneTool ⟨"call_0", some "get_airport_stats", "[]"⟩ none = none ∧
      quietRuntime.runOneTool ⟨"call_0", some "get_guest_reservation", "\x7b\x7d"⟩ none = none ∧
      quietRuntime.runOneTool
        ⟨"call_0", some "get_guest_reservation", "\x7b\"guest_id\": \"kiki-smith\"\x7d"⟩ none = none ∧
      quietRuntime.runOneTool ⟨"call_0", some "get_hotel_rooms", "\x7b\x7d"⟩ none = none ∧
      quietRuntime.runOneTool ⟨"call_0", some "get_airport_stats", "\x7b"⟩ none =
        some (.tool "call_0" "\x7b\x7d") ∧
      chatStep ⟨"", id⟩ (ConversationStore.init 20 1800 500) ⟨"hi", none, by decide⟩
          ⟨quietRuntime.toolStimulus ⟨"call_0", some "get_airport_stats", "[]"⟩ none, 0⟩
          (.runTool ⟨[], []⟩ 4 ⟨"call_0", some "get_airport_stats", "[]"⟩ []) =
        some (ConversationStore.init 20 1800 500, .settled (.badGateway llmUnavailable)) ∧
      ¬quietRuntime.ComesBack ⟨"call_0", some "get_airport_stats", "[]"⟩ none :=
  ⟨rfl, rfl, rfl, rfl, rfl, rfl, fun h => absurd h.1.choose_spec nofun⟩

end MisreadArguments

end Parrot
