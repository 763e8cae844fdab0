import Mathlib.Data.List.Basic

/-!
# The event connection of the frontend

`useBroadcast` as a state machine. Its effect runs once for each mount and returns no cleanup. A new
instance of the component has refs of its own; when React unmounts and mounts an instance again, the
refs stay. The handlers of an `EventSource` and of a timer use the refs of the instance that made
it. Which events an accepted message becomes is left to a type `ε`.
-/

namespace Frontend

/-- The status the hook shows. -/
inductive ConnectionStatus where
  | connected
  | dropped
  | reconnecting
deriving DecidableEq

/-- The first delay before a reconnect. -/
def BACKOFF_INITIAL_MS : ℕ := 1000

/-- The longest delay before a reconnect. -/
def BACKOFF_MAX_MS : ℕ := 30000

/-- The refs and the state of one instance of the hook. A connection and a timer are referred to by
the number of `EventSource`s and timers made before. -/
structure Refs where
  /-- The `EventSource` of the hook, by its number. -/
  connection : Option ℕ
  /-- The delay before the next reconnect. -/
  backoff : ℕ
  /-- The timer of the next reconnect, by its number. -/
  timer : Option ℕ
  /-- `activeRef` -/
  active : Bool
  /-- The status shown. -/
  status : ConnectionStatus
deriving DecidableEq

/-- The states of an `EventSource`. -/
inductive ReadyState where
  | connecting
  | opened
  | closed
deriving DecidableEq

/-- An `EventSource` that was opened. -/
structure EventSource where
  /-- The instance of the hook that opened it. -/
  owner : ℕ
  /-- Its state. -/
  readyState : ReadyState
deriving DecidableEq

/-- A timer that was set. -/
structure Timer where
  /-- The instance of the hook that set it. -/
  owner : ℕ
  /-- Its delay. -/
  delay : ℕ
  /-- Whether it has not fired yet. -/
  pending : Bool
deriving DecidableEq

/-- All instances of the hook so far, the last one being the current one, with what they made. The
broadcast events are numbered; `ingested` are those given to the store, with their number. -/
structure Hook (ε : Type*) where
  /-- The instances of the hook mounted so far. -/
  instances : List Refs
  /-- Whether the last of them is mounted. -/
  mounted : Bool
  /-- The event sources opened so far. -/
  sources : List EventSource
  /-- The timers set so far. -/
  timers : List Timer
  /-- How many events the server has sent. -/
  broadcasts : ℕ
  /-- What the store was given, with the number of the broadcast. -/
  ingested : List (ℕ × ε)

/-- What can happen at the hook, the browser and the server. -/
inductive HookEvent (ε : Type*) where
  /-- A new instance is mounted. -/
  | mount
  /-- The current instance is mounted again. -/
  | remount
  /-- The current instance is unmounted. -/
  | unmount
  /-- Source `i` connects. -/
  | opened (i : ℕ)
  /-- Source `i` fails. -/
  | errored (i : ℕ)
  /-- Timer `j` fires. -/
  | timer (j : ℕ)
  /-- The server sends an event; `none` if it is malformed or no event for the store. -/
  | broadcast (event : Option ε)

variable {ε : Type*}

/-- Nothing is mounted yet. -/
def Hook.initial : Hook ε := ⟨[], false, [], [], 0, []⟩

/-- What `useState` and `useRef` give a new instance. -/
def newRefs (gatewayUrl : String) : Refs where
  connection := none
  backoff := BACKOFF_INITIAL_MS
  timer := none
  active := true
  status := if gatewayUrl = "" then .dropped else .reconnecting

/-- The references of instance `k`, changed by `f`. -/
def Hook.setRefs (s : Hook ε) (k : ℕ) (f : Refs → Refs) : Hook ε :=
  { s with instances := s.instances.modify k f }

/-- Whether instance `k` is active. -/
def Hook.isActive (s : Hook ε) (k : ℕ) : Bool := (s.instances[k]?.map Refs.active).getD false

/-- `connect` of instance `k`. -/
def Hook.connect (s : Hook ε) (k : ℕ) : Hook ε :=
  if s.isActive k then
    { s with
      instances := s.instances.modify k fun r => { r with connection := some s.sources.length }
      sources := s.sources ++ [⟨k, .connecting⟩] }
  else s

/-- The effect, run for instance `k`. -/
def Hook.effect (gatewayUrl : String) (s : Hook ε) (k : ℕ) : Hook ε :=
  if gatewayUrl = "" then s else (s.setRefs k fun r => { r with active := true }).connect k

/-- The handler of a connection that opens. -/
def Hook.onopen (s : Hook ε) (k : ℕ) : Hook ε :=
  s.setRefs k fun r => { r with backoff := BACKOFF_INITIAL_MS, status := .connected }

/-- `onerror` after the `EventSource` is closed. -/
def Hook.onerror (s : Hook ε) (k : ℕ) : Hook ε :=
  let s := s.setRefs k fun r => { r with connection := none, status := .reconnecting }
  match s.instances[k]? with
  | none => s
  | some refs =>
    if !refs.active then s
    else
      { s.setRefs k fun r =>
          { r with
            backoff := min (refs.backoff * 2) BACKOFF_MAX_MS
            timer := some s.timers.length } with
        timers := s.timers ++ [⟨k, refs.backoff, true⟩] }

/-- The open sources each deliver an accepted event once. -/
def Hook.ingest (s : Hook ε) : Option ε → List (ℕ × ε)
  | none => []
  | some e => (s.sources.filter fun es => es.readyState = .opened).map fun _ => (s.broadcasts, e)

/-- One event; `none` where it cannot happen. -/
def Hook.step (gatewayUrl : String) (s : Hook ε) : HookEvent ε → Option (Hook ε)
  | .mount =>
    if s.mounted then none
    else
      let s := { s with mounted := true, instances := s.instances ++ [newRefs gatewayUrl] }
      some (s.effect gatewayUrl (s.instances.length - 1))
  | .remount =>
    if s.mounted ∨ s.instances = [] then none
    else some (Hook.effect gatewayUrl { s with mounted := true } (s.instances.length - 1))
  | .unmount => if s.mounted then some { s with mounted := false } else none
  | .opened i =>
    match s.sources[i]? with
    | some ⟨k, .connecting⟩ =>
      some (Hook.onopen { s with sources := s.sources.set i ⟨k, .opened⟩ } k)
    | _ => none
  | .errored i =>
    match s.sources[i]? with
    | none => none
    | some es =>
      if es.readyState = .closed then none
      else
        some (Hook.onerror { s with sources := s.sources.set i { es with readyState := .closed } }
          es.owner)
  | .timer j =>
    match s.timers[j]? with
    | none => none
    | some t =>
      if t.pending then
        some (Hook.connect { s with timers := s.timers.set j { t with pending := false } } t.owner)
      else none
  | .broadcast event =>
    some { s with broadcasts := s.broadcasts + 1, ingested := s.ingested ++ s.ingest event }

/-- The connections that are alive: not closed, though not necessarily open yet. -/
def Hook.live (s : Hook ε) : ℕ := s.sources.countP fun es => es.readyState ≠ .closed

/-- The timers that will still connect again. -/
def Hook.scheduled (s : Hook ε) : ℕ := s.timers.countP Timer.pending

/-- At most one connection is alive, none is alive or scheduled while the hook is not mounted, and
every broadcast event was ingested at most once. -/
structure Hook.OneConnection (s : Hook ε) : Prop where
  /-- At most one source is not closed. -/
  live : s.live ≤ 1
  /-- Unmounted, the hook has no source and no timer. -/
  unmounted : s.mounted = false → s.live = 0 ∧ s.scheduled = 0
  /-- No broadcast reaches the store twice. -/
  once : (s.ingested.map Prod.fst).Nodup

end Frontend
