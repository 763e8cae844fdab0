import Webmeow.Gateway.Config
import Webmeow.Lib.Interleaving

/-!
# The health check of the gateway

One call of `HealthHandler`. A goroutine for each configured service asks its first instance and writes the
result under a lock; the handler waits for all of them. A goroutine that has not been started yet is one
that has not taken a step. Times are in nanoseconds; `durationString` is the latency, rounded and written.
-/

namespace Gateway

open Interleaving

/-- The key of a service in the maps of the handler. -/
def Service.name : Service → String
  | .airport => "airport"
  | .hotel => "hotel"
  | .beach => "beach"
  | .broadcast => "broadcast"
  | .parrot => "parrot"

/-- `serviceHealth` -/
structure ServiceHealth where
  /-- `status` -/
  status : String
  /-- `latency`, as the text of a duration. -/
  latency : String

/-- The results of the checks, by the names of the services. -/
abbrev HealthResults := AList fun _ : String => ServiceHealth

/-- The body of the answer. -/
structure HealthResponse where
  /-- `status` -/
  status : String
  /-- `services` -/
  services : HealthResults

/-- The result of a check: a response with the status 200 is healthy, any other one and an error are not. -/
def serviceHealth (response : Option ℤ) (latency : String) : ServiceHealth :=
  ⟨if response = some 200 then "healthy" else "unhealthy", latency⟩

/-- The loop over the results, which stops at the first one that is not healthy. -/
def overall : List ServiceHealth → String
  | [] => "healthy"
  | sh :: results => if sh.status ≠ "healthy" then "degraded" else overall results

/-- The answer for the results. -/
def healthResponse (results : HealthResults) : HealthResponse :=
  ⟨overall (results.entries.map fun e => e.2), results⟩

/-! ## The goroutines -/

/-- The next step of a check. -/
inductive CheckPc where
  /-- The goroutine has not started. -/
  | start
  /-- `client.Get` -/
  | asking (start : ℤ)
  /-- Under the lock. -/
  | write (response : Option ℤ) (latency : String)
  /-- `wg.Done` -/
  | release (response : Option ℤ) (latency : String)
  /-- The goroutine has ended. -/
  | finished (response : Option ℤ) (latency : String)

/-- The goroutines of one health request and its handler. -/
inductive HealthThread where
  /-- The check of a service. -/
  | check (s : Service) (url : String) (pc : CheckPc)
  /-- `wg.Wait` and what comes after it. -/
  | handler (response : Option HealthResponse)

/-- What the goroutines share. -/
structure HealthStore where
  /-- The map of the results. -/
  results : HealthResults
  /-- The counter of the wait group. -/
  pending : ℕ

/-- The time, and the outcome of a request to a service: a status or an error. -/
structure HealthInput where
  /-- The clock. -/
  now : ℤ
  /-- The status a service answered with, if it answered. -/
  response : Option ℤ

variable (durationString : ℤ → String)

/-- One step of a goroutine or of the handler. -/
def healthAct (st : HealthStore) (t : HealthThread) (x : HealthInput) :
    Option (HealthStore × HealthThread) :=
  match t with
  | .check s url .start => some (st, .check s url (.asking x.now))
  | .check s url (.asking start) =>
    some (st, .check s url (.write x.response (durationString (x.now - start))))
  | .check s url (.write response latency) =>
    some ({ st with results := st.results.insert s.name (serviceHealth response latency) },
      .check s url (.release response latency))
  | .check s url (.release response latency) =>
    some ({ st with pending := st.pending - 1 }, .check s url (.finished response latency))
  | .check _ _ (.finished _ _) => none
  | .handler none =>
    if st.pending = 0 then some (st, .handler (some (healthResponse st.results))) else none
  | .handler (some _) => none

/-- A health request under way. -/
abbrev HealthSystem := Pool HealthStore HealthThread

/-- The handler with a goroutine for each service with a URL. -/
def Config.healthStart (cfg : Config) : HealthSystem :=
  ⟨⟨∅, cfg.checked.length⟩,
    cfg.checked.map (fun s => .check s (cfg.serviceURL s) .start) ++ [.handler none]⟩

/-- Nothing arrives during the call. -/
def healthStep : HealthSystem → Event Empty HealthInput → Option HealthSystem :=
  Pool.step Empty.elim (healthAct durationString)

end Gateway
