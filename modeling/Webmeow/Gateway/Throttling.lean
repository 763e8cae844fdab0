import Webmeow.Gateway.Admin

/-!
# Requests under a limit that changes

`RateLimitMiddleware` as a thread beside the admin requests. The middleware loads the limit, and `allow`
loads the limit again, then the window length, and then changes the counter under the lock. A step of
a thread happens at a time of the clock.
-/

namespace Gateway

open Interleaving

/-- The next atomic operation of a request, with the local variables of `allow`. -/
inductive RequestPc where
  /-- `rl.Limit()` of the middleware. -/
  | readLimit
  | loadLimit
  | loadWindow (limit : ℤ)
  /-- The part of `allow` under the lock. -/
  | update (limit per : ℤ)
  /-- The window length for the `Retry-After` header. -/
  | readWindow
  /-- Passed on to the next handler. -/
  | passed
  /-- Answered 429. -/
  | tooManyRequests (retryAfter : ℤ)
deriving DecidableEq

/-- A request that is being limited. -/
structure RequestThread where
  /-- The remote address. -/
  remoteAddr : String
  /-- Where the middleware stands. -/
  pc : RequestPc
deriving DecidableEq

/-- `allow` under the lock, with the limit and the window length that it has loaded. -/
def RateLimiter.allowWith (rl : RateLimiter) (limit per : ℤ) (key : String) (now : ℤ) :
    RateLimiter × Bool :=
  let q := RateLimiter.allow { rl with limit := limit, perNs := per } key now
  ({ rl with clients := q.1.clients }, q.2)

/-- One operation of a request at a time of the clock. -/
def requestPcStep (rl : RateLimiter) (key : String) (now : ℤ) :
    RequestPc → Option (RateLimiter × RequestPc)
  | .readLimit => some (rl, if rl.limit ≤ 0 then .passed else .loadLimit)
  | .loadLimit => some (rl, .loadWindow rl.limit)
  | .loadWindow limit => some (rl, .update limit rl.perNs)
  | .update limit per =>
    let q := rl.allowWith limit per key now
    some (q.1, if q.2 then .passed else .readWindow)
  | .readWindow => some (rl, .tooManyRequests rl.perNs)
  | .passed => none
  | .tooManyRequests _ => none

/-! ## The gateway -/

/-- The limiter and the clock. -/
structure LimiterStore where
  /-- The rate limiter. -/
  limiter : RateLimiter
  /-- The clock, as last read. -/
  now : ℤ

/-- A request to a service or to the admin endpoint. -/
inductive LimiterThread where
  | client (t : RequestThread)
  | admin (t : AdminThread)

/-- What arrives: a request of a client, or a request to `AdminRateLimitHandler`. -/
inductive Incoming where
  /-- A request to a service. -/
  | client (remoteAddr : String)
  /-- A request to the admin endpoint. -/
  | admin (body : Option RateLimitUpdate)

/-- The handling of a request as it comes in. -/
def limiterStart : Incoming → LimiterThread
  | .client remoteAddr => .client ⟨remoteAddr, .readLimit⟩
  | .admin body => .admin (adminStart body)

/-- A step of a thread at a time, which is not before the last one. -/
def limiterAct (parseDuration : String → Option ℤ) (s : LimiterStore) (t : LimiterThread) (now : ℤ) :
    Option (LimiterStore × LimiterThread) :=
  if now < s.now then none
  else
    match t with
    | .client t =>
      (requestPcStep s.limiter t.remoteAddr now t.pc).map fun q =>
        (⟨q.1, now⟩, .client { t with pc := q.2 })
    | .admin t =>
      (adminAct parseDuration s.limiter t ()).map fun q => (⟨q.1, now⟩, .admin q.2)

/-- Any number of requests over one limiter. -/
abbrev LimiterSystem := Pool LimiterStore LimiterThread

/-- A request comes in or one of them takes a step. -/
def limiterStep (parseDuration : String → Option ℤ) :
    LimiterSystem → Event Incoming ℤ → Option LimiterSystem :=
  Pool.step limiterStart (limiterAct parseDuration)

/-- No request has come in. -/
def LimiterSystem.initial (rl : RateLimiter) (now : ℤ) : LimiterSystem := ⟨⟨rl, now⟩, []⟩

/-- The request with this number, if it is one of a client. -/
def LimiterSystem.client (p : LimiterSystem) (i : ℕ) : Option RequestThread :=
  match p.threads[i]? with
  | some (.client t) => some t
  | _ => none

end Gateway
