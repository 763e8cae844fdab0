import Webmeow.Gateway.RateLimit
import Webmeow.Lib.Interleaving

/-!
# Changing the rate limit while the gateway runs

`AdminRateLimitHandler` as a thread. The limit and the window are separate atomics, so every load
and every store is a step of its own. Durations are in nanoseconds and `parseDuration` is
`time.ParseDuration`. A request is the outcome of decoding its body.
-/

namespace Gateway

open Interleaving

/-- The body of a request for new limits. -/
structure RateLimitUpdate where
  /-- `limit`, if it is given. -/
  limit : Option ℤ
  /-- `window`, if it is given, as the text of a duration. -/
  window : Option String

/-- The two settings of the limiter. -/
inductive Setting where
  | limit
  | window
deriving DecidableEq

/-- The value of a setting. -/
def RateLimiter.get (rl : RateLimiter) : Setting → ℤ
  | .limit => rl.limit
  | .window => rl.perNs

/-- What the admin endpoint answers. -/
inductive AdminResponse where
  /-- The settings after the update. -/
  | ok (limit window : ℤ)
  /-- The body or its duration is malformed. -/
  | badRequest (error : String)
deriving DecidableEq

/-- The next atomic operation of a request, with the local variables that are still needed. -/
inductive AdminPc where
  /-- `rl.Limit()` for the default. -/
  | loadLimit
  /-- `rl.Window()` for the default. -/
  | loadWindow (limit : ℤ)
  /-- The first store of `SetLimits`. -/
  | storeLimit (limit per : ℤ)
  /-- The second store of `SetLimits`. -/
  | storeWindow (per : ℤ)
  /-- `rl.Limit()` for the answer. -/
  | readLimit
  /-- `rl.Window()` for the answer. -/
  | readWindow (limit : ℤ)
  /-- The request is answered. -/
  | done (response : AdminResponse)
deriving DecidableEq

/-- An admin request that is being handled. -/
structure AdminThread where
  /-- The body, if it could be decoded. -/
  body : Option RateLimitUpdate
  /-- Where the handler stands. -/
  pc : AdminPc

/-- A request whose body is malformed is answered at once. -/
def adminStart : Option RateLimitUpdate → AdminThread
  | none => ⟨none, .done (.badRequest "invalid body")⟩
  | some body => ⟨some body, .loadLimit⟩

variable (parseDuration : String → Option ℤ)

/-- From the load of the window on: the window of the body, if there is one, replaces it. -/
def resolveWindow (window : Option String) (limit loaded : ℤ) : AdminPc :=
  match window with
  | none => .storeLimit limit loaded
  | some s =>
    match parseDuration s with
    | none => .done (.badRequest "invalid window")
    | some d => .storeLimit limit d

/-- One operation of the handler on the limiter. -/
def adminPcStep (rl : RateLimiter) (body : RateLimitUpdate) :
    AdminPc → Option (RateLimiter × AdminPc)
  | .loadLimit => some (rl, .loadWindow (body.limit.getD rl.limit))
  | .loadWindow limit => some (rl, resolveWindow parseDuration body.window limit rl.perNs)
  | .storeLimit limit per =>
    some ({ rl with limit := limit }, if 0 < per then .storeWindow per else .readLimit)
  | .storeWindow per => some ({ rl with perNs := per }, .readLimit)
  | .readLimit => some (rl, .readWindow rl.limit)
  | .readWindow limit => some (rl, .done (.ok limit rl.perNs))
  | .done _ => none

/-- One step of an admin request. -/
def adminAct (rl : RateLimiter) (t : AdminThread) (_ : Unit) : Option (RateLimiter × AdminThread) :=
  t.body.bind fun body =>
    (adminPcStep parseDuration rl body t.pc).map fun q => (q.1, { t with pc := q.2 })

/-! ## What a request asks for -/

/-- The value that a request carries for a setting. A request with a window that is not a duration is
rejected and carries nothing; a window that is not positive is no window. -/
def RateLimitUpdate.carries (body : RateLimitUpdate) : Setting → Option ℤ
  | .limit => if body.window.all fun s => (parseDuration s).isSome then body.limit else none
  | .window => (body.window.bind parseDuration).filter fun d => 0 < d

/-- The value the request carries for a setting. -/
def AdminThread.carries (t : AdminThread) (f : Setting) : Option ℤ :=
  t.body.bind fun body => body.carries parseDuration f

/-- The store that the next operation of the thread performs. -/
def AdminThread.storing (t : AdminThread) : Option (Setting × ℤ) :=
  match t.pc with
  | .storeLimit limit _ => some (.limit, limit)
  | .storeWindow per => some (.window, per)
  | _ => none

/-- The request is answered. -/
def AdminThread.Done (t : AdminThread) : Prop := ∃ response, t.pc = .done response

instance (t : AdminThread) : Decidable t.Done :=
  match h : t.pc with
  | .done response => isTrue ⟨response, h⟩
  | .loadLimit | .loadWindow _ | .storeLimit _ _ | .storeWindow _ | .readLimit | .readWindow _ =>
    isFalse fun ⟨_, hd⟩ => by rw [h] at hd; cases hd

/-- The limiter together with the values that its settings would have if every request stored what
it carries and nothing else. -/
structure Watched where
  /-- The rate limiter. -/
  limiter : RateLimiter
  /-- The last carried value stored for each setting. -/
  carried : Setting → ℤ

/-- The store of a thread, seen by the watcher. -/
def Watched.store (s : Watched) (limiter : RateLimiter) (t : AdminThread) : Watched where
  limiter := limiter
  carried := match t.storing with
    | none => s.carried
    | some (f, v) => if (t.carries parseDuration f).isSome then Function.update s.carried f v
      else s.carried

/-- A step of the handler does not depend on what is watched. -/
def watchedAct (s : Watched) (t : AdminThread) (x : Unit) : Option (Watched × AdminThread) :=
  (adminAct parseDuration s.limiter t x).map fun q => (s.store parseDuration q.1 t, q.2)

/-- Any number of admin requests over one watched limiter. -/
abbrev AdminSystem := Pool Watched AdminThread

/-- A request comes in or one of them takes a step. -/
def adminStep : AdminSystem → Event (Option RateLimitUpdate) Unit → Option AdminSystem :=
  Pool.step adminStart (watchedAct parseDuration)

/-- No request has come in. -/
def AdminSystem.initial (rl : RateLimiter) : AdminSystem := ⟨⟨rl, rl.get⟩, []⟩

/-- The step stores a value for a setting that its request does not carry, and the setting has a
different value by now: it changed since the request read it. -/
def staleStore (p : AdminSystem) : Event (Option RateLimitUpdate) Unit → Bool
  | .request _ => false
  | .advance i _ =>
    match p.threads[i]? with
    | none => false
    | some t =>
      match t.storing with
      | none => false
      | some (f, v) =>
        (t.carries parseDuration f).isNone && decide (p.store.limiter.get f ≠ v)

end Gateway
