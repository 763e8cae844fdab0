import Mathlib.Data.List.AList

/-!
# The rate limiter of the gateway

A fixed-window counter for each key, where the key of a request is its `RemoteAddr`. Times and
durations are in nanoseconds.
-/

namespace Gateway

/-- The window of a client. -/
structure Window where
  /-- The requests counted in it. -/
  count : ℤ
  /-- When it ends, in nanoseconds. -/
  reset : ℤ
deriving DecidableEq

/-- The rate limiter. -/
structure RateLimiter where
  /-- The window of each client. -/
  clients : AList fun _ : String => Window
  /-- The requests of a window, zero for any number. -/
  limit : ℤ
  /-- The length of a window in nanoseconds. -/
  perNs : ℤ

/-- A limiter that has seen no client. -/
def newRateLimiter (limit per : ℤ) : RateLimiter := ⟨∅, limit, per⟩

/-- The window that counts for a key: the stored one, or a new one when that is over. -/
def RateLimiter.window (rl : RateLimiter) (key : String) (now : ℤ) : Window :=
  match rl.clients.lookup key with
  | none => ⟨0, now + rl.perNs⟩
  | some w => if w.reset < now then ⟨0, now + rl.perNs⟩ else w

/-- The client has the window. -/
def RateLimiter.put (rl : RateLimiter) (key : String) (w : Window) : RateLimiter :=
  { rl with clients := rl.clients.insert key w }

/-- The limiter afterwards, and whether the request may pass. -/
def RateLimiter.allow (rl : RateLimiter) (key : String) (now : ℤ) : RateLimiter × Bool :=
  let w := rl.window key now
  if rl.limit ≤ w.count then (rl.put key w, false)
  else (rl.put key { w with count := w.count + 1 }, true)

/-- A request that came directly, without proxy headers, so that `RealIP` left `RemoteAddr` alone. -/
structure DirectRequest where
  /-- The address of the client. -/
  ip : String
  /-- The port of the connection. -/
  port : ℕ
  /-- When the request is limited. -/
  now : ℤ
deriving DecidableEq

/-- The remote address of the request. -/
def DirectRequest.remoteAddr (r : DirectRequest) : String := r.ip ++ ":" ++ toString r.port

/-- `RateLimitMiddleware`: the limiter afterwards, and whether the request is passed on. -/
def RateLimiter.serve (rl : RateLimiter) (r : DirectRequest) : RateLimiter × Bool :=
  if rl.limit ≤ 0 then (rl, true) else rl.allow r.remoteAddr r.now

/-- The decisions on a sequence of requests, in order. -/
def RateLimiter.decisions (rl : RateLimiter) : List DirectRequest → List (DirectRequest × Bool)
  | [] => []
  | r :: rs => (r, (rl.serve r).2) :: (rl.serve r).1.decisions rs

/-! ## Calls of `allow` -/

/-- A call of `allow`. -/
structure AllowCall where
  /-- The client. -/
  key : String
  /-- When it is called. -/
  now : ℤ
deriving DecidableEq

/-- What a call got, with the end of the window that counted for it. -/
structure AllowAnswer where
  /-- The client. -/
  key : String
  /-- When it was called. -/
  now : ℤ
  /-- The end of the window it was counted in. -/
  reset : ℤ
  /-- Whether it was admitted. -/
  admitted : Bool
deriving DecidableEq

/-- The answer to a call. -/
def RateLimiter.answer (rl : RateLimiter) (c : AllowCall) : AllowAnswer :=
  ⟨c.key, c.now, (rl.window c.key c.now).reset, (rl.allow c.key c.now).2⟩

/-- The answers to a sequence of calls, in order. -/
def RateLimiter.answers (rl : RateLimiter) : List AllowCall → List AllowAnswer
  | [] => []
  | c :: cs => rl.answer c :: (rl.allow c.key c.now).1.answers cs

end Gateway
