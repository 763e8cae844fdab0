import Webmeow.Gateway.Proxy
import Webmeow.Lib.UrlWriting

/-!
# Forwarding to one backend and to a pool

What the handlers of `ProxyRoute` and `PooledProxyRoute` and the reverse proxy behind them make of the
URL of a request, up to the request line that the backend reads, and the counter by which a pool takes
turns.
-/

namespace Gateway

open Url

/-! ## The path -/

/-- The URL after `req.URL.Path = wildcardPath`, which leaves the raw path alone. -/
def rewrittenURL (url : URL) (wildcard : List Char) : Location :=
  { url.location with path := wildcardPath wildcard }

/-- The request URI that a backend gets from the reverse proxy of its target. -/
def forwardedURI (target url : URL) (wildcard : List Char) : List Char :=
  (rewriteRequestURL target.location (rewrittenURL url wildcard)).requestURI

/-- `ProxyRoute`: the request URI that the backend gets; `none` if the request is not on the route. -/
def proxyURI (target : URL) (s : Service) (url : URL) : Option (List Char) :=
  (urlParam s (routePath url)).map (forwardedURI target url)

/-! ## The pool -/

/-- `ProxyPool`; there is one reverse proxy for each target. -/
structure ProxyPool where
  /-- The targets, in the order of the configuration. -/
  targets : List ByteURL
  /-- The counter of the picks. -/
  next : UInt32

/-- A pool nothing was picked from. -/
def newProxyPool (targets : List ByteURL) : ProxyPool := ⟨targets, 0⟩

/-- The URL of a backend, which has no path: `http://parrot-1:3003`. -/
def bareTarget : ByteURL where
  path := []
  rawPath := []
  rawQuery := []
  encodes h := absurd rfl h
  pathBytes := bytes_nil
  rawPathBytes := bytes_nil

/-- `pick`: `none` is the panic of a division by zero. -/
def ProxyPool.pick (p : ProxyPool) : ProxyPool × Option ℕ :=
  let next := p.next + 1
  let n := next - 1
  let size := UInt32.ofNat p.targets.length
  ({ p with next := next }, if size = 0 then none else some (n % size).toNat)

/-- `PooledProxyRoute`: the backend of the request, and the request URI that it gets. -/
def ProxyPool.pooledProxyURI (p : ProxyPool) (s : Service) (url : URL) :
    ProxyPool × Option (ℕ × List Char) :=
  match urlParam s (routePath url) with
  | none => (p, none)
  | some wildcard =>
    (p.pick.1, p.pick.2.bind fun i =>
      (p.targets[i]?).map fun target => (i, forwardedURI target.toURL url wildcard))

/-- The pool after `k` picks. -/
def ProxyPool.after (p : ProxyPool) : ℕ → ProxyPool
  | 0 => p
  | k + 1 => (p.after k).pick.1

/-- The results of `count` picks, the first of them after `i` others. -/
def ProxyPool.picks (p : ProxyPool) (i count : ℕ) : List (Option ℕ) :=
  (List.range count).map fun d => (p.after (i + d)).pick.2

end Gateway
