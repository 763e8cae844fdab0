import Webmeow.Gateway.Config
import Webmeow.Gateway.Throttling
import Webmeow.Gateway.Pool

/-!
# The gateway with all its requests

The router of `main.go` with its middlewares in order: CORS, the rate limiter and, on the protected
routes, the key and the cache of the service. A request is a thread that is suspended before every access
to what the requests share: the limiter, a cache under its lock, the counter of a pool, and the backend
whose answer it awaits. `RequestID`, `RealIP` and the logger do not show; `Recoverer` answers a panic.
-/

namespace Gateway

open Url Interleaving

/-! ## Routing -/

/-- A request with the address that `RealIP` has left and the outcome of decoding its body. -/
structure GatewayRequest where
  /-- The request. -/
  request : Request
  /-- The remote address. -/
  remoteAddr : String
  /-- The body, decoded for the admin endpoint. -/
  body : Option RateLimitUpdate

/-- Where a request is routed to. -/
inductive Route where
  | health
  | rateLimit
  | service (s : Service)
  | methodNotAllowed
  | notFound
deriving DecidableEq

/-- The route that the router takes; a service that is not configured has none. -/
def Config.route (cfg : Config) (r : Request) : Route :=
  let path := routePath r.url
  if path = "/health".toList then if r.method = "GET" then .health else .methodNotAllowed
  else if path = "/admin/rate-limit".toList then
    if r.method = "PUT" then .rateLimit else .methodNotAllowed
  else
    match services.find? fun s => (urlParam s path).isSome && cfg.routed s with
    | some s => .service s
    | none => .notFound

/-- `AuthMiddleware` lets the request pass. -/
def Config.authorized (cfg : Config) (r : Request) : Bool :=
  cfg.internalSecret = "" || r.header.get "X-Internal-Key" = cfg.internalSecret

/-- The request goes through the cache of its route. -/
def Config.viaCache (cfg : Config) (r : Request) : Bool :=
  cfg.caching && (r.method = "GET" || r.method = "HEAD")

/-! ## What the requests share -/

/-- A request that a backend has answered. -/
structure Exchange where
  /-- The service asked. -/
  service : Service
  /-- The target of its pool that was picked. -/
  backend : ℕ
  /-- The request passed on. -/
  request : Request
  /-- What was answered. -/
  response : BackendResponse
  /-- When the answer came. -/
  now : ℤ

/-- What all requests share. -/
structure GatewayStore where
  /-- The rate limiter. -/
  limiter : RateLimiter
  /-- The clock, as last read. -/
  now : ℤ
  /-- The cache of each service. -/
  caches : Service → ResponseCache
  /-- The pool of each service. -/
  pools : Service → ProxyPool
  /-- The exchanges with the services so far. -/
  exchanges : List Exchange

/-- The gateway after its start, given `url.Parse`. -/
def Config.start (cfg : Config) (parseURL : String → ByteURL) (now : ℤ) : GatewayStore where
  limiter := newRateLimiter cfg.rateLimitPerWindow cfg.rateLimitWindow
  now := now
  caches := fun _ => newResponseCache cfg.cacheTTL cfg.cacheMaxEntries cfg.cacheMaxBodyBytes
  pools := fun s => newProxyPool ((cfg.servicePool s).map parseURL)
  exchanges := []

/-! ## Threads -/

/-- What the gateway answers. -/
inductive Answer where
  /-- The answer to a preflight request. -/
  | preflight
  /-- 429, with the seconds of `Retry-After`. -/
  | tooManyRequests (retryAfter : ℤ)
  /-- The secret is missing or wrong. -/
  | unauthorized
  /-- 405 -/
  | methodNotAllowed
  /-- 404 -/
  | notFound
  /-- The health of the services. -/
  | health
  /-- The answer of the admin endpoint. -/
  | admin (response : AdminResponse)
  /-- An entry of the cache. -/
  | hit (e : CacheEntry) (now : ℤ)
  /-- The response of a service. -/
  | proxied (backend : ℕ) (b : BackendResponse)
  /-- What `Recoverer` answers. -/
  | internalServerError

/-- The next access of a request to what is shared. -/
inductive GatewayPc where
  /-- The request is limited. -/
  | limiting (pc : RequestPc)
  /-- The admin endpoint handles it. -/
  | admin (t : AdminThread)
  /-- `cache.get` -/
  | lookup (s : Service)
  /-- `pool.pick` -/
  | pick (s : Service)
  /-- The request is with a service. -/
  | waiting (s : Service) (backend : ℕ)
  /-- `time.Now` of `cache.set` -/
  | stamp (s : Service) (backend : ℕ) (b : BackendResponse) (e : CacheEntry)
  /-- The part of `cache.set` under the lock. -/
  | store (s : Service) (backend : ℕ) (b : BackendResponse) (e : CacheEntry) (expires : ℤ)
  /-- The request is answered. -/
  | answered (a : Answer)

/-- A request that is being handled. -/
structure GatewayThread where
  /-- The request. -/
  request : GatewayRequest
  /-- Where its handling stands. -/
  pc : GatewayPc

/-- `CORSMiddleware` answers a preflight request itself. -/
def gatewayStart (r : GatewayRequest) : GatewayThread :=
  ⟨r, if r.request.method = "OPTIONS" then .answered .preflight else .limiting .readLimit⟩

/-- The response as far as `CORSMiddleware` has written it. -/
def Config.corsWriter (cfg : Config) (r : Request) : ResponseWriter :=
  if originAllowed cfg.corsOrigins r then
    (ResponseWriter.start r).allowOrigin (r.header.get "Origin")
  else ResponseWriter.start r

/-- Where the handling stands after a step of the admin endpoint. -/
def adminNext (t : AdminThread) : GatewayPc :=
  match t.pc with
  | .done response => .answered (.admin response)
  | _ => .admin t

/-- Behind the limiter: the route, and on a protected one the key. -/
def Config.dispatch (cfg : Config) (r : GatewayRequest) : GatewayPc :=
  match cfg.route r.request with
  | .health => .answered .health
  | .methodNotAllowed => .answered .methodNotAllowed
  | .notFound => .answered .notFound
  | .rateLimit =>
    if cfg.authorized r.request then adminNext (adminStart r.body) else .answered .unauthorized
  | .service s =>
    if cfg.authorized r.request then
      if cfg.viaCache r.request then .lookup s else .pick s
    else .answered .unauthorized

/-- The limiter has decided, or goes on. -/
def Config.limited (cfg : Config) (r : GatewayRequest) : RequestPc → GatewayPc
  | .passed => cfg.dispatch r
  | .tooManyRequests retryAfter => .answered (.tooManyRequests retryAfter)
  | pc => .limiting pc

/-- One target is `ProxyRoute`, several are `PooledProxyRoute`. -/
def ProxyPool.choose (p : ProxyPool) : ProxyPool × Option ℕ :=
  if p.targets.length = 1 then (p, some 0) else p.pick

/-- The time of a step, and the answer of a backend if it is awaited. -/
structure GatewayInput where
  /-- What the clock shows. -/
  now : ℤ
  /-- What a service answers. -/
  backend : BackendResponse

variable (cfg : Config) (sum256 : String → List UInt8) (parseDuration : String → Option ℤ)

/-- What a miss stores, if anything. -/
def Config.captured (r : Request) (b : BackendResponse) : Option CacheEntry :=
  if cfg.viaCache r then (CacheCapture.serve (cfg.corsWriter r) b.calls).entry else none

/-- `cache.set` after `time.Now`. -/
def ResponseCache.put (c : ResponseCache) (key : String) (e : CacheEntry) (expires : ℤ) :
    Option ResponseCache :=
  c.set key e (expires - c.ttl)

/-- One step of a request that is being handled. -/
def gatewayPcStep (g : GatewayStore) (r : GatewayRequest) (x : GatewayInput) :
    GatewayPc → Option (GatewayStore × GatewayPc)
  | .limiting pc =>
    (requestPcStep g.limiter r.remoteAddr x.now pc).map fun q =>
      ({ g with limiter := q.1 }, cfg.limited r q.2)
  | .admin t =>
    (adminAct parseDuration g.limiter t ()).map fun q => ({ g with limiter := q.1 }, adminNext q.2)
  | .lookup s =>
    let q := (g.caches s).get (cacheKey sum256 r.request) x.now
    let g := { g with caches := Function.update g.caches s q.1 }
    match q.2 with
    | some e => some (g, .answered (.hit e x.now))
    | none => some (g, .pick s)
  | .pick s =>
    let q := (g.pools s).choose
    some ({ g with pools := Function.update g.pools s q.1 },
      match q.2 with
      | some i => .waiting s i
      | none => .answered .internalServerError)
  | .waiting s i =>
    some ({ g with exchanges := g.exchanges ++ [⟨s, i, r.request, x.backend, x.now⟩] },
      match cfg.captured r.request x.backend with
      | some e => .stamp s i x.backend e
      | none => .answered (.proxied i x.backend))
  | .stamp s i b e => some (g, .store s i b e (x.now + (g.caches s).ttl))
  | .store s i b e expires =>
    ((g.caches s).put (cacheKey sum256 r.request) e expires).map fun c =>
      ({ g with caches := Function.update g.caches s c }, .answered (.proxied i b))
  | .answered _ => none

/-- A step at a time, which is not before the last one. -/
def gatewayAct (g : GatewayStore) (t : GatewayThread) (x : GatewayInput) :
    Option (GatewayStore × GatewayThread) :=
  if x.now < g.now then none
  else
    (gatewayPcStep cfg sum256 parseDuration { g with now := x.now } t.request x t.pc).map fun q =>
      (q.1, { t with pc := q.2 })

/-- Any number of requests over one store. -/
abbrev GatewaySystem := Pool GatewayStore GatewayThread

/-- A request comes in or one of them takes a step. -/
def gatewayStep : GatewaySystem → Event GatewayRequest GatewayInput → Option GatewaySystem :=
  Pool.step gatewayStart (gatewayAct cfg sum256 parseDuration)

end Gateway
