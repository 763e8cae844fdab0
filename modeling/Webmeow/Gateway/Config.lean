import Mathlib.Algebra.Ring.Int.Defs
import Webmeow.Gateway.Proxy

/-!
# The configuration of the gateway

`LoadConfig` on an environment, which gives the empty string for a variable that is not set. Durations are
in nanoseconds; `parseDuration` is `time.ParseDuration`.
-/

namespace Gateway

/-- The variables of the environment, empty where they are not set. -/
abbrev Environment := String → String

/-- The variable, or the fallback if it is empty. -/
def getEnv (env : Environment) (key fallback : String) : String :=
  if env key ≠ "" then env key else fallback

/-- The entries of a list with commas, without white space around them and without empty ones. -/
def splitList (val : String) : List String :=
  ((val.toList.splitOn ',').map fun p => trimSpace (String.ofList p)).filter fun p => p ≠ ""

/-- The entries of a list variable. -/
def splitEnv (env : Environment) (key fallback : String) : List String :=
  splitList (getEnv env key fallback)

/-- The first URL of a pool, if it has one. -/
def firstURL (pool : List String) : String := pool.headD ""

/-- The variable as a duration, or the fallback if it is empty or malformed. -/
def getDurationEnv (parseDuration : String → Option ℤ) (env : Environment) (key : String)
    (fallback : ℤ) : ℤ :=
  if env key ≠ "" then (parseDuration (env key)).getD fallback else fallback

/-- The digits of a number in base ten, if there is at least one. -/
def digits (cs : List Char) : Option ℕ :=
  if cs ≠ [] ∧ cs.all (fun c => '0' ≤ c && c ≤ '9') then
    some (cs.foldl (fun n c => 10 * n + (c.toNat - '0'.toNat)) 0)
  else none

/-- `strconv.Atoi` -/
def atoi (s : String) : Option ℤ :=
  let n : Option ℤ :=
    match s.toList with
    | '-' :: cs => (digits cs).map fun n => -(n : ℤ)
    | '+' :: cs => (digits cs).map fun n => (n : ℤ)
    | cs => (digits cs).map fun n => (n : ℤ)
  n.filter fun n => -2 ^ 63 ≤ n ∧ n < 2 ^ 63

/-- The variable as a number, or the fallback if it is empty or malformed. -/
def getIntEnv (env : Environment) (key : String) (fallback : ℤ) : ℤ :=
  if env key ≠ "" then (atoi (env key)).getD fallback else fallback

/-! ## The services -/

/-- The services behind the gateway. -/
def services : List Service := [.airport, .hotel, .beach, .broadcast, .parrot]

/-- The variable that lists the instances of a service. -/
def Service.variable : Service → String
  | .airport => "AIRPORT_SERVICE_URL"
  | .hotel => "HOTEL_SERVICE_URL"
  | .beach => "BEACH_SERVICE_URL"
  | .broadcast => "BROADCAST_SERVICE_URL"
  | .parrot => "PARROT_SERVICE_URL"

/-- The URL of a service whose variable is not set. -/
def Service.fallback : Service → String
  | .airport => "http://localhost:3001"
  | .hotel => "http://localhost:3000"
  | .beach => ""
  | .broadcast => ""
  | .parrot => ""

/-- The entries a cache keeps by default. -/
def defaultCacheMaxEntries : ℤ := 1024

/-- The largest body a cache keeps by default. -/
def defaultCacheMaxBodyBytes : ℤ := 2 ^ 20

/-- The configuration of the gateway. -/
structure Config where
  /-- `Port` -/
  port : String
  /-- The fields `AirportServiceURL` and so on. -/
  serviceURL : Service → String
  /-- The fields `AirportServicePool` and so on. -/
  servicePool : Service → List String
  /-- `CORSOrigins` -/
  corsOrigins : List String
  /-- `InternalSecret` -/
  internalSecret : String
  /-- `CacheTTL`, in nanoseconds. -/
  cacheTTL : ℤ
  /-- `CacheMaxEntries` -/
  cacheMaxEntries : ℤ
  /-- `CacheMaxBodyBytes` -/
  cacheMaxBodyBytes : ℤ
  /-- `RateLimitPerWindow` -/
  rateLimitPerWindow : ℤ
  /-- `RateLimitWindow`, in nanoseconds. -/
  rateLimitWindow : ℤ

/-- A minute in nanoseconds. -/
def minute : ℤ := 60 * 10 ^ 9

/-- The configuration the environment gives. -/
def loadConfig (parseDuration : String → Option ℤ) (env : Environment) : Config :=
  let pool (s : Service) := splitEnv env s.variable s.fallback
  { port := getEnv env "PORT" "8000"
    serviceURL := fun s => firstURL (pool s)
    servicePool := pool
    corsOrigins := splitEnv env "CORS_ALLOWED_ORIGINS" ""
    internalSecret := getEnv env "INTERNAL_SECRET" ""
    cacheTTL := getDurationEnv parseDuration env "GATEWAY_CACHE_TTL" 0
    cacheMaxEntries := getIntEnv env "GATEWAY_CACHE_MAX_ENTRIES" defaultCacheMaxEntries
    cacheMaxBodyBytes := getIntEnv env "GATEWAY_CACHE_MAX_BODY_BYTES" defaultCacheMaxBodyBytes
    rateLimitPerWindow := getIntEnv env "GATEWAY_RATE_LIMIT" 0
    rateLimitWindow := getDurationEnv parseDuration env "GATEWAY_RATE_WINDOW" minute }

/-- The services that `main` registers a route for. -/
def Config.routed (cfg : Config) (s : Service) : Bool := !(cfg.servicePool s).isEmpty

/-- The services that `HealthHandler` asks. -/
def Config.checked (cfg : Config) : List Service :=
  services.filter fun s => cfg.serviceURL s ≠ ""

/-- `CacheMiddleware` is used on the routes and is not a no-op. -/
def Config.caching (cfg : Config) : Bool := decide (0 < cfg.cacheTTL ∧ 0 < cfg.cacheMaxEntries)

end Gateway
