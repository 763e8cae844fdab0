import Webmeow.Gateway.Middleware

/-!
# The proxied routes

How the router finds the wildcard of a route, what `ProxyRoute` makes of a request, and what the
reverse proxy takes out of its header.
-/

namespace Gateway

open Url

/-! ## Routing -/

/-- The services behind the gateway. -/
inductive Service where
  | airport
  | hotel
  | beach
  | broadcast
  | parrot
deriving DecidableEq

/-- The pattern under which the route of a service is mounted. -/
def Service.pattern : Service → List Char
  | .airport => "/api/airport".toList
  | .hotel => "/api/hotel".toList
  | .beach => "/api/beach".toList
  | .broadcast => "/api/broadcast".toList
  | .parrot => "/api/parrot".toList

/-- The path on which the router matches: `RawPath` when it is set. -/
def routePath (url : URL) : List Char := if url.rawPath ≠ [] then url.rawPath else url.path

/-- `chi.URLParam(req, "*")` on the route of a service; `none` if the route does not match. -/
def urlParam (s : Service) (path : List Char) : Option (List Char) :=
  if path = s.pattern then some []
  else if (s.pattern ++ ['/']).isPrefixOf path then some (path.drop (s.pattern.length + 1))
  else none

/-! ## The header of the outgoing request -/

/-- The characters of a token. -/
def validHeaderFieldByte (c : Char) : Bool :=
  ('a' ≤ c ∧ c ≤ 'z') ∨ ('A' ≤ c ∧ c ≤ 'Z') ∨ ('0' ≤ c ∧ c ≤ '9') ∨
    c ∈ ['!', '#', '$', '%', '&', '\x27', '*', '+', '-', '.', '^', '_', '\x60', '|', '~']

/-- Upper case at the start and after a hyphen, lower case elsewhere. -/
def canonicalize (upper : Bool) : List Char → List Char
  | [] => []
  | c :: s => (if upper then c.toUpper else c.toLower) :: canonicalize (c = '-') s

/-- `textproto.CanonicalMIMEHeaderKey`. -/
def canonicalMIMEHeaderKey (name : List Char) : List Char :=
  if name.all validHeaderFieldByte then canonicalize true name else name

/-- `textproto.TrimString`. -/
def trimString (s : List Char) : List Char :=
  let isSpace (c : Char) : Bool := c ∈ [' ', '\t', '\n', '\r']
  ((s.dropWhile isSpace).reverse.dropWhile isSpace).reverse

/-- `Del` -/
def Header.del (h : Header) (name : String) : Header :=
  ⟨h.fields.erase (String.ofList (canonicalMIMEHeaderKey name.toList))⟩

/-- The header names that `Connection` lists. -/
def connectionOptions (h : Header) : List String :=
  (h.values "Connection").flatMap fun f =>
    (((f.toList.splitOn ',').map trimString).filter (· ≠ [])).map String.ofList

/-- The header fields that end at a proxy. -/
def hopHeaders : List String :=
  ["Connection", "Proxy-Connection", "Keep-Alive", "Proxy-Authenticate", "Proxy-Authorization", "Te",
    "Trailer", "Transfer-Encoding", "Upgrade"]

/-- `removeHopByHopHeaders` of the reverse proxy. -/
def removeHopByHopHeaders (h : Header) : Header :=
  hopHeaders.foldl Header.del ((connectionOptions h).foldl Header.del h)

/-! ## The outgoing request -/

/-- What goes to the backend. The path is the one behind the path of the target. -/
structure Outgoing where
  /-- The method. -/
  method : String
  /-- The path, as it is written on the request line. -/
  path : List Char
  /-- The query. -/
  rawQuery : List Char
  /-- The header. -/
  header : Header

/-- The remainder of the path, which starts with a slash. -/
def wildcardPath (wildcard : List Char) : List Char :=
  if wildcard = [] then ['/']
  else if wildcard.head? ≠ some '/' then '/' :: wildcard
  else wildcard

/-- `ProxyRoute` on a request; `none` if the request is not on the route. -/
def proxyRoute (s : Service) (r : Request) : Option Outgoing :=
  (urlParam s (routePath r.url)).map fun wildcard =>
    ⟨r.method, wildcardPath wildcard, r.url.rawQuery, removeHopByHopHeaders r.header⟩

end Gateway
