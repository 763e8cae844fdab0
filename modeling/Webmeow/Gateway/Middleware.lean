import Webmeow.Gateway.Http

/-!
# The middlewares of the gateway

`CORSMiddleware` and, on a proxied route, `CacheMiddleware` around the reverse proxy.
-/

namespace Gateway

open Url

/-! ## CORS -/

/-- The runes that `unicode.IsSpace` accepts, in UTF-8. -/
def spaces : List (List Char) :=
  [['\t'], ['\n'], ['\x0b'], ['\x0c'], ['\r'], [' '], ['\u00c2', '\u0085'], ['\u00c2', '\u00a0'],
    ['\u00e1', '\u009a', '\u0080'], ['\u00e2', '\u0080', '\u00a8'], ['\u00e2', '\u0080', '\u00a9'],
    ['\u00e2', '\u0080', '\u00af'], ['\u00e2', '\u0081', '\u009f'], ['\u00e3', '\u0080', '\u0080']] ++
    (List.range 11).map fun i => ['\u00e2', '\u0080', Char.ofNat (0x80 + i)]

/-- Take prefixes off as long as there are any, at most as often as the fuel says. -/
def trimPrefixes (prefixes : List (List Char)) : ℕ → List Char → List Char
  | 0, s => s
  | fuel + 1, s =>
    match prefixes.find? fun p => p.isPrefixOf s with
    | some p => trimPrefixes prefixes fuel (s.drop p.length)
    | none => s

/-- `strings.TrimSpace`. -/
def trimSpace (s : String) : String :=
  let left := trimPrefixes spaces s.length s.toList
  String.ofList (trimPrefixes (spaces.map List.reverse) s.length left.reverse).reverse

/-- `originSet[origin]`. -/
def originAllowed (allowedOrigins : List String) (r : Request) : Bool :=
  r.header.get "Origin" ∈ allowedOrigins.map trimSpace

/-- A handler writes a response and may hand an entry to the cache. -/
abbrev Handler := Request → ResponseWriter → ResponseWriter × Option CacheEntry

/-- The five headers that an allowed origin gets. -/
def ResponseWriter.allowOrigin (w : ResponseWriter) (origin : String) : ResponseWriter :=
  ((((w.set "Access-Control-Allow-Origin" origin).set
    "Access-Control-Allow-Methods" "GET, POST, PUT, DELETE, OPTIONS").set
    "Access-Control-Allow-Headers" "Content-Type, Authorization, X-Internal-Key").set
    "Access-Control-Allow-Credentials" "true").set "Access-Control-Max-Age" "3600"

/-- The origin is allowed if it is listed, and a preflight request goes no further. -/
def corsMiddleware (allowedOrigins : List String) (next : Handler) : Handler := fun r w =>
  let w := if originAllowed allowedOrigins r then w.allowOrigin (r.header.get "Origin") else w
  if r.method = "OPTIONS" then (w.writeHeader 204, none) else next r w

/-! ## The cache -/

/-- `hex.EncodeToString`. -/
def encodeToString (bytes : List UInt8) : String :=
  String.ofList (bytes.flatMap fun b => [Nat.digitChar (b.toNat / 16), Nat.digitChar (b.toNat % 16)])

/-- The credentials that `cacheKey` looks at, each with its label. -/
def credentials : List (String × String) :=
  [("auth", "Authorization"), ("cookie", "Cookie"), ("key", "X-Internal-Key")]

/-- One part of the scope; an empty value has none. -/
def scopePart (sum256 : String → List UInt8) (r : Request) (c : String × String) : Option String :=
  let value := r.header.get c.2
  if value ≠ "" then some (c.1 ++ "=" ++ encodeToString ((sum256 value).take 8)) else none

/-- `cacheKey`, given the hash function. -/
def cacheKey (sum256 : String → List UInt8) (r : Request) : String :=
  let key := r.method ++ " " ++ String.ofList r.url.path ++ "?" ++
    String.ofList (encode (parseQuery r.url.rawQuery))
  let scope := credentials.filterMap (scopePart sum256 r)
  if 0 < scope.length then key ++ "|" ++ "|".intercalate scope else key

/-- The answer to a hit. -/
def ResponseWriter.hit (w : ResponseWriter) (e : CacheEntry) : ResponseWriter :=
  (({ w with header := w.header.addAll e.header }.set "X-Cache" "HIT").writeHeader e.status).write e.body

/-- What a miss writes to the client, and the capture of it. -/
def CacheCapture.serve (w : ResponseWriter) (calls : List WriterCall) : CacheCapture :=
  calls.foldl CacheCapture.call ⟨w, [], 0, false, false⟩

/-- The entry that is stored after a miss. -/
def CacheCapture.entry (c : CacheCapture) : Option CacheEntry :=
  if c.cacheable ∧ responseCacheable c.status c.writer.header then
    some ⟨c.status, c.writer.header.pairs, c.buf, 0⟩
  else none

/-- The handler of `CacheMiddleware`, given what `cache.get` found and what the proxy will do. -/
def cacheMiddleware (found : Option CacheEntry) (calls : List WriterCall) : Handler := fun r w =>
  if r.method ≠ "GET" ∧ r.method ≠ "HEAD" then (calls.foldl ResponseWriter.call w, none)
  else
    match found with
    | some e => (w.hit e, none)
    | none =>
      let c := CacheCapture.serve w calls
      (c.writer, c.entry)

/-- A request on a proxied route with a cache: the response, and the entry for `cache.set`. -/
def respond (allowedOrigins : List String) (found : Option CacheEntry) (b : BackendResponse) (r : Request) :
    ResponseWriter × Option CacheEntry :=
  corsMiddleware allowedOrigins (cacheMiddleware found b.calls) r (ResponseWriter.start r)

/-! ## Any handler behind the cache -/

/-- A call of any handler on its response writer: a change of the header map, or one of the methods. -/
inductive HandlerCall where
  /-- The header fields are changed. -/
  | header (change : Header → Header)
  /-- The status is written. -/
  | writeHeader (code : ℤ)
  /-- Bytes are written. -/
  | write (b : List UInt8)

/-- One call on the writer. -/
def ResponseWriter.handle (w : ResponseWriter) : HandlerCall → ResponseWriter
  | .header change => { w with header := change w.header }
  | .writeHeader code => w.writeHeader code
  | .write b => w.write b

/-- One call on the capturing writer. -/
def CacheCapture.handle (c : CacheCapture) : HandlerCall → CacheCapture
  | .header change => { c with writer := { c.writer with header := change c.writer.header } }
  | .writeHeader code => c.writeHeader code
  | .write b => c.write b

/-- The capture of what a handler does. -/
def CacheCapture.around (w : ResponseWriter) (calls : List HandlerCall) : CacheCapture :=
  calls.foldl CacheCapture.handle ⟨w, [], 0, false, false⟩

/-- The handler of `CacheMiddleware` with any `next`. -/
def cacheMiddlewareAround (found : Option CacheEntry) (calls : List HandlerCall) : Handler := fun r w =>
  if r.method ≠ "GET" ∧ r.method ≠ "HEAD" then (calls.foldl ResponseWriter.handle w, none)
  else
    match found with
    | some e => (w.hit e, none)
    | none =>
      let c := CacheCapture.around w calls
      (c.writer, c.entry)

/-- What the reverse proxy calls. -/
def WriterCall.handlerCall : WriterCall → HandlerCall
  | .add name value => .header fun h => h.add name value
  | .writeHeader code => .writeHeader code
  | .write b => .write b

end Gateway
