import Webmeow.Lib.Url
import Webmeow.Gateway.Cache
import Mathlib.Data.List.AList
import Mathlib.Data.List.Infix

/-!
# Requests and responses of the gateway

What a handler can do to a `http.ResponseWriter`, what `cacheCapture` does in between, and the calls of the
reverse proxy. Strings are strings of bytes and header names are in canonical form, as `net/http` hands
them over.
-/

namespace Gateway

open Url

/-! ## Headers -/

/-- `http.Header`. -/
structure Header where
  /-- The values of each canonical name. -/
  fields : AList fun _ : String => List String

/-- No header field. -/
def Header.empty : Header := ⟨∅⟩

/-- `Values`, for a canonical name. -/
def Header.values (h : Header) (name : String) : List String := (h.fields.lookup name).getD []

/-- `Header.Get`: the first value. -/
def Header.get (h : Header) (name : String) : String := (h.values name).headD ""

/-- `Set`, for a canonical name. -/
def Header.set (h : Header) (name value : String) : Header := ⟨h.fields.insert name [value]⟩

/-- `Add`, for a canonical name. -/
def Header.add (h : Header) (name value : String) : Header :=
  ⟨h.fields.insert name (h.values name ++ [value])⟩

/-- The fields of a header as the pairs that a loop over the map meets. -/
def Header.pairs (h : Header) : List (String × List String) :=
  h.fields.entries.map fun e => (e.1, e.2)

/-- The loop of a cache hit: `Add` every value of every field. -/
def Header.addAll (h : Header) (pairs : List (String × List String)) : Header :=
  pairs.foldl (fun h p => p.2.foldl (fun h v => h.add p.1 v) h) h

/-! ## Requests and responses -/

/-- A request. -/
structure Request where
  /-- Its method. -/
  method : String
  /-- Its URL. -/
  url : URL
  /-- Its header. -/
  header : Header

/-- What has been written to the client, and the header map that is still open. -/
structure ResponseWriter where
  /-- The response to a HEAD request has no body. -/
  head : Bool
  /-- The header fields set so far. -/
  header : Header
  /-- The status and the header fields that were sent. -/
  sent : Option (ℤ × Header)
  /-- The body written so far. -/
  body : List UInt8

/-- The writer a request is answered with. -/
def ResponseWriter.start (r : Request) : ResponseWriter :=
  ⟨r.method = "HEAD", Header.empty, none, []⟩

/-- The status is written once; an informational response is not the response. -/
def ResponseWriter.writeHeader (w : ResponseWriter) (code : ℤ) : ResponseWriter :=
  if w.sent = none ∧ ¬(100 ≤ code ∧ code ≤ 199 ∧ code ≠ 101) then
    { w with sent := some (code, w.header) }
  else w

/-- `Write`, which sends the header first. -/
def ResponseWriter.write (w : ResponseWriter) (b : List UInt8) : ResponseWriter :=
  let w := if w.sent = none then w.writeHeader 200 else w
  if w.head then w else { w with body := w.body ++ b }

/-- A header field is set. -/
def ResponseWriter.set (w : ResponseWriter) (name value : String) : ResponseWriter :=
  { w with header := w.header.set name value }

/-- A header field is added. -/
def ResponseWriter.add (w : ResponseWriter) (name value : String) : ResponseWriter :=
  { w with header := w.header.add name value }

/-- The status of the response, if it has been sent. -/
def ResponseWriter.status (w : ResponseWriter) : Option ℤ := w.sent.map Prod.fst

/-- The values of a field of the response. -/
def ResponseWriter.sentValues (w : ResponseWriter) (name : String) : List String :=
  match w.sent with
  | none => []
  | some (_, h) => h.values name

/-! ## The capture of a response -/

/-- `cacheCapture`. -/
structure CacheCapture where
  /-- The writer underneath. -/
  writer : ResponseWriter
  /-- The bytes captured. -/
  buf : List UInt8
  /-- The status captured. -/
  status : ℤ
  /-- Whether the response may be stored. -/
  cacheable : Bool
  /-- Whether that was decided. -/
  decided : Bool

/-- `strings.ToLower`, as far as ASCII letters come out of it: beyond ASCII only U+0130 and U+212A have
such a lower case letter. -/
def toLower : List Char → List Char
  | '\u00c4' :: '\u00b0' :: s => 'i' :: toLower s
  | '\u00e2' :: '\u0084' :: '\u00aa' :: s => 'k' :: toLower s
  | c :: s => c.toLower :: toLower s
  | [] => []

/-- Whether a response with that status and header may be stored. -/
def responseCacheable (status : ℤ) (h : Header) : Bool :=
  let cc := toLower (h.get "Cache-Control").toList
  status = 200 ∧ ¬"text/event-stream".toList <+: (h.get "Content-Type").toList ∧
    (h.values "Set-Cookie").length = 0 ∧
      ¬("private".toList <:+: cc ∨ "no-store".toList <:+: cc)

/-- The first call decides whether the response may be stored. -/
def CacheCapture.writeHeader (c : CacheCapture) (code : ℤ) : CacheCapture :=
  let c := if c.decided then c
    else { c with
      status := code
      cacheable := responseCacheable code c.writer.header
      decided := true }
  { c with writer := c.writer.writeHeader code }

/-- The bytes are captured if the response may be stored. -/
def CacheCapture.write (c : CacheCapture) (b : List UInt8) : CacheCapture :=
  let c := if c.decided then c else c.writeHeader 200
  let c := if c.cacheable then { c with buf := c.buf ++ b } else c
  { c with writer := c.writer.write b }

/-! ## The backend -/

/-- A call of the reverse proxy on the response writer. -/
inductive WriterCall where
  /-- A header field is added. -/
  | add (name value : String)
  /-- The status is written. -/
  | writeHeader (code : ℤ)
  /-- Bytes are written. -/
  | write (b : List UInt8)

/-- One call on the writer. -/
def ResponseWriter.call (w : ResponseWriter) : WriterCall → ResponseWriter
  | .add name value => w.add name value
  | .writeHeader code => w.writeHeader code
  | .write b => w.write b

/-- One call on the capturing writer. -/
def CacheCapture.call (c : CacheCapture) : WriterCall → CacheCapture
  | .add name value => { c with writer := c.writer.add name value }
  | .writeHeader code => c.writeHeader code
  | .write b => c.write b

/-- The response of a backend: the header fields less the hop-by-hop ones, the status, the body in the
pieces in which it is read, and the announced trailer fields, which the reverse proxy adds to the
header map after the body. -/
structure BackendResponse where
  /-- The status. -/
  status : ℤ
  /-- The header fields, in order. -/
  header : List (String × String)
  /-- The body, as it is read. -/
  chunks : List (List UInt8)
  /-- The trailer fields, in order. -/
  trailer : List (String × String)

/-- The calls with which the proxy writes the response. -/
def BackendResponse.calls (b : BackendResponse) : List WriterCall :=
  b.header.map (fun f => .add f.1 f.2) ++ .writeHeader b.status :: b.chunks.map .write ++
    b.trailer.map fun f => .add f.1 f.2

end Gateway
