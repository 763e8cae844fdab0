import Mathlib.Logic.Function.Basic
import Mathlib.Data.List.Basic

/-!
# The JSON client of one service

`createJsonApi`: `get` shares the request of a URL that is in flight, `post` and `delete` always send
their own. A request is sent, handled by the server at some point, and settles with what the schema
makes of the response or with an error. Each caller is resumed in a step of its own, the first one
of a shared request together with its `finally` block. `K` are the keys that `getUri` gives to the
URLs, `δ` the data of responses and results, and `ε` the errors that `request` throws.
-/

namespace Frontend

/-- The HTTP methods of the API client. -/
inductive Method where
  | GET
  | POST
  | DELETE
deriving DecidableEq

variable {U K δ ε : Type*}

/-- A request as the client sent it, the server's response with the number of requests that it had
handled before, and the outcome of the promise of `request`. -/
structure ApiRequest (U δ ε : Type*) where
  /-- The HTTP method. -/
  method : Method
  /-- The URL the request goes to. -/
  url : U
  /-- The parsing of the body of the response. -/
  schema : δ → Except ε δ
  /-- When the server handled the request, and what it answered. -/
  handled : Option (ℕ × Except ε δ)
  /-- The outcome of the promise, once it has one. -/
  outcome : Option (Except ε δ)

/-- A call of `get`: its request, whether it sent the request itself, and what it settled with. -/
structure GetCall (U δ ε : Type*) where
  /-- The URL asked for. -/
  url : U
  /-- The request whose promise the call awaits. -/
  request : ℕ
  /-- Whether this call started the request. -/
  first : Bool
  /-- What the call returned, once it has. -/
  result : Option (Except ε δ)

/-- The API client with the server behind it: the requests sent, the map of GETs in flight and the
calls of `get`. -/
structure Client (U K δ ε : Type*) where
  /-- The requests sent, in order. -/
  requests : List (ApiRequest U δ ε)
  /-- `inFlightGets`, from a URL to the request in flight. -/
  inFlightGets : K → Option ℕ
  /-- The calls of `get`, in order. -/
  calls : List (GetCall U δ ε)
  /-- How many requests the server has handled. -/
  handledCount : ℕ

/-- Nothing is sent yet. -/
def Client.initial : Client U K δ ε := ⟨[], fun _ => none, [], 0⟩

/-- What can happen at the client and the server. -/
inductive ApiEvent (U δ ε : Type*) where
  /-- `get` is called. -/
  | get (schema : δ → Except ε δ) (url : U)
  /-- `post` is called. -/
  | post (schema : δ → Except ε δ) (url : U)
  /-- `delete` is called. -/
  | delete (schema : δ → Except ε δ) (url : U)
  /-- The server handles request `r` with a response. -/
  | handle (r : ℕ) (response : Except ε δ)
  /-- The response of request `r` arrives. -/
  | deliver (r : ℕ)
  /-- Request `r` fails without a response. -/
  | fail (r : ℕ) (error : ε)
  /-- Call `i` is resumed. -/
  | resume (i : ℕ)

/-- A request that has just been sent. -/
def newRequest (method : Method) (schema : δ → Except ε δ) (url : U) : ApiRequest U δ ε :=
  ⟨method, url, schema, none, none⟩

/-- `request`: the next request of the client. -/
def Client.send (s : Client U K δ ε) (q : ApiRequest U δ ε) : Client U K δ ε :=
  { s with requests := s.requests ++ [q] }

variable [DecidableEq K] (getUri : U → K)

/-- `get` up to its first `await`. -/
def Client.get (s : Client U K δ ε) (schema : δ → Except ε δ) (url : U) : Client U K δ ε :=
  match s.inFlightGets (getUri url) with
  | some r => { s with calls := s.calls ++ [⟨url, r, false, none⟩] }
  | none =>
    { s.send (newRequest .GET schema url) with
      inFlightGets := Function.update s.inFlightGets (getUri url) (some s.requests.length)
      calls := s.calls ++ [⟨url, s.requests.length, true, none⟩] }

/-- The `finally` block: the entry is removed if it is still the one of this request. -/
def Client.cleanup (s : Client U K δ ε) (key : K) (r : ℕ) : Client U K δ ε :=
  if s.inFlightGets key = some r then
    { s with inFlightGets := Function.update s.inFlightGets key none }
  else s

/-- One event; `none` where it cannot happen. -/
def Client.step (s : Client U K δ ε) : ApiEvent U δ ε → Option (Client U K δ ε)
  | .get schema url => some (s.get getUri schema url)
  | .post schema url => some (s.send (newRequest .POST schema url))
  | .delete schema url => some (s.send (newRequest .DELETE schema url))
  | .handle r response =>
    match s.requests[r]? with
    | none => none
    | some q =>
      if q.handled.isSome then none
      else
        some { s with
          requests := s.requests.set r { q with handled := some (s.handledCount, response) }
          handledCount := s.handledCount + 1 }
  | .deliver r =>
    match s.requests[r]? with
    | none => none
    | some q =>
      match q.handled, q.outcome with
      | some (_, response), none =>
        some { s with
          requests := s.requests.set r { q with outcome := some (response.bind q.schema) } }
      | _, _ => none
  | .fail r error =>
    match s.requests[r]? with
    | none => none
    | some q =>
      if q.outcome.isSome then none
      else some { s with requests := s.requests.set r { q with outcome := some (.error error) } }
  | .resume i =>
    match s.calls[i]? with
    | none => none
    | some c =>
      match c.result, s.requests[c.request]?.bind ApiRequest.outcome with
      | none, some outcome =>
        let s' := { s with calls := s.calls.set i { c with result := some outcome } }
        some (if c.first then s'.cleanup (getUri c.url) c.request else s')
      | _, _ => none

end Frontend
