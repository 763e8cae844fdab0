import Mathlib.Data.List.AList

/-!
# The response cache of the gateway

A map from keys to list elements and a list of elements in order of use, as the gateway keeps them.
An element is a pointer; `value` is what it points to. Times and durations are in nanoseconds.
-/

namespace Gateway

/-- A response that is kept. -/
structure CacheEntry where
  /-- Its status. -/
  status : Int
  /-- Its header fields. -/
  header : List (String × List String)
  /-- Its body. -/
  body : List UInt8
  /-- When it expires, in nanoseconds. -/
  expires : Int
deriving DecidableEq

/-- What an element of the list holds. -/
structure CacheRecord where
  /-- The key of the entry. -/
  key : String
  /-- The entry. -/
  entry : CacheEntry
deriving DecidableEq

/-- A `*list.Element`. -/
abbrev Element := ℕ

/-- The cache of one service: a map into a list in order of use. -/
structure ResponseCache where
  /-- The element of each key. -/
  entries : AList fun _ : String => Element
  /-- The elements, last used first. -/
  order : List Element
  /-- What each element holds. -/
  value : Element → CacheRecord
  /-- The next element to be allocated. -/
  next : Element
  /-- How long an entry lives. -/
  ttl : Int
  /-- How many entries are kept. -/
  maxEntries : Int
  /-- The largest body that is kept, zero for any. -/
  maxBodyBytes : Int

/-- The empty cache. -/
def newResponseCache (ttl maxEntries maxBodyBytes : Int) : ResponseCache where
  entries := ∅
  order := []
  value := fun _ => ⟨"", ⟨0, [], [], 0⟩⟩
  next := 0
  ttl := ttl
  maxEntries := maxEntries
  maxBodyBytes := maxBodyBytes

/-- `list.MoveToFront`; an element of another list stays where it is. -/
def moveToFront (order : List Element) (el : Element) : List Element :=
  if el ∈ order then el :: order.erase el else order

/-- The element leaves the list and its key the map. -/
def ResponseCache.removeElement (c : ResponseCache) : Option Element → ResponseCache
  | none => c
  | some el =>
    { c with entries := c.entries.erase (c.value el).key, order := c.order.erase el }

/-- The entry of the key if it has not expired; an expired one is removed. -/
def ResponseCache.get (c : ResponseCache) (key : String) (now : Int) :
    ResponseCache × Option CacheEntry :=
  match c.entries.lookup key with
  | none => (c, none)
  | some el =>
    let record := c.value el
    if record.entry.expires < now then (c.removeElement (some el), none)
    else ({ c with order := moveToFront c.order el }, some record.entry)

/-- `for len(c.entries) > c.maxEntries { c.removeElement(c.order.Back()) }`. Each turn takes an
element off the list as long as there is one, so the loop runs on for ever exactly when it has not
ended after one turn more than the list has elements; then there is no result. -/
def ResponseCache.evict : ℕ → ResponseCache → Option ResponseCache
  | 0, _ => none
  | fuel + 1, c =>
    if c.maxEntries < c.entries.keys.length then (c.removeElement c.order.getLast?).evict fuel
    else some c

/-- The element holds another record. -/
def ResponseCache.setValue (c : ResponseCache) (el : Element) (record : CacheRecord) :
    ResponseCache :=
  { c with value := Function.update c.value el record }

/-- `c.entries[key] = c.order.PushFront(&cacheRecord{..})`. -/
def ResponseCache.pushFront (c : ResponseCache) (record : CacheRecord) : ResponseCache :=
  { c with
    entries := c.entries.insert record.key c.next
    order := c.next :: c.order
    value := Function.update c.value c.next record
    next := c.next + 1 }

/-- The entry is put in front, and the entry used least recently is evicted if there are too many.
-/
def ResponseCache.set (c : ResponseCache) (key : String) (e : CacheEntry) (now : Int) :
    Option ResponseCache :=
  if c.maxEntries ≤ 0 then some c
  else if 0 < c.maxBodyBytes ∧ c.maxBodyBytes < e.body.length then some c
  else
    let e := { e with expires := now + c.ttl }
    match c.entries.lookup key with
    | some el =>
      let c := c.setValue el { c.value el with entry := e }
      some { c with order := moveToFront c.order el }
    | none =>
      let c := c.pushFront ⟨key, e⟩
      c.evict (c.order.length + 1)

/-- A call under the lock, with the time that `time.Now` returns in it. -/
inductive Call where
  /-- A call of `get`. -/
  | get (key : String) (now : Int)
  /-- A call of `set`. -/
  | set (key : String) (e : CacheEntry) (now : Int)

/-- One call, with what it returns. -/
def ResponseCache.step (c : ResponseCache) : Call → Option (ResponseCache × Option CacheEntry)
  | .get key now => some (c.get key now)
  | .set key e now => (c.set key e now).map fun c' => (c', none)

end Gateway
