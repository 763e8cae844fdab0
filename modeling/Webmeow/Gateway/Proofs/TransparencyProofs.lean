import Webmeow.Gateway.Proofs.CacheProofs
import Webmeow.Gateway.Proofs.CaptureProofs

/-!
# When a hit repeats the response of the miss

The header map that a miss stores is the map of the whole response writer, so a hit adds to the header
fields of the outer middleware those that it had already set for the miss.
-/

namespace Gateway

open Url Recency Simulation

/-! ## Header fields -/

theorem Header.values_empty (name : String) : Header.empty.values name = [] := rfl

/-- The values after `Set`. -/
theorem Header.values_set (h : Header) (name value n : String) :
    (h.set name value).values n = if n = name then [value] else h.values n := by
  unfold Header.set Header.values
  by_cases hn : n = name
  · subst hn
    simp
  · simp [AList.lookup_insert_ne hn, hn]

/-- The values after `Add`. -/
theorem Header.values_add (h : Header) (name value n : String) :
    (h.add name value).values n = if n = name then h.values n ++ [value] else h.values n := by
  unfold Header.add Header.values
  by_cases hn : n = name
  · subst hn
    simp
  · simp [AList.lookup_insert_ne hn, hn]

/-- The values that a list of fields gives to a name. -/
def fieldValues (fields : List (String × String)) (name : String) : List String :=
  (fields.filter fun f => f.1 = name).map Prod.snd

/-- The header with more fields. -/
def Header.addFields (h : Header) (fields : List (String × String)) : Header :=
  fields.foldl (fun h f => h.add f.1 f.2) h

/-- The values after adding fields. -/
theorem Header.values_addFields (h : Header) (fields : List (String × String)) (n : String) :
    (h.addFields fields).values n = h.values n ++ fieldValues fields n := by
  induction fields generalizing h with
  | nil => simp [Header.addFields, fieldValues]
  | cons f fields ih =>
    have hcons : h.addFields (f :: fields) = (h.add f.1 f.2).addFields fields := rfl
    rw [hcons, ih, Header.values_add]
    by_cases hf : f.1 = n
    · simp [fieldValues, hf]
    · simp [fieldValues, hf, Ne.symm hf]

/-- Adding all the pairs of a map is adding its fields one by one. -/
theorem Header.addAll_eq (h : Header) (pairs : List (String × List String)) :
    h.addAll pairs = h.addFields (pairs.flatMap fun p => p.2.map fun v => (p.1, v)) := by
  induction pairs generalizing h with
  | nil => rfl
  | cons p pairs ih =>
    have hcons : h.addAll (p :: pairs) = (h.addFields (p.2.map fun v => (p.1, v))).addAll pairs := by
      simp only [Header.addAll, Header.addFields, List.foldl_cons, List.foldl_map]
    rw [hcons, ih]
    simp only [Header.addFields, List.flatMap_cons, List.foldl_append]

theorem fieldValues_append (l l' : List (String × String)) (n : String) :
    fieldValues (l ++ l') n = fieldValues l n ++ fieldValues l' n := by
  simp [fieldValues]

/-- A name that is not among the fields has no value. -/
theorem fieldValues_of_absent {l : List (String × String)} {n : String} (h : ∀ f ∈ l, f.1 ≠ n) :
    fieldValues l n = [] := by
  rw [fieldValues, List.map_eq_nil_iff, List.filter_eq_nil_iff]
  intro f hf
  simpa using h f hf

/-- A map names each field once, so its pairs give a name exactly its values. -/
theorem Header.fieldValues_pairs (h : Header) (n : String) :
    fieldValues (h.pairs.flatMap fun p => p.2.map fun v => (p.1, v)) n = h.values n := by
  obtain ⟨⟨entries, hnodup⟩⟩ := h
  show fieldValues ((entries.map fun e => (e.1, e.2)).flatMap fun p => p.2.map fun v => (p.1, v)) n =
    (entries.dlookup n).getD []
  induction entries with
  | nil => rfl
  | cons e entries ih =>
    obtain ⟨k, vs⟩ := e
    obtain ⟨hk, hnodup'⟩ := List.nodupKeys_cons.1 hnodup
    rw [List.map_cons, List.flatMap_cons, fieldValues_append, ih hnodup']
    by_cases hkn : k = n
    · subst hkn
      have hrest : entries.dlookup k = none := List.dlookup_eq_none.2 hk
      have hall : fieldValues (vs.map fun v => (k, v)) k = vs := by
        simp [fieldValues, List.filter_map, Function.comp_def]
      rw [hrest, List.dlookup_cons_eq, hall]
      simp
    · have hnone : fieldValues (vs.map fun v => (k, v)) n = [] :=
        fieldValues_of_absent fun f hf => by
          obtain ⟨v, -, rfl⟩ := List.mem_map.1 hf
          exact hkn
      rw [hnone, List.nil_append, List.dlookup_cons_ne entries _ (Ne.symm hkn)]

theorem Header.values_addAll_pairs (h h' : Header) (n : String) :
    (h.addAll h'.pairs).values n = h.values n ++ h'.values n := by
  rw [Header.addAll_eq, Header.values_addFields, Header.fieldValues_pairs]

/-! ## What the reverse proxy writes -/

/-- Adding fields changes the header alone. -/
theorem serve_adds (c : CacheCapture) (fields : List (String × String)) :
    (fields.map fun f => WriterCall.add f.1 f.2).foldl CacheCapture.call c =
      { c with writer := { c.writer with header := c.writer.header.addFields fields } } := by
  induction fields generalizing c with
  | nil => rfl
  | cons f fields ih =>
    rw [List.map_cons, List.foldl_cons, ih]
    rfl

/-- The body after a header has been sent. -/
theorem serve_writes (c : CacheCapture) (hd : c.decided = true) (hs : c.writer.sent ≠ none)
    (chunks : List (List UInt8)) :
    (chunks.map WriterCall.write).foldl CacheCapture.call c =
      { c with
        buf := if c.cacheable then c.buf ++ chunks.flatten else c.buf
        writer := { c.writer with
          body := if c.writer.head then c.writer.body else c.writer.body ++ chunks.flatten } } := by
  induction chunks generalizing c with
  | nil => simp
  | cons b chunks ih =>
    have hwrite : c.call (.write b) =
        { c with
          buf := if c.cacheable then c.buf ++ b else c.buf
          writer := { c.writer with
            body := if c.writer.head then c.writer.body else c.writer.body ++ b } } := by
      show c.write b = _
      unfold CacheCapture.write
      rw [if_pos hd]
      by_cases hc : c.cacheable = true
      · simp [hc, write_sent hs]
      · simp [hc, write_sent hs]
    rw [List.map_cons, List.foldl_cons, hwrite, ih]
    · by_cases hc : c.cacheable = true <;> by_cases hh : c.writer.head = true <;> simp [hc, hh]
    · exact hd
    · exact hs

/-- The capture of a response with the status 200. -/
theorem serve_calls (w : ResponseWriter) (hw : w.sent = none) (b : BackendResponse)
    (hb : b.status = 200) :
    CacheCapture.serve w b.calls =
      let header := w.header.addFields b.header
      { writer := ⟨w.head, header.addFields b.trailer, some (200, header),
          if w.head then w.body else w.body ++ b.chunks.flatten⟩
        buf := if responseCacheable 200 header then b.chunks.flatten else []
        status := 200
        cacheable := responseCacheable 200 header
        decided := true } := by
  have hhead : CacheCapture.call
      ⟨{ w with header := w.header.addFields b.header }, [], 0, false, false⟩ (.writeHeader 200) =
        ⟨{ w with header := w.header.addFields b.header,
                  sent := some (200, w.header.addFields b.header) },
          [], 200, responseCacheable 200 (w.header.addFields b.header), true⟩ := by
    simp [CacheCapture.call, CacheCapture.writeHeader, ResponseWriter.writeHeader, hw]
  rw [CacheCapture.serve, BackendResponse.calls, List.append_assoc, List.foldl_append, serve_adds,
    List.cons_append, List.foldl_cons, hb, hhead, List.foldl_append,
    serve_writes _ rfl (by simp), serve_adds]
  simp

/-- Once decided, no call changes what may be stored. -/
theorem calls_decided {c : CacheCapture} (hd : c.decided = true) (xs : List WriterCall) :
    (xs.foldl CacheCapture.call c).cacheable = c.cacheable := by
  rw [foldl_call_eq]
  exact (foldl_handle_settled hd _).cacheable

/-- Only a response with the status 200 is stored. -/
theorem entry_status {w : ResponseWriter} {b : BackendResponse} {e : CacheEntry}
    (he : (CacheCapture.serve w b.calls).entry = some e) : b.status = 200 := by
  have hcacheable : (CacheCapture.serve w b.calls).cacheable = true := by
    unfold CacheCapture.entry at he
    split_ifs at he with h
    exact h.1
  rw [CacheCapture.serve, BackendResponse.calls, List.append_assoc, List.foldl_append, serve_adds,
    List.cons_append, List.foldl_cons, calls_decided rfl] at hcacheable
  simp only [CacheCapture.call, CacheCapture.writeHeader, responseCacheable] at hcacheable
  simp only [Bool.false_eq_true, if_false, decide_eq_true_eq] at hcacheable
  exact hcacheable.1

/-! ## The two responses -/

/-- The header map that `CORSMiddleware` hands on. -/
def corsHeader (allowedOrigins : List String) (r : Request) : Header :=
  if originAllowed allowedOrigins r then
    ((ResponseWriter.start r).allowOrigin (r.header.get "Origin")).header
  else Header.empty

/-- A response passes through the cache middleware alone. -/
theorem respond_eq {r : Request} (hr : r.method = "GET" ∨ r.method = "HEAD")
    (allowedOrigins : List String) (found : Option CacheEntry) (b : BackendResponse) :
    respond allowedOrigins found b r = cacheMiddleware found b.calls r
      { ResponseWriter.start r with header := corsHeader allowedOrigins r } := by
  have hmethod : r.method ≠ "OPTIONS" := by
    rcases hr with h | h <;> rw [h] <;> decide
  unfold respond corsMiddleware corsHeader
  rw [if_neg hmethod]
  by_cases ho : originAllowed allowedOrigins r = true
  · simp only [ho, if_true]
    rfl
  · simp only [ho]
    rfl

/-- A stored miss: what the client gets and what the cache gets. -/
theorem miss_response {r : Request} (hr : r.method = "GET" ∨ r.method = "HEAD")
    {allowedOrigins : List String} {b : BackendResponse} {e : CacheEntry}
    (he : (respond allowedOrigins none b r).2 = some e) :
    let header := (corsHeader allowedOrigins r).addFields b.header
    (respond allowedOrigins none b r).1 =
        ⟨r.method = "HEAD", header.addFields b.trailer, some (200, header),
          if r.method = "HEAD" then [] else b.chunks.flatten⟩ ∧
      e = ⟨200, (header.addFields b.trailer).pairs, b.chunks.flatten, 0⟩ := by
  have hmethod : ¬(r.method ≠ "GET" ∧ r.method ≠ "HEAD") := by tauto
  rw [respond_eq hr] at he ⊢
  unfold cacheMiddleware at he ⊢
  rw [if_neg hmethod] at he ⊢
  simp only at he ⊢
  have hstatus := entry_status he
  rw [serve_calls _ rfl b hstatus] at he ⊢
  unfold CacheCapture.entry at he
  by_cases hc : responseCacheable 200 ((corsHeader allowedOrigins r).addFields b.header) = true ∧
      responseCacheable 200
        (((corsHeader allowedOrigins r).addFields b.header).addFields b.trailer) = true
  · rw [if_pos hc] at he
    refine ⟨?_, ?_⟩
    · simp [ResponseWriter.start]
    · rw [← Option.some.inj he]
      simp only [hc.1, if_true]
  · rw [if_neg hc] at he
    cases he

/-- A hit: what the client gets. -/
theorem hit_response {r : Request} (hr : r.method = "GET" ∨ r.method = "HEAD")
    (allowedOrigins : List String) (b : BackendResponse) (header : Header) (body : List UInt8)
    (expires : ℤ) :
    (respond allowedOrigins (some ⟨200, header.pairs, body, expires⟩) b r).1.sent =
        some (200, ((corsHeader allowedOrigins r).addAll header.pairs).set "X-Cache" "HIT") ∧
      (respond allowedOrigins (some ⟨200, header.pairs, body, expires⟩) b r).1.body =
        if r.method = "HEAD" then [] else body := by
  have hmethod : ¬(r.method ≠ "GET" ∧ r.method ≠ "HEAD") := by tauto
  rw [respond_eq hr]
  unfold cacheMiddleware
  rw [if_neg hmethod]
  show (ResponseWriter.hit _ _).sent = _ ∧ (ResponseWriter.hit _ _).body = _
  unfold ResponseWriter.hit
  rw [write_sent (by simp [ResponseWriter.writeHeader, ResponseWriter.set, ResponseWriter.start])]
  by_cases hh : r.method = "HEAD"
  · simp [ResponseWriter.writeHeader, ResponseWriter.set, ResponseWriter.start, hh]
  · simp [ResponseWriter.writeHeader, ResponseWriter.set, ResponseWriter.start, hh]

/-- The header fields of `CORSMiddleware` are there exactly for an allowed origin. -/
theorem corsHeader_values_nil_iff (allowedOrigins : List String) (r : Request) :
    (∀ n ≠ "X-Cache", (corsHeader allowedOrigins r).values n = []) ↔
      originAllowed allowedOrigins r = false := by
  unfold corsHeader
  by_cases ho : originAllowed allowedOrigins r = true
  · rw [if_pos ho]
    constructor
    · intro h
      have hage := h "Access-Control-Max-Age" (by decide)
      simp [ResponseWriter.allowOrigin, ResponseWriter.set, Header.values_set] at hage
    · intro h
      rw [ho] at h
      cases h
  · rw [if_neg ho]
    exact iff_of_true (fun n _ => Header.values_empty n) (Bool.eq_false_iff.2 ho)

theorem fieldValues_nil_iff (fields : List (String × String)) :
    (∀ n ≠ "X-Cache", fieldValues fields n = []) ↔ ∀ f ∈ fields, f.1 = "X-Cache" := by
  constructor
  · intro h f hf
    by_contra hne
    have hnone := h f.1 hne
    rw [fieldValues, List.map_eq_nil_iff, List.filter_eq_nil_iff] at hnone
    simpa using hnone f hf
  · intro h n hn
    refine fieldValues_of_absent fun f hf => ?_
    rw [h f hf]
    exact Ne.symm hn

/-- The fields of a hit: those of the outer middleware, then those of the entry. -/
theorem hit_sentValues {r : Request} (hr : r.method = "GET" ∨ r.method = "HEAD")
    (allowedOrigins : List String) (b : BackendResponse) (header : Header) (body : List UInt8)
    (expires : ℤ) {n : String} (hn : n ≠ "X-Cache") :
    (respond allowedOrigins (some ⟨200, header.pairs, body, expires⟩) b r).1.sentValues n =
      (corsHeader allowedOrigins r).values n ++ header.values n := by
  unfold ResponseWriter.sentValues
  rw [(hit_response hr allowedOrigins b header body expires).1]
  show (Header.set _ _ _).values n = _
  rw [Header.values_set, if_neg hn, Header.values_addAll_pairs]

/-- The fields of a miss: those of the outer middleware, then those of the backend. -/
theorem miss_sentValues {r : Request} (hr : r.method = "GET" ∨ r.method = "HEAD")
    {allowedOrigins : List String} {b : BackendResponse} {e : CacheEntry}
    (he : (respond allowedOrigins none b r).2 = some e) (n : String) :
    (respond allowedOrigins none b r).1.sentValues n =
      (corsHeader allowedOrigins r).values n ++ fieldValues b.header n := by
  rw [(miss_response hr he).1]
  show (Header.addFields _ _).values n = _
  rw [Header.values_addFields]

/-- A response equals another one, apart from `X-Cache`. -/
def SameResponse (w w' : ResponseWriter) : Prop :=
  w.status = w'.status ∧ w.body = w'.body ∧ ∀ n ≠ "X-Cache", w.sentValues n = w'.sentValues n

/-- A hit on the entry of a miss repeats the miss if nothing was in the header map before the proxy
wrote to it, and nothing came after the body. -/
theorem same_response_iff {r : Request} (hr : r.method = "GET" ∨ r.method = "HEAD")
    {allowedOrigins : List String} {b : BackendResponse} {e : CacheEntry}
    (he : (respond allowedOrigins none b r).2 = some e) (b' : BackendResponse) (expires : ℤ) :
    SameResponse (respond allowedOrigins (some { e with expires := expires }) b' r).1
        (respond allowedOrigins none b r).1 ↔
      originAllowed allowedOrigins r = false ∧ ∀ f ∈ b.trailer, f.1 = "X-Cache" := by
  obtain ⟨hfirst, rfl⟩ := miss_response hr he
  obtain ⟨hsent, hbody⟩ := hit_response hr allowedOrigins b'
    (((corsHeader allowedOrigins r).addFields b.header).addFields b.trailer) b.chunks.flatten expires
  -- a field has the values of the middleware once more, and those of the trailer
  have hfield : ∀ n ≠ "X-Cache",
      ((respond allowedOrigins (some ⟨200, (((corsHeader allowedOrigins r).addFields
          b.header).addFields b.trailer).pairs, b.chunks.flatten, expires⟩) b' r).1.sentValues n =
        (respond allowedOrigins none b r).1.sentValues n ↔
        (corsHeader allowedOrigins r).values n = [] ∧ fieldValues b.trailer n = []) := by
    intro n hn
    rw [hit_sentValues hr _ _ _ _ _ hn, miss_sentValues hr he, Header.values_addFields,
      Header.values_addFields]
    constructor
    · intro h
      have hlen := congrArg List.length h
      simp only [List.length_append] at hlen
      exact ⟨List.eq_nil_of_length_eq_zero (by omega), List.eq_nil_of_length_eq_zero (by omega)⟩
    · rintro ⟨h1, h2⟩
      rw [h1, h2]
      simp
  rw [← corsHeader_values_nil_iff, ← fieldValues_nil_iff]
  constructor
  · rintro ⟨-, -, h⟩
    exact ⟨fun n hn => ((hfield n hn).1 (h n hn)).1, fun n hn => ((hfield n hn).1 (h n hn)).2⟩
  · rintro ⟨hcors, htrailer⟩
    refine ⟨?_, ?_, fun n hn => (hfield n hn).2 ⟨hcors n hn, htrailer n hn⟩⟩
    · unfold ResponseWriter.status
      rw [hsent, hfirst]
      rfl
    · rw [hbody, hfirst]

/-! ## Hits on a stored entry -/

/-- The last accepted `set` of a key is the last one if later ones leave the key alone. -/
theorem lastAccepted_of_set {maxEntries maxBodyBytes : ℤ} {before between : List Call} {k : String}
    {e e' : CacheEntry} {t t' : ℤ} (hacc : accepts maxEntries maxBodyBytes e = true)
    (hkeep : ∀ e'' t'', Call.set k e'' t'' ∉ between)
    (h : LastAccepted maxEntries maxBodyBytes (before ++ .set k e t :: between) k e' t') :
    e' = e ∧ t' = t := by
  obtain ⟨before', later, heq, -, hlater⟩ := h
  rcases List.append_eq_append_iff.1 heq with ⟨mid, hmid, hrest⟩ | ⟨mid, hmid, hrest⟩
  · cases mid with
    | nil =>
      cases hrest
      exact ⟨rfl, rfl⟩
    | cons x mid =>
      obtain ⟨-, hbetween⟩ := List.cons.inj hrest
      exact absurd (hbetween ▸ List.mem_append_right _ List.mem_cons_self) (hkeep e' t')
  · cases mid with
    | nil =>
      cases hrest
      exact ⟨rfl, rfl⟩
    | cons x mid =>
      obtain ⟨-, hlater'⟩ := List.cons.inj hrest
      have hmem : Call.set k e t ∈ later := hlater' ▸ List.mem_append_right _ List.mem_cons_self
      rw [hlater e t hmem] at hacc
      cases hacc

/-- After an accepted `set`, and as long as no other one has the key, a hit is on its entry. -/
theorem hit_after_set {ttl maxEntries maxBodyBytes : ℤ} {before between : List Call} {k : String}
    {e found : CacheEntry} {t now : ℤ} {c : ResponseCache} {answers : List (Option CacheEntry)}
    (hacc : accepts maxEntries maxBodyBytes e = true)
    (hrun : trace ResponseCache.step (newResponseCache ttl maxEntries maxBodyBytes)
      (before ++ .set k e t :: between) = some (c, answers))
    (hkeep : ∀ e' t', Call.set k e' t' ∉ between) (hhit : (c.get k now).2 = some found) :
    found = { e with expires := t + ttl } := by
  obtain ⟨c', l, answers', hc, hl, hrep⟩ := trace_of_simulation
    (R := Represents ttl maxEntries maxBodyBytes) step_simulates (before ++ .set k e t :: between)
    (newResponseCache ttl maxEntries maxBodyBytes) [] newResponseCache_represents
  rw [hrun] at hc
  cases hc
  obtain ⟨e', t', hlast, hfound, -⟩ := hit_spec (trace_recencyStep [] hl ▸ hrep) hhit
  obtain ⟨rfl, rfl⟩ := lastAccepted_of_set hacc hkeep hlast
  exact hfound

/-- **Cache transparency**: a request misses and its response is stored; whatever the cache does for
other requests in between, an identical request that hits the entry gets the response of the miss,
apart from `X-Cache`, if and only if its origin is not an allowed one and the response of the backend
had no trailer. -/
theorem hit_repeats_miss_iff (sum256 : String → List UInt8) (allowedOrigins : List String)
    (ttl maxEntries maxBodyBytes : ℤ) (r : Request) (hr : r.method = "GET" ∨ r.method = "HEAD")
    (b b' : BackendResponse) (earlier during between : List Call) (t0 t1 t2 : ℤ)
    {e found : CacheEntry} {c0 c : ResponseCache} {answers0 answers : List (Option CacheEntry)}
    (hearlier : trace ResponseCache.step (newResponseCache ttl maxEntries maxBodyBytes) earlier =
      some (c0, answers0))
    (hmiss : (c0.get (cacheKey sum256 r) t0).2 = none)
    (hentry : (respond allowedOrigins none b r).2 = some e)
    (hstored : accepts maxEntries maxBodyBytes e = true)
    (hrun : trace ResponseCache.step c0 (.get (cacheKey sum256 r) t0 :: during ++
      .set (cacheKey sum256 r) e t1 :: between) = some (c, answers))
    (hkeep : ∀ e' t, Call.set (cacheKey sum256 r) e' t ∉ between)
    (hhit : (c.get (cacheKey sum256 r) t2).2 = some found) :
    SameResponse (respond allowedOrigins (c.get (cacheKey sum256 r) t2).2 b' r).1
        (respond allowedOrigins (c0.get (cacheKey sum256 r) t0).2 b r).1 ↔
      originAllowed allowedOrigins r = false ∧ ∀ f ∈ b.trailer, f.1 = "X-Cache" := by
  have hall := trace_append hearlier hrun
  rw [← List.append_assoc] at hall
  have hfound := hit_after_set hstored hall hkeep hhit
  rw [hhit, hmiss, hfound]
  exact same_response_iff hr hentry b' (t1 + ttl)

/-- A request of the frontend, or of a page that has no access. -/
def arrivalsRequest (origin : String) : Request :=
  ⟨"GET", ⟨"/api/airport/arrivals".toList, [], [], fun h => absurd rfl h⟩, Header.empty.set "Origin" origin⟩

/-- A response of the airport. -/
def arrivalsResponse : BackendResponse :=
  ⟨200, [("Content-Type", "application/json")], [[91, 93]], []⟩

/-- The hit of a page without access repeats the miss. -/
theorem foreign_origin_hit :
    let r := arrivalsRequest "http://localhost:8080"
    let key := cacheKey (fun _ => []) r
    let e : CacheEntry := ⟨200, [("Content-Type", ["application/json"])], [91, 93], 0⟩
    (respond ["http://localhost:5173"] none arrivalsResponse r).2 = some e ∧
      ∃ c answers,
        trace ResponseCache.step (newResponseCache 5 1024 1048576) [.get key 0, .set key e 1] =
          some (c, answers) ∧
        SameResponse (respond ["http://localhost:5173"] (c.get key 2).2 arrivalsResponse r).1
          (respond ["http://localhost:5173"] none arrivalsResponse r).1 := by
  intro r key e
  have hentry : (respond ["http://localhost:5173"] none arrivalsResponse r).2 = some e := by decide
  refine ⟨hentry, _, _, rfl, ?_⟩
  exact (hit_repeats_miss_iff (fun _ => []) ["http://localhost:5173"] 5 1024 1048576 r (Or.inl rfl)
    arrivalsResponse arrivalsResponse [] [] [] 0 1 2 rfl rfl hentry rfl rfl (by simp) rfl).2
    ⟨by decide, by decide⟩

/-- The hit of the frontend carries every header field of `CORSMiddleware` twice. -/
theorem allowed_origin_hit_differs :
    let r := arrivalsRequest "http://localhost:5173"
    let key := cacheKey (fun _ => []) r
    let first := respond ["http://localhost:5173"] none arrivalsResponse r
    ∃ e c answers found,
      first.2 = some e ∧
      trace ResponseCache.step (newResponseCache 5 1024 1048576) [.get key 0, .set key e 1] =
        some (c, answers) ∧
      (c.get key 2).2 = some found ∧
      (respond ["http://localhost:5173"] (some found) arrivalsResponse r).1.sentValues
        "Access-Control-Allow-Origin" = ["http://localhost:5173", "http://localhost:5173"] ∧
      ¬SameResponse (respond ["http://localhost:5173"] (some found) arrivalsResponse r).1 first.1 := by
  refine ⟨_, _, _, _, rfl, rfl, rfl, by decide, ?_⟩
  rintro ⟨-, -, h⟩
  exact absurd (h "Access-Control-Allow-Origin" (by decide)) (by decide)

end Gateway
