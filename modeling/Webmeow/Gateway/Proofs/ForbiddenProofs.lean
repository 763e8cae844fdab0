import Webmeow.Gateway.Proofs.TransparencyProofs

/-!
# Responses that must not be stored

Whether a response may be stored is checked twice, on the header map at the first write and on the
one that is left in the end. Both checks read the first line of a field only, `Set-Cookie` apart, so
a response is stored against its later lines.
-/

namespace Gateway

/-! ## What a response says -/

/-- The media type `text/event-stream`, in any letter case. -/
def NamesEventStream (value : String) : Prop := "text/event-stream".toList <+: toLower value.toList

/-- The directives `private` and `no-store`, in any letter case. -/
def ForbidsStoring (value : String) : Prop :=
  "private".toList <:+: toLower value.toList ∨ "no-store".toList <:+: toLower value.toList

/-- A response that may be stored. -/
structure Storable (status : ℤ) (h : Header) : Prop where
  /-- The status is 200. -/
  status : status = 200
  /-- No content type is an event stream. -/
  contentType : ∀ v ∈ h.values "Content-Type", ¬NamesEventStream v
  /-- No cookie is set. -/
  setCookie : h.values "Set-Cookie" = []
  /-- No directive forbids storing. -/
  cacheControl : ∀ v ∈ h.values "Cache-Control", ¬ForbidsStoring v

/-- No line that `responseCacheable` does not look at speaks against storing: the later lines of both
fields, and the letter case of the first `Content-Type`. -/
structure NothingOverlooked (h : Header) : Prop where
  /-- No later content type is an event stream. -/
  contentType : ∀ v ∈ (h.values "Content-Type").tail, ¬NamesEventStream v
  /-- An event stream is named in lower case. -/
  letterCase : NamesEventStream (h.get "Content-Type") →
    "text/event-stream".toList <+: (h.get "Content-Type").toList
  /-- No later directive forbids storing. -/
  cacheControl : ∀ v ∈ (h.values "Cache-Control").tail, ¬ForbidsStoring v

instance (value : String) : Decidable (NamesEventStream value) :=
  inferInstanceAs (Decidable (_ <+: _))

instance (value : String) : Decidable (ForbidsStoring value) :=
  inferInstanceAs (Decidable (_ ∨ _))

/-- All values of a field are its first one and the others. -/
theorem forall_values_iff (h : Header) (name : String) {p : String → Prop} (hempty : ¬p "") :
    (∀ v ∈ h.values name, ¬p v) ↔ ¬p (h.get name) ∧ ∀ v ∈ (h.values name).tail, ¬p v := by
  rw [Header.get]
  cases h.values name with
  | nil => simp [hempty]
  | cons v vs => simp

theorem not_namesEventStream_empty : ¬NamesEventStream "" := by decide

theorem not_forbidsStoring_empty : ¬ForbidsStoring "" := by decide

/-- What the check leaves open. -/
theorem storable_iff {status : ℤ} {h : Header} (hc : responseCacheable status h = true) :
    Storable status h ↔ NothingOverlooked h := by
  obtain ⟨hstatus, htype, hcookie, hcontrol⟩ := of_decide_eq_true hc
  have htypes := forall_values_iff h "Content-Type" not_namesEventStream_empty
  have hcontrols := forall_values_iff h "Cache-Control" not_forbidsStoring_empty
  constructor
  · intro hs
    obtain ⟨hfirst, hlater⟩ := htypes.1 hs.contentType
    exact
      { contentType := hlater
        letterCase := fun hnames => absurd hnames hfirst
        cacheControl := (hcontrols.1 hs.cacheControl).2 }
  · intro ho
    exact
      { status := hstatus
        contentType := htypes.2 ⟨fun hnames => htype (ho.letterCase hnames), ho.contentType⟩
        setCookie := List.eq_nil_of_length_eq_zero hcookie
        cacheControl := hcontrols.2 ⟨hcontrol, ho.cacheControl⟩ }

/-! ## What is stored -/

/-- Both the response that was sent and the one that is stored may be stored. -/
def StoresOnlyStorable (out : ResponseWriter × Option CacheEntry) : Prop :=
  ∀ e, out.2 = some e → e.header = out.1.header.pairs ∧ Storable e.status out.1.header ∧
    ∃ h, out.1.sent = some (200, h) ∧ Storable 200 h

/-- A response that may be stored has status 200. -/
theorem status_of_cacheable {code : ℤ} {h : Header} (hc : responseCacheable code h = true) :
    code = 200 := (of_decide_eq_true hc).1

/-- The capture stores only what may be stored if and only if nothing is overlooked in what it
stores. -/
theorem capture_stores_iff {w : ResponseWriter} (hw : w.sent = none) (calls : List HandlerCall) :
    StoresOnlyStorable
      ((CacheCapture.around w calls).writer, (CacheCapture.around w calls).entry) ↔
    ∀ code h₁, firstWrite w.header calls = some (code, h₁) → responseCacheable code h₁ = true →
      responseCacheable code (lastHeader w.header calls) = true →
        NothingOverlooked h₁ ∧ NothingOverlooked (lastHeader w.header calls) := by
  obtain ⟨hlast, hfirst⟩ := around_spec hw calls
  generalize CacheCapture.around w calls = c at *
  rw [← hlast]
  rcases hfirst with ⟨hnone, hcacheable⟩ | ⟨code, h₁, hsome, rfl, hcacheable, hsent⟩
  · have hentry : c.entry = none := by simp [CacheCapture.entry, hcacheable]
    rw [hnone]
    refine ⟨fun _ code h₁ h => (by cases h), fun _ e he => ?_⟩
    rw [hentry] at he
    cases he
  · rw [hsome]
    constructor
    · intro hstores code' h' heq hc₁ hc₂
      cases heq
      have hstatus := status_of_cacheable hc₁
      have hentry : c.entry = some ⟨c.status, c.writer.header.pairs, c.buf, 0⟩ := by
        rw [CacheCapture.entry, if_pos ⟨hcacheable.trans hc₁, hc₂⟩]
      obtain ⟨-, hstored, h, hs, hsentOk⟩ := hstores _ hentry
      have hh : h = h₁ := by
        rw [hsent hstatus] at hs
        cases hs
        rfl
      rw [hh, ← hstatus] at hsentOk
      exact ⟨(storable_iff hc₁).1 hsentOk, (storable_iff hc₂).1 hstored⟩
    · intro hnothing e he
      unfold CacheCapture.entry at he
      split_ifs at he with hc
      cases he
      have hc₁ : responseCacheable c.status h₁ = true := hcacheable.symm.trans hc.1
      obtain ⟨ho₁, ho₂⟩ := hnothing c.status h₁ rfl hc₁ hc.2
      have hstatus := status_of_cacheable hc₁
      have hsentOk := (storable_iff hc₁).2 ho₁
      rw [hstatus] at hsentOk
      exact ⟨rfl, (storable_iff hc.2).2 ho₂, h₁, hsent hstatus, hsentOk⟩

/-- Nothing is stored unless the request is a GET or HEAD that misses. -/
theorem around_stores {found : Option CacheEntry} {calls : List HandlerCall} {r : Request}
    {w : ResponseWriter} {e : CacheEntry} (h : (cacheMiddlewareAround found calls r w).2 = some e) :
    (r.method = "GET" ∨ r.method = "HEAD") ∧ found = none := by
  unfold cacheMiddlewareAround at h
  split_ifs at h with hmethod
  cases found with
  | some e' => cases h
  | none => exact ⟨by tauto, rfl⟩

/-- A miss answers through the capture. -/
theorem around_miss (calls : List HandlerCall) {r : Request} (w : ResponseWriter)
    (hr : r.method = "GET" ∨ r.method = "HEAD") :
    cacheMiddlewareAround none calls r w =
      ((CacheCapture.around w calls).writer, (CacheCapture.around w calls).entry) := by
  have hpassed : ¬(r.method ≠ "GET" ∧ r.method ≠ "HEAD") := by tauto
  simp only [cacheMiddlewareAround, if_neg hpassed]

/-- **Forbidden responses are not stored**, whatever a handler does to its response writer, if and
only if a response to a miss that passes both checks has no line that they overlook. -/
theorem stores_only_storable_iff (found : Option CacheEntry) (calls : List HandlerCall) (r : Request)
    (h₀ : Header) :
    StoresOnlyStorable
      (cacheMiddlewareAround found calls r { ResponseWriter.start r with header := h₀ }) ↔
    ((r.method = "GET" ∨ r.method = "HEAD") → found = none →
      ∀ code h₁, firstWrite h₀ calls = some (code, h₁) → responseCacheable code h₁ = true →
        responseCacheable code (lastHeader h₀ calls) = true →
          NothingOverlooked h₁ ∧ NothingOverlooked (lastHeader h₀ calls)) := by
  have hcapture := @capture_stores_iff { ResponseWriter.start r with header := h₀ } rfl calls
  constructor
  · rintro hstores hr rfl
    rw [around_miss calls _ hr] at hstores
    exact hcapture.1 hstores
  · intro hnothing e he
    obtain ⟨hr, rfl⟩ := around_stores he
    rw [around_miss calls _ hr] at he ⊢
    exact hcapture.2 (hnothing hr rfl) e he

/-- A response with two `Cache-Control` lines, of which the second forbids to store it. -/
def privateResponse : BackendResponse :=
  ⟨200, [("Content-Type", "application/json"), ("Cache-Control", "max-age=60"),
    ("Cache-Control", "private")], [[91, 93]], []⟩

/-- The second line is overlooked, and the response is stored. -/
theorem privateResponse_stored :
    let r := arrivalsRequest "http://localhost:5173"
    (respond ["http://localhost:5173"] none privateResponse r).2.isSome = true ∧
      ¬StoresOnlyStorable (cacheMiddlewareAround none
        (privateResponse.calls.map WriterCall.handlerCall) r
        { ResponseWriter.start r with header := corsHeader ["http://localhost:5173"] r }) := by
  intro r
  have hentry : (cacheMiddlewareAround none (privateResponse.calls.map WriterCall.handlerCall) r
      { ResponseWriter.start r with
        header := corsHeader ["http://localhost:5173"] r }).2.isSome = true := by decide
  refine ⟨by decide, fun hstores => ?_⟩
  obtain ⟨e, he⟩ := Option.isSome_iff_exists.1 hentry
  obtain ⟨-, hstored, -⟩ := hstores e he
  exact hstored.cacheControl "private" (by decide) (by decide)

end Gateway
