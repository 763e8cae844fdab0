import Webmeow.Gateway.Middleware

/-!
# The capture of a response

What `cacheCapture` makes of any sequence of header changes, `WriteHeader` and `Write` calls. The first
write decides whether the response is cacheable, and sends the header map that it finds.
-/

namespace Gateway

/-! ## The response writer -/

theorem writeHeader_header (w : ResponseWriter) (code : ℤ) :
    (w.writeHeader code).header = w.header := by
  unfold ResponseWriter.writeHeader
  split_ifs <;> rfl

/-- Once sent, the status stays. -/
theorem writeHeader_sent {w : ResponseWriter} (hs : w.sent ≠ none) (code : ℤ) :
    (w.writeHeader code).sent = w.sent := by
  unfold ResponseWriter.writeHeader
  rw [if_neg fun h => hs h.1]

/-- Once sent, a write only adds to the body. -/
theorem write_sent {w : ResponseWriter} (hs : w.sent ≠ none) (b : List UInt8) :
    w.write b = { w with body := if w.head then w.body else w.body ++ b } := by
  obtain ⟨head, header, sent, body⟩ := w
  unfold ResponseWriter.write
  rw [if_neg hs]
  cases head with
  | true => rfl
  | false => rfl

theorem write_header (w : ResponseWriter) (b : List UInt8) : (w.write b).header = w.header := by
  by_cases hs : w.sent = none
  · unfold ResponseWriter.write
    rw [if_pos hs]
    by_cases hh : (w.writeHeader 200).head = true
    · simp only [hh, if_true, writeHeader_header]
    · simp only [hh, writeHeader_header, Bool.false_eq_true, if_false]
  · rw [write_sent hs]

theorem write_sent_eq {w : ResponseWriter} (hs : w.sent ≠ none) (b : List UInt8) :
    (w.write b).sent = w.sent := by rw [write_sent hs]

/-! ## The capture -/

/-- The status and the header map at the first `WriteHeader` or `Write`. -/
def firstWrite (h : Header) : List HandlerCall → Option (ℤ × Header)
  | [] => none
  | .header change :: calls => firstWrite (change h) calls
  | .writeHeader code :: _ => some (code, h)
  | .write _ :: _ => some (200, h)

/-- The header map that a call leaves. -/
def HandlerCall.headerAfter (h : Header) : HandlerCall → Header
  | .header change => change h
  | _ => h

/-- The header map in the end. -/
def lastHeader (h : Header) (calls : List HandlerCall) : Header :=
  calls.foldl HandlerCall.headerAfter h

/-- What has been decided and sent does not change any more. -/
structure Settled (c c' : CacheCapture) : Prop where
  /-- The decision is made. -/
  decided : c'.decided = true
  /-- The status stays. -/
  status : c'.status = c.status
  /-- The decision stays. -/
  cacheable : c'.cacheable = c.cacheable
  /-- What is sent stays. -/
  sent : c.writer.sent ≠ none → c'.writer.sent = c.writer.sent

/-- After the decision, a call changes neither it nor the status. -/
theorem handle_settled {c : CacheCapture} (hd : c.decided = true) (x : HandlerCall) :
    Settled c (c.handle x) := by
  cases x with
  | header change => exact ⟨hd, rfl, rfl, fun _ => rfl⟩
  | writeHeader code =>
    have hcall : c.handle (.writeHeader code) = { c with writer := c.writer.writeHeader code } := by
      simp [CacheCapture.handle, CacheCapture.writeHeader, hd]
    rw [hcall]
    exact ⟨hd, rfl, rfl, fun hs => writeHeader_sent hs code⟩
  | write b =>
    have hcall : c.handle (.write b) =
        { c with
          buf := if c.cacheable then c.buf ++ b else c.buf
          writer := c.writer.write b } := by
      by_cases hc : c.cacheable = true
      · simp [CacheCapture.handle, CacheCapture.write, hd, hc]
      · simp [CacheCapture.handle, CacheCapture.write, hd, hc]
    rw [hcall]
    exact ⟨hd, rfl, rfl, fun hs => write_sent_eq hs b⟩

/-- After the decision, no calls change it or the status. -/
theorem foldl_handle_settled {c : CacheCapture} (hd : c.decided = true) (calls : List HandlerCall) :
    Settled c (calls.foldl CacheCapture.handle c) := by
  induction calls generalizing c with
  | nil => exact ⟨hd, rfl, rfl, fun _ => rfl⟩
  | cons x calls ih =>
    have hx := handle_settled hd x
    have hrest := ih hx.decided
    refine ⟨hrest.decided, hrest.status.trans hx.status, hrest.cacheable.trans hx.cacheable,
      fun hs => ?_⟩
    have hsent := hx.sent hs
    exact (hrest.sent (by rwa [hsent])).trans hsent

theorem capture_writeHeader_writer (c : CacheCapture) (code : ℤ) :
    (c.writeHeader code).writer = c.writer.writeHeader code := by
  unfold CacheCapture.writeHeader
  by_cases hd : c.decided = true
  · simp only [hd, if_true]
  · simp only [hd, Bool.false_eq_true, if_false]

/-- The header map changes by the handler only. -/
theorem handle_header (c : CacheCapture) (x : HandlerCall) :
    (c.handle x).writer.header = x.headerAfter c.writer.header := by
  cases x with
  | header change => rfl
  | writeHeader code =>
    exact (congrArg ResponseWriter.header (capture_writeHeader_writer c code)).trans
      (writeHeader_header c.writer code)
  | write b =>
    have hwriter : (c.handle (.write b)).writer.header =
        (if c.decided then c else c.writeHeader 200).writer.header := by
      simp only [CacheCapture.handle, CacheCapture.write, write_header]
      split_ifs <;> rfl
    rw [hwriter]
    split_ifs
    · rfl
    · exact (congrArg ResponseWriter.header (capture_writeHeader_writer c 200)).trans
        (writeHeader_header c.writer 200)

/-- The header after the calls. -/
theorem foldl_handle_header (c : CacheCapture) (calls : List HandlerCall) :
    (calls.foldl CacheCapture.handle c).writer.header = lastHeader c.writer.header calls := by
  induction calls generalizing c with
  | nil => rfl
  | cons x calls ih => rw [List.foldl_cons, ih, handle_header]; rfl

/-- The first write decides: by its status and the header map at this moment, which is also what is
sent with the status 200. -/
theorem first_write_decides {w : ResponseWriter} (hw : w.sent = none) {x : HandlerCall}
    {code : ℤ} (hx : x = .writeHeader code ∨ (∃ b, x = .write b) ∧ code = 200) :
    (CacheCapture.handle ⟨w, [], 0, false, false⟩ x).decided = true ∧
      (CacheCapture.handle ⟨w, [], 0, false, false⟩ x).status = code ∧
      (CacheCapture.handle ⟨w, [], 0, false, false⟩ x).cacheable = responseCacheable code w.header ∧
      (code = 200 →
        (CacheCapture.handle ⟨w, [], 0, false, false⟩ x).writer.sent = some (200, w.header)) := by
  have hsent : (w.writeHeader 200).sent = some (200, w.header) := by
    unfold ResponseWriter.writeHeader
    rw [if_pos ⟨hw, by decide⟩]
  have hhead : ∀ code, CacheCapture.writeHeader ⟨w, [], 0, false, false⟩ code =
      ⟨w.writeHeader code, [], code, responseCacheable code w.header, true⟩ := fun code => by
    simp [CacheCapture.writeHeader]
  rcases hx with rfl | ⟨⟨b, rfl⟩, rfl⟩
  · have hcall : CacheCapture.handle ⟨w, [], 0, false, false⟩ (.writeHeader code) =
        ⟨w.writeHeader code, [], code, responseCacheable code w.header, true⟩ := hhead code
    rw [hcall]
    refine ⟨rfl, rfl, rfl, ?_⟩
    rintro rfl
    exact hsent
  · have hcall : ∃ buf, CacheCapture.handle ⟨w, [], 0, false, false⟩ (.write b) =
        ⟨(w.writeHeader 200).write b, buf, 200, responseCacheable 200 w.header, true⟩ := by
      by_cases hc : responseCacheable 200 w.header = true
      · exact ⟨b, by simp [CacheCapture.handle, CacheCapture.write, hhead, hc]⟩
      · exact ⟨[], by simp [CacheCapture.handle, CacheCapture.write, hhead, hc]⟩
    obtain ⟨buf, hcall⟩ := hcall
    rw [hcall]
    refine ⟨rfl, rfl, rfl, fun _ => ?_⟩
    exact (write_sent_eq (by rw [hsent]; exact Option.some_ne_none _) b).trans hsent

/-- The capture of a handler: cacheability by the first write, and the last header map. -/
theorem around_spec {w : ResponseWriter} (hw : w.sent = none) (calls : List HandlerCall) :
    (CacheCapture.around w calls).writer.header = lastHeader w.header calls ∧
    ((firstWrite w.header calls = none ∧ (CacheCapture.around w calls).cacheable = false) ∨
      ∃ code h, firstWrite w.header calls = some (code, h) ∧
        (CacheCapture.around w calls).status = code ∧
        (CacheCapture.around w calls).cacheable = responseCacheable code h ∧
        (code = 200 → (CacheCapture.around w calls).writer.sent = some (200, h))) := by
  refine ⟨foldl_handle_header _ calls, ?_⟩
  induction calls generalizing w with
  | nil => exact Or.inl ⟨rfl, rfl⟩
  | cons x calls ih =>
    have hdecided : ∀ code, (x = .writeHeader code ∨ (∃ b, x = .write b) ∧ code = 200) →
        (CacheCapture.around w (x :: calls)).status = code ∧
        (CacheCapture.around w (x :: calls)).cacheable = responseCacheable code w.header ∧
        (code = 200 →
          (CacheCapture.around w (x :: calls)).writer.sent = some (200, w.header)) := by
      intro code hx
      obtain ⟨hd, hstatus, hcacheable, hsent⟩ := first_write_decides hw hx
      have hrest := foldl_handle_settled hd calls
      refine ⟨hrest.status.trans hstatus, hrest.cacheable.trans hcacheable, fun hcode => ?_⟩
      have hs := hsent hcode
      exact (hrest.sent (by rw [hs]; exact Option.some_ne_none _)).trans hs
    cases x with
    | header change => exact @ih { w with header := change w.header } hw
    | writeHeader code => exact Or.inr ⟨code, w.header, rfl, hdecided code (Or.inl rfl)⟩
    | write b => exact Or.inr ⟨200, w.header, rfl, hdecided 200 (Or.inr ⟨⟨b, rfl⟩, rfl⟩)⟩

/-! ## The reverse proxy -/

theorem foldl_call_eq (c : CacheCapture) (xs : List WriterCall) :
    xs.foldl CacheCapture.call c = (xs.map WriterCall.handlerCall).foldl CacheCapture.handle c := by
  rw [List.foldl_map]
  congr 1
  funext c x
  cases x <;> rfl

theorem foldl_call_writer_eq (w : ResponseWriter) (xs : List WriterCall) :
    xs.foldl ResponseWriter.call w =
      (xs.map WriterCall.handlerCall).foldl ResponseWriter.handle w := by
  rw [List.foldl_map]
  congr 1
  funext w x
  cases x <;> rfl

/-- The middleware around the reverse proxy is a case of the one around any handler. -/
theorem cacheMiddlewareAround_handlerCalls (found : Option CacheEntry) (calls : List WriterCall) :
    cacheMiddlewareAround found (calls.map WriterCall.handlerCall) = cacheMiddleware found calls := by
  funext r w
  simp only [cacheMiddlewareAround, cacheMiddleware, CacheCapture.around, CacheCapture.serve,
    foldl_call_writer_eq, foldl_call_eq]

end Gateway
