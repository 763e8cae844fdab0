import Webmeow.Frontend.Proofs.CoalescingProofs

/-!
# Reads after a write

The server numbers the requests in the order in which it handles them. A `get` that sends a request
of its own is handled after every write that has resolved; one that joins a request in flight is as
old as that request.
-/

namespace Frontend

open Runs

variable {U K δ ε : Type*} {getUri : U → K} {s s' : Client U K δ ε}

/-- The time at which the server handled a `post` or `delete` whose promise has resolved. -/
def ApiRequest.resolvedWrite (q : ApiRequest U δ ε) : Option ℕ :=
  match q.method, q.handled, q.outcome with
  | .POST, some (t, _), some (.ok _) => some t
  | .DELETE, some (t, _), some (.ok _) => some t
  | _, _, _ => none

/-- The call joins a request that the server handled before a write that has resolved. -/
def staleJoin (getUri : U → K) (s : Client U K δ ε) : ApiEvent U δ ε → Bool
  | .get _ url =>
    match (s.inFlightGets (getUri url)).bind fun r => s.requests[r]?.bind ApiRequest.handled with
    | none => false
    | some (t, _) => s.requests.any fun w => w.resolvedWrite.any fun tw => decide (t < tw)
  | _ => false

/-- A resolved write was handled. -/
theorem resolvedWrite_handled {w : ApiRequest U δ ε} {t : ℕ} (h : w.resolvedWrite = some t) :
    ∃ response, w.handled = some (t, response) := by
  unfold ApiRequest.resolvedWrite at h
  split at h
  · rename_i hhandled _
    cases h
    exact ⟨_, hhandled⟩
  · rename_i hhandled _
    cases h
    exact ⟨_, hhandled⟩
  · cases h

/-- The requests are numbered, a value was computed from the response of its request, and a call has
settled with the outcome of its request. -/
structure Client.Sound (s : Client U K δ ε) : Prop where
  /-- A handled request has a number below the count. -/
  numbered : ∀ (r : ℕ) (q : ApiRequest U δ ε) t response, s.requests[r]? = some q →
    q.handled = some (t, response) → t < s.handledCount
  /-- An outcome is what the schema makes of the response. -/
  computed : ∀ (r : ℕ) (q : ApiRequest U δ ε) v, s.requests[r]? = some q →
    q.outcome = some (.ok v) →
    ∃ t response, q.handled = some (t, response) ∧ response.bind q.schema = .ok v
  /-- A result is the outcome of the request awaited. -/
  settled : ∀ (i : ℕ) (c : GetCall U δ ε) o, s.calls[i]? = some c → c.result = some o →
    ∃ q, s.requests[c.request]? = some q ∧ q.outcome = some o

theorem initial_sound : (Client.initial : Client U K δ ε).Sound where
  numbered := by simp [Client.initial]
  computed := by simp [Client.initial]
  settled := by simp [Client.initial]

/-- Request `r` is handled after the request with number `t`, if it is handled at all. -/
def Client.FreshAfter (t r : ℕ) (s : Client U K δ ε) : Prop :=
  t < s.handledCount ∧ ∀ (q : ApiRequest U δ ε) t' response, s.requests[r]? = some q →
    q.handled = some (t', response) → t ≤ t'

/-- A stale join joins a read that was handled before a write that is resolved. -/
theorem staleJoin_iff {schema : δ → Except ε δ} {url : U} :
    staleJoin getUri s (.get schema url) = true ↔ ∃ r q t response, s.inFlightGets (getUri url) =
      some r ∧ s.requests[r]? = some q ∧ q.handled = some (t, response) ∧
      ∃ w ∈ s.requests, ∃ tw, w.resolvedWrite = some tw ∧ t < tw := by
  simp only [staleJoin]
  cases hj : (s.inFlightGets (getUri url)).bind fun r => s.requests[r]?.bind ApiRequest.handled with
  | none =>
    simp only [Bool.false_eq_true, false_iff]
    rintro ⟨r, q, t, response, hr, hq, ht, -⟩
    rw [hr, Option.bind_some, hq, Option.bind_some, ht] at hj
    cases hj
  | some x =>
    obtain ⟨r, hr, hj⟩ := Option.bind_eq_some_iff.1 hj
    obtain ⟨q, hq, hx⟩ := Option.bind_eq_some_iff.1 hj
    simp only [List.any_eq_true, Option.any_eq_true, decide_eq_true_eq]
    constructor
    · rintro ⟨w, hw, tw, htw, hlt⟩
      exact ⟨r, q, x.1, x.2, hr, hq, hx, w, hw, tw, htw, hlt⟩
    · rintro ⟨r', q', t, response, hr', hq', ht, w, hw, tw, htw, hlt⟩
      rw [hr, Option.some.injEq] at hr'
      subst hr'
      rw [hq, Option.some.injEq] at hq'
      subst hq'
      rw [hx, Option.some.injEq] at ht
      exact ⟨w, hw, tw, htw, by rw [ht]; exact hlt⟩

/-! ## What a step does to a request and to a call -/

/-- The request `q` at an index, given what was there before a step of a client that had seen `n`
requests handled. -/
inductive RequestStep (n n' : ℕ) (old : Option (ApiRequest U δ ε)) (q : ApiRequest U δ ε) : Prop
  /-- The request is left alone. -/
  | same (hold : old = some q)
  /-- The request is new. -/
  | sent (hold : old = none) (hhandled : q.handled = none) (houtcome : q.outcome = none)
  /-- The server handles the request. -/
  | handled (q0 : ApiRequest U δ ε) (response : Except ε δ) (hold : old = some q0)
      (hnone : q0.handled = none) (hq : q = { q0 with handled := some (n, response) })
      (hn : n' = n + 1)
  /-- The request gets its outcome. -/
  | settled (q0 : ApiRequest U δ ε) (o : Except ε δ) (hold : old = some q0)
      (hnone : q0.outcome = none) (hq : q = { q0 with outcome := some o })
      (ho : ∀ v, o = .ok v → ∃ t response, q0.handled = some (t, response) ∧
        response.bind q0.schema = .ok v)

theorem getElem?_sent {l : List (ApiRequest U δ ε)} {q q' : ApiRequest U δ ε} {n n' r : ℕ}
    (hhandled : q.handled = none) (houtcome : q.outcome = none)
    (hr : (l ++ [q])[r]? = some q') : RequestStep n n' l[r]? q' := by
  rcases getElem?_concat_iff.1 hr with hr | ⟨rfl, rfl⟩
  · exact .same hr
  · exact .sent (List.getElem?_eq_none (Nat.le_refl _)) hhandled houtcome

/-- The calls after a step of the client `s`. A call is one from before, possibly settled by the step
with the outcome of its request, or it has just begun. -/
structure CallsStep (s : Client U K δ ε) (calls : List (GetCall U δ ε)) : Prop where
  /-- A result is an old one or the outcome of the request. -/
  result : ∀ (i : ℕ) (c : GetCall U δ ε) o, calls[i]? = some c → c.result = some o →
    (∃ c0, s.calls[i]? = some c0 ∧ c0.request = c.request ∧ c0.result = some o) ∨
      ∃ q, s.requests[c.request]? = some q ∧ q.outcome = some o
  /-- A call goes on awaiting its request. -/
  kept : ∀ (i : ℕ) (c : GetCall U δ ε), s.calls[i]? = some c →
    ∃ c', calls[i]? = some c' ∧ c'.request = c.request

theorem CallsStep.same (s : Client U K δ ε) : CallsStep s s.calls :=
  ⟨fun _ c _ hi ho => Or.inl ⟨c, hi, rfl, ho⟩, fun _ c hi => ⟨c, hi, rfl⟩⟩

theorem CallsStep.begin (s : Client U K δ ε) {d : GetCall U δ ε} (hd : d.result = none) :
    CallsStep s (s.calls ++ [d]) := by
  refine ⟨fun i c o hi ho => ?_, fun i c hi => ⟨c, getElem?_concat_iff.2 (Or.inl hi), rfl⟩⟩
  rcases getElem?_concat_iff.1 hi with hi | ⟨-, rfl⟩
  · exact Or.inl ⟨c, hi, rfl, ho⟩
  · rw [hd] at ho
    cases ho

/-- A call may be given the outcome of its request. -/
theorem CallsStep.resume {s : Client U K δ ε} {j : ℕ} {c : GetCall U δ ε} {q : ApiRequest U δ ε}
    {o : Except ε δ} (hj : s.calls[j]? = some c) (hq : s.requests[c.request]? = some q)
    (ho : q.outcome = some o) : CallsStep s (s.calls.set j { c with result := some o }) := by
  have hlt := (List.getElem?_eq_some_iff.1 hj).1
  refine ⟨fun i d o' hi ho' => ?_, fun i d hi => ?_⟩
  · by_cases he : j = i
    · subst he
      rw [List.getElem?_set_self hlt, Option.some.injEq] at hi
      subst hi
      exact Or.inr ⟨q, hq, ho.trans ho'⟩
    · rw [List.getElem?_set_ne he] at hi
      exact Or.inl ⟨d, hi, rfl, ho'⟩
  · by_cases he : j = i
    · subst he
      rw [hj, Option.some.injEq] at hi
      subst hi
      exact ⟨_, List.getElem?_set_self hlt, rfl⟩
    · exact ⟨d, by rw [List.getElem?_set_ne he]; exact hi, rfl⟩

variable [DecidableEq K]

/-- The cleanup of the map touches nothing else. -/
theorem cleanup_eq (s : Client U K δ ε) (key : K) (r : ℕ) :
    (s.cleanup key r).requests = s.requests ∧ (s.cleanup key r).calls = s.calls ∧
      (s.cleanup key r).handledCount = s.handledCount := by
  unfold Client.cleanup
  split_ifs <;> exact ⟨rfl, rfl, rfl⟩

theorem step_resume_eq {i : ℕ} (hs : s.step getUri (.resume i) = some s') :
    ∃ c q o, s.calls[i]? = some c ∧ s.requests[c.request]? = some q ∧ q.outcome = some o ∧
      s'.requests = s.requests ∧ s'.calls = s.calls.set i { c with result := some o } ∧
      s'.handledCount = s.handledCount := by
  obtain ⟨c, q, o, hi, -, hq, ho, rfl⟩ := resume_iff.1 hs
  refine ⟨c, q, o, hi, hq, ho, ?_⟩
  split_ifs
  · exact cleanup_eq _ _ _
  · exact ⟨rfl, rfl, rfl⟩

/-- What one event does to each request. -/
theorem step_request {e : ApiEvent U δ ε} (hs : s.step getUri e = some s') :
    s.handledCount ≤ s'.handledCount ∧ s.requests.length ≤ s'.requests.length ∧
      ∀ (r : ℕ) (q : ApiRequest U δ ε), s'.requests[r]? = some q →
        RequestStep s.handledCount s'.handledCount s.requests[r]? q := by
  have hset : ∀ {n' r k : ℕ} {q0 q1 q : ApiRequest U δ ε}, s.requests[k]? = some q0 →
      (s.requests.set k q1)[r]? = some q →
      RequestStep s.handledCount n' (some q0) q1 →
      RequestStep s.handledCount n' s.requests[r]? q := by
    intro n' r k q0 q1 q hk hr hstep
    by_cases he : k = r
    · subst he
      rw [List.getElem?_set_self (List.getElem?_eq_some_iff.1 hk).1, Option.some.injEq] at hr
      rw [hk, ← hr]
      exact hstep
    · rw [List.getElem?_set_ne he] at hr
      exact .same hr
  have hlen : ∀ (k : ℕ) (q1 : ApiRequest U δ ε),
      s.requests.length ≤ (s.requests.set k q1).length := fun k q1 =>
    Nat.le_of_eq List.length_set.symm
  have hsend : ∀ q1 : ApiRequest U δ ε, s.requests.length ≤ (s.requests ++ [q1]).length :=
    fun q1 => by rw [List.length_append]; exact Nat.le_add_right _ _
  cases e with
  | get schema url =>
    cases hs
    rcases get_cases getUri s schema url with ⟨r, -, hget⟩ | ⟨-, hget⟩
    · rw [hget]
      exact ⟨Nat.le_refl _, Nat.le_refl _, fun r q hr => .same hr⟩
    · rw [hget]
      exact ⟨Nat.le_refl _, hsend _, fun r q hr => getElem?_sent rfl rfl hr⟩
  | post schema url =>
    cases hs
    exact ⟨Nat.le_refl _, hsend _, fun r q hr => getElem?_sent rfl rfl hr⟩
  | delete schema url =>
    cases hs
    exact ⟨Nat.le_refl _, hsend _, fun r q hr => getElem?_sent rfl rfl hr⟩
  | handle k response =>
    obtain ⟨q0, hk, hnone, rfl⟩ := step_handle hs
    refine ⟨Nat.le_succ _, hlen _ _, fun r q hr => hset hk hr ?_⟩
    exact .handled q0 response rfl hnone rfl rfl
  | deliver k =>
    obtain ⟨q0, t, response, hk, hhandled, hnone, rfl⟩ := step_deliver hs
    refine ⟨Nat.le_refl _, hlen _ _, fun r q hr => hset hk hr ?_⟩
    exact .settled q0 _ rfl hnone rfl fun v hv => ⟨t, response, hhandled, hv⟩
  | fail k error =>
    obtain ⟨q0, hk, hnone, rfl⟩ := step_fail hs
    refine ⟨Nat.le_refl _, hlen _ _, fun r q hr => hset hk hr ?_⟩
    exact .settled q0 _ rfl hnone rfl nofun
  | resume i =>
    obtain ⟨c, q, o, -, -, -, hreq, -, hcount⟩ := step_resume_eq hs
    rw [hreq, hcount]
    exact ⟨Nat.le_refl _, Nat.le_refl _, fun r q hr => .same hr⟩

/-- A request keeps its schema, and the response and the outcome that it has. -/
theorem step_keeps {e : ApiEvent U δ ε} (hs : s.step getUri e = some s') {r : ℕ}
    {q : ApiRequest U δ ε} (hr : s.requests[r]? = some q) :
    ∃ q', s'.requests[r]? = some q' ∧ (∀ x, q.handled = some x → q'.handled = some x) ∧
      ∀ o, q.outcome = some o → q'.outcome = some o := by
  obtain ⟨-, hlen, hstep⟩ := step_request hs
  have hlt := Nat.lt_of_lt_of_le (List.getElem?_eq_some_iff.1 hr).1 hlen
  refine ⟨s'.requests[r], List.getElem?_eq_getElem hlt, ?_⟩
  cases hstep r _ (List.getElem?_eq_getElem hlt) with
  | same hold =>
    rw [hr, Option.some.injEq] at hold
    rw [← hold]
    exact ⟨fun _ => id, fun _ => id⟩
  | sent hold =>
    rw [hr] at hold
    cases hold
  | handled q0 response hold hnone hq =>
    rw [hr, Option.some.injEq] at hold
    subst hold
    rw [hq]
    exact ⟨fun x hx => absurd (hnone.symm.trans hx) nofun, fun _ => id⟩
  | settled q0 o hold hnone hq =>
    rw [hr, Option.some.injEq] at hold
    subst hold
    rw [hq]
    exact ⟨fun _ => id, fun x hx => absurd (hnone.symm.trans hx) nofun⟩

/-- What one event does to the calls. -/
theorem step_call {e : ApiEvent U δ ε} (hs : s.step getUri e = some s') : CallsStep s s'.calls := by
  cases e with
  | get schema url =>
    cases hs
    rcases get_cases getUri s schema url with ⟨r, -, hget⟩ | ⟨-, hget⟩
    · rw [hget]; exact .begin s rfl
    · rw [hget]; exact .begin s rfl
  | post schema url => cases hs; exact .same s
  | delete schema url => cases hs; exact .same s
  | handle k response =>
    obtain ⟨q, -, -, rfl⟩ := step_handle hs
    exact .same s
  | deliver k =>
    obtain ⟨q, t, response, -, -, -, rfl⟩ := step_deliver hs
    exact .same s
  | fail k error =>
    obtain ⟨q, -, -, rfl⟩ := step_fail hs
    exact .same s
  | resume j =>
    obtain ⟨c, q, o, hj, hq, ho, -, hcalls, -⟩ := step_resume_eq hs
    rw [hcalls]
    exact .resume hj hq ho

/-! ## Where a value comes from -/

theorem Client.Sound.step (h : s.Sound) {e : ApiEvent U δ ε} (hs : s.step getUri e = some s') :
    s'.Sound := by
  obtain ⟨hcount, -, hstep⟩ := step_request hs
  refine ⟨fun r q t response hr ht => ?_, fun r q v hr hv => ?_, fun i c o hi ho => ?_⟩
  · cases hstep r q hr with
    | same hold => exact Nat.lt_of_lt_of_le (h.numbered r q t response hold ht) hcount
    | sent hold hhandled => rw [hhandled] at ht; cases ht
    | handled q0 response' hold hnone hq hn =>
      rw [hq] at ht
      cases ht
      rw [hn]
      exact Nat.lt_succ_self _
    | settled q0 o hold hnone hq =>
      rw [hq] at ht
      exact Nat.lt_of_lt_of_le (h.numbered r q0 t response hold ht) hcount
  · cases hstep r q hr with
    | same hold => exact h.computed r q v hold hv
    | sent hold hhandled houtcome => rw [houtcome] at hv; cases hv
    | handled q0 response' hold hnone hq =>
      rw [hq] at hv
      obtain ⟨t, response, ht, -⟩ := h.computed r q0 v hold hv
      rw [hnone] at ht
      cases ht
    | settled q0 o hold hnone hq ho =>
      rw [hq] at hv ⊢
      exact ho v (Option.some.inj hv)
  · have hbefore : ∃ q, s.requests[c.request]? = some q ∧ q.outcome = some o := by
      rcases (step_call hs).result i c o hi ho with ⟨c0, hi0, hreq, ho0⟩ | hq
      · rw [← hreq]
        exact h.settled i c0 o hi0 ho0
      · exact hq
    obtain ⟨q, hq, hqo⟩ := hbefore
    obtain ⟨q', hq', -, hkeep⟩ := step_keeps hs hq
    exact ⟨q', hq', hkeep o hqo⟩

/-! ## Fresh requests -/

theorem Client.FreshAfter.step {t r : ℕ} (h : s.FreshAfter t r) {e : ApiEvent U δ ε}
    (hs : s.step getUri e = some s') : s'.FreshAfter t r := by
  obtain ⟨hcount, -, hstep⟩ := step_request hs
  refine ⟨Nat.lt_of_lt_of_le h.1 hcount, fun q t' response hr ht => ?_⟩
  cases hstep r q hr with
  | same hold => exact h.2 q t' response hold ht
  | sent hold hhandled => rw [hhandled] at ht; cases ht
  | handled q0 response' hold hnone hq =>
    rw [hq] at ht
    cases ht
    exact Nat.le_of_lt h.1
  | settled q0 o hold hnone hq =>
    rw [hq] at ht
    exact h.2 q0 t' response hold ht

/-- A `get` that is no stale join belongs to a request that is fresh after every resolved write. -/
theorem get_freshAfter (h : s.Sound) {schema : δ → Except ε δ} {url : U}
    (hfresh : staleJoin getUri s (.get schema url) = false) {w : ApiRequest U δ ε} {t : ℕ}
    (hw : w ∈ s.requests) (ht : w.resolvedWrite = some t) :
    ∃ c, (s.get getUri schema url).calls[s.calls.length]? = some c ∧
      (s.get getUri schema url).FreshAfter t c.request := by
  obtain ⟨response, hhandled⟩ := resolvedWrite_handled ht
  obtain ⟨m, hm⟩ := List.mem_iff_getElem?.1 hw
  have hlt : t < s.handledCount := h.numbered m w t response hm hhandled
  rcases get_cases getUri s schema url with ⟨r, hmap, hget⟩ | ⟨hmap, hget⟩
  · rw [hget]
    refine ⟨_, getElem?_concat_iff.2 (Or.inr ⟨rfl, rfl⟩), hlt, fun q t' response' hq hq' => ?_⟩
    -- the request that is joined was handled, so the test has compared it with the write
    have hjoin : ((s.inFlightGets (getUri url)).bind fun r =>
        s.requests[r]?.bind ApiRequest.handled) = some (t', response') := by
      rw [hmap, Option.bind_some]
      rw [hq, Option.bind_some, hq']
    simp only [staleJoin, hjoin, List.any_eq_false] at hfresh
    have hnot := hfresh w hw
    rw [ht] at hnot
    simpa using hnot
  · rw [hget]
    refine ⟨_, getElem?_concat_iff.2 (Or.inr ⟨rfl, rfl⟩), hlt, fun q t' response' hq hq' => ?_⟩
    rcases getElem?_concat_iff.1 hq with hq | ⟨-, rfl⟩
    · exact absurd (List.getElem?_eq_some_iff.1 hq).1 (Nat.lt_irrefl _)
    · cases hq'

/-- A call belongs to the same request for the rest of the run. -/
theorem call_run {es : List (ApiEvent U δ ε)} (hr : run (Client.step getUri) s es = some s')
    {i : ℕ} {c : GetCall U δ ε} (hi : s.calls[i]? = some c) :
    ∃ c', s'.calls[i]? = some c' ∧ c'.request = c.request := by
  have hall : Always (Client.step getUri)
      (fun q => ∃ c', q.calls[i]? = some c' ∧ c'.request = c.request) s es := by
    refine always_of_invariant (fun q e q' h hs => ?_) ⟨c, hi, rfl⟩
    obtain ⟨d, hd, hreq⟩ := h
    obtain ⟨d', hd', hreq'⟩ := (step_call hs).kept i d hd
    exact ⟨d', hd', hreq'.trans hreq⟩
  exact hall.last hr

/-- A run keeps a call fresh. -/
theorem freshAfter_run {t r : ℕ} {es : List (ApiEvent U δ ε)}
    (hr : run (Client.step getUri) s es = some s') (hfresh : s.FreshAfter t r) :
    s'.FreshAfter t r := by
  have hall : Always (Client.step getUri) (fun q => q.FreshAfter t r) s es :=
    always_of_invariant (fun q e q' h hs => h.step hs) hfresh
  exact hall.last hr

/-- Every client a run reaches is sound. -/
theorem sound_run {es : List (ApiEvent U δ ε)}
    (hr : run (Client.step getUri) (Client.initial : Client U K δ ε) es = some s) : s.Sound := by
  have hall : Always (Client.step getUri) Client.Sound (Client.initial : Client U K δ ε) es :=
    always_of_invariant (fun _ _ _ h hs => h.step hs) initial_sound
  exact hall.last hr

/-- Every `get` of the run that has resolved has a value that the server computed at or after the
time at which it handled each write that had resolved before the `get`. -/
def FreshReads (getUri : U → K) (es : List (ApiEvent U δ ε)) (s : Client U K δ ε) : Prop :=
  ∀ before schema url after, es = before ++ .get schema url :: after →
    ∀ q, run (Client.step getUri) Client.initial before = some q →
    ∀ c v, s.calls[q.calls.length]? = some c → c.result = some (.ok v) →
      ∃ g t response, s.requests[c.request]? = some g ∧ g.handled = some (t, response) ∧
        response.bind g.schema = .ok v ∧
        ∀ w ∈ q.requests, ∀ tw, w.resolvedWrite = some tw → tw ≤ t

/-- One `get` that is no stale join. -/
theorem freshRead_of_get {before after : List (ApiEvent U δ ε)} {schema : δ → Except ε δ} {url : U}
    {q : Client U K δ ε}
    (hr : run (Client.step getUri) Client.initial (before ++ .get schema url :: after) = some s)
    (hq : run (Client.step getUri) Client.initial before = some q)
    (hjoin : staleJoin getUri q (.get schema url) = false) {c : GetCall U δ ε} {v : δ}
    (hc : s.calls[q.calls.length]? = some c) (hv : c.result = some (.ok v)) :
    ∃ g t response, s.requests[c.request]? = some g ∧ g.handled = some (t, response) ∧
      response.bind g.schema = .ok v ∧
      ∀ w ∈ q.requests, ∀ tw, w.resolvedWrite = some tw → tw ≤ t := by
  obtain ⟨q', hq', hrest⟩ := run_append_iff.1 hr
  rw [hq, Option.some.injEq] at hq'
  subst hq'
  obtain ⟨q1, hget, hafter⟩ := run_cons_iff.1 hrest
  cases hget
  have hsound : s.Sound := sound_run hr
  obtain ⟨g, hg, hgo⟩ := hsound.settled _ c _ hc hv
  obtain ⟨t, response, hhandled, hvalue⟩ := hsound.computed _ g v hg hgo
  refine ⟨g, t, response, hg, hhandled, hvalue, fun w hw tw htw => ?_⟩
  obtain ⟨c0, hc0, hfresh⟩ := get_freshAfter (sound_run hq) hjoin hw htw
  obtain ⟨c', hc', hreq⟩ := call_run hafter hc0
  rw [hc, Option.some.injEq] at hc'
  subst hc'
  rw [← hreq] at hfresh
  exact (freshAfter_run hafter hfresh).2 g t response hg hhandled

/-- In every run in which no `get` joins a request that was handled before a write
that has resolved, every read is at least as new as the writes resolved before it. -/
theorem freshReads_of_no_staleJoin (getUri : U → K) (es : List (ApiEvent U δ ε))
    (s : Client U K δ ε) (hr : run (Client.step getUri) Client.initial es = some s)
    (h : Throughout (Client.step getUri) (fun q e => staleJoin getUri q e = false)
      (Client.initial : Client U K δ ε) es) : FreshReads getUri es s := by
  rintro before schema url after rfl q hq c v hc hv
  have hjoin := h.at_split hq
  exact freshRead_of_get hr hq hjoin hc hv

/-- A request that has been handled keeps the number under which it was. -/
theorem handled_run {es : List (ApiEvent U δ ε)} (hr : run (Client.step getUri) s es = some s')
    {r : ℕ} {q : ApiRequest U δ ε} {x : ℕ × Except ε δ} (hq : s.requests[r]? = some q)
    (hx : q.handled = some x) : ∃ q', s'.requests[r]? = some q' ∧ q'.handled = some x := by
  have hall : Always (Client.step getUri)
      (fun m => ∃ q', m.requests[r]? = some q' ∧ q'.handled = some x) s es := by
    refine always_of_invariant (fun m e m' h hs => ?_) ⟨q, hq, hx⟩
    obtain ⟨q0, hq0, hx0⟩ := h
    obtain ⟨q', hq', hkeep, -⟩ := step_keeps hs hq0
    exact ⟨q', hq', hkeep x hx0⟩
  exact hall.last hr

/-- **Fresh reads, exactly**: a stale join that resolves with a value resolves with an outdated one, so
the reads of a run are fresh if and only if no stale join does. -/
theorem freshReads_iff (getUri : U → K) (es : List (ApiEvent U δ ε)) (s : Client U K δ ε)
    (hr : run (Client.step getUri) Client.initial es = some s) :
    FreshReads getUri es s ↔
      ∀ before schema url after, es = before ++ .get schema url :: after →
        ∀ q, run (Client.step getUri) Client.initial before = some q →
        staleJoin getUri q (.get schema url) = true →
        ∀ c v, s.calls[q.calls.length]? = some c → c.result ≠ some (.ok v) := by
  constructor
  · intro h before schema url after hes q hq hjoin c v hc hv
    obtain ⟨g, t, response, hg, hhandled, -, hle⟩ := h before schema url after hes q hq c v hc hv
    obtain ⟨r, q0, t0, response0, hmap, hq0, ht0, w, hw, tw, htw, hlt⟩ := staleJoin_iff.1 hjoin
    subst hes
    obtain ⟨q', hq', hrest⟩ := run_append_iff.1 hr
    rw [hq, Option.some.injEq] at hq'
    subst hq'
    obtain ⟨q1, hget, hafter⟩ := run_cons_iff.1 hrest
    cases hget
    have hjoined : q.get getUri schema url =
        { q with calls := q.calls ++ [⟨url, r, false, none⟩] } := by
      unfold Client.get
      rw [hmap]
    rw [hjoined] at hafter
    -- the call belongs to the request that it has joined
    obtain ⟨d, hd, hreq⟩ := call_run hafter (getElem?_concat_iff.2 (Or.inr ⟨rfl, rfl⟩))
    rw [hc, Option.some.injEq] at hd
    subst hd
    obtain ⟨g', hg', ht'⟩ := handled_run hafter hq0 ht0
    rw [hreq, hg', Option.some.injEq] at hg
    subst hg
    rw [ht', Option.some.injEq] at hhandled
    cases hhandled
    exact absurd hlt (Nat.not_lt.2 (hle w hw tw htw))
  · rintro h before schema url after rfl q hq c v hc hv
    cases hjoin : staleJoin getUri q (.get schema url) with
    | false => exact freshRead_of_get hr hq hjoin hc hv
    | true => exact absurd hv (h before schema url after rfl q hq hjoin c v hc)

section Poll

/-- A poll is handled, then a booking is handled and resolves, and the query that it invalidates
joins the poll. -/
def pollAndBook : List (ApiEvent String ℕ String) :=
  [.get .ok "/activities", .handle 0 (.ok 7), .post .ok "/book", .handle 1 (.ok 1), .deliver 1,
    .get .ok "/activities", .deliver 0, .resume 0, .resume 1]

/-- The same with the poll settled before the query starts. -/
def pollThenBook : List (ApiEvent String ℕ String) :=
  [.get .ok "/activities", .handle 0 (.ok 7), .post .ok "/book", .handle 1 (.ok 1), .deliver 1,
    .deliver 0, .resume 0, .get .ok "/activities", .handle 2 (.ok 6), .deliver 2, .resume 1]

/-- The query resolves with the value of the poll, which the server computed before it handled the
booking. -/
theorem pollAndBook_stale :
    ∃ s, run (Client.step id) (Client.initial : Client String String ℕ String) pollAndBook = some s ∧
      s.calls.map GetCall.result = [some (.ok 7), some (.ok 7)] ∧
      ¬ FreshReads id pollAndBook s := by
  refine ⟨_, rfl, rfl, fun h => ?_⟩
  obtain ⟨g, t, response, hg, ht, -, hle⟩ :=
    h (pollAndBook.take 5) .ok "/activities" (pollAndBook.drop 6) rfl _ rfl _ 7 rfl rfl
  cases hg
  cases ht
  exact absurd (hle _ (List.mem_cons_of_mem _ List.mem_cons_self) 1 rfl) (by decide)

/-- No read of this run joins an outdated request. -/
theorem pollThenBook_fresh :
    ∃ s, run (Client.step id) (Client.initial : Client String String ℕ String) pollThenBook =
        some s ∧ FreshReads id pollThenBook s := by
  refine ⟨_, rfl, (freshReads_iff id pollThenBook _ rfl).2 ?_⟩
  intro before schema url after hes q hq hjoin
  have hnone : Throughout (Client.step id) (fun q e => staleJoin id q e = false)
      (Client.initial : Client String String ℕ String) pollThenBook := by decide
  rw [hes] at hnone
  rw [hnone.at_split hq] at hjoin
  cases hjoin

end Poll

end Frontend
