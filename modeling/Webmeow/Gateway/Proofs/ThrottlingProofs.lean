import Webmeow.Gateway.Throttling
import Webmeow.Gateway.Proofs.RateLimitProofs

/-!
# When a request is refused for a reason

A request is judged by the limit that it has loaded, which may have been raised or switched off by the
time it takes the lock. If it has not, a request that is refused finds its window full under the limit in
force.
-/

namespace Gateway

open Runs Interleaving

/-! ## What a refusal needs -/

/-- The middleware is done with the request. -/
def RequestPc.Answered : RequestPc → Prop
  | .passed | .tooManyRequests _ => True
  | _ => False

instance (pc : RequestPc) : Decidable pc.Answered :=
  match pc with
  | .passed | .tooManyRequests _ => isTrue trivial
  | .readLimit | .loadLimit | .loadWindow _ | .update _ _ | .readWindow => isFalse id

/-- The request is being handled, a positive limit is in force, and the current window of its client
holds at least that many admitted requests. -/
def LimitReached (p : LimiterSystem) (i : ℕ) : Prop :=
  ∃ t ∈ p.client i, ¬t.pc.Answered ∧ 0 < p.store.limiter.limit ∧
    p.store.limiter.limit ≤ (p.store.limiter.window t.remoteAddr p.store.now).count

instance (p : LimiterSystem) (i : ℕ) : Decidable (LimitReached p i) :=
  inferInstanceAs (Decidable (∃ t ∈ p.client i, _ ∧ _ ∧ _))

/-- The request has been answered 429. -/
def Refused (p : LimiterSystem) (i : ℕ) : Prop :=
  ∃ t ∈ p.client i, ∃ retryAfter, t.pc = .tooManyRequests retryAfter

/-- At some moment of the run the limit was reached for the request. -/
def ReachedBefore (parseDuration : String → Option ℤ) (p0 : LimiterSystem)
    (es : List (Event Incoming ℤ)) (i : ℕ) : Prop :=
  ∃ n ≤ es.length, ∃ p ∈ run (limiterStep parseDuration) p0 (es.take n), LimitReached p i

instance (parseDuration : String → Option ℤ) (p0 : LimiterSystem) (es : List (Event Incoming ℤ))
    (i : ℕ) : Decidable (ReachedBefore parseDuration p0 es i) :=
  inferInstanceAs (Decidable (∃ n ≤ es.length, ∃ p ∈ run _ p0 (es.take n), _))

/-- The limit by which a request is about to be judged under the lock. -/
def RequestPc.loaded : RequestPc → Option ℤ
  | .update limit _ => some limit
  | _ => none

/-- Whenever a request takes the lock and finds its window full by the limit that it has loaded, the
limit in force is positive and not above that one. -/
def LimitCurrent (p : LimiterSystem) : Event Incoming ℤ → Prop
  | .request _ => True
  | .advance i now => ∀ t ∈ p.client i, ∀ limit ∈ t.pc.loaded,
    limit ≤ (p.store.limiter.window t.remoteAddr now).count →
      0 < p.store.limiter.limit ∧ p.store.limiter.limit ≤ limit

instance (p : LimiterSystem) : ∀ e, Decidable (LimitCurrent p e)
  | .request _ => isTrue trivial
  | .advance i _ => inferInstanceAs (Decidable (∀ t ∈ p.client i, ∀ limit ∈ t.pc.loaded, _ → _))

/-! ## One step -/

variable {parseDuration : String → Option ℤ}

/-- A window that holds requests is the stored one, and is not over. -/
theorem window_of_count_pos {rl : RateLimiter} {key : String} {now : ℤ}
    (h : 0 < (rl.window key now).count) :
    rl.clients.lookup key = some (rl.window key now) ∧ now ≤ (rl.window key now).reset := by
  unfold RateLimiter.window at h ⊢
  cases hw : rl.clients.lookup key with
  | none =>
    rw [hw] at h
    exact absurd h (lt_irrefl 0)
  | some w =>
    rw [hw] at h
    simp only at h ⊢
    split_ifs at h ⊢ with hover
    · exact absurd h (lt_irrefl 0)
    · exact ⟨rfl, not_lt.1 hover⟩

/-- A window that has not ended is used. -/
theorem window_of_lookup {rl : RateLimiter} {key : String} {now : ℤ} {w : Window}
    (hw : rl.clients.lookup key = some w) (hnow : now ≤ w.reset) : rl.window key now = w := by
  unfold RateLimiter.window
  rw [hw]
  exact if_neg (not_lt.2 hnow)

/-- What a window holds does not depend on the settings. -/
theorem window_count (rl : RateLimiter) (limit per : ℤ) (key : String) (now : ℤ) :
    (RateLimiter.window { rl with limit := limit, perNs := per } key now).count =
      (rl.window key now).count := by
  unfold RateLimiter.window
  cases rl.clients.lookup key with
  | none => rfl
  | some w =>
    simp only
    split_ifs <;> rfl

/-- Under the lock, a request is refused only if its window is full by the limit that it has loaded. -/
theorem allowWith_full {rl : RateLimiter} {limit per now : ℤ} {key : String}
    (h : (rl.allowWith limit per key now).2 = false) : limit ≤ (rl.window key now).count := by
  have hpass := (allow_spec { rl with limit := limit, perNs := per } key now).1
  have hrefused : (RateLimiter.allow { rl with limit := limit, perNs := per } key now).2 = false := h
  rw [hrefused, window_count] at hpass
  exact not_lt.1 (of_decide_eq_false hpass.symm)

/-- If the limit is positive, the window is still as full after that. -/
theorem allowWith_refused {rl : RateLimiter} {limit per now : ℤ} {key : String} (hlimit : 0 < limit)
    (h : (rl.allowWith limit per key now).2 = false) :
    limit ≤ ((rl.allowWith limit per key now).1.window key now).count := by
  have hfull : limit ≤
      (RateLimiter.window { rl with limit := limit, perNs := per } key now).count := by
    rw [window_count]
    exact allowWith_full h
  obtain ⟨-, hopen⟩ := window_of_count_pos (hlimit.trans_le hfull)
  obtain ⟨-, -, -, -, hlookup⟩ := allow_spec { rl with limit := limit, perNs := per } key now
  have hrefused : (RateLimiter.allow { rl with limit := limit, perNs := per } key now).2 = false := h
  rw [hrefused, if_neg Bool.false_ne_true, add_zero] at hlookup
  have hkept := @window_of_lookup (rl.allowWith limit per key now).1 key now _ hlookup hopen
  rw [hkept]
  exact hfull

/-- The request is refused, and may have been answered so. -/
def RequestPc.Refusing : RequestPc → Prop
  | .readWindow | .tooManyRequests _ => True
  | _ => False

/-- A request that is refused after a step was so before, or the refusal is decided under the lock. -/
theorem requestPcStep_refusing {rl rl' : RateLimiter} {key : String} {now : ℤ} {pc pc' : RequestPc}
    (h : requestPcStep rl key now pc = some (rl', pc')) (hrefusing : pc'.Refusing) :
    pc.Refusing ∨ ∃ limit per, pc = .update limit per ∧
      rl' = (rl.allowWith limit per key now).1 ∧ (rl.allowWith limit per key now).2 = false := by
  cases pc with
  | readLimit =>
    simp only [requestPcStep, Option.some.injEq, Prod.mk.injEq] at h
    obtain ⟨-, rfl⟩ := h
    split_ifs at hrefusing <;> exact hrefusing.elim
  | loadLimit =>
    cases h
    exact hrefusing.elim
  | loadWindow limit =>
    cases h
    exact hrefusing.elim
  | update limit per =>
    simp only [requestPcStep, Option.some.injEq, Prod.mk.injEq] at h
    obtain ⟨hrl, rfl⟩ := h
    split_ifs at hrefusing with hpass
    · exact hrefusing.elim
    · exact Or.inr ⟨limit, per, rfl, hrl.symm, Bool.eq_false_iff.2 hpass⟩
  | readWindow => exact Or.inl trivial
  | passed => cases h
  | tooManyRequests retryAfter => cases h

/-! ## The requests of the clients -/

/-- The request of a thread. -/
theorem client_iff {p : LimiterSystem} {i : ℕ} {t : RequestThread} :
    t ∈ p.client i ↔ p.threads[i]? = some (.client t) := by
  unfold LimiterSystem.client
  cases p.threads[i]? with
  | none => simp
  | some u =>
    cases u with
    | client u => simp
    | admin u => simp

/-- A request of a client after a step: one that has not moved, a new one, or one that has moved. -/
theorem limiterStep_client {p p' : LimiterSystem} {e : Event Incoming ℤ}
    (hs : limiterStep parseDuration p e = some p') {i : ℕ} {t' : RequestThread}
    (ht' : t' ∈ p'.client i) :
    t' ∈ p.client i ∨ t'.pc = .readLimit ∨
      ∃ now t rl', e = .advance i now ∧ t ∈ p.client i ∧ t'.remoteAddr = t.remoteAddr ∧
        requestPcStep p.store.limiter t.remoteAddr now t.pc = some (rl', t'.pc) ∧
        p'.store = ⟨rl', now⟩ := by
  rw [client_iff] at ht'
  rcases Pool.thread_after hs ht' with hold | ⟨r, -, hnew⟩ | ⟨now, t, rfl, ht, hact⟩
  · exact Or.inl (client_iff.2 hold)
  · refine Or.inr (Or.inl ?_)
    cases r with
    | client remoteAddr =>
      cases hnew
      rfl
    | admin body => cases hnew
  · refine Or.inr (Or.inr ⟨now, ?_⟩)
    unfold limiterAct at hact
    split_ifs at hact
    cases t with
    | client t =>
      obtain ⟨⟨rl', pc'⟩, hstep, he⟩ := Option.map_eq_some_iff.1 hact
      obtain ⟨hstore, ht⟩ := Prod.mk.inj he
      cases ht
      exact ⟨t, rl', rfl, client_iff.2 ‹_›, rfl, hstep, hstore.symm⟩
    | admin t =>
      obtain ⟨q, -, he⟩ := Option.map_eq_some_iff.1 hact
      cases (Prod.mk.inj he).2

/-! ## Runs -/

theorem ReachedBefore.concat {p0 : LimiterSystem} {es : List (Event Incoming ℤ)} {i : ℕ}
    (h : ReachedBefore parseDuration p0 es i) (e : Event Incoming ℤ) :
    ReachedBefore parseDuration p0 (es ++ [e]) i := by
  obtain ⟨n, hn, p, hp, hreached⟩ := h
  refine ⟨n, ?_, p, ?_, hreached⟩
  · rw [List.length_append]
    omega
  · rwa [List.take_append_of_le_length hn]

/-- Under a positive limit that is not above the one by which a request has just been refused under the
lock, the limit is reached for the request. -/
theorem limitReached_of_refused {p p' : LimiterSystem} {i : ℕ} {t t' : RequestThread}
    {limit per now : ℤ} (ht' : t' ∈ p'.client i) (haddr : t'.remoteAddr = t.remoteAddr)
    (hpc : t'.pc = .readWindow) (hpos : 0 < p.store.limiter.limit)
    (hle : p.store.limiter.limit ≤ limit)
    (hrefused : (p.store.limiter.allowWith limit per t.remoteAddr now).2 = false)
    (hstore : p'.store = ⟨(p.store.limiter.allowWith limit per t.remoteAddr now).1, now⟩) :
    LimitReached p' i := by
  have hcount := allowWith_refused (hpos.trans_le hle) hrefused
  have hlimit : p'.store.limiter.limit = p.store.limiter.limit := by
    rw [hstore]
    rfl
  refine ⟨t', ht', by rw [hpc]; exact id, hlimit ▸ hpos, ?_⟩
  rw [hlimit, hstore, haddr]
  exact hle.trans hcount

/-- Requests that are refused have seen the limit reached. -/
def RefusalsJustified (parseDuration : String → Option ℤ) (p0 : LimiterSystem)
    (es : List (Event Incoming ℤ)) (p : LimiterSystem) : Prop :=
  ∀ i, ∀ t ∈ p.client i, t.pc.Refusing → ReachedBefore parseDuration p0 es i

theorem ReachedBefore.last {p0 p : LimiterSystem} {es : List (Event Incoming ℤ)} {i : ℕ}
    (hr : run (limiterStep parseDuration) p0 es = some p) (h : LimitReached p i) :
    ReachedBefore parseDuration p0 es i :=
  ⟨es.length, le_rfl, p, by rwa [List.take_length], h⟩

/-- A step with a current limit keeps the refusals justified. -/
theorem refusalsJustified_step {p0 p p' : LimiterSystem} {es : List (Event Incoming ℤ)}
    {e : Event Incoming ℤ} (hr : run (limiterStep parseDuration) p0 es = some p)
    (h : RefusalsJustified parseDuration p0 es p) (hcurrent : LimitCurrent p e)
    (hs : limiterStep parseDuration p e = some p') :
    RefusalsJustified parseDuration p0 (es ++ [e]) p' := by
  intro i t' ht' hrefusing
  rcases limiterStep_client hs ht' with hold | hnew | ⟨now, t, rl', rfl, ht, haddr, hstep, hstore⟩
  · exact (h i t' hold hrefusing).concat e
  · rw [hnew] at hrefusing
    exact hrefusing.elim
  · rcases requestPcStep_refusing hstep hrefusing with hbefore | ⟨limit, per, htpc, rfl, hfull⟩
    · exact (h i t ht hbefore).concat _
    · -- the limit in force is not above the one by which the request is refused
      obtain ⟨hpos, hle⟩ := hcurrent t ht limit (htpc ▸ rfl) (allowWith_full hfull)
      have hpc : t'.pc = .readWindow := by
        rw [htpc] at hstep
        simp only [requestPcStep, hfull, Option.some.injEq, Prod.mk.injEq] at hstep
        exact hstep.2.symm
      have hlast : run (limiterStep parseDuration) p0 (es ++ [.advance i now]) = some p' :=
        run_concat_iff.2 ⟨p, hr, hs⟩
      exact .last hlast (limitReached_of_refused ht' haddr hpc hpos hle hfull hstore)

/-- **Refusals**: in every interleaving of requests and changes of the limit in which, whenever a request
takes the lock and finds its window full by the limit that it has loaded, the limit in force is positive
and not above that one, a request is answered 429 only if the limit was reached for it at some moment
of its handling. -/
theorem refused_only_if_reached (parseDuration : String → Option ℤ) (rl : RateLimiter) (now : ℤ)
    (es : List (Event Incoming ℤ)) {p : LimiterSystem}
    (hcurrent : Throughout (limiterStep parseDuration) LimitCurrent (LimiterSystem.initial rl now) es)
    (hr : run (limiterStep parseDuration) (LimiterSystem.initial rl now) es = some p) {i : ℕ}
    (hrefused : Refused p i) : ReachedBefore parseDuration (LimiterSystem.initial rl now) es i := by
  have hinit : RefusalsJustified parseDuration (LimiterSystem.initial rl now) []
      (LimiterSystem.initial rl now) := by
    intro j t ht
    rw [client_iff] at ht
    cases ht
  have hall := history_invariant hinit
    (fun as q a q' hq h hC hs => refusalsJustified_step hq h hC hs) hcurrent hr
  obtain ⟨t, ht, retryAfter, hpc⟩ := hrefused
  refine hall i t ht ?_
  rw [hpc]
  trivial

section Races

/-- One request in a minute. -/
def oneAMinute : RateLimiter := newRateLimiter 1 60000000000

/-- A parser that knows no duration. -/
def noDuration (_ : String) : Option ℤ := none

/-- Two requests of a client in one window, without an admin. -/
def secondRequest : List (Event Incoming ℤ) :=
  [.request (.client "10.0.0.7:50001"), .advance 0 0, .advance 0 0, .advance 0 0, .advance 0 0,
    .request (.client "10.0.0.7:50001"), .advance 1 5, .advance 1 5, .advance 1 5, .advance 1 5,
    .advance 1 5]

/-- A request reads the limit, an admin switches it off, and the request loads it again. -/
def switchedOff : List (Event Incoming ℤ) :=
  [.request (.client "10.0.0.7:50001"), .request (.admin (some ⟨some 0, none⟩)), .advance 0 0,
    .advance 1 0, .advance 1 0, .advance 1 0, .advance 0 1, .advance 0 1, .advance 0 1, .advance 0 1]

/-- A request loads the limit, an admin raises it to two, and another request of the client passes
before the first one takes the lock. -/
def raised : List (Event Incoming ℤ) :=
  [.request (.client "10.0.0.7:50001"), .request (.admin (some ⟨some 2, none⟩)),
    .request (.client "10.0.0.7:50001"), .advance 0 0, .advance 0 0, .advance 1 0, .advance 1 0,
    .advance 1 0, .advance 2 1, .advance 2 1, .advance 2 1, .advance 2 1, .advance 0 2, .advance 0 2,
    .advance 0 2]

/-- The second request comes after the limit is reached. -/
theorem secondRequest_reached :
    ReachedBefore noDuration (LimiterSystem.initial oneAMinute 0) secondRequest 1 :=
  refused_only_if_reached noDuration oneAMinute 0 secondRequest (by decide) rfl
    ⟨_, rfl, 60000000000, rfl⟩

/-- Both requests are answered 429, the first one while no limit is in force and the second one while
the limit is two and one request was admitted. -/
theorem disabled_limiter_refuses :
    (∃ p, run (limiterStep noDuration) (LimiterSystem.initial oneAMinute 0) switchedOff = some p ∧
      Refused p 0 ∧ ¬ReachedBefore noDuration (LimiterSystem.initial oneAMinute 0) switchedOff 0) ∧
    ∃ p, run (limiterStep noDuration) (LimiterSystem.initial oneAMinute 0) raised = some p ∧
      Refused p 0 ∧ ¬ReachedBefore noDuration (LimiterSystem.initial oneAMinute 0) raised 0 := by
  constructor
  · exact ⟨_, rfl, ⟨_, rfl, 60000000000, rfl⟩, by decide⟩
  · exact ⟨_, rfl, ⟨_, rfl, 60000000000, rfl⟩, by decide⟩

end Races

end Gateway
