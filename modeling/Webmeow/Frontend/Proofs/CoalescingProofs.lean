import Webmeow.Frontend.ApiClient
import Webmeow.Lib.Runs
import Mathlib.Data.List.Induction

/-!
# Shared requests

The bookkeeping of `get`: the map holds exactly the requests whose first caller has not been resumed,
one for each key, and every call belongs to a request for its own URL.
-/

namespace Frontend

open Runs

variable {U K δ ε : Type*} {getUri : U → K} {s s' : Client U K δ ε}

/-- The call sent request `r` and has not run its `finally` block. -/
def GetCall.Holds (c : GetCall U δ ε) (r : ℕ) : Prop :=
  c.first = true ∧ c.result = none ∧ c.request = r

/-- Request `r` is in flight: its first caller holds it. -/
def Client.InFlight (s : Client U K δ ε) (r : ℕ) : Prop :=
  ∃ (i : ℕ) (c : GetCall U δ ε), s.calls[i]? = some c ∧ c.Holds r

/-- The request of a call, for its URL, and with the outcome that the call has settled with. -/
def GetCall.Of (c : GetCall U δ ε) (q : ApiRequest U δ ε) : Prop :=
  q.method = .GET ∧ q.url = c.url ∧ ∀ o, c.result = some o → q.outcome = some o

/-- The map, the calls and the requests fit together. -/
structure Client.Consistent (getUri : U → K) (s : Client U K δ ε) : Prop where
  /-- The map holds the requests that the calls hold. -/
  map : ∀ k r, s.inFlightGets k = some r ↔
    ∃ (i : ℕ) (c : GetCall U δ ε), s.calls[i]? = some c ∧ c.Holds r ∧ getUri c.url = k
  /-- A call awaits a request for its own URL. -/
  own : ∀ (i : ℕ) (c : GetCall U δ ε), s.calls[i]? = some c →
    ∃ q, s.requests[c.request]? = some q ∧ c.Of q
  /-- A request has one first call. -/
  first : ∀ (i j : ℕ) (c d : GetCall U δ ε), s.calls[i]? = some c → s.calls[j]? = some d →
    c.first = true → d.first = true → c.request = d.request → i = j

theorem initial_consistent : (Client.initial : Client U K δ ε).Consistent getUri where
  map := by simp [Client.initial]
  own := by simp [Client.initial]
  first := by simp [Client.initial]

/-! ## What the steps keep -/

/-- Sending a request keeps the client consistent. -/
theorem Client.Consistent.send (h : s.Consistent getUri) (q : ApiRequest U δ ε) :
    (s.send q).Consistent getUri where
  map := h.map
  own := by
    intro i c hi
    obtain ⟨q', hq', hof⟩ := h.own i c hi
    refine ⟨q', ?_, hof⟩
    simp only [Client.send]
    rw [List.getElem?_append_left (List.getElem?_eq_some_iff.1 hq').1]
    exact hq'
  first := h.first

/-- A request may make progress as long as it keeps its URL and an outcome that it has. -/
theorem Client.Consistent.setRequest (h : s.Consistent getUri) {r : ℕ} {q q' : ApiRequest U δ ε}
    (hr : s.requests[r]? = some q) (hmethod : q'.method = q.method) (hurl : q'.url = q.url)
    (houtcome : ∀ o, q.outcome = some o → q'.outcome = some o) :
    Client.Consistent getUri { s with requests := s.requests.set r q' } where
  map := h.map
  own := by
    intro i c hi
    obtain ⟨q0, hq0, hm, hu, ho⟩ := h.own i c hi
    by_cases he : r = c.request
    · subst he
      rw [hr, Option.some.injEq] at hq0
      subst hq0
      refine ⟨q', List.getElem?_set_self (List.getElem?_eq_some_iff.1 hr).1, ?_⟩
      exact ⟨hmethod.trans hm, hurl.trans hu, fun o hc => houtcome o (ho o hc)⟩
    · exact ⟨q0, by rw [List.getElem?_set_ne he]; exact hq0, hm, hu, ho⟩
  first := h.first

theorem getElem?_concat_iff {α : Type*} {l : List α} {a b : α} {i : ℕ} :
    (l ++ [a])[i]? = some b ↔ l[i]? = some b ∨ i = l.length ∧ b = a := by
  rcases Nat.lt_trichotomy i l.length with hlt | heq | hgt
  · rw [List.getElem?_append_left hlt]
    simp [Nat.ne_of_lt hlt]
  · subst heq
    simp [eq_comm]
  · have hnone : (l ++ [a])[i]? = none :=
      List.getElem?_eq_none (by rw [List.length_append]; exact hgt)
    have hnone' : l[i]? = none := List.getElem?_eq_none (Nat.le_of_lt hgt)
    simp [hnone, hnone', Nat.ne_of_gt hgt]

/-- A caller that holds its request finds it in the map. -/
theorem Client.Consistent.held (h : s.Consistent getUri) {i : ℕ} {c : GetCall U δ ε}
    (hi : s.calls[i]? = some c) (hfirst : c.first = true) (hres : c.result = none) :
    s.inFlightGets (getUri c.url) = some c.request :=
  (h.map _ _).2 ⟨i, c, hi, ⟨hfirst, hres, rfl⟩, rfl⟩

/-- A call after the resumption of call `i`: it is the one from before, and the same unless it is the
one that was resumed. -/
theorem getElem?_resumed {l : List (GetCall U δ ε)} {i : ℕ} {c : GetCall U δ ε} {o : Except ε δ}
    (hi : l[i]? = some c) {j : ℕ} {d : GetCall U δ ε}
    (hj : (l.set i { c with result := some o })[j]? = some d) :
    ∃ d0, l[j]? = some d0 ∧ d.url = d0.url ∧ d.request = d0.request ∧ d.first = d0.first ∧
      (d.result = none → j ≠ i ∧ d = d0) ∧ (j = i ∨ d = d0) := by
  by_cases he : j = i
  · subst he
    rw [List.getElem?_set_self (List.getElem?_eq_some_iff.1 hi).1, Option.some.injEq] at hj
    subst hj
    exact ⟨c, hi, rfl, rfl, rfl, nofun, Or.inl rfl⟩
  · rw [List.getElem?_set_ne fun h => he h.symm] at hj
    exact ⟨d, hj, rfl, rfl, rfl, fun _ => ⟨he, rfl⟩, Or.inr rfl⟩

/-- A key leads to the request in flight for its URL. -/
theorem Client.Consistent.inFlight_iff (h : s.Consistent getUri) {k : K} {r : ℕ} :
    s.inFlightGets k = some r ↔ s.InFlight r ∧ ∃ q, s.requests[r]? = some q ∧ getUri q.url = k := by
  rw [h.map]
  constructor
  · rintro ⟨i, c, hi, hc, hkey⟩
    obtain ⟨q, hq, -, hu, -⟩ := h.own i c hi
    rw [hc.2.2] at hq
    exact ⟨⟨i, c, hi, hc⟩, q, hq, by rw [hu]; exact hkey⟩
  · rintro ⟨⟨i, c, hi, hc⟩, q, hq, hkey⟩
    obtain ⟨q', hq', -, hu, -⟩ := h.own i c hi
    rw [hc.2.2, hq, Option.some.injEq] at hq'
    subst hq'
    exact ⟨i, c, hi, hc, by rw [← hu]; exact hkey⟩

/-- A call that joins the request in flight for its URL. -/
theorem Client.Consistent.join (hinj : Function.Injective getUri) (h : s.Consistent getUri)
    {url : U} {r : ℕ} (hmap : s.inFlightGets (getUri url) = some r) :
    Client.Consistent getUri { s with calls := s.calls ++ [⟨url, r, false, none⟩] } := by
  obtain ⟨i0, c0, hi0, ⟨-, -, rfl⟩, hkey⟩ := (h.map _ _).1 hmap
  refine ⟨fun k r => ?_, fun i c hi => ?_, fun i j c d hi hj hc hd he => ?_⟩
  · rw [h.map]
    constructor
    · rintro ⟨i, c, hi, hc⟩
      exact ⟨i, c, getElem?_concat_iff.2 (Or.inl hi), hc⟩
    · rintro ⟨i, c, hi, hc⟩
      rcases getElem?_concat_iff.1 hi with hi | ⟨-, rfl⟩
      · exact ⟨i, c, hi, hc⟩
      · cases hc.1.1
  · rcases getElem?_concat_iff.1 hi with hi | ⟨-, rfl⟩
    · exact h.own i c hi
    · obtain ⟨q, hq, hm, hu, -⟩ := h.own i0 c0 hi0
      exact ⟨q, hq, hm, hu.trans (hinj hkey), nofun⟩
  · rcases getElem?_concat_iff.1 hi with hi | ⟨-, rfl⟩
    · rcases getElem?_concat_iff.1 hj with hj | ⟨-, rfl⟩
      · exact h.first i j c d hi hj hc hd he
      · cases hd
    · cases hc

variable [DecidableEq K]

/-- The client after a call that sends a request of its own. -/
def Client.started (getUri : U → K) (s : Client U K δ ε) (schema : δ → Except ε δ) (url : U) :
    Client U K δ ε :=
  { s.send (newRequest .GET schema url) with
    inFlightGets := Function.update s.inFlightGets (getUri url) (some s.requests.length)
    calls := s.calls ++ [⟨url, s.requests.length, true, none⟩] }

/-- A `get` joins the request in flight for its URL or starts one. -/
theorem get_cases (getUri : U → K) (s : Client U K δ ε) (schema : δ → Except ε δ) (url : U) :
    (∃ r, s.inFlightGets (getUri url) = some r ∧
      s.get getUri schema url = { s with calls := s.calls ++ [⟨url, r, false, none⟩] }) ∨
    s.inFlightGets (getUri url) = none ∧
      s.get getUri schema url = s.started getUri schema url := by
  unfold Client.get
  cases hmap : s.inFlightGets (getUri url) with
  | some r => exact Or.inl ⟨r, rfl, rfl⟩
  | none => exact Or.inr ⟨rfl, rfl⟩

/-- Starting a request keeps the client consistent. -/
theorem Client.Consistent.started (h : s.Consistent getUri) {url : U}
    (hmap : s.inFlightGets (getUri url) = none) (schema : δ → Except ε δ) :
    (s.started getUri schema url).Consistent getUri := by
  have hfree : ∀ (i : ℕ) (c : GetCall U δ ε) (r : ℕ), s.calls[i]? = some c → c.Holds r →
      getUri c.url ≠ getUri url := by
    intro i c r hi hc he
    rw [(h.map _ r).2 ⟨i, c, hi, hc, he⟩] at hmap
    cases hmap
  have hold : ∀ (i : ℕ) (c : GetCall U δ ε), s.calls[i]? = some c →
      c.request < s.requests.length := by
    intro i c hi
    obtain ⟨q, hq, -⟩ := h.own i c hi
    exact (List.getElem?_eq_some_iff.1 hq).1
  refine ⟨fun k r => ?_, fun i c hi => ?_, fun i j c d hi hj hc hd he => ?_⟩
  · simp only [Client.started, Function.update_apply]
    constructor
    · intro hk
      split_ifs at hk with hkey
      · cases hk
        exact ⟨_, _, getElem?_concat_iff.2 (Or.inr ⟨rfl, rfl⟩), ⟨rfl, rfl, rfl⟩, hkey.symm⟩
      · obtain ⟨i, c, hi, hc⟩ := (h.map k r).1 hk
        exact ⟨i, c, getElem?_concat_iff.2 (Or.inl hi), hc⟩
    · rintro ⟨i, c, hi, hc, hkey⟩
      rcases getElem?_concat_iff.1 hi with hi | ⟨-, rfl⟩
      · rw [if_neg fun he => hfree i c r hi hc (hkey.trans he)]
        exact (h.map k r).2 ⟨i, c, hi, hc, hkey⟩
      · rw [if_pos hkey.symm, ← hc.2.2]
  · rcases getElem?_concat_iff.1 hi with hi | ⟨-, rfl⟩
    · exact (h.send _).own i c hi
    · exact ⟨_, getElem?_concat_iff.2 (Or.inr ⟨rfl, rfl⟩), rfl, rfl, nofun⟩
  · rcases getElem?_concat_iff.1 hi with hi | ⟨rfl, rfl⟩
    · rcases getElem?_concat_iff.1 hj with hj | ⟨rfl, rfl⟩
      · exact h.first i j c d hi hj hc hd he
      · exact absurd he (Nat.ne_of_lt (hold i c hi))
    · rcases getElem?_concat_iff.1 hj with hj | ⟨rfl, rfl⟩
      · exact absurd he.symm (Nat.ne_of_lt (hold j d hj))
      · rfl

/-- The client after the resumption of call `i` with an outcome. -/
def Client.resumed (getUri : U → K) (s : Client U K δ ε) (i : ℕ) (c : GetCall U δ ε)
    (o : Except ε δ) : Client U K δ ε :=
  { s with
    calls := s.calls.set i { c with result := some o }
    inFlightGets :=
      if c.first then Function.update s.inFlightGets (getUri c.url) none else s.inFlightGets }

/-- A call is resumed once its request has an outcome. -/
theorem resume_iff {i : ℕ} : s.step getUri (.resume i) = some s' ↔
    ∃ c q o, s.calls[i]? = some c ∧ c.result = none ∧ s.requests[c.request]? = some q ∧
      q.outcome = some o ∧
      s' = if c.first = true then Client.cleanup
          { s with calls := s.calls.set i { c with result := some o } } (getUri c.url) c.request
        else { s with calls := s.calls.set i { c with result := some o } } := by
  simp only [Client.step]
  cases hi : s.calls[i]? with
  | none => simp
  | some c =>
    cases hres : c.result with
    | some o => simp [hres]
    | none =>
      cases ho : s.requests[c.request]?.bind ApiRequest.outcome with
      | none =>
        simp only [hres, ho, reduceCtorEq, false_iff]
        rintro ⟨c', q, o, hc, -, hq, hqo, -⟩
        cases hc
        rw [hq, Option.bind_some, hqo] at ho
        cases ho
      | some o =>
        obtain ⟨q, hq, hqo⟩ := Option.bind_eq_some_iff.1 ho
        simp only [hres, ho, Option.some.injEq]
        constructor
        · rintro rfl
          exact ⟨c, q, o, rfl, hres, hq, hqo, rfl⟩
        · rintro ⟨c', q', o', rfl, -, hq', hqo', rfl⟩
          rw [hq, Option.some.injEq] at hq'
          rw [← hq', hqo, Option.some.injEq] at hqo'
          rw [hqo']

/-- The entry that the first caller finds in the map is its own. -/
theorem Client.Consistent.resume_iff (h : s.Consistent getUri) {i : ℕ} :
    s.step getUri (.resume i) = some s' ↔ ∃ c q o, s.calls[i]? = some c ∧ c.result = none ∧
      s.requests[c.request]? = some q ∧ q.outcome = some o ∧ s' = s.resumed getUri i c o := by
  have hcleanup : ∀ c o, s.calls[i]? = some c → c.result = none →
      (if c.first = true then Client.cleanup
          { s with calls := s.calls.set i { c with result := some o } } (getUri c.url) c.request
        else { s with calls := s.calls.set i { c with result := some o } }) =
        s.resumed getUri i c o := by
    intro c o hi hres
    unfold Client.resumed Client.cleanup
    split_ifs with hfirst hmap
    · rfl
    · exact absurd (h.held hi hfirst hres) hmap
    · rfl
  rw [Frontend.resume_iff]
  constructor
  · rintro ⟨c, q, o, hi, hres, hq, ho, rfl⟩
    exact ⟨c, q, o, hi, hres, hq, ho, hcleanup c o hi hres⟩
  · rintro ⟨c, q, o, hi, hres, hq, ho, rfl⟩
    exact ⟨c, q, o, hi, hres, hq, ho, (hcleanup c o hi hres).symm⟩

/-- Resuming a call keeps the client consistent. -/
theorem Client.Consistent.resumed (h : s.Consistent getUri) {i : ℕ} {c : GetCall U δ ε}
    {q : ApiRequest U δ ε} {o : Except ε δ} (hi : s.calls[i]? = some c) (hres : c.result = none)
    (hq : s.requests[c.request]? = some q) (ho : q.outcome = some o) :
    (s.resumed getUri i c o).Consistent getUri := by
  refine ⟨fun k r => ?_, fun j d hj => ?_, fun j j' d d' hj hj' hd hd' he => ?_⟩
  · constructor
    · intro hk
      have hold : s.inFlightGets k = some r ∧ (c.first = true → k ≠ getUri c.url) := by
        simp only [Client.resumed] at hk
        split_ifs at hk with hfirst
        · rw [Function.update_apply] at hk
          split_ifs at hk with hkey
          exact ⟨hk, fun _ => hkey⟩
        · exact ⟨hk, fun hc => absurd hc hfirst⟩
      obtain ⟨j, d, hj, hd, hkey⟩ := (h.map k r).1 hold.1
      have hne : i ≠ j := by
        rintro rfl
        rw [hi, Option.some.injEq] at hj
        subst hj
        exact hold.2 hd.1 hkey.symm
      exact ⟨j, d, by rw [Client.resumed, List.getElem?_set_ne hne]; exact hj, hd, hkey⟩
    · rintro ⟨j, d, hj, hd, hkey⟩
      obtain ⟨d0, hj0, -, -, -, hsame, -⟩ := getElem?_resumed hi hj
      obtain ⟨hne, rfl⟩ := hsame hd.2.1
      have hk : s.inFlightGets k = some r := (h.map k r).2 ⟨j, d, hj0, hd, hkey⟩
      simp only [Client.resumed]
      split_ifs with hfirst
      · -- the entry of another caller stays
        have hother : k ≠ getUri c.url := by
          rintro rfl
          rw [h.held hi hfirst hres, Option.some.injEq] at hk
          exact hne (h.first j i d c hj0 hi hd.1 hfirst (hd.2.2.trans hk.symm))
        rw [Function.update_of_ne hother]
        exact hk
      · exact hk
  · obtain ⟨d0, hj0, hurl, hreq, -, -, hcase⟩ := getElem?_resumed hi hj
    rcases hcase with rfl | rfl
    · rw [hi, Option.some.injEq] at hj0
      subst hj0
      obtain ⟨q', hq', hm, hu, -⟩ := h.own j c hi
      rw [hq, Option.some.injEq] at hq'
      subst hq'
      have hdres : d.result = some o := by
        simp only [Client.resumed] at hj
        rw [List.getElem?_set_self (List.getElem?_eq_some_iff.1 hi).1, Option.some.injEq] at hj
        rw [← hj]
      refine ⟨q, by rw [hreq]; exact hq, hm, hu.trans hurl.symm, fun o' ho' => ?_⟩
      rw [hdres] at ho'
      exact Option.some.inj ho' ▸ ho
    · exact h.own j d hj0
  · obtain ⟨d0, hj0, -, hreq, hfirst, -⟩ := getElem?_resumed hi hj
    obtain ⟨d0', hj0', -, hreq', hfirst', -⟩ := getElem?_resumed hi hj'
    exact h.first j j' d0 d0' hj0 hj0' (hfirst ▸ hd) (hfirst' ▸ hd')
      (hreq.symm.trans (he.trans hreq'))

/-! ## What a step on a request does -/

/-- What the server does when it handles a request. -/
theorem step_handle {r : ℕ} {response : Except ε δ}
    (hs : s.step getUri (.handle r response) = some s') :
    ∃ q, s.requests[r]? = some q ∧ q.handled = none ∧
      s' = { s with
        requests := s.requests.set r { q with handled := some (s.handledCount, response) }
        handledCount := s.handledCount + 1 } := by
  simp only [Client.step] at hs
  split at hs
  · cases hs
  · rename_i q hr
    split_ifs at hs with hsome
    cases hs
    exact ⟨q, hr, Option.not_isSome_iff_eq_none.1 hsome, rfl⟩

/-- What a response that arrives changes. -/
theorem step_deliver {r : ℕ} (hs : s.step getUri (.deliver r) = some s') :
    ∃ q t response, s.requests[r]? = some q ∧ q.handled = some (t, response) ∧ q.outcome = none ∧
      s' = { s with
        requests := s.requests.set r { q with outcome := some (response.bind q.schema) } } := by
  simp only [Client.step] at hs
  split at hs
  · cases hs
  · rename_i q hr
    split at hs
    · rename_i t response hhandled hnone
      cases hs
      exact ⟨q, t, response, hr, hhandled, hnone, rfl⟩
    · cases hs

/-- What a failing request changes. -/
theorem step_fail {r : ℕ} {error : ε} (hs : s.step getUri (.fail r error) = some s') :
    ∃ q, s.requests[r]? = some q ∧ q.outcome = none ∧
      s' = { s with requests := s.requests.set r { q with outcome := some (.error error) } } := by
  simp only [Client.step] at hs
  split at hs
  · cases hs
  · rename_i q hr
    split_ifs at hs with hsome
    cases hs
    exact ⟨q, hr, Option.not_isSome_iff_eq_none.1 hsome, rfl⟩

/-- Every step keeps the map, the calls and the requests together. -/
theorem Client.Consistent.step (hinj : Function.Injective getUri) (h : s.Consistent getUri)
    {e : ApiEvent U δ ε} (hs : s.step getUri e = some s') : s'.Consistent getUri := by
  cases e with
  | get schema url =>
    cases hs
    rcases get_cases getUri s schema url with ⟨r, hmap, hget⟩ | ⟨hmap, hget⟩
    · rw [hget]
      exact h.join hinj hmap
    · rw [hget]
      exact h.started hmap schema
  | post schema url => cases hs; exact h.send _
  | delete schema url => cases hs; exact h.send _
  | handle r response =>
    obtain ⟨q, hr, -, rfl⟩ := step_handle hs
    have hset : Client.Consistent getUri { s with
        requests := s.requests.set r { q with handled := some (s.handledCount, response) } } :=
      h.setRequest hr rfl rfl fun _ ho => ho
    exact ⟨hset.map, hset.own, hset.first⟩
  | deliver r =>
    obtain ⟨q, t, response, hr, -, hnone, rfl⟩ := step_deliver hs
    exact h.setRequest hr rfl rfl fun o ho => by rw [hnone] at ho; cases ho
  | fail r error =>
    obtain ⟨q, hr, hnone, rfl⟩ := step_fail hs
    exact h.setRequest hr rfl rfl fun o ho => by rw [hnone] at ho; cases ho
  | resume i =>
    obtain ⟨c, q, o, hi, hres, hq, ho, rfl⟩ := h.resume_iff.1 hs
    exact h.resumed hi hres hq ho

/-! ## What the bookkeeping gives -/

/-- What `get` promises in one state. -/
structure Client.Coalesced (getUri : U → K) (s : Client U K δ ε) : Prop where
  /-- Two requests in flight are for two URLs. -/
  one : ∀ r r' q q', s.InFlight r → s.InFlight r' → s.requests[r]? = some q →
    s.requests[r']? = some q' → q.url = q'.url → r = r'
  /-- The map holds the requests in flight, under the keys of their URLs, and nothing else. -/
  map : ∀ k r, s.inFlightGets k = some r ↔
    s.InFlight r ∧ ∃ q, s.requests[r]? = some q ∧ getUri q.url = k
  /-- A call belongs to a request for its own URL and settles with its outcome. -/
  own : ∀ (i : ℕ) (c : GetCall U δ ε), s.calls[i]? = some c →
    ∃ q, s.requests[c.request]? = some q ∧ c.Of q
  /-- Calls for different URLs have different requests. -/
  unshared : ∀ (i j : ℕ) (c d : GetCall U δ ε), s.calls[i]? = some c → s.calls[j]? = some d →
    c.url ≠ d.url → c.request ≠ d.request
  /-- Once its request has an outcome, a call can settle with it, and when the first caller does
  the URL leaves the map. -/
  settles : ∀ (i : ℕ) (c : GetCall U δ ε) q o, s.calls[i]? = some c → c.result = none →
    s.requests[c.request]? = some q → q.outcome = some o →
    ∃ s', s.step getUri (.resume i) = some s' ∧ s'.calls[i]? = some { c with result := some o } ∧
      (c.first = true → s'.inFlightGets (getUri c.url) = none)

/-- A consistent client has its calls coalesced. -/
theorem Client.Consistent.coalesced (h : s.Consistent getUri) : s.Coalesced getUri where
  one := by
    intro r r' q q' hr hr' hq hq' hurl
    have h1 := h.inFlight_iff.2 ⟨hr, q, hq, rfl⟩
    have h2 := h.inFlight_iff.2 ⟨hr', q', hq', rfl⟩
    rw [hurl, h2] at h1
    exact (Option.some.inj h1).symm
  map := fun _ _ => h.inFlight_iff
  own := h.own
  unshared := by
    intro i j c d hi hj hne he
    obtain ⟨q, hq, -, hu, -⟩ := h.own i c hi
    obtain ⟨q', hq', -, hu', -⟩ := h.own j d hj
    rw [he, hq', Option.some.injEq] at hq
    subst hq
    exact hne (hu.symm.trans hu')
  settles := by
    intro i c q o hi hres hq ho
    refine ⟨_, h.resume_iff.2 ⟨c, q, o, hi, hres, hq, ho, rfl⟩, ?_, fun hfirst => ?_⟩
    · exact List.getElem?_set_self (List.getElem?_eq_some_iff.1 hi).1
    · simp only [Client.resumed, if_pos hfirst, Function.update_self]

/-- At some moment of call `i`, which belongs to request `r` for `url`, the request is in flight. -/
def InFlightDuring (getUri : U → K) (es : List (ApiEvent U δ ε)) (i r : ℕ) (url : U) : Prop :=
  ∃ before after s c, es = before ++ after ∧
    run (Client.step getUri) (Client.initial : Client U K δ ε) before = some s ∧
    s.calls[i]? = some c ∧ c.result = none ∧ c.request = r ∧ c.url = url ∧ s.InFlight r

/-- A call is an old one, or it has just begun and its request is in flight. -/
theorem call_cases (h : s.Consistent getUri) {e : ApiEvent U δ ε}
    (hs : s.step getUri e = some s') {i : ℕ} {c : GetCall U δ ε} (hi : s'.calls[i]? = some c) :
    (∃ c0, s.calls[i]? = some c0 ∧ c.url = c0.url ∧ c.request = c0.request) ∨
      c.result = none ∧ s'.InFlight c.request := by
  cases e with
  | get schema url =>
    cases hs
    rcases get_cases getUri s schema url with ⟨r, hmap, hget⟩ | ⟨hmap, hget⟩
    · rw [hget] at hi ⊢
      rcases getElem?_concat_iff.1 hi with hi | ⟨-, rfl⟩
      · exact Or.inl ⟨c, hi, rfl, rfl⟩
      · obtain ⟨j, d, hj, hd, -⟩ := (h.map _ _).1 hmap
        exact Or.inr ⟨rfl, j, d, getElem?_concat_iff.2 (Or.inl hj), hd⟩
    · rw [hget] at hi ⊢
      rcases getElem?_concat_iff.1 hi with hi | ⟨-, rfl⟩
      · exact Or.inl ⟨c, hi, rfl, rfl⟩
      · exact Or.inr ⟨rfl, _, _, getElem?_concat_iff.2 (Or.inr ⟨rfl, rfl⟩), rfl, rfl, rfl⟩
  | post schema url => cases hs; exact Or.inl ⟨c, hi, rfl, rfl⟩
  | delete schema url => cases hs; exact Or.inl ⟨c, hi, rfl, rfl⟩
  | handle r response =>
    obtain ⟨q, -, -, rfl⟩ := step_handle hs
    exact Or.inl ⟨c, hi, rfl, rfl⟩
  | deliver r =>
    obtain ⟨q, t, response, -, -, -, rfl⟩ := step_deliver hs
    exact Or.inl ⟨c, hi, rfl, rfl⟩
  | fail r error =>
    obtain ⟨q, -, -, rfl⟩ := step_fail hs
    exact Or.inl ⟨c, hi, rfl, rfl⟩
  | resume j =>
    obtain ⟨d, q, o, hj, -, -, -, rfl⟩ := h.resume_iff.1 hs
    obtain ⟨c0, hi0, hurl, hreq, -⟩ := getElem?_resumed hj hi
    exact Or.inl ⟨c0, hi0, hurl, hreq⟩

/-- In a run, the request a call awaits is in flight from the call on. -/
theorem inFlightDuring_of_run (hinj : Function.Injective getUri) (es : List (ApiEvent U δ ε))
    (hr : run (Client.step getUri) (Client.initial : Client U K δ ε) es = some s) {i : ℕ}
    {c : GetCall U δ ε} (hi : s.calls[i]? = some c) :
    InFlightDuring getUri es i c.request c.url := by
  induction es using List.reverseRecOn generalizing s c with
  | nil =>
    cases hr
    simp [Client.initial] at hi
  | append_singleton es e ih =>
    obtain ⟨m, hm, hs⟩ := run_concat_iff.1 hr
    have hcon : m.Consistent getUri :=
      (always_of_invariant (fun _ _ _ h hs => h.step hinj hs) initial_consistent).last hm
    rcases call_cases hcon hs hi with ⟨c0, hi0, hurl, hreq⟩ | ⟨hres, hflight⟩
    · obtain ⟨before, after, q, d, hes, hq, hd⟩ := ih hm hi0
      rw [hurl, hreq]
      exact ⟨before, after ++ [e], q, d, by rw [hes, List.append_assoc], hq, hd⟩
    · exact ⟨es ++ [e], [], s, c, (List.append_nil _).symm, hr, hi, hres, rfl, rfl, hflight⟩

/-- **GET coalescing.** In every interleaving of calls, mutations, responses and failures, all states
are coalesced, and every call belongs to a request for its URL that was in flight at some moment
during the call. -/
theorem get_coalesced (hinj : Function.Injective getUri) (es : List (ApiEvent U δ ε))
    (s : Client U K δ ε) (hr : run (Client.step getUri) Client.initial es = some s) :
    Always (Client.step getUri) (Client.Coalesced getUri) (Client.initial : Client U K δ ε) es ∧
      ∀ (i : ℕ) (c : GetCall U δ ε), s.calls[i]? = some c →
        InFlightDuring getUri es i c.request c.url := by
  refine ⟨?_, fun i c hi => inFlightDuring_of_run hinj es hr hi⟩
  have hall : Always (Client.step getUri) (Client.Consistent getUri)
      (Client.initial : Client U K δ ε) es :=
    always_of_invariant (fun _ _ _ h hs => h.step hinj hs) initial_consistent
  exact hall.imp fun q hq => hq.coalesced

/-- Two calls for one URL share a request that fails, and a third one sends a new request. -/
def failAndRetry : List (ApiEvent String ℕ String) :=
  [.get .ok "/rooms", .get .ok "/rooms", .fail 0 "network failed", .resume 0, .resume 1,
    .get .ok "/rooms", .handle 1 (.ok 3), .deliver 1, .resume 2]

/-- The failing request is shared and the retry starts a new one. -/
theorem failAndRetry_coalesced :
    ∃ s, run (Client.step id) (Client.initial : Client String String ℕ String) failAndRetry =
        some s ∧
      Always (Client.step id) (Client.Coalesced id) Client.initial failAndRetry ∧
      s.calls.map GetCall.result =
        [some (.error "network failed"), some (.error "network failed"), some (.ok 3)] :=
  ⟨_, rfl, (get_coalesced Function.injective_id failAndRetry _ rfl).1, rfl⟩

end Frontend
