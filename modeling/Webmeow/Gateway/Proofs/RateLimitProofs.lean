import Webmeow.Gateway.RateLimit
import Webmeow.Lib.Separators
import Mathlib.Data.Nat.Digits.Defs
import Mathlib.Data.Int.Order.Basic

/-!
# When the rate limit holds for a client

The limiter counts for each remote address, port included. A client that uses one connection within
each of its windows has its windows counted as they are; a second connection in a window is counted
anew.
-/

namespace Gateway

open Separators

/-! ## Windows of a client -/

/-- The times at which windows of a client open whose requests come at `times`: with its first request,
and with the first one after the end of the last window. -/
def openings (per : ℤ) : Option ℤ → List ℤ → List ℤ
  | _, [] => []
  | none, t :: ts => t :: openings per (some t) ts
  | some t0, t :: ts =>
    if t0 + per < t then t :: openings per (some t) ts else openings per (some t0) ts

/-- The requests from an address. -/
def requestsOf (ip : String) (rs : List DirectRequest) : List DirectRequest :=
  rs.filter fun r => r.ip = ip

/-- How many requests of the client are passed on in the window that opens at `t`. -/
def passedIn (per : ℤ) (ip : String) (t : ℤ) (ds : List (DirectRequest × Bool)) : ℕ :=
  (ds.filter fun d => d.2 ∧ d.1.ip = ip ∧ t ≤ d.1.now ∧ d.1.now ≤ t + per).length

/-- In every window of the client at most `limit` of its requests are passed on. -/
def LimitKept (limit per : ℤ) (ip : String) (rs : List DirectRequest) : Prop :=
  ∀ t ∈ openings per none ((requestsOf ip rs).map DirectRequest.now),
    (passedIn per ip t ((newRateLimiter limit per).decisions rs) : ℤ) ≤ limit

/-- Within each window of the client all requests come over the connection that opened it. -/
def OneConnection (per : ℤ) : Option (ℤ × ℕ) → List DirectRequest → Prop
  | _, [] => True
  | none, r :: rs => OneConnection per (some (r.now, r.port)) rs
  | some (t, p), r :: rs =>
    if t + per < r.now then OneConnection per (some (r.now, r.port)) rs
    else r.port = p ∧ OneConnection per (some (t, p)) rs

section Windows

variable {per : ℤ} {o : Option (ℤ × ℕ)} {r : DirectRequest}

/-- A request after the end of the last window opens one. -/
theorem openings_of_over (h : ∀ t p, o = some (t, p) → t + per < r.now) (times : List ℤ) :
    openings per (o.map Prod.fst) (r.now :: times) = r.now :: openings per (some r.now) times := by
  cases o with
  | none => rfl
  | some w => exact if_pos (h w.1 w.2 rfl)

/-- A request within a window opens none. -/
theorem openings_of_within {t : ℤ} (h : r.now ≤ t + per) (times : List ℤ) :
    openings per (some t) (r.now :: times) = openings per (some t) times :=
  if_neg (by omega)

/-- A request after a window starts the next on its port. -/
theorem oneConnection_of_over (h : ∀ t p, o = some (t, p) → t + per < r.now)
    (rs : List DirectRequest) :
    OneConnection per o (r :: rs) ↔ OneConnection per (some (r.now, r.port)) rs := by
  cases o with
  | none => rfl
  | some w => rw [OneConnection, if_pos (h w.1 w.2 rfl)]

/-- A request within a window has to be on its port. -/
theorem oneConnection_of_within {t : ℤ} {p : ℕ} (h : r.now ≤ t + per) (rs : List DirectRequest) :
    OneConnection per (some (t, p)) (r :: rs) ↔ r.port = p ∧ OneConnection per (some (t, p)) rs := by
  have hnot : ¬t + per < r.now := by omega
  rw [OneConnection, if_neg hnot]

end Windows

/-- Windows open one after the other. -/
theorem openings_gt {per : ℤ} {t0 t : ℤ} {times : List ℤ} (hle : ∀ x ∈ times, t0 ≤ x)
    (hsorted : times.Pairwise (· ≤ ·)) (h : t ∈ openings per (some t0) times) : t0 + per < t := by
  induction times generalizing t0 with
  | nil => cases h
  | cons x xs ih =>
    obtain ⟨hx, hxs⟩ := List.pairwise_cons.1 hsorted
    unfold openings at h
    split_ifs at h with hopen
    · rcases List.mem_cons.1 h with rfl | h
      · exact hopen
      · have h1 := ih hx hxs h
        have h2 := hle x List.mem_cons_self
        omega
    · exact ih (fun y hy => hle y (List.mem_cons_of_mem _ hy)) hxs h

theorem passedIn_cons (per : ℤ) (ip : String) (t : ℤ) (r : DirectRequest) (b : Bool)
    (ds : List (DirectRequest × Bool)) :
    passedIn per ip t ((r, b) :: ds) =
      (if b = true ∧ r.ip = ip ∧ t ≤ r.now ∧ r.now ≤ t + per then 1 else 0) + passedIn per ip t ds := by
  unfold passedIn
  rw [List.filter_cons]
  split_ifs with h1 h2 h2
  · rw [List.length_cons, Nat.add_comm]
  · exact absurd (by simpa using h1) h2
  · exact absurd (by simpa using h2) h1
  · rw [Nat.zero_add]

/-! ## Addresses -/

theorem colon_notMem_port (p : ℕ) : ':' ∉ (toString p).toList := by
  intro h
  rw [Nat.toString_eq_repr, Nat.toList_repr] at h
  exact absurd (Nat.isDigit_of_mem_toDigits (by decide) (by decide) h) (by decide)

theorem toString_nat_inj {p q : ℕ} (h : (toString p).toList = (toString q).toList) : p = q := by
  rw [Nat.toString_eq_repr, Nat.toString_eq_repr, Nat.toList_repr, Nat.toList_repr] at h
  rw [← Nat.ofDigitChars_ten_toDigits (n := p), h, Nat.ofDigitChars_ten_toDigits]

/-- The remote address tells the address and the port. -/
theorem remoteAddr_inj {r r' : DirectRequest} (h : r.remoteAddr = r'.remoteAddr) :
    r.ip = r'.ip ∧ r.port = r'.port := by
  have hlist := congrArg String.toList h
  simp only [DirectRequest.remoteAddr, String.toList_append, List.append_assoc] at hlist
  obtain ⟨hip, hport⟩ :=
    append_last_sep_inj (colon_notMem_port r.port) (colon_notMem_port r'.port) hlist
  exact ⟨String.toList_injective hip, toString_nat_inj hport⟩

/-- Another connection of the client has another address. -/
theorem remoteAddr_ne {r : DirectRequest} {q : ℕ} (hne : q ≠ r.port) (now : ℤ) :
    (DirectRequest.mk r.ip q now).remoteAddr ≠ r.remoteAddr :=
  fun he => hne (remoteAddr_inj he).2

/-! ## What the limiter has counted -/

/-- The limiter has counted `n` requests in the current window of the client, which opened at the time
and over the connection in `o`; the counters of the client's other connections are over. -/
structure Counts (limit per : ℤ) (ip : String) (rl : RateLimiter) (o : Option (ℤ × ℕ)) (n : ℤ) :
    Prop where
  /-- The limit is the given one. -/
  limit_eq : rl.limit = limit
  /-- The window length is the given one. -/
  per_eq : rl.perNs = per
  /-- The port of the open window has the count. -/
  current : ∀ t p now, o = some (t, p) →
    rl.clients.lookup (DirectRequest.mk ip p now).remoteAddr = some ⟨n, t + per⟩
  /-- The windows of the other ports have ended. -/
  ended : ∀ q now w, rl.clients.lookup (DirectRequest.mk ip q now).remoteAddr = some w →
    ∃ t p, o = some (t, p) ∧ (q ≠ p → w.reset < t)

section Step

variable {limit per : ℤ} {ip : String} {rl : RateLimiter} {o : Option (ℤ × ℕ)} {n : ℤ}
  {r : DirectRequest}

/-- A new limiter counts nothing. -/
theorem counts_new (limit per : ℤ) (ip : String) :
    Counts limit per ip (newRateLimiter limit per) none 0 where
  limit_eq := rfl
  per_eq := rfl
  current _ _ _ h := by cases h
  ended _ _ _ h := by cases h

/-- What a call does to the counters. -/
theorem allow_spec (rl : RateLimiter) (key : String) (now : ℤ) :
    (rl.allow key now).2 = decide ((rl.window key now).count < rl.limit) ∧
      (rl.allow key now).1.limit = rl.limit ∧ (rl.allow key now).1.perNs = rl.perNs ∧
      (∀ k ≠ key, (rl.allow key now).1.clients.lookup k = rl.clients.lookup k) ∧
      (rl.allow key now).1.clients.lookup key =
        some ⟨(rl.window key now).count + (if (rl.allow key now).2 then 1 else 0),
          (rl.window key now).reset⟩ := by
  unfold RateLimiter.allow
  by_cases hc : rl.limit ≤ (rl.window key now).count
  · rw [if_pos hc]
    refine ⟨by simpa using hc, rfl, rfl, fun k hk => ?_, ?_⟩
    · exact AList.lookup_insert_ne hk
    · simp [RateLimiter.put, AList.lookup_insert]
  · rw [if_neg hc]
    refine ⟨by simpa using hc, rfl, rfl, fun k hk => ?_, ?_⟩
    · exact AList.lookup_insert_ne hk
    · simp [RateLimiter.put, AList.lookup_insert]

/-- What a request does to the counters. -/
theorem serve_spec (hlimit : 0 < rl.limit) (r : DirectRequest) :
    (rl.serve r).2 = decide ((rl.window r.remoteAddr r.now).count < rl.limit) ∧
      (rl.serve r).1.limit = rl.limit ∧ (rl.serve r).1.perNs = rl.perNs ∧
      (∀ k ≠ r.remoteAddr, (rl.serve r).1.clients.lookup k = rl.clients.lookup k) ∧
      (rl.serve r).1.clients.lookup r.remoteAddr =
        some ⟨(rl.window r.remoteAddr r.now).count + (if (rl.serve r).2 then 1 else 0),
          (rl.window r.remoteAddr r.now).reset⟩ := by
  unfold RateLimiter.serve
  rw [if_neg (by omega)]
  exact allow_spec rl r.remoteAddr r.now

/-- A connection whose counter is over, or that has none, starts a new one. -/
theorem window_fresh (h : Counts limit per ip rl o n) (hip : r.ip = ip)
    (hover : ∀ t p, o = some (t, p) → t ≤ r.now ∧ (r.port = p → t + per < r.now)) :
    rl.window r.remoteAddr r.now = ⟨0, r.now + per⟩ := by
  subst hip
  unfold RateLimiter.window
  cases hw : rl.clients.lookup r.remoteAddr with
  | none => simp [h.per_eq]
  | some w =>
    obtain ⟨t, p, rfl, hne⟩ := h.ended r.port r.now w hw
    obtain ⟨hle, hsame⟩ := hover t p rfl
    have hreset : w.reset < r.now := by
      by_cases hp : r.port = p
      · have hcur := h.current t p r.now rfl
        rw [← hp] at hcur
        have hwe : w = ⟨n, t + per⟩ := Option.some.inj (hw.symm.trans hcur)
        rw [hwe]
        exact hsame hp
      · have := hne hp
        omega
    simp [hreset, h.per_eq]

/-- The connection of the current window goes on with its counter. -/
theorem window_current {t : ℤ} (h : Counts limit per ip rl (some (t, r.port)) n) (hip : r.ip = ip)
    (hle : r.now ≤ t + per) : rl.window r.remoteAddr r.now = ⟨n, t + per⟩ := by
  subst hip
  have hcur : rl.clients.lookup r.remoteAddr = some ⟨n, t + per⟩ := h.current t r.port r.now rfl
  unfold RateLimiter.window
  rw [hcur]
  simp [hle]

/-- A request of another client changes nothing for this one. -/
theorem counts_other (hlimit : 0 < limit) (h : Counts limit per ip rl o n) (hip : r.ip ≠ ip) :
    Counts limit per ip (rl.serve r).1 o n := by
  have hl := h.limit_eq
  obtain ⟨-, h1, h2, h3, -⟩ := @serve_spec rl (by omega) r
  have hkey : ∀ p now, (DirectRequest.mk ip p now).remoteAddr ≠ r.remoteAddr := fun p now he =>
    hip (remoteAddr_inj he).1.symm
  refine ⟨h1.trans hl, h2.trans h.per_eq, fun t p now ho => ?_, fun q now w hw => ?_⟩
  · rw [h3 _ (hkey p now)]
    exact h.current t p now ho
  · rw [h3 _ (hkey q now)] at hw
    exact h.ended q now w hw

/-- A request that opens a window is passed on, and is the first that is counted in it. -/
theorem counts_open (hlimit : 0 < limit) (h : Counts limit per ip rl o n) (hip : r.ip = ip)
    (hover : ∀ t p, o = some (t, p) → t ≤ r.now ∧ t + per < r.now) :
    (rl.serve r).2 = true ∧ Counts limit per ip (rl.serve r).1 (some (r.now, r.port)) 1 := by
  have hl := h.limit_eq
  have hw := window_fresh h hip fun t p ho => ⟨(hover t p ho).1, fun _ => (hover t p ho).2⟩
  obtain ⟨hpass, h1, h2, h3, h4⟩ := @serve_spec rl (by omega) r
  have hpass' : (rl.serve r).2 = true := by
    rw [hpass, hw]
    simpa [hl] using hlimit
  subst hip
  refine ⟨hpass', h1.trans hl, h2.trans h.per_eq, ?_, ?_⟩
  · rintro t p now ho
    cases ho
    show (rl.serve r).1.clients.lookup r.remoteAddr = _
    rw [h4, hw, hpass']
    rfl
  · intro q now w hq
    refine ⟨r.now, r.port, rfl, fun hne => ?_⟩
    rw [h3 _ (remoteAddr_ne hne now)] at hq
    obtain ⟨t, p, ho, hreset⟩ := h.ended q now w hq
    obtain ⟨hle, hlt⟩ := hover t p ho
    by_cases hp : q = p
    · have hcur := h.current t p now ho
      rw [hp] at hq
      have hwe : w = ⟨n, t + per⟩ := Option.some.inj (hq.symm.trans hcur)
      rw [hwe]
      exact hlt
    · have := hreset hp
      omega

/-- A request over the connection of the current window is passed on as long as there is room. -/
theorem counts_same {t : ℤ} (hlimit : 0 < limit) (h : Counts limit per ip rl (some (t, r.port)) n)
    (hip : r.ip = ip) (hle : r.now ≤ t + per) :
    (rl.serve r).2 = decide (n < limit) ∧
      Counts limit per ip (rl.serve r).1 (some (t, r.port)) (n + if n < limit then 1 else 0) := by
  have hl := h.limit_eq
  have hw := window_current h hip hle
  obtain ⟨hpass, h1, h2, h3, h4⟩ := @serve_spec rl (by omega) r
  have hpass' : (rl.serve r).2 = decide (n < limit) := by rw [hpass, hw, hl]
  subst hip
  refine ⟨hpass', h1.trans hl, h2.trans h.per_eq, ?_, ?_⟩
  · rintro t' p now ho
    cases ho
    show (rl.serve r).1.clients.lookup r.remoteAddr = _
    rw [h4, hw, hpass']
    simp
  · intro q now w hq
    refine ⟨t, r.port, rfl, fun hne => ?_⟩
    rw [h3 _ (remoteAddr_ne hne now)] at hq
    obtain ⟨t', p', ho, hreset⟩ := h.ended q now w hq
    cases ho
    exact hreset hne

/-- A request over another connection is passed on, whatever was counted in the current window. -/
theorem serve_second_connection {t : ℤ} {p : ℕ} (hlimit : 0 < limit)
    (h : Counts limit per ip rl (some (t, p)) n) (hip : r.ip = ip) (ht : t ≤ r.now) (hp : r.port ≠ p) :
    (rl.serve r).2 = true := by
  have hl := h.limit_eq
  have hw := window_fresh h hip fun t' p' ho => by
    cases ho
    exact ⟨ht, fun he => absurd he hp⟩
  obtain ⟨hpass, -⟩ := @serve_spec rl (by omega) r
  rw [hpass, hw]
  simpa [hl] using hlimit

end Step

/-! ## Sequences of requests -/

theorem requestsOf_cons_self {ip : String} {r : DirectRequest} (h : r.ip = ip)
    (rs : List DirectRequest) : requestsOf ip (r :: rs) = r :: requestsOf ip rs := by
  simp [requestsOf, h]

theorem requestsOf_cons_ne {ip : String} {r : DirectRequest} (h : r.ip ≠ ip)
    (rs : List DirectRequest) : requestsOf ip (r :: rs) = requestsOf ip rs := by
  simp [requestsOf, h]

theorem decisions_cons (rl : RateLimiter) (r : DirectRequest) (rs : List DirectRequest) :
    rl.decisions (r :: rs) = (r, (rl.serve r).2) :: (rl.serve r).1.decisions rs := rfl

theorem passedIn_cons_other {per : ℤ} {ip : String} {t : ℤ} {r : DirectRequest} {b : Bool}
    (h : ¬(b = true ∧ r.ip = ip ∧ t ≤ r.now ∧ r.now ≤ t + per)) (ds : List (DirectRequest × Bool)) :
    passedIn per ip t ((r, b) :: ds) = passedIn per ip t ds := by
  rw [passedIn_cons, if_neg h, Nat.zero_add]

theorem passedIn_cons_self {per : ℤ} {ip : String} {t : ℤ} {r : DirectRequest} {b : Bool}
    (h : b = true ∧ r.ip = ip ∧ t ≤ r.now ∧ r.now ≤ t + per) (ds : List (DirectRequest × Bool)) :
    passedIn per ip t ((r, b) :: ds) = passedIn per ip t ds + 1 := by
  rw [passedIn_cons, if_pos h, Nat.add_comm]

theorem mem_decisions {rl : RateLimiter} {rs : List DirectRequest} {d : DirectRequest × Bool}
    (h : d ∈ rl.decisions rs) : d.1 ∈ rs := by
  induction rs generalizing rl with
  | nil => cases h
  | cons r rs ih =>
    rw [decisions_cons] at h
    rcases List.mem_cons.1 h with rfl | h
    · exact List.mem_cons_self
    · exact List.mem_cons_of_mem _ (ih h)

/-- Nothing is passed on in a window that is over. -/
theorem passedIn_over {per : ℤ} {ip : String} {t : ℤ} {rl : RateLimiter} {rs : List DirectRequest}
    (h : ∀ r ∈ rs, t + per < r.now) : passedIn per ip t (rl.decisions rs) = 0 := by
  rw [passedIn, List.length_eq_zero_iff, List.filter_eq_nil_iff]
  intro d hd
  have := h d.1 (mem_decisions hd)
  simp only [decide_eq_true_eq]
  omega

/-- The later openings of a client lie after the window of an opening. -/
theorem later_opening {per : ℤ} {ip : String} {t0 t : ℤ} {rs : List DirectRequest}
    (hsorted : rs.Pairwise fun r r' => r.now ≤ r'.now) (hle : ∀ r ∈ rs, t0 ≤ r.now)
    (h : t ∈ openings per (some t0) ((requestsOf ip rs).map DirectRequest.now)) : t0 + per < t := by
  refine openings_gt ?_ ?_ h
  · intro x hx
    obtain ⟨r, hr, rfl⟩ := List.mem_map.1 hx
    exact hle r (List.mem_of_mem_filter hr)
  · exact List.pairwise_map.2 (hsorted.filter _)

/-- From what the limiter has counted on, the limit is kept: in the windows that the requests open, and
in the current one, together with the `n` requests that are counted. -/
def KeptFrom (limit per : ℤ) (ip : String) (rl : RateLimiter) (o : Option (ℤ × ℕ)) (n : ℤ)
    (rs : List DirectRequest) : Prop :=
  (∀ t ∈ openings per (o.map Prod.fst) ((requestsOf ip rs).map DirectRequest.now),
      (passedIn per ip t (rl.decisions rs) : ℤ) ≤ limit) ∧
    ∀ t p, o = some (t, p) → n + passedIn per ip t (rl.decisions rs) ≤ limit

section Kept

variable {limit per : ℤ} {ip : String} {rl : RateLimiter} {o : Option (ℤ × ℕ)} {n : ℤ}
  {r : DirectRequest} {rs : List DirectRequest}

/-- Requests from elsewhere do not matter. -/
theorem keptFrom_other_iff (hip : r.ip ≠ ip) :
    KeptFrom limit per ip rl o n (r :: rs) ↔ KeptFrom limit per ip (rl.serve r).1 o n rs := by
  have hcons : ∀ t, passedIn per ip t ((r, (rl.serve r).2) :: (rl.serve r).1.decisions rs) =
      passedIn per ip t ((rl.serve r).1.decisions rs) := by
    intro t
    exact passedIn_cons_other (fun h => hip h.2.1) _
  unfold KeptFrom
  rw [requestsOf_cons_ne hip, decisions_cons]
  simp only [hcons]

/-- A request that opens a window is the first one in it, and comes after the windows before. -/
theorem keptFrom_opening_iff (hlimit : 0 < limit) (hip : r.ip = ip) (hn : n ≤ limit)
    (hopen : ∀ t p, o = some (t, p) → t + per < r.now) (hpass : (rl.serve r).2 = true)
    (hr : ∀ r' ∈ rs, r.now ≤ r'.now) (hrs : rs.Pairwise fun r r' => r.now ≤ r'.now) :
    KeptFrom limit per ip rl o n (r :: rs) ↔
      KeptFrom limit per ip (rl.serve r).1 (some (r.now, r.port)) 1 rs := by
  have hlast : ∀ t, t + per < r.now → passedIn per ip t ((rl.serve r).1.decisions rs) = 0 := by
    intro t ht
    refine passedIn_over fun r' hr' => ?_
    have := hr r' hr'
    omega
  unfold KeptFrom
  rw [requestsOf_cons_self hip, List.map_cons, openings_of_over hopen, decisions_cons]
  constructor
  · rintro ⟨hlater, -⟩
    refine ⟨fun t ht => ?_, fun t p ho => ?_⟩
    · have hafter := later_opening hrs hr ht
      have hkept := hlater t (List.mem_cons_of_mem _ ht)
      rwa [passedIn_cons_other (by omega)] at hkept
    · cases ho
      by_cases hper : 0 ≤ per
      · have hkept := hlater r.now List.mem_cons_self
        rw [passedIn_cons_self ⟨hpass, hip, le_rfl, by omega⟩] at hkept
        push_cast at hkept
        omega
      · rw [hlast r.now (by omega)]
        push_cast
        omega
  · rintro ⟨hlater, hcurrent⟩
    refine ⟨fun t ht => ?_, fun t p ho => ?_⟩
    · rcases List.mem_cons.1 ht with rfl | ht
      · have hrest := hcurrent r.now r.port rfl
        rw [passedIn_cons]
        split_ifs <;> push_cast <;> omega
      · have hafter := later_opening hrs hr ht
        rw [passedIn_cons_other (by omega)]
        exact hlater t ht
    · have hover := hopen t p ho
      rw [passedIn_cons_other (by omega), hlast t hover]
      simpa using hn

/-- A request in the current window is counted if it is passed on. -/
theorem keptFrom_within_iff {t : ℤ} {p : ℕ} (hip : r.ip = ip) (hle : ∀ r' ∈ r :: rs, t ≤ r'.now)
    (hin : r.now ≤ t + per) (hrs : rs.Pairwise fun r r' => r.now ≤ r'.now) :
    KeptFrom limit per ip rl (some (t, p)) n (r :: rs) ↔
      KeptFrom limit per ip (rl.serve r).1 (some (t, p)) (n + if (rl.serve r).2 then 1 else 0) rs := by
  have hle' : ∀ r' ∈ rs, t ≤ r'.now := fun r' hr' => hle r' (List.mem_cons_of_mem _ hr')
  have hlater : ∀ t' ∈ openings per (some t) ((requestsOf ip rs).map DirectRequest.now),
      passedIn per ip t' ((r, (rl.serve r).2) :: (rl.serve r).1.decisions rs) =
        passedIn per ip t' ((rl.serve r).1.decisions rs) := by
    intro t' ht'
    have hafter := later_opening hrs hle' ht'
    exact passedIn_cons_other (by omega) _
  have hcurrent : n + (passedIn per ip t ((r, (rl.serve r).2) :: (rl.serve r).1.decisions rs) : ℤ) =
      n + (if (rl.serve r).2 then 1 else 0) + passedIn per ip t ((rl.serve r).1.decisions rs) := by
    have ht := hle r List.mem_cons_self
    rw [passedIn_cons]
    by_cases hpass : (rl.serve r).2 = true
    · rw [if_pos ⟨hpass, hip, ht, hin⟩, if_pos hpass]
      push_cast
      omega
    · rw [if_neg (fun h => hpass h.1), if_neg hpass]
      push_cast
      omega
  unfold KeptFrom
  rw [requestsOf_cons_self hip, List.map_cons, Option.map_some, openings_of_within hin, decisions_cons]
  refine and_congr (forall₂_congr fun t' ht' => ?_) (forall₂_congr fun t' p' => ?_)
  · rw [hlater t' ht']
  · refine imp_congr_right fun ho => ?_
    cases ho
    rw [hcurrent]

/-- The sequence of requests goes on from what the limiter has counted in the current window. -/
theorem limit_kept_from (hlimit : 0 < limit) (h : Counts limit per ip rl o n) (hn : n ≤ limit)
    (hsorted : rs.Pairwise fun r r' => r.now ≤ r'.now)
    (hle : ∀ t p, o = some (t, p) → ∀ r ∈ rs, t ≤ r.now)
    (hone : OneConnection per o (requestsOf ip rs)) : KeptFrom limit per ip rl o n rs := by
  induction rs generalizing rl o n with
  | nil => exact ⟨fun t ht => (by cases ht), fun t p _ => by simpa [passedIn, RateLimiter.decisions]⟩
  | cons r rs ih =>
    obtain ⟨hr, hrs⟩ := List.pairwise_cons.1 hsorted
    by_cases hip : r.ip = ip
    · rw [requestsOf_cons_self hip] at hone
      by_cases hopen : ∀ t p, o = some (t, p) → t + per < r.now
      · rw [oneConnection_of_over hopen] at hone
        obtain ⟨hpass, hcounts⟩ := counts_open hlimit h hip fun t p ho =>
          ⟨hle t p ho r List.mem_cons_self, hopen t p ho⟩
        rw [keptFrom_opening_iff hlimit hip hn hopen hpass hr hrs]
        exact ih hcounts (by omega) hrs (fun t p ho => by cases ho; exact hr) hone
      · push Not at hopen
        obtain ⟨t, p, rfl, hin⟩ := hopen
        rw [oneConnection_of_within hin] at hone
        obtain ⟨rfl, hone⟩ := hone
        have hle' := hle t r.port rfl
        obtain ⟨hpass, hcounts⟩ := counts_same hlimit h hip hin
        rw [keptFrom_within_iff hip hle' hin hrs, hpass]
        simp only [decide_eq_true_eq]
        exact ih hcounts (by split_ifs <;> omega) hrs
          (fun t' p' ho r' hr' => by cases ho; exact hle' r' (List.mem_cons_of_mem _ hr')) hone
    · rw [requestsOf_cons_ne hip] at hone
      rw [keptFrom_other_iff hip]
      exact ih (counts_other hlimit h hip) hn hrs
        (fun t p ho r' hr' => hle t p ho r' (List.mem_cons_of_mem _ hr')) hone

/-- With the limit one, a second connection in a window would be one request too many. -/
theorem one_connection_from (h : Counts 1 per ip rl o n) (hn : n ≤ 1) (hone : o ≠ none → n = 1)
    (hsorted : rs.Pairwise fun r r' => r.now ≤ r'.now)
    (hle : ∀ t p, o = some (t, p) → ∀ r ∈ rs, t ≤ r.now) (hkept : KeptFrom 1 per ip rl o n rs) :
    OneConnection per o (requestsOf ip rs) := by
  induction rs generalizing rl o n with
  | nil => cases o <;> trivial
  | cons r rs ih =>
    obtain ⟨hr, hrs⟩ := List.pairwise_cons.1 hsorted
    by_cases hip : r.ip = ip
    · rw [requestsOf_cons_self hip]
      by_cases hopen : ∀ t p, o = some (t, p) → t + per < r.now
      · obtain ⟨hpass, hcounts⟩ := counts_open (by decide) h hip fun t p ho =>
          ⟨hle t p ho r List.mem_cons_self, hopen t p ho⟩
        rw [keptFrom_opening_iff (by decide) hip hn hopen hpass hr hrs] at hkept
        rw [oneConnection_of_over hopen]
        exact ih hcounts le_rfl (fun _ => rfl) hrs (fun t p ho => by cases ho; exact hr) hkept
      · push Not at hopen
        obtain ⟨t, p, rfl, hin⟩ := hopen
        have hle' := hle t p rfl
        have hfull : n = 1 := hone (by simp)
        rw [keptFrom_within_iff hip hle' hin hrs] at hkept
        rw [oneConnection_of_within hin]
        by_cases hp : r.port = p
        · subst hp
          obtain ⟨hpass, hcounts⟩ := counts_same (by decide) h hip hin
          rw [hpass] at hkept
          simp only [decide_eq_true_eq] at hkept
          refine ⟨rfl, ih hcounts ?_ (fun _ => ?_) hrs
            (fun t' p' ho r' hr' => by cases ho; exact hle' r' (List.mem_cons_of_mem _ hr')) hkept⟩
          · simp [hfull]
          · simp [hfull]
        · have hpass := serve_second_connection (by decide) h hip (hle' r List.mem_cons_self) hp
          have hmany := hkept.2 t p rfl
          rw [if_pos hpass] at hmany
          omega
    · rw [keptFrom_other_iff hip] at hkept
      rw [requestsOf_cons_ne hip]
      exact ih (counts_other (by decide) h hip) hn hone hrs
        (fun t p ho r' hr' => hle t p ho r' (List.mem_cons_of_mem _ hr')) hkept

end Kept

/-- **The rate limit of a client**: for every window length and every sequence of direct requests in the
order of their times, every limit is kept for the client in each of its windows if and only if within
each window the client uses one connection. -/
theorem limit_kept_iff_one_connection (per : ℤ) (ip : String) (rs : List DirectRequest)
    (hsorted : rs.Pairwise fun r r' => r.now ≤ r'.now) :
    (∀ limit > 0, LimitKept limit per ip rs) ↔ OneConnection per none (requestsOf ip rs) := by
  constructor
  · intro h
    exact one_connection_from (counts_new 1 per ip) (by decide) (fun hne => absurd rfl hne) hsorted
      (fun _ _ ho => by cases ho) ⟨h 1 (by decide), fun _ _ ho => by cases ho⟩
  · intro hone limit hlimit
    exact (limit_kept_from hlimit (counts_new limit per ip) hlimit.le hsorted
      (fun _ _ ho => by cases ho) hone).1

/-- A client that opens a new connection for its second window. -/
theorem new_connection_in_new_window :
    LimitKept 1 10 "10.0.0.7"
      [⟨"10.0.0.7", 50001, 0⟩, ⟨"10.0.0.8", 50002, 1⟩, ⟨"10.0.0.7", 50001, 10⟩, ⟨"10.0.0.7", 50003, 11⟩] :=
  (limit_kept_iff_one_connection 10 "10.0.0.7" _ (by decide)).2
    (by simp [OneConnection, requestsOf]) 1 (by decide)

/-- Two connections at once: both requests are passed on, with the limit one. -/
theorem two_connections_exceed_limit :
    (newRateLimiter 1 10).decisions [⟨"10.0.0.7", 50001, 0⟩, ⟨"10.0.0.7", 50002, 1⟩] =
        [(⟨"10.0.0.7", 50001, 0⟩, true), (⟨"10.0.0.7", 50002, 1⟩, true)] ∧
      ¬LimitKept 1 10 "10.0.0.7" [⟨"10.0.0.7", 50001, 0⟩, ⟨"10.0.0.7", 50002, 1⟩] := by
  refine ⟨by decide, fun h => ?_⟩
  exact absurd (h 0 (by decide)) (by decide)

end Gateway
