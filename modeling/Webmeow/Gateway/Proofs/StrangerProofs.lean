import Webmeow.Gateway.Server
import Webmeow.Lib.Erasure

/-!
# Requests without the key leave no trace

A stranger is an address from which no request has the key. What strangers do changes their own counters
in the limiter and the clock, and nothing that the requests of others meet. So a run without the steps of
the strangers' requests is a run in which all others get the same answers.
-/

namespace Gateway

open Interleaving Runs

/-! ## Limiters that agree -/

/-- The settings are the same, and so are the counters of the addresses in `V`. -/
structure RateLimiter.Agree (V : String → Prop) (rl rl' : RateLimiter) : Prop where
  /-- The limits agree. -/
  limit : rl.limit = rl'.limit
  /-- The window lengths agree. -/
  perNs : rl.perNs = rl'.perNs
  /-- The windows of the clients in view agree. -/
  clients : ∀ a, V a → rl.clients.lookup a = rl'.clients.lookup a

section Limiter

variable {V : String → Prop} {rl rl' : RateLimiter} {key : String}

theorem RateLimiter.Agree.refl (V : String → Prop) (rl : RateLimiter) : rl.Agree V rl :=
  ⟨rfl, rfl, fun _ _ => rfl⟩

/-- `allow` writes the window of its client alone. -/
theorem allow_clients (rl : RateLimiter) (key : String) (now : ℤ) :
    ∃ w, (rl.allow key now).1 = rl.put key w := by
  unfold RateLimiter.allow
  dsimp only
  split_ifs
  · exact ⟨_, rfl⟩
  · exact ⟨_, rfl⟩

/-- A counter that is not of `V` may change. -/
theorem RateLimiter.Agree.put_left (h : rl.Agree V rl') (hkey : ¬V key) (w : Window) :
    (rl.put key w).Agree V rl' where
  limit := h.limit
  perNs := h.perNs
  clients := by
    intro a ha
    have hne : a ≠ key := fun he => hkey (he ▸ ha)
    exact (AList.lookup_insert_ne hne).trans (h.clients a ha)

/-- A window that both are given keeps them in agreement. -/
theorem RateLimiter.Agree.put (h : rl.Agree V rl') (w : Window) :
    (rl.put key w).Agree V (rl'.put key w) where
  limit := h.limit
  perNs := h.perNs
  clients := by
    intro a ha
    by_cases he : a = key
    · subst he
      exact (AList.lookup_insert rl.clients).trans (AList.lookup_insert rl'.clients).symm
    · exact ((AList.lookup_insert_ne he).trans (h.clients a ha)).trans (AList.lookup_insert_ne he).symm

/-- Limiters that agree decide alike for an address of `V`. -/
theorem RateLimiter.Agree.allow (h : rl.Agree V rl') (hkey : V key) (now : ℤ) :
    (rl.allow key now).1.Agree V (rl'.allow key now).1 ∧
      (rl.allow key now).2 = (rl'.allow key now).2 := by
  have hwindow : rl.window key now = rl'.window key now := by
    unfold RateLimiter.window
    rw [h.clients key hkey, h.perNs]
  unfold RateLimiter.allow
  dsimp only
  rw [hwindow, h.limit]
  split_ifs
  · exact ⟨h.put _, rfl⟩
  · exact ⟨h.put _, rfl⟩

/-- One step of the middleware for an address of `V`. -/
theorem RateLimiter.Agree.requestPcStep (h : rl.Agree V rl') (hkey : V key) {now : ℤ}
    {pc pc' : RequestPc} {rl₁ : RateLimiter}
    (hs : Gateway.requestPcStep rl key now pc = some (rl₁, pc')) :
    ∃ rl₁', Gateway.requestPcStep rl' key now pc = some (rl₁', pc') ∧ rl₁.Agree V rl₁' := by
  cases pc with
  | readLimit =>
    cases hs
    exact ⟨rl', by rw [Gateway.requestPcStep, h.limit], h⟩
  | loadLimit =>
    cases hs
    exact ⟨rl', by rw [Gateway.requestPcStep, h.limit], h⟩
  | loadWindow limit =>
    cases hs
    exact ⟨rl', by rw [Gateway.requestPcStep, h.perNs], h⟩
  | update limit per =>
    cases hs
    have hwith : RateLimiter.Agree V { rl with limit := limit, perNs := per }
        { rl' with limit := limit, perNs := per } := ⟨rfl, rfl, h.clients⟩
    obtain ⟨hclients, hanswer⟩ := hwith.allow hkey now
    refine ⟨(rl'.allowWith limit per key now).1, ?_, ⟨h.limit, h.perNs, hclients.clients⟩⟩
    rw [Gateway.requestPcStep]
    simp only [RateLimiter.allowWith, hanswer]
    rfl
  | readWindow =>
    cases hs
    exact ⟨rl', by rw [Gateway.requestPcStep, h.perNs], h⟩
  | passed => cases hs
  | tooManyRequests retryAfter => cases hs

/-- One step of the middleware for another address. -/
theorem RateLimiter.Agree.requestPcStep_left (h : rl.Agree V rl') (hkey : ¬V key) {now : ℤ}
    {pc pc' : RequestPc} {rl₁ : RateLimiter}
    (hs : Gateway.requestPcStep rl key now pc = some (rl₁, pc')) : rl₁.Agree V rl' := by
  cases pc with
  | update limit per =>
    cases hs
    obtain ⟨w, hw⟩ := allow_clients { rl with limit := limit, perNs := per } key now
    have hput := h.put_left hkey w
    refine ⟨h.limit, h.perNs, fun a ha => ?_⟩
    show ((RateLimiter.allow { rl with limit := limit, perNs := per } key now).1.clients).lookup a = _
    rw [hw]
    exact hput.clients a ha
  | passed => cases hs
  | tooManyRequests retryAfter => cases hs
  | _ => cases hs; exact h

/-- An administrator's request looks at the settings and keeps the counters. -/
theorem RateLimiter.Agree.adminPcStep (h : rl.Agree V rl') {parseDuration : String → Option ℤ}
    {body : RateLimitUpdate} {pc pc' : AdminPc} {rl₁ : RateLimiter}
    (hs : Gateway.adminPcStep parseDuration rl body pc = some (rl₁, pc')) :
    ∃ rl₁', Gateway.adminPcStep parseDuration rl' body pc = some (rl₁', pc') ∧ rl₁.Agree V rl₁' := by
  cases pc with
  | loadLimit => cases hs; exact ⟨rl', by rw [Gateway.adminPcStep, h.limit], h⟩
  | loadWindow limit => cases hs; exact ⟨rl', by rw [Gateway.adminPcStep, h.perNs], h⟩
  | storeLimit limit per =>
    cases hs
    exact ⟨{ rl' with limit := limit }, rfl, rfl, h.perNs, h.clients⟩
  | storeWindow per => cases hs; exact ⟨{ rl' with perNs := per }, rfl, h.limit, rfl, h.clients⟩
  | readLimit => cases hs; exact ⟨rl', by rw [Gateway.adminPcStep, h.limit], h⟩
  | readWindow limit => cases hs; exact ⟨rl', by rw [Gateway.adminPcStep, h.perNs], h⟩
  | done response => cases hs

/-- The admin endpoint does the same on both. -/
theorem RateLimiter.Agree.adminAct (h : rl.Agree V rl') {parseDuration : String → Option ℤ}
    {t t' : AdminThread} {rl₁ : RateLimiter}
    (hs : Gateway.adminAct parseDuration rl t () = some (rl₁, t')) :
    ∃ rl₁', Gateway.adminAct parseDuration rl' t () = some (rl₁', t') ∧ rl₁.Agree V rl₁' := by
  obtain ⟨body, hbody, hs⟩ := Option.bind_eq_some_iff.1 hs
  obtain ⟨⟨rl₂, pc⟩, hq, hq'⟩ := Option.map_eq_some_iff.1 hs
  cases hq'
  obtain ⟨rl₁', hstep, hagree⟩ := h.adminPcStep hq
  refine ⟨rl₁', ?_, hagree⟩
  rw [Gateway.adminAct, hbody, Option.bind_some, hstep]
  rfl

end Limiter

/-! ## Gateways that agree -/

/-- All is the same but the counters of strangers, and the clock of the second gateway is not ahead. -/
structure GatewayStore.Agree (strangers : String → Bool) (g h : GatewayStore) : Prop where
  /-- The clock of the smaller run is not ahead. -/
  now : h.now ≤ g.now
  /-- The limiters agree on everybody but strangers. -/
  limiter : g.limiter.Agree (fun a => strangers a = false) h.limiter
  /-- The caches are the same. -/
  caches : g.caches = h.caches
  /-- The pools are the same. -/
  pools : g.pools = h.pools
  /-- The exchanges are the same. -/
  exchanges : g.exchanges = h.exchanges

/-- The answers that a request gets without the key. -/
def Answer.refuses : Answer → Bool
  | .preflight => true
  | .tooManyRequests _ => true
  | .unauthorized => true
  | .methodNotAllowed => true
  | .notFound => true
  | .health => true
  | _ => false

/-- A request that has not got past the key. -/
def GatewayPc.outside : GatewayPc → Bool
  | .limiting _ => true
  | .answered a => a.refuses
  | _ => false

/-- A stranger's request does not have the key and does not get past it. -/
def GatewayThread.Strange (cfg : Config) (strangers : String → Bool) (t : GatewayThread) : Prop :=
  strangers t.request.remoteAddr = true → cfg.authorized t.request.request = false ∧ t.pc.outside = true

section Steps

variable {cfg : Config} {sum256 : String → List UInt8} {parseDuration : String → Option ℤ}
  {strangers : String → Bool} {g h g' : GatewayStore} {r : GatewayRequest} {x : GatewayInput}
  {pc pc' : GatewayPc}

/-- A request without the secret is not passed on. -/
theorem dispatch_outside (hr : cfg.authorized r.request = false) :
    (cfg.dispatch r).outside = true := by
  unfold Config.dispatch
  split
  · rfl
  · rfl
  · rfl
  · rw [if_neg (by rw [hr]; exact Bool.false_ne_true)]
    rfl
  · rw [if_neg (by rw [hr]; exact Bool.false_ne_true)]
    rfl

/-- A request without the secret is not passed on by the limiter. -/
theorem limited_outside (hr : cfg.authorized r.request = false) (pc : RequestPc) :
    (cfg.limited r pc).outside = true := by
  cases pc with
  | passed => exact dispatch_outside hr
  | _ => rfl

/-- Outside, a request only meets the limiter. -/
theorem gatewayPcStep_outside (hr : cfg.authorized r.request = false) (hpc : pc.outside = true)
    (hs : gatewayPcStep cfg sum256 parseDuration g r x pc = some (g', pc')) :
    pc'.outside = true ∧ ∃ pc₀ rl pc₁, requestPcStep g.limiter r.remoteAddr x.now pc₀ = some (rl, pc₁) ∧
      g' = { g with limiter := rl } := by
  cases pc with
  | limiting pc₀ =>
    obtain ⟨⟨rl, pc₁⟩, hq, hq'⟩ := Option.map_eq_some_iff.1 hs
    obtain ⟨hg, hpc'⟩ := Prod.mk.inj hq'
    exact ⟨hpc' ▸ limited_outside hr pc₁, pc₀, rl, pc₁, hq, hg.symm⟩
  | answered a => cases hs
  | _ => cases hpc

/-- A step of a request that is no stranger's is possible in the other gateway, with the same outcome. -/
theorem gatewayPcStep_agree (ha : g.Agree strangers h) (hr : strangers r.remoteAddr = false)
    (hs : gatewayPcStep cfg sum256 parseDuration g r x pc = some (g', pc')) :
    ∃ h', gatewayPcStep cfg sum256 parseDuration h r x pc = some (h', pc') ∧
      g'.Agree strangers h' := by
  cases pc with
  | limiting pc₀ =>
    obtain ⟨⟨rl, pc₁⟩, hq, hq'⟩ := Option.map_eq_some_iff.1 hs
    obtain ⟨rl', hstep, hrl⟩ := ha.limiter.requestPcStep hr hq
    cases hq'
    refine ⟨{ h with limiter := rl' }, ?_, ha.now, hrl, ha.caches, ha.pools, ha.exchanges⟩
    rw [gatewayPcStep, hstep]
    rfl
  | admin t =>
    obtain ⟨⟨rl, t'⟩, hq, hq'⟩ := Option.map_eq_some_iff.1 hs
    obtain ⟨rl', hstep, hrl⟩ := ha.limiter.adminAct hq
    cases hq'
    refine ⟨{ h with limiter := rl' }, ?_, ha.now, hrl, ha.caches, ha.pools, ha.exchanges⟩
    rw [gatewayPcStep, hstep]
    rfl
  | lookup s =>
    have hcaches : Function.update g.caches s
        ((g.caches s).get (cacheKey sum256 r.request) x.now).1 =
          Function.update h.caches s ((h.caches s).get (cacheKey sum256 r.request) x.now).1 := by
      rw [ha.caches]
    simp only [gatewayPcStep] at hs ⊢
    rw [← ha.caches]
    rw [← ha.caches] at hcaches
    cases hfound : ((g.caches s).get (cacheKey sum256 r.request) x.now).2 with
    | some e =>
      rw [hfound] at hs
      cases hs
      exact ⟨_, rfl, ha.now, ha.limiter, hcaches, ha.pools, ha.exchanges⟩
    | none =>
      rw [hfound] at hs
      cases hs
      exact ⟨_, rfl, ha.now, ha.limiter, hcaches, ha.pools, ha.exchanges⟩
  | pick s =>
    cases hs
    refine ⟨{ h with pools := Function.update h.pools s ((h.pools s).choose).1 }, ?_, ha.now,
      ha.limiter, ha.caches, ?_, ha.exchanges⟩
    · rw [gatewayPcStep, ha.pools]
    · show Function.update g.pools s _ = Function.update h.pools s _
      rw [ha.pools]
  | waiting s i =>
    cases hs
    exact ⟨_, rfl, ha.now, ha.limiter, ha.caches, ha.pools, congrArg (· ++ _) ha.exchanges⟩
  | stamp s i b e =>
    cases hs
    exact ⟨h, by rw [gatewayPcStep, ha.caches], ha⟩
  | store s i b e expires =>
    obtain ⟨c, hc, hq'⟩ := Option.map_eq_some_iff.1 hs
    cases hq'
    refine ⟨{ h with caches := Function.update h.caches s c }, ?_, ha.now, ha.limiter, ?_, ha.pools,
      ha.exchanges⟩
    · rw [gatewayPcStep, ← ha.caches, hc]
      rfl
    · show Function.update g.caches s c = Function.update h.caches s c
      rw [ha.caches]
  | answered a => cases hs

/-- **What erasing needs**: the steps of strangers are not noticed by the others. -/
theorem strangers_erasable (cfg : Config) (sum256 : String → List UInt8)
    (parseDuration : String → Option ℤ) (strangers : String → Bool) :
    Erasable (gatewayAct cfg sum256 parseDuration) (GatewayStore.Agree strangers)
      (fun t => strangers t.request.remoteAddr) (fun _ _ _ => True)
      (GatewayThread.Strange cfg strangers) where
  unnoticed := by
    intro g h t x g' t' hQ ht ha hact
    unfold gatewayAct at hact
    split_ifs at hact with hnow
    obtain ⟨⟨g₁, pc₁⟩, hq, hq'⟩ := Option.map_eq_some_iff.1 hact
    cases hq'
    obtain ⟨hauth, houtside⟩ := hQ ht
    obtain ⟨-, pc₀, rl, pc', hlimiter, rfl⟩ := gatewayPcStep_outside hauth houtside hq
    have hkey : ¬strangers t.request.remoteAddr = false := by
      rw [ht]
      decide
    have hle := ha.now
    refine ⟨⟨?_, ha.limiter.requestPcStep_left hkey hlimiter, ha.caches, ha.pools, ha.exchanges⟩, ht⟩
    show h.now ≤ x.now
    omega
  possible := by
    intro g h t x g' t' hQ ht _ ha hact
    unfold gatewayAct at hact ⊢
    split_ifs at hact with hnow
    obtain ⟨⟨g₁, pc₁⟩, hq, hq'⟩ := Option.map_eq_some_iff.1 hact
    cases hq'
    have hle := ha.now
    have hagree : GatewayStore.Agree strangers { g with now := x.now } { h with now := x.now } :=
      ⟨le_refl _, ha.limiter, ha.caches, ha.pools, ha.exchanges⟩
    obtain ⟨h', hstep, hagree'⟩ := gatewayPcStep_agree hagree ht hq
    rw [if_neg (by omega), hstep]
    exact ⟨h', rfl, hagree'⟩
  kept := by
    intro g t x g' t' hQ hact
    unfold gatewayAct at hact
    split_ifs at hact with hnow
    obtain ⟨⟨g₁, pc₁⟩, hq, hq'⟩ := Option.map_eq_some_iff.1 hact
    cases hq'
    intro ht
    obtain ⟨hauth, houtside⟩ := hQ ht
    exact ⟨hauth, (gatewayPcStep_outside hauth houtside hq).1⟩

end Steps

/-! ## Runs -/

theorem gatewayStart_strange {cfg : Config} {strangers : String → Bool} {r : GatewayRequest}
    (hr : strangers r.remoteAddr = true → cfg.authorized r.request = false) :
    (gatewayStart r).Strange cfg strangers := by
  intro ht
  refine ⟨hr ht, ?_⟩
  unfold gatewayStart
  split_ifs
  · rfl
  · rfl

/-- A gateway with a key before the beach service, which lets one request of an address pass. -/
def beachConfig : Config where
  port := "8000"
  serviceURL := fun s => if s = .beach then "http://beach:8002" else ""
  servicePool := fun s => if s = .beach then ["http://beach:8002"] else []
  corsOrigins := []
  internalSecret := "meow"
  cacheTTL := 5
  cacheMaxEntries := 16
  cacheMaxBodyBytes := 1024
  rateLimitPerWindow := 1
  rateLimitWindow := 60

/-- A request for the beach chairs. -/
def beachRequest (remoteAddr : String) (header : Header) : GatewayRequest :=
  ⟨⟨"GET", ⟨"/api/beach/chairs".toList, [], [], fun h => absurd rfl h⟩, header⟩, remoteAddr, none⟩

/-- A stranger and the tower ask in turns; the tower gets the chairs. -/
def strangerRun : List (Event GatewayRequest GatewayInput) :=
  [.request (beachRequest "203.0.113.9:40000" Header.empty),
    .request (beachRequest "10.0.0.7:40000" (Header.empty.set "X-Internal-Key" "meow"))] ++
  ([0, 1, 1, 0, 0, 1, 1, 0, 1, 1, 1, 1, 1].zipIdx.map fun p =>
    .advance p.1 ⟨p.2, 200, [("Content-Type", "application/json")], [[91, 93]], []⟩)

end Gateway
