import Webmeow.Gateway.Proofs.StrangerProofs
import Webmeow.Gateway.Proofs.TransparencyProofs
import Webmeow.Lib.WaitFree

/-!
# Where the answers of the gateway come from

However the requests interleave, a proxied answer is what a backend has given to this very request, and a
hit is what a backend has given to a request with the same key of the cache, within the time to live. Only
requests with the key of the gateway have got to a backend. No request is ever stuck.
-/

namespace Gateway

open Interleaving Recency Runs Url

/-! ## Exchanges and entries -/

variable (cfg : Config) (sum256 : String → List UInt8)

/-- The request may be on the route of the service. -/
structure Request.Admitted (r : Request) (s : Service) : Prop where
  /-- The request has the secret. -/
  authorized : cfg.authorized r = true
  /-- The request is routed to the service. -/
  route : cfg.route r = .service s

/-- The entry holds what the exchange has left, stamped between the exchange and `now`. -/
structure CacheEntry.StoredFrom (now : ℤ) (e : CacheEntry) (x : Exchange) : Prop where
  /-- The entry is what was captured of the exchange. -/
  captured : cfg.captured x.request x.response = some { e with expires := 0 }
  /-- It expires no earlier than a lifetime after the exchange. -/
  later : x.now + cfg.cacheTTL ≤ e.expires
  /-- It expires no later than a lifetime from now. -/
  earlier : e.expires ≤ now + cfg.cacheTTL

/-- The entry comes from an exchange of the service under the key. -/
def GatewayStore.Holds (g : GatewayStore) (s : Service) (key : String) (now : ℤ) (e : CacheEntry) : Prop :=
  ∃ x ∈ g.exchanges, x.service = s ∧ cacheKey sum256 x.request = key ∧ e.StoredFrom cfg now x

/-- The backend has answered the request, at `now` at the latest. -/
def GatewayStore.Exchanged (g : GatewayStore) (s : Service) (i : ℕ) (r : Request) (b : BackendResponse)
    (now : ℤ) : Prop :=
  ∃ x ∈ g.exchanges, x.service = s ∧ x.backend = i ∧ x.request = r ∧ x.response = b ∧ x.now ≤ now

/-! ## The steps that are left -/

/-- The steps of the limiter at most. -/
@[simp]
def RequestPc.rank : RequestPc → ℕ
  | .readLimit => 5
  | .loadLimit => 4
  | .loadWindow _ => 3
  | .update _ _ => 2
  | .readWindow => 1
  | .passed => 0
  | .tooManyRequests _ => 0

/-- The steps left of an admin request. -/
@[simp]
def AdminPc.rank : AdminPc → ℕ
  | .loadLimit => 6
  | .loadWindow _ => 5
  | .storeLimit _ _ => 4
  | .storeWindow _ => 3
  | .readLimit => 2
  | .readWindow _ => 1
  | .done _ => 0

/-- The steps left of a request, at most. -/
@[simp]
def GatewayPc.rank : GatewayPc → ℕ
  | .limiting pc => 6 + pc.rank
  | .admin t => t.pc.rank
  | .lookup _ => 5
  | .pick _ => 4
  | .waiting _ _ => 3
  | .stamp _ _ _ _ => 2
  | .store _ _ _ _ _ => 1
  | .answered _ => 0

/-! ## The invariant -/

/-- Each cache is a recency list of entries that come from exchanges, and these are of admitted requests. -/
structure GatewayStore.Authentic (g : GatewayStore) : Prop where
  /-- The caches hold what was exchanged. -/
  caches : ∀ s, ∃ l, Represents cfg.cacheTTL cfg.cacheMaxEntries cfg.cacheMaxBodyBytes (g.caches s) l ∧
    ∀ i ∈ l, i.expires = i.value.expires ∧ g.Holds cfg sum256 s i.key g.now i.value
  /-- Only admitted requests were passed on. -/
  exchanges : ∀ x ∈ g.exchanges, x.request.Admitted cfg x.service

/-- What a request knows at its next access. -/
def GatewayStore.Knows (g : GatewayStore) (r : Request) : GatewayPc → Prop
  | .limiting pc => 0 < pc.rank
  | .admin t => t.body.isSome ∧ 0 < t.pc.rank
  | .lookup s => r.Admitted cfg s
  | .pick s => r.Admitted cfg s
  | .waiting s _ => r.Admitted cfg s
  | .stamp s i b e => r.Admitted cfg s ∧ cfg.captured r b = some e ∧ g.Exchanged s i r b g.now
  | .store s i b e expires => r.Admitted cfg s ∧ cfg.captured r b = some e ∧
      g.Exchanged s i r b (expires - cfg.cacheTTL) ∧ expires ≤ g.now + cfg.cacheTTL
  | .answered (.hit e now) =>
      now ≤ e.expires ∧ ∃ s, r.Admitted cfg s ∧ g.Holds cfg sum256 s (cacheKey sum256 r) now e
  | .answered (.proxied i b) => ∃ s, r.Admitted cfg s ∧ g.Exchanged s i r b g.now
  | _ => True

variable {cfg sum256} {g g' : GatewayStore} {r : GatewayRequest} {x : GatewayInput} {pc pc' : GatewayPc}

/-! ## Time passes and exchanges are added -/

/-- A store after another one. -/
structure GatewayStore.Later (g g' : GatewayStore) : Prop where
  /-- The clock has not gone back. -/
  now : g.now ≤ g'.now
  /-- No exchange is forgotten. -/
  exchanges : ∀ x ∈ g.exchanges, x ∈ g'.exchanges

theorem CacheEntry.StoredFrom.mono {now now' : ℤ} {e : CacheEntry} {x : Exchange}
    (h : e.StoredFrom cfg now x) (hnow : now ≤ now') : e.StoredFrom cfg now' x :=
  ⟨h.captured, h.later, by have := h.earlier; omega⟩

/-- What a cache entry was stored from is still recorded later. -/
theorem GatewayStore.Later.holds (h : g.Later g') {s : Service} {key : String} {now now' : ℤ}
    {e : CacheEntry} (hnow : now ≤ now') (he : g.Holds cfg sum256 s key now e) :
    g'.Holds cfg sum256 s key now' e := by
  obtain ⟨y, hy, hs, hkey, hstored⟩ := he
  exact ⟨y, h.exchanges y hy, hs, hkey, hstored.mono hnow⟩

/-- An exchange is still recorded later. -/
theorem GatewayStore.Later.exchanged (h : g.Later g') {s : Service} {i : ℕ} {r : Request}
    {b : BackendResponse} {now now' : ℤ} (hnow : now ≤ now') (he : g.Exchanged s i r b now) :
    g'.Exchanged s i r b now' := by
  obtain ⟨y, hy, hs, hi, hr, hb, hle⟩ := he
  exact ⟨y, h.exchanges y hy, hs, hi, hr, hb, le_trans hle hnow⟩

/-- What a request knows is still recorded later. -/
theorem GatewayStore.Later.knows (h : g.Later g') {r : Request} {pc : GatewayPc}
    (hk : g.Knows cfg sum256 r pc) : g'.Knows cfg sum256 r pc := by
  cases pc with
  | stamp s i b e => exact ⟨hk.1, hk.2.1, h.exchanged h.now hk.2.2⟩
  | store s i b e expires =>
    obtain ⟨hadm, hcap, hex, hle⟩ := hk
    have hnow := h.now
    exact ⟨hadm, hcap, h.exchanged (le_refl _) hex, by omega⟩
  | answered a =>
    cases a with
    | hit e now =>
      obtain ⟨hlive, s, hadm, hholds⟩ := hk
      exact ⟨hlive, s, hadm, h.holds (le_refl _) hholds⟩
    | proxied i b =>
      obtain ⟨s, hadm, hex⟩ := hk
      exact ⟨s, hadm, h.exchanged h.now hex⟩
    | _ => trivial
  | _ => exact hk

/-- The clock alone moves. -/
theorem GatewayStore.Authentic.at (h : g.Authentic cfg sum256) {now : ℤ} (hnow : g.now ≤ now) :
    GatewayStore.Authentic cfg sum256 { g with now := now } where
  caches := by
    intro s
    obtain ⟨l, hrep, hl⟩ := h.caches s
    refine ⟨l, hrep, fun i hi => ⟨(hl i hi).1, ?_⟩⟩
    have hlater : g.Later { g with now := now } := ⟨hnow, fun _ hy => hy⟩
    exact hlater.holds hnow (hl i hi).2
  exchanges := h.exchanges

/-! ## What the capture keeps -/

/-- What is captured is a response with status 200 and its whole body. -/
theorem captured_spec {r : Request} {b : BackendResponse} {e : CacheEntry}
    (h : cfg.captured r b = some e) :
    b.status = 200 ∧ e.status = 200 ∧ e.body = b.chunks.flatten ∧ e.expires = 0 := by
  unfold Config.captured at h
  split_ifs at h
  have hstatus := entry_status h
  have hsent : (cfg.corsWriter r).sent = none := by
    unfold Config.corsWriter
    split_ifs <;> rfl
  rw [serve_calls _ hsent b hstatus] at h
  rw [CacheCapture.entry, Option.ite_none_right_eq_some] at h
  obtain ⟨⟨hcacheable, -⟩, h⟩ := h
  obtain rfl := Option.some.inj h
  exact ⟨hstatus, rfl, if_pos hcacheable, rfl⟩

/-! ## One access -/

/-- **The lookup**: what is left of the list has been there before, and a hit is an entry that lives. -/
theorem lookup_spec (h : g.Authentic cfg sum256) (s : Service) (key : String) :
    (∃ l, Represents cfg.cacheTTL cfg.cacheMaxEntries cfg.cacheMaxBodyBytes
        ((g.caches s).get key g.now).1 l ∧
      ∀ i ∈ l, i.expires = i.value.expires ∧ g.Holds cfg sum256 s i.key g.now i.value) ∧
    ∀ e, ((g.caches s).get key g.now).2 = some e →
      g.now ≤ e.expires ∧ g.Holds cfg sum256 s key g.now e := by
  obtain ⟨l, ⟨hlinked, rfl, hlength, httl, hmax, hbody⟩, hl⟩ := h.caches s
  obtain ⟨hlinked', hget, hshort⟩ := get_simulates hlinked key g.now
  obtain ⟨httl', hmax', hbody'⟩ := get_config (g.caches s) key g.now
  refine ⟨⟨_, ⟨hlinked', rfl, le_trans hshort hlength, httl'.trans httl, hmax'.trans hmax,
    hbody'.trans hbody⟩, ?_⟩, ?_⟩
  · intro i hi
    have hmem : i ∈ (Recency.get (g.caches s).contents key g.now).1 := by
      rw [hget]
      exact hi
    exact hl i (mem_of_mem_get hmem)
  · intro e he
    have hhit : (Recency.get (g.caches s).contents key g.now).2 = some e := by
      rw [hget]
      exact he
    obtain ⟨i, hi, rfl, rfl, hlive⟩ := Recency.get_eq_some hhit
    obtain ⟨hexpires, hholds⟩ := hl i hi
    exact ⟨hexpires ▸ hlive, hholds⟩

/-- **The store**: it is done in the end, and adds at most the entry. -/
theorem put_spec (h : g.Authentic cfg sum256) (s : Service) (key : String) {e : CacheEntry}
    {expires : ℤ} (he : g.Holds cfg sum256 s key g.now { e with expires := expires }) :
    ∃ c, (g.caches s).put key e expires = some c ∧
      ∃ l, Represents cfg.cacheTTL cfg.cacheMaxEntries cfg.cacheMaxBodyBytes c l ∧
        ∀ i ∈ l, i.expires = i.value.expires ∧ g.Holds cfg sum256 s i.key g.now i.value := by
  obtain ⟨l, ⟨hlinked, rfl, hlength, httl, hmax, hbody⟩, hl⟩ := h.caches s
  unfold ResponseCache.put
  by_cases hacc : accepts (g.caches s).maxEntries (g.caches s).maxBodyBytes e = true
  · have hlength' : (g.caches s).contents.length ≤ (g.caches s).maxEntries.toNat := hmax ▸ hlength
    obtain ⟨c, hc, hlinked', hcontents, httl', hmax', hbody'⟩ :=
      set_simulates key (expires - (g.caches s).ttl) hlinked hacc hlength'
    have hstamp : expires - (g.caches s).ttl + (g.caches s).ttl = expires := by omega
    rw [hstamp] at hcontents
    refine ⟨c, hc, c.contents, ⟨hlinked', rfl, ?_, httl'.trans httl, hmax'.trans hmax,
      hbody'.trans hbody⟩, ?_⟩
    · rw [hcontents, ← hmax]
      exact List.length_take_le _ _
    · intro i hi
      rw [hcontents] at hi
      rcases eq_or_mem_of_mem_put hi with rfl | hi
      · exact ⟨rfl, he⟩
      · exact hl i hi
  · have hrejected := set_rejected key (expires - (g.caches s).ttl) (Bool.eq_false_of_not_eq_true hacc)
    exact ⟨_, hrejected, _, ⟨hlinked, rfl, hlength, httl, hmax, hbody⟩, hl⟩

/-- What the request is about to store comes from its own exchange. -/
theorem GatewayStore.Knows.holds {s : Service} {i : ℕ} {b : BackendResponse} {e : CacheEntry}
    {expires : ℤ} (hk : g.Knows cfg sum256 r.request (.store s i b e expires)) :
    g.Holds cfg sum256 s (cacheKey sum256 r.request) g.now { e with expires := expires } := by
  obtain ⟨-, hcaptured, ⟨y, hy, hservice, -, hrequest, hresponse, hbefore⟩, hle⟩ := hk
  have hzero := (captured_spec hcaptured).2.2.2
  refine ⟨y, hy, hservice, by rw [hrequest], ?_, ?_, hle⟩
  · rw [hrequest, hresponse, hcaptured, ← hzero]
  · show y.now + cfg.cacheTTL ≤ expires
    omega

/-! ## One step -/

/-- A change outside the caches and the exchanges. -/
theorem GatewayStore.Authentic.same (h : g.Authentic cfg sum256) (g' : GatewayStore)
    (hnow : g'.now = g.now) (hcaches : g'.caches = g.caches) (hexchanges : g'.exchanges = g.exchanges) :
    g'.Authentic cfg sum256 ∧ g.Later g' := by
  have hlater : g.Later g' := ⟨hnow.ge, fun y hy => hexchanges ▸ hy⟩
  refine ⟨⟨fun s => ?_, hexchanges ▸ h.exchanges⟩, hlater⟩
  obtain ⟨l, hrep, hl⟩ := h.caches s
  exact ⟨l, hcaches ▸ hrep, fun i hi => ⟨(hl i hi).1, hlater.holds hlater.now (hl i hi).2⟩⟩

/-- A cache changes to one that holds what comes from exchanges. -/
theorem GatewayStore.Authentic.cache (h : g.Authentic cfg sum256) (s : Service) {c : ResponseCache}
    (hc : ∃ l, Represents cfg.cacheTTL cfg.cacheMaxEntries cfg.cacheMaxBodyBytes c l ∧
      ∀ i ∈ l, i.expires = i.value.expires ∧ g.Holds cfg sum256 s i.key g.now i.value) :
    GatewayStore.Authentic cfg sum256 { g with caches := Function.update g.caches s c } ∧
      g.Later { g with caches := Function.update g.caches s c } := by
  refine ⟨⟨fun s' => ?_, h.exchanges⟩, le_refl _, fun _ hy => hy⟩
  by_cases hs : s' = s
  · subst hs
    show ∃ l, Represents _ _ _ (Function.update g.caches s' c s') l ∧ _
    rw [Function.update_self]
    exact hc
  · show ∃ l, Represents _ _ _ (Function.update g.caches s c s') l ∧ _
    rw [Function.update_of_ne hs]
    exact h.caches s'

theorem adminNext_knows {t : AdminThread} (ht : t.body.isSome ∨ t.pc.rank = 0) :
    g.Knows cfg sum256 r.request (adminNext t) := by
  unfold adminNext
  split
  · trivial
  · rename_i hopen
    have hpos : 0 < t.pc.rank := by
      cases hpc : t.pc with
      | done response => exact absurd hpc (hopen response)
      | _ => exact Nat.succ_pos _
    rcases ht with ht | ht
    · exact ⟨ht, hpos⟩
    · omega

theorem adminStart_open (body : Option RateLimitUpdate) :
    (adminStart body).body.isSome ∨ (adminStart body).pc.rank = 0 := by
  cases body with
  | none => exact Or.inr rfl
  | some body => exact Or.inl rfl

/-- A request that was routed knows nothing yet. -/
theorem dispatch_knows (g : GatewayStore) (r : GatewayRequest) :
    g.Knows cfg sum256 r.request (cfg.dispatch r) := by
  unfold Config.dispatch
  split
  · trivial
  · trivial
  · trivial
  · split_ifs
    · exact adminNext_knows (adminStart_open r.body)
    · trivial
  · rename_i s hroute
    split_ifs with hauthorized
    · exact ⟨hauthorized, hroute⟩
    · exact ⟨hauthorized, hroute⟩
    · trivial

/-- **One access**: it keeps the invariant, time and exchanges only grow, and the request knows what its
next access needs. -/
theorem gatewayPcStep_spec (parseDuration : String → Option ℤ) (h : g.Authentic cfg sum256)
    (hk : g.Knows cfg sum256 r.request pc) (hx : x.now = g.now)
    (hs : gatewayPcStep cfg sum256 parseDuration g r x pc = some (g', pc')) :
    g'.Authentic cfg sum256 ∧ g.Later g' ∧ g'.Knows cfg sum256 r.request pc' := by
  obtain ⟨now, b⟩ := x
  obtain rfl : now = g.now := hx
  cases pc with
  | limiting pc₀ =>
    obtain ⟨⟨rl, pc₁⟩, -, hq⟩ := Option.map_eq_some_iff.1 hs
    cases hq
    obtain ⟨hauthentic, hlater⟩ := h.same { g with limiter := rl } rfl rfl rfl
    refine ⟨hauthentic, hlater, ?_⟩
    cases pc₁ with
    | passed => exact dispatch_knows _ r
    | tooManyRequests retryAfter => trivial
    | _ => exact Nat.succ_pos _
  | admin t =>
    obtain ⟨⟨rl, t'⟩, hact, hq⟩ := Option.map_eq_some_iff.1 hs
    cases hq
    obtain ⟨hauthentic, hlater⟩ := h.same { g with limiter := rl } rfl rfl rfl
    obtain ⟨body, hbody, hstep⟩ := Option.bind_eq_some_iff.1 hact
    obtain ⟨⟨rl', pc₁⟩, -, ht'⟩ := Option.map_eq_some_iff.1 hstep
    cases ht'
    exact ⟨hauthentic, hlater, adminNext_knows (Or.inl (Option.isSome_iff_exists.2 ⟨body, hbody⟩))⟩
  | lookup s =>
    obtain ⟨hrest, hhit⟩ := lookup_spec h s (cacheKey sum256 r.request)
    obtain ⟨hauthentic, hlater⟩ := h.cache s hrest
    simp only [gatewayPcStep] at hs
    cases hfound : ((g.caches s).get (cacheKey sum256 r.request) g.now).2 with
    | some e =>
      rw [hfound] at hs
      cases hs
      obtain ⟨hlive, hholds⟩ := hhit e hfound
      exact ⟨hauthentic, hlater, hlive, s, hk, hlater.holds (le_refl _) hholds⟩
    | none =>
      rw [hfound] at hs
      cases hs
      exact ⟨hauthentic, hlater, hk⟩
  | pick s =>
    cases hs
    obtain ⟨hauthentic, hlater⟩ := h.same
      { g with pools := Function.update g.pools s ((g.pools s).choose).1 } rfl rfl rfl
    refine ⟨hauthentic, hlater, ?_⟩
    cases ((g.pools s).choose).2 with
    | some i => exact hk
    | none => trivial
  | waiting s i =>
    cases hs
    have hlater : g.Later { g with exchanges := g.exchanges ++ [⟨s, i, r.request, b, g.now⟩] } :=
      ⟨le_refl _, fun y hy => List.mem_append_left _ hy⟩
    have hexchanged : GatewayStore.Exchanged
        { g with exchanges := g.exchanges ++ [⟨s, i, r.request, b, g.now⟩] } s i r.request b g.now :=
      ⟨_, List.mem_append_right _ (List.mem_singleton_self _), rfl, rfl, rfl, rfl, le_refl _⟩
    refine ⟨⟨fun s' => ?_, fun y hy => ?_⟩, hlater, ?_⟩
    · obtain ⟨l, hrep, hl⟩ := h.caches s'
      exact ⟨l, hrep, fun j hj => ⟨(hl j hj).1, hlater.holds (le_refl _) (hl j hj).2⟩⟩
    · rcases List.mem_append.1 hy with hy | hy
      · exact h.exchanges y hy
      · rw [List.mem_singleton.1 hy]
        exact hk
    · dsimp only
      cases hcaptured : cfg.captured r.request b with
      | some e => exact ⟨hk, hcaptured, hexchanged⟩
      | none => exact ⟨s, hk, hexchanged⟩
  | stamp s i b e =>
    cases hs
    obtain ⟨hadm, hcaptured, hexchanged⟩ := hk
    obtain ⟨l, hrep, -⟩ := h.caches s
    refine ⟨h, ⟨le_refl _, fun _ hy => hy⟩, hadm, hcaptured, ?_, ?_⟩
    · rw [hrep.ttl]
      have hstamp : g.now + cfg.cacheTTL - cfg.cacheTTL = g.now := by omega
      rw [hstamp]
      exact hexchanged
    · rw [hrep.ttl]
  | store s i b e expires =>
    obtain ⟨c, hc, hrest⟩ := put_spec h s (cacheKey sum256 r.request) hk.holds
    obtain ⟨hadm, hcaptured, hexchanged, hle⟩ := hk
    simp only [gatewayPcStep, hc, Option.map_some, Option.some.injEq, Prod.mk.injEq] at hs
    obtain ⟨rfl, rfl⟩ := hs
    obtain ⟨hauthentic, hlater⟩ := h.cache s hrest
    refine ⟨hauthentic, hlater, s, hadm, hlater.exchanged ?_ hexchanged⟩
    show expires - cfg.cacheTTL ≤ g.now
    omega
  | answered a => cases hs

/-! ## No step is missing, and each is one less -/

theorem requestPcStep_rank {rl rl' : RateLimiter} {key : String} {now : ℤ} {pc pc' : RequestPc}
    (hs : requestPcStep rl key now pc = some (rl', pc')) : pc'.rank < pc.rank := by
  cases pc with
  | readLimit =>
    cases hs
    split_ifs <;> simp
  | loadLimit => cases hs; simp
  | loadWindow limit => cases hs; simp
  | update limit per =>
    cases hs
    split_ifs <;> simp
  | readWindow => cases hs; simp
  | passed => cases hs
  | tooManyRequests retryAfter => cases hs

theorem adminPcStep_rank {parseDuration : String → Option ℤ} {rl rl' : RateLimiter}
    {body : RateLimitUpdate} {pc pc' : AdminPc}
    (hs : adminPcStep parseDuration rl body pc = some (rl', pc')) : pc'.rank < pc.rank := by
  cases pc with
  | loadLimit => cases hs; simp
  | loadWindow limit =>
    cases hs
    unfold resolveWindow
    split
    · simp
    · split <;> simp
  | storeLimit limit per =>
    cases hs
    split_ifs <;> simp
  | storeWindow per => cases hs; simp
  | readLimit => cases hs; simp
  | readWindow limit => cases hs; simp
  | done response => cases hs

theorem adminNext_rank (t : AdminThread) : (adminNext t).rank ≤ t.pc.rank := by
  unfold adminNext
  split
  · exact Nat.zero_le _
  · exact le_refl _

theorem dispatch_rank (cfg : Config) (r : GatewayRequest) : (cfg.dispatch r).rank ≤ 6 := by
  unfold Config.dispatch
  split
  · exact Nat.zero_le _
  · exact Nat.zero_le _
  · exact Nat.zero_le _
  · split_ifs
    · refine le_trans (adminNext_rank _) ?_
      cases r.body with
      | none => exact Nat.zero_le _
      | some body => exact le_refl _
    · exact Nat.zero_le _
  · split_ifs <;> simp

theorem gatewayAct_rank {parseDuration : String → Option ℤ} {t t' : GatewayThread}
    (hs : gatewayAct cfg sum256 parseDuration g t x = some (g', t')) : t'.pc.rank < t.pc.rank := by
  obtain ⟨r, pc⟩ := t
  rw [gatewayAct, Option.ite_none_left_eq_some] at hs
  obtain ⟨-, hs⟩ := hs
  obtain ⟨⟨g₁, pc₁⟩, hstep, hq⟩ := Option.map_eq_some_iff.1 hs
  cases hq
  show pc₁.rank < pc.rank
  cases pc with
  | limiting pc₀ =>
    obtain ⟨⟨rl, pc₂⟩, hlimiter, hq⟩ := Option.map_eq_some_iff.1 hstep
    cases hq
    have hless := requestPcStep_rank hlimiter
    show (cfg.limited r pc₂).rank < 6 + pc₀.rank
    cases pc₂ with
    | passed =>
      have hroute := dispatch_rank cfg r
      show (cfg.dispatch r).rank < 6 + pc₀.rank
      omega
    | tooManyRequests retryAfter =>
      show 0 < 6 + pc₀.rank
      omega
    | _ => exact Nat.add_lt_add_left hless 6
  | admin t =>
    obtain ⟨⟨rl, t'⟩, hact, hq⟩ := Option.map_eq_some_iff.1 hstep
    cases hq
    obtain ⟨body, -, hpc⟩ := Option.bind_eq_some_iff.1 hact
    obtain ⟨⟨rl', pc₂⟩, hadmin, ht'⟩ := Option.map_eq_some_iff.1 hpc
    cases ht'
    exact lt_of_le_of_lt (adminNext_rank _) (adminPcStep_rank hadmin)
  | lookup s =>
    simp only [gatewayPcStep] at hstep
    split at hstep <;> cases hstep <;> simp
  | pick s =>
    cases hstep
    split <;> simp
  | waiting s i =>
    cases hstep
    split <;> simp
  | stamp s i b e =>
    cases hstep
    simp
  | store s i b e expires =>
    obtain ⟨c, -, hq⟩ := Option.map_eq_some_iff.1 hstep
    cases hq
    simp
  | answered a => cases hstep

/-- A request that is not answered can go on, whatever the backend answers: the cache gets through. -/
theorem gatewayPcStep_enabled (parseDuration : String → Option ℤ) (h : g.Authentic cfg sum256)
    (hk : g.Knows cfg sum256 r.request pc) (hx : x.now = g.now) (hopen : ∀ a, pc ≠ .answered a) :
    (gatewayPcStep cfg sum256 parseDuration g r x pc).isSome := by
  obtain ⟨now, b⟩ := x
  obtain rfl : now = g.now := hx
  cases pc with
  | limiting pc₀ =>
    cases pc₀ with
    | passed => exact absurd hk (lt_irrefl 0)
    | tooManyRequests retryAfter => exact absurd hk (lt_irrefl 0)
    | _ => rfl
  | admin t =>
    obtain ⟨body, pc₀⟩ := t
    obtain ⟨hbody, hpos⟩ := hk
    obtain ⟨body, rfl⟩ := Option.isSome_iff_exists.1 hbody
    cases pc₀ with
    | done response => exact absurd hpos (lt_irrefl 0)
    | _ => rfl
  | lookup s =>
    simp only [gatewayPcStep]
    split <;> rfl
  | pick s => rfl
  | waiting s i => rfl
  | stamp s i b e => rfl
  | store s i b e expires =>
    obtain ⟨c, hc, -⟩ := put_spec h s (cacheKey sum256 r.request) hk.holds
    simp only [gatewayPcStep, hc, Option.map_some, Option.isSome_some]
  | answered a => exact absurd rfl (hopen a)

/-! ## Runs -/

/-- The invariant of the gateway with all its requests. -/
def GatewaySystem.Inv (cfg : Config) (sum256 : String → List UInt8) (p : GatewaySystem) : Prop :=
  p.store.Authentic cfg sum256 ∧
    ∀ t : GatewayThread, t ∈ p.threads → p.store.Knows cfg sum256 t.request.request t.pc

theorem gatewayStart_knows (r : GatewayRequest) :
    g.Knows cfg sum256 (gatewayStart r).request.request (gatewayStart r).pc := by
  unfold gatewayStart
  split_ifs
  · trivial
  · exact Nat.succ_pos _

/-- **Each event** keeps the invariant. -/
theorem gatewayStep_inv {parseDuration : String → Option ℤ} {p p' : GatewaySystem}
    {e : Event GatewayRequest GatewayInput} (h : p.Inv cfg sum256)
    (hs : gatewayStep cfg sum256 parseDuration p e = some p') : p'.Inv cfg sum256 := by
  refine Pool.invariant_step (P := GatewayStore.Authentic cfg sum256)
    (Q := fun g (t : GatewayThread) => g.Knows cfg sum256 t.request.request t.pc)
    (fun g r _ => gatewayStart_knows r) ?_ p e p' h hs
  intro g t x g' t' hg hk hact
  rw [gatewayAct, Option.ite_none_left_eq_some] at hact
  obtain ⟨hnow, hact⟩ := hact
  obtain ⟨⟨g₁, pc₁⟩, hstep, hq⟩ := Option.map_eq_some_iff.1 hact
  cases hq
  have hle : g.now ≤ x.now := not_lt.1 hnow
  have hat : g.Later { g with now := x.now } := ⟨hle, fun _ hy => hy⟩
  obtain ⟨hauthentic, hlater, hknows⟩ :=
    gatewayPcStep_spec parseDuration (hg.at hle) (hat.knows hk) rfl hstep
  exact ⟨hauthentic, hknows, fun u hu => hlater.knows (hat.knows hu)⟩

/-- The invariant holds at the start. -/
theorem start_inv (cfg : Config) (sum256 : String → List UInt8) (parseURL : String → ByteURL) (now : ℤ) :
    GatewaySystem.Inv cfg sum256 ⟨cfg.start parseURL now, []⟩ :=
  ⟨⟨fun _ => ⟨[], newResponseCache_represents, fun _ hi => absurd hi List.not_mem_nil⟩,
    fun _ hx => absurd hx List.not_mem_nil⟩, fun _ ht => absurd ht List.not_mem_nil⟩

/-- The invariant holds in every run. -/
theorem gatewayRun_inv {parseDuration : String → Option ℤ} {parseURL : String → ByteURL} {now : ℤ}
    {es : List (Event GatewayRequest GatewayInput)} {p : GatewaySystem}
    (hrun : run (gatewayStep cfg sum256 parseDuration) ⟨cfg.start parseURL now, []⟩ es = some p) :
    p.Inv cfg sum256 :=
  (always_of_invariant (fun _ _ _ h hs => gatewayStep_inv h hs)
    (start_inv cfg sum256 parseURL now)).last hrun

/-- The tower asks twice for the chairs, once the limit of one request is over. -/
def towerRun : List (Event GatewayRequest GatewayInput) :=
  let tower := beachRequest "10.0.0.7:40000" (Header.empty.set "X-Internal-Key" "meow")
  let chairs (now : ℤ) : GatewayInput :=
    ⟨now, 200, [("Content-Type", "application/json")], [[91], [93]], []⟩
  .request tower :: (List.replicate 9 (.advance 0 (chairs 58)) ++
    .request tower :: List.replicate 5 (.advance 1 (chairs 62)))

/-- The entry of a hit and its time. -/
def GatewaySystem.hit (p : GatewaySystem) (i : ℕ) : Option (CacheEntry × ℤ) :=
  match p.threads[i]? with
  | some ⟨_, .answered (.hit e now)⟩ => some (e, now)
  | _ => none

end Gateway
