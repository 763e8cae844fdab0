import Webmeow.Frontend.UseBroadcast
import Webmeow.Lib.Interleaving
import Mathlib.Data.List.Nodup

/-!
# One connection per mounted hook

Every mount starts a chain of connections: one alive connection, or one timer that will replace it.
Nothing ends a chain, so the hook keeps to one connection exactly until its first unmount.
-/

namespace Frontend

open Runs

variable {ε : Type*} {s s' : Hook ε} {gatewayUrl : String}

/-- The chains of connections: alive or scheduled. -/
def Hook.chains (s : Hook ε) : ℕ := s.live + s.scheduled

/-- The instances are active, every connection and timer belongs to one of them, and the events in
the store have been broadcast. -/
structure Hook.Sound (s : Hook ε) : Prop where
  /-- No instance is ever made inactive. -/
  active : ∀ r ∈ s.instances, r.active = true
  /-- A source has an owner that was mounted. -/
  sources : ∀ es ∈ s.sources, es.owner < s.instances.length
  /-- A timer has an owner that was mounted. -/
  timers : ∀ t ∈ s.timers, t.owner < s.instances.length
  /-- What is ingested was broadcast. -/
  ingested : ∀ x ∈ s.ingested, x.1 < s.broadcasts

/-- Every mounted instance is active. -/
theorem Hook.Sound.isActive (h : s.Sound) {k : ℕ} (hk : k < s.instances.length) :
    s.isActive k = true := by
  rw [Hook.isActive, List.getElem?_eq_getElem hk, Option.map_some, Option.getD_some]
  exact h.active _ (List.getElem_mem hk)

/-- A change of the refs that keeps them active. -/
theorem mem_modify_active {l : List Refs} (hl : ∀ r ∈ l, r.active = true) {f : Refs → Refs}
    (hf : ∀ r, r.active = true → (f r).active = true) (k : ℕ) :
    ∀ r ∈ l.modify k f, r.active = true := by
  intro r hr
  obtain ⟨i, hi⟩ := List.mem_iff_getElem?.1 hr
  rw [List.getElem?_modify] at hi
  obtain ⟨r0, hr0, rfl⟩ := Option.map_eq_some_iff.1 hi
  have hactive := hl r0 (List.mem_of_getElem? hr0)
  split_ifs
  · exact hf r0 hactive
  · exact hactive

/-- Changing references keeps the hook sound. -/
theorem Hook.Sound.setRefs (h : s.Sound) (k : ℕ) {f : Refs → Refs}
    (hf : ∀ r, r.active = true → (f r).active = true) : (s.setRefs k f).Sound where
  active := mem_modify_active h.active hf k
  sources := by simpa [Hook.setRefs] using h.sources
  timers := by simpa [Hook.setRefs] using h.timers
  ingested := h.ingested

/-- `connect` of an instance that exists starts a connection. -/
theorem Hook.Sound.connect (h : s.Sound) {k : ℕ} (hk : k < s.instances.length) :
    (s.connect k).Sound ∧ (s.connect k).chains = s.chains + 1 ∧
      (s.connect k).mounted = s.mounted ∧ (s.connect k).ingested = s.ingested := by
  rw [Hook.connect, if_pos (h.isActive hk)]
  refine ⟨⟨?_, ?_, ?_, h.ingested⟩, ?_, rfl, rfl⟩
  · exact (h.setRefs k (f := fun r => { r with connection := some s.sources.length })
      fun _ hr => hr).active
  · simp only [List.length_modify]
    intro es hes
    rcases List.mem_append.1 hes with hes | hes
    · exact h.sources es hes
    · rw [List.mem_singleton.1 hes]
      exact hk
  · simpa using h.timers
  · simp only [Hook.chains, Hook.live, Hook.scheduled, List.countP_append]
    simp
    omega

/-- What is ingested has the number of the broadcast. -/
theorem mem_ingest {event : Option ε} {x : ℕ × ε} (hx : x ∈ s.ingest event) :
    x.1 = s.broadcasts := by
  cases event with
  | none => cases hx
  | some e =>
    obtain ⟨es, -, rfl⟩ := List.mem_map.1 hx
    rfl

theorem length_ingest_le (event : Option ε) : (s.ingest event).length ≤ s.live := by
  cases event with
  | none => exact Nat.zero_le _
  | some e =>
    simp only [Hook.ingest, List.length_map, Hook.live, ← List.countP_eq_length_filter]
    refine List.countP_mono_left fun es _ hes => ?_
    simp only [decide_eq_true_eq] at hes ⊢
    rw [hes]
    decide

/-! ## What a step can do -/

/-- A mount starts a chain if there is a gateway; all else keeps the number of chains. -/
inductive Hook.Change (gatewayUrl : String) (s : Hook ε) (e : HookEvent ε) (s' : Hook ε) : Prop
  /-- An instance is mounted, with a chain of its own. -/
  | mounted (h0 : s.mounted = false) (h1 : s'.mounted = true)
      (hchains : s'.chains = s.chains + if gatewayUrl = "" then 0 else 1)
      (hing : s'.ingested = s.ingested)
  /-- The instance is unmounted and its chain stays. -/
  | unmounted (he : e = .unmount) (h0 : s.mounted = true) (hs : s' = { s with mounted := false })
  /-- A chain goes from source to timer or back. -/
  | handled (hmounted : s'.mounted = s.mounted) (hchains : s'.chains = s.chains)
      (hing : s'.ingested = s.ingested)
  /-- A broadcast is handed to every live source. -/
  | delivered (event : Option ε) (hs : s' = { s with
      broadcasts := s.broadcasts + 1, ingested := s.ingested ++ s.ingest event })

/-- The effect adds one chain, if there is a gateway. -/
theorem effect_change (gatewayUrl : String) (h : s.Sound) {k : ℕ} (hk : k < s.instances.length) :
    (s.effect gatewayUrl k).Sound ∧
      (s.effect gatewayUrl k).chains = s.chains + (if gatewayUrl = "" then 0 else 1) ∧
      (s.effect gatewayUrl k).mounted = s.mounted ∧
      (s.effect gatewayUrl k).ingested = s.ingested := by
  unfold Hook.effect
  split_ifs with hurl
  · exact ⟨h, rfl, rfl, rfl⟩
  · have hset : (s.setRefs k fun r => { r with active := true }).Sound :=
      h.setRefs k fun _ _ => rfl
    have hk' : k < (s.setRefs k fun r => { r with active := true }).instances.length := by
      simpa [Hook.setRefs] using hk
    exact hset.connect hk'

/-- Changing a source keeps the hook sound. -/
theorem Hook.Sound.setSource (h : s.Sound) {i : ℕ} {es : EventSource} (es' : EventSource)
    (hi : s.sources[i]? = some es) (ho : es'.owner = es.owner) :
    Hook.Sound { s with sources := s.sources.set i es' } where
  active := h.active
  sources := by
    intro x hx
    rcases List.mem_or_eq_of_mem_set hx with hx | rfl
    · exact h.sources x hx
    · rw [ho]
      exact h.sources es (List.mem_of_getElem? hi)
  timers := h.timers
  ingested := h.ingested

/-- Changing a timer keeps the hook sound. -/
theorem Hook.Sound.setTimer (h : s.Sound) {j : ℕ} {t : Timer} (t' : Timer)
    (hj : s.timers[j]? = some t) (ho : t'.owner = t.owner) : Hook.Sound { s with timers := s.timers.set j t' } where
  active := h.active
  sources := h.sources
  timers := by
    intro x hx
    rcases List.mem_or_eq_of_mem_set hx with hx | rfl
    · exact h.timers x hx
    · rw [ho]
      exact h.timers t (List.mem_of_getElem? hj)
  ingested := h.ingested

/-- The chains after a source has changed. -/
theorem chains_setSource {i : ℕ} {es : EventSource} (es' : EventSource)
    (hi : s.sources[i]? = some es) :
    Hook.chains { s with sources := s.sources.set i es' } +
        (if es.readyState ≠ .closed then 1 else 0) =
      s.chains + if es'.readyState ≠ .closed then 1 else 0 := by
  have hcount := Interleaving.countP_set hi es' fun x => decide (x.readyState ≠ .closed)
  simp only [decide_eq_true_eq] at hcount
  simp only [Hook.chains, Hook.live, Hook.scheduled]
  omega

/-- The chains after a timer has changed. -/
theorem chains_setTimer {j : ℕ} {t : Timer} (t' : Timer) (hj : s.timers[j]? = some t) :
    Hook.chains { s with timers := s.timers.set j t' } + (if t.pending then 1 else 0) =
      s.chains + if t'.pending then 1 else 0 := by
  have hcount := Interleaving.countP_set hj t' Timer.pending
  simp only [Hook.chains, Hook.live, Hook.scheduled]
  omega

/-- `onerror` schedules the next connection of an instance that exists. -/
theorem Hook.Sound.onerror (h : s.Sound) {k : ℕ} (hk : k < s.instances.length) :
    (s.onerror k).Sound ∧ (s.onerror k).chains = s.chains + 1 ∧
      (s.onerror k).mounted = s.mounted ∧ (s.onerror k).ingested = s.ingested := by
  have h1 : (s.setRefs k fun r => { r with connection := none, status := .reconnecting }).Sound :=
    h.setRefs k fun _ hr => hr
  set s1 := s.setRefs k fun r => { r with connection := none, status := .reconnecting } with hs1
  have hk1 : k < s1.instances.length := by simpa [hs1, Hook.setRefs] using hk
  have hget : s1.instances[k]? = some s1.instances[k] := List.getElem?_eq_getElem hk1
  have hactive : s1.instances[k].active = true := h1.active _ (List.getElem_mem hk1)
  have h2 : (s1.setRefs k fun r =>
      { r with
        backoff := min (s1.instances[k].backoff * 2) BACKOFF_MAX_MS
        timer := some s1.timers.length }).Sound := h1.setRefs k fun _ hr => hr
  have hstep : s.onerror k =
      { s1.setRefs k fun r =>
          { r with
            backoff := min (s1.instances[k].backoff * 2) BACKOFF_MAX_MS
            timer := some s1.timers.length } with
        timers := s1.timers ++ [⟨k, s1.instances[k].backoff, true⟩] } := by
    simp only [Hook.onerror, ← hs1, hget, hactive]
    rfl
  rw [hstep]
  refine ⟨⟨h2.active, h2.sources, ?_, h.ingested⟩, ?_, rfl, rfl⟩
  · intro t ht
    rcases List.mem_append.1 ht with ht | ht
    · exact h2.timers t ht
    · rw [List.mem_singleton.1 ht]
      simpa [Hook.setRefs] using hk1
  · simp only [Hook.chains, Hook.live, Hook.scheduled, List.countP_append]
    rfl

/-- A new instance keeps the hook sound. -/
theorem Hook.Sound.newInstance (h : s.Sound) (gatewayUrl : String) :
    Hook.Sound { s with mounted := true, instances := s.instances ++ [newRefs gatewayUrl] } where
  active := by
    intro r hr
    rcases List.mem_append.1 hr with hr | hr
    · exact h.active r hr
    · rw [List.mem_singleton.1 hr]
      rfl
  sources := by
    intro es hes
    simpa using Nat.lt_succ_of_lt (h.sources es hes)
  timers := by
    intro t ht
    simpa using Nat.lt_succ_of_lt (h.timers t ht)
  ingested := h.ingested

/-- Every step is one of the four changes. -/
theorem step_change (h : s.Sound) {e : HookEvent ε} (hs : s.step gatewayUrl e = some s') :
    s'.Sound ∧ Hook.Change gatewayUrl s e s' := by
  cases e with
  | mount =>
    simp only [Hook.step] at hs
    split_ifs at hs with hm
    cases hs
    obtain ⟨h1, h2, h3, h4⟩ := effect_change gatewayUrl (h.newInstance gatewayUrl)
      (k := (s.instances ++ [newRefs gatewayUrl]).length - 1) (by simp)
    exact ⟨h1, .mounted (Bool.eq_false_iff.2 hm) h3 h2 h4⟩
  | remount =>
    simp only [Hook.step] at hs
    split_ifs at hs with hm
    cases hs
    have hlen : s.instances.length - 1 < s.instances.length :=
      Nat.sub_one_lt fun h0 => hm (Or.inr (List.length_eq_zero_iff.1 h0))
    obtain ⟨h1, h2, h3, h4⟩ := effect_change (s := { s with mounted := true })
      gatewayUrl ⟨h.active, h.sources, h.timers, h.ingested⟩ hlen
    exact ⟨h1, .mounted (Bool.eq_false_iff.2 fun hc => hm (Or.inl hc)) h3 h2 h4⟩
  | unmount =>
    simp only [Hook.step] at hs
    split_ifs at hs with hm
    cases hs
    exact ⟨⟨h.active, h.sources, h.timers, h.ingested⟩, .unmounted rfl hm rfl⟩
  | opened i =>
    simp only [Hook.step] at hs
    split at hs
    · rename_i k hi
      cases hs
      have hset := h.setSource ⟨k, .opened⟩ hi rfl
      have hchains : Hook.chains { s with sources := s.sources.set i ⟨k, .opened⟩ } = s.chains := by
        simpa using chains_setSource ⟨k, .opened⟩ hi
      exact ⟨hset.setRefs k fun _ hr => hr, .handled rfl hchains rfl⟩
    · cases hs
  | errored i =>
    simp only [Hook.step] at hs
    split at hs
    · cases hs
    · rename_i es hi
      split_ifs at hs with hclosed
      cases hs
      have hset := h.setSource { es with readyState := .closed } hi rfl
      have hchains := chains_setSource { es with readyState := .closed } hi
      obtain ⟨h1, h2, h3, h4⟩ := hset.onerror (h.sources es (List.mem_of_getElem? hi))
      refine ⟨h1, .handled h3 ?_ h4⟩
      rw [h2]
      simpa [hclosed] using hchains
  | timer j =>
    simp only [Hook.step] at hs
    split at hs
    · cases hs
    · rename_i t hj
      split_ifs at hs with hp
      cases hs
      have hset := h.setTimer { t with pending := false } hj rfl
      have hchains := chains_setTimer { t with pending := false } hj
      obtain ⟨h1, h2, h3, h4⟩ := hset.connect (h.timers t (List.mem_of_getElem? hj))
      refine ⟨h1, .handled h3 ?_ h4⟩
      rw [h2]
      simpa [hp] using hchains
  | broadcast event =>
    cases hs
    refine ⟨⟨h.active, h.sources, h.timers, fun x hx => ?_⟩, .delivered event rfl⟩
    rcases List.mem_append.1 hx with hx | hx
    · exact Nat.lt_succ_of_lt (h.ingested x hx)
    · rw [mem_ingest hx]
      exact Nat.lt_succ_self _

/-! ## The exact condition -/

/-- The invariant of every run: a mounted hook with a gateway has a chain, and without a gateway
there is none. -/
structure Hook.Running (gatewayUrl : String) (s : Hook ε) : Prop where
  /-- The hook is sound. -/
  sound : s.Sound
  /-- A mounted hook has a chain. -/
  alive : gatewayUrl ≠ "" → s.mounted = true → 0 < s.chains
  /-- Without a gateway there is no chain. -/
  idle : gatewayUrl = "" → s.chains = 0

theorem initial_running (gatewayUrl : String) : (Hook.initial : Hook ε).Running gatewayUrl where
  sound := ⟨nofun, nofun, nofun, nofun⟩
  alive := fun _ => nofun
  idle := fun _ => rfl

theorem Hook.Running.step (h : s.Running gatewayUrl) {e : HookEvent ε}
    (hs : s.step gatewayUrl e = some s') : s'.Running gatewayUrl := by
  obtain ⟨hsound, hchange⟩ := step_change h.sound hs
  cases hchange with
  | mounted h0 h1 hchains hing =>
    refine ⟨hsound, fun hurl _ => ?_, fun hurl => ?_⟩
    · rw [hchains, if_neg hurl]
      exact Nat.succ_pos _
    · rw [hchains, if_pos hurl]
      exact h.idle hurl
  | unmounted hu h0 hs' =>
    subst hs'
    exact ⟨hsound, fun _ => nofun, h.idle⟩
  | handled hmounted hchains hing =>
    refine ⟨hsound, fun hurl hm => ?_, fun hurl => ?_⟩
    · rw [hchains]
      exact h.alive hurl (hmounted ▸ hm)
    · rw [hchains]
      exact h.idle hurl
  | delivered event hs' =>
    subst hs'
    exact ⟨hsound, h.alive, h.idle⟩

/-- At most one chain, and none unless the hook is mounted. -/
structure Hook.OneChain (gatewayUrl : String) (s : Hook ε) : Prop extends s.Running gatewayUrl where
  /-- There is at most one chain. -/
  chains : s.chains ≤ 1
  /-- Unmounted, there is none. -/
  unmounted : s.mounted = false → s.chains = 0
  /-- No broadcast was ingested twice. -/
  once : (s.ingested.map Prod.fst).Nodup

/-- One chain is one connection. -/
theorem Hook.OneChain.oneConnection (h : s.OneChain gatewayUrl) : s.OneConnection where
  live := Nat.le_trans (Nat.le_add_right _ _) h.chains
  unmounted := fun hm => Nat.add_eq_zero_iff.1 (h.unmounted hm)
  once := h.once

theorem Hook.OneChain.step (h : s.OneChain gatewayUrl) {e : HookEvent ε}
    (he : gatewayUrl = "" ∨ e ≠ .unmount) (hs : s.step gatewayUrl e = some s') :
    s'.OneChain gatewayUrl := by
  have hrunning := h.toRunning.step hs
  obtain ⟨hsound, hchange⟩ := step_change h.sound hs
  cases hchange with
  | mounted h0 h1 hchains hing =>
    refine ⟨hrunning, ?_, fun hm => ?_, hing ▸ h.once⟩
    · rw [hchains, h.unmounted h0]
      split_ifs <;> decide
    · rw [h1] at hm
      cases hm
  | unmounted hu h0 hs' =>
    subst hs'
    exact ⟨hrunning, h.chains, fun _ => h.idle (he.resolve_right fun hne => hne hu), h.once⟩
  | handled hmounted hchains hing =>
    refine ⟨hrunning, ?_, fun hm => ?_, hing ▸ h.once⟩
    · rw [hchains]
      exact h.chains
    · rw [hchains]
      exact h.unmounted (hmounted ▸ hm)
  | delivered event hs' =>
    subst hs'
    refine ⟨hrunning, h.chains, h.unmounted, ?_⟩
    have hlen : (s.ingest event).length ≤ 1 :=
      Nat.le_trans (length_ingest_le event) h.oneConnection.live
    have hnew : ((s.ingest event).map Prod.fst).Nodup := by
      cases hi : s.ingest event with
      | nil => exact List.nodup_nil
      | cons x rest =>
        rw [hi, List.length_cons, Nat.succ_le_iff, Nat.lt_one_iff, List.length_eq_zero_iff] at hlen
        rw [hlen]
        exact List.nodup_singleton _
    rw [List.map_append, List.nodup_append]
    refine ⟨h.once, hnew, fun n hn m hm heq => ?_⟩
    obtain ⟨x, hx, rfl⟩ := List.mem_map.1 hn
    obtain ⟨y, hy, rfl⟩ := List.mem_map.1 hm
    -- the number of the broadcast is new
    have hlt := h.sound.ingested x hx
    rw [heq, mem_ingest hy] at hlt
    exact absurd hlt (Nat.lt_irrefl _)

/-- **One connection, exactly**: all states of a run keep to one connection, with none left while
the hook is not mounted and no event ingested twice, if and only if there is no gateway to connect
to or the run contains no unmount. -/
theorem oneConnection_iff (gatewayUrl : String) (es : List (HookEvent ε)) (s : Hook ε)
    (hr : run (Hook.step gatewayUrl) Hook.initial es = some s) :
    Always (Hook.step gatewayUrl) Hook.OneConnection Hook.initial es ↔
      gatewayUrl = "" ∨ HookEvent.unmount ∉ es := by
  have hlabels : Throughout (Hook.step gatewayUrl) (fun _ e => gatewayUrl = "" ∨ e ≠ .unmount)
      Hook.initial es ↔ gatewayUrl = "" ∨ HookEvent.unmount ∉ es := by
    rw [throughout_label_iff hr]
    constructor
    · intro h
      by_cases hurl : gatewayUrl = ""
      · exact Or.inl hurl
      · exact Or.inr fun hmem => ((h _ hmem).resolve_left hurl) rfl
    · rintro (hurl | hnot) e he
      · exact Or.inl hurl
      · exact Or.inr fun heq => hnot (heq ▸ he)
  rw [← hlabels]
  have hinit := initial_running (ε := ε) gatewayUrl
  constructor
  · refine throughout_of_always_steps (fun q e q' h hs => h.step hs) ?_ hinit hr
    intro q e q' h hq hs hq'
    by_contra hcon
    obtain ⟨hurl, he⟩ := not_or.1 hcon
    have he : e = .unmount := not_not.1 he
    subst he
    -- the chain of the mounted hook outlives the unmount
    simp only [Hook.step] at hs
    split_ifs at hs with hm
    cases hs
    have hpos := h.alive hurl hm
    obtain ⟨hlive, hscheduled⟩ := hq'.unmounted rfl
    exact absurd (Nat.add_eq_zero_iff.2 ⟨hlive, hscheduled⟩) (Nat.pos_iff_ne_zero.1 hpos)
  · intro h
    have hchain : Hook.OneChain gatewayUrl (Hook.initial : Hook ε) :=
      ⟨hinit, Nat.zero_le 1, fun _ => rfl, List.nodup_nil⟩
    exact (always_of_throughout (fun q e q' hq he hs => hq.step he hs) hchain h).imp
      fun q hq => hq.oneConnection

section Remount

/-- The hook is mounted and connected, left, and entered again. -/
def leaveAndReturn : List (HookEvent String) :=
  [.mount, .opened 0, .unmount, .mount, .opened 1, .broadcast (some "arrival")]

/-- After the unmount the connection is still open, and after the return two are, so the one event
is ingested twice. -/
theorem leaveAndReturn_twice :
    (∃ s, run (Hook.step "http://localhost:8080") Hook.initial (leaveAndReturn.take 3) = some s ∧
      s.mounted = false ∧ s.live = 1) ∧
    ∃ s, run (Hook.step "http://localhost:8080") Hook.initial leaveAndReturn = some s ∧
      s.live = 2 ∧ s.ingested = [(0, "arrival"), (0, "arrival")] ∧ ¬ s.OneConnection := by
  refine ⟨⟨_, rfl, rfl, by decide⟩, _, rfl, by decide, by decide, fun h => ?_⟩
  exact absurd h.live (by decide)

/-- A connection that is lost and made again while the hook stays mounted is the only one. -/
theorem reconnect_once :
    Always (Hook.step "http://localhost:8080") Hook.OneConnection Hook.initial
      [.mount, .opened 0, .errored 0, .timer 0, .opened 1, .broadcast (some "arrival")] :=
  (oneConnection_iff "http://localhost:8080" _ _ rfl).2 (Or.inr (by simp))

end Remount

end Frontend
