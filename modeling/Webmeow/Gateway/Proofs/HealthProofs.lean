import Mathlib.Data.List.Nodup
import Webmeow.Gateway.Health
import Webmeow.Lib.WaitFree

/-!
# What the health check reports

The goroutines write to one map and count down one wait group, in any order. The invariant says which
results the map has and that the handler answers after all of them.
-/

namespace Gateway

open Interleaving Runs

/-! ## The configuration -/

theorem splitList_ne_empty {val entry : String} (h : entry ∈ splitList val) : entry ≠ "" := by
  unfold splitList at h
  simpa using (List.mem_filter.1 h).2

variable (parseDuration : String → Option ℤ) (env : Environment)

/-- The URL that is checked is the first one of the pool. -/
theorem serviceURL_eq (s : Service) : (loadConfig parseDuration env).serviceURL s =
    firstURL ((loadConfig parseDuration env).servicePool s) := rfl

theorem mem_checked_iff (s : Service) : s ∈ (loadConfig parseDuration env).checked ↔
    ∃ url rest, (loadConfig parseDuration env).servicePool s = url :: rest := by
  have hservice : s ∈ services := by cases s <;> decide
  unfold Config.checked
  rw [List.mem_filter, decide_eq_true_eq, serviceURL_eq]
  constructor
  · rintro ⟨-, hurl⟩
    cases hpool : (loadConfig parseDuration env).servicePool s with
    | nil =>
      rw [hpool] at hurl
      exact absurd rfl hurl
    | cons url rest => exact ⟨url, rest, rfl⟩
  · rintro ⟨url, rest, hpool⟩
    refine ⟨hservice, ?_⟩
    rw [hpool]
    have hmem : url ∈ (loadConfig parseDuration env).servicePool s := by
      rw [hpool]
      exact List.mem_cons_self
    exact splitList_ne_empty hmem

/-- The services that are checked are those with a route. -/
theorem routed_iff_mem_checked (s : Service) :
    (loadConfig parseDuration env).routed s = true ↔ s ∈ (loadConfig parseDuration env).checked := by
  rw [mem_checked_iff, Config.routed]
  cases (loadConfig parseDuration env).servicePool s with
  | nil => simp
  | cons url rest => simp

theorem checked_nodup (cfg : Config) : cfg.checked.Nodup := List.Nodup.filter _ (by decide)

theorem Service.name_inj {s s' : Service} (h : s.name = s'.name) : s = s' := by
  cases s <;> cases s' <;> first | rfl | exact absurd h (by decide)

/-! ## The threads -/

/-- What a goroutine checks. -/
def HealthThread.target : HealthThread → Option (Service × String)
  | .check s url _ => some (s, url)
  | .handler _ => none

/-- What a goroutine has written. -/
def HealthThread.written : HealthThread → Option (String × ServiceHealth)
  | .check s _ (.release response latency) => some (s.name, serviceHealth response latency)
  | .check s _ (.finished response latency) => some (s.name, serviceHealth response latency)
  | _ => none

/-- The wait group still counts the goroutine. -/
def HealthThread.counted : HealthThread → Bool
  | .check _ _ (.finished _ _) => false
  | .check _ _ _ => true
  | .handler _ => false

/-- What holds of a health request at every moment. -/
structure HealthSystem.Inv (cfg : Config) (p : HealthSystem) : Prop where
  /-- The threads are the checks and the handler. -/
  targets : p.threads.map HealthThread.target =
    cfg.checked.map (fun s => some (s, cfg.serviceURL s)) ++ [none]
  /-- The counter counts the checks not released. -/
  pending : p.store.pending = p.threads.countP HealthThread.counted
  /-- What a check has written is in the map. -/
  written : ∀ t : HealthThread, t ∈ p.threads → ∀ n h, t.written = some (n, h) →
    p.store.results.lookup n = some h
  /-- What is in the map was written by a check. -/
  results : ∀ n ∈ p.store.results, ∃ t : HealthThread, t ∈ p.threads ∧ ∃ h, t.written = some (n, h)
  /-- The answer comes after all checks, with what they wrote. -/
  answer : ∀ response, .handler (some response) ∈ p.threads →
    p.store.pending = 0 ∧ response = healthResponse p.store.results

/-- The invariant holds at the start. -/
theorem healthStart_inv (cfg : Config) : cfg.healthStart.Inv cfg := by
  have hfresh : ∀ t ∈ cfg.healthStart.threads, t.written = none ∧ ∀ response, t ≠ .handler (some response) := by
    intro t ht
    rcases List.mem_append.1 ht with ht | ht
    · obtain ⟨s, -, rfl⟩ := List.mem_map.1 ht
      exact ⟨rfl, nofun⟩
    · rw [List.mem_singleton.1 ht]
      exact ⟨rfl, nofun⟩
  constructor
  · simp [Config.healthStart, Function.comp_def, HealthThread.target]
  · simp [Config.healthStart, List.countP_append, List.countP_map, Function.comp_def,
      HealthThread.counted]
  · intro t ht n h hwritten
    rw [(hfresh t ht).1] at hwritten
    cases hwritten
  · intro n hn
    exact absurd hn (AList.notMem_empty n)
  · intro response hresponse
    exact absurd rfl ((hfresh _ hresponse).2 response)

/-! ## One step -/

section Step

variable {cfg : Config} {durationString : ℤ → String} {p : HealthSystem} {st' : HealthStore}
  {t t' : HealthThread} {x : HealthInput} {i : ℕ}

/-- **What a step does**: a goroutine goes on, writes under the lock, or is counted off, or the handler
answers. -/
theorem healthAct_cases {st : HealthStore} (hs : healthAct durationString st t x = some (st', t')) :
    (∃ s url pc pc', t = .check s url pc ∧ t' = .check s url pc' ∧ t.written = none ∧
      t'.written = none ∧ t.counted = true ∧ t'.counted = true ∧ st' = st) ∨
    (∃ s url response latency, t = .check s url (.write response latency) ∧
      t' = .check s url (.release response latency) ∧
      st' = { st with results := st.results.insert s.name (serviceHealth response latency) }) ∨
    (∃ s url response latency, t = .check s url (.release response latency) ∧
      t' = .check s url (.finished response latency) ∧ st' = { st with pending := st.pending - 1 }) ∨
    (t = .handler none ∧ st.pending = 0 ∧ t' = .handler (some (healthResponse st.results)) ∧ st' = st) := by
  cases t with
  | check s url pc =>
    cases pc with
    | start =>
      cases hs
      exact Or.inl ⟨s, url, _, _, rfl, rfl, rfl, rfl, rfl, rfl, rfl⟩
    | asking start =>
      cases hs
      exact Or.inl ⟨s, url, _, _, rfl, rfl, rfl, rfl, rfl, rfl, rfl⟩
    | write response latency =>
      cases hs
      exact Or.inr (Or.inl ⟨s, url, response, latency, rfl, rfl, rfl⟩)
    | release response latency =>
      cases hs
      exact Or.inr (Or.inr (Or.inl ⟨s, url, response, latency, rfl, rfl, rfl⟩))
    | finished response latency => cases hs
  | handler response =>
    cases response with
    | none =>
      rw [healthAct, Option.ite_none_right_eq_some] at hs
      obtain ⟨hpending, hs⟩ := hs
      cases hs
      exact Or.inr (Or.inr (Or.inr ⟨rfl, hpending, rfl, rfl⟩))
    | some response => cases hs

/-- Another goroutine checks another service. -/
theorem HealthSystem.Inv.other (h : p.Inv cfg) {j : ℕ} {s s' : Service} {url url' : String}
    {pc pc' : CheckPc} (hi : p.threads[i]? = some (.check s url pc))
    (hj : p.threads[j]? = some (.check s' url' pc')) (hij : i ≠ j) : s ≠ s' := by
  rintro rfl
  have htargets : (p.threads.map HealthThread.target).Nodup := by
    rw [h.targets]
    refine List.nodup_append.2 ⟨?_, List.nodup_singleton _, ?_⟩
    · refine (checked_nodup cfg).map ?_
      intro a b hab
      exact (Prod.mk.inj (Option.some.inj hab)).1
    · rintro a ha b hb rfl
      obtain ⟨s, -, hs⟩ := List.mem_map.1 ha
      rw [List.mem_singleton.1 hb] at hs
      cases hs
  -- the URL of a target is that of its service
  have hurl : ∀ (k : ℕ) (u : String) (pc : CheckPc), p.threads[k]? = some (.check s u pc) →
      u = cfg.serviceURL s := by
    intro k u pc hk
    have hmem : some (s, u) ∈ p.threads.map HealthThread.target :=
      List.mem_map.2 ⟨_, List.mem_of_getElem? hk, rfl⟩
    rw [h.targets] at hmem
    rcases List.mem_append.1 hmem with hmem | hmem
    · obtain ⟨s', -, hs'⟩ := List.mem_map.1 hmem
      cases hs'
      rfl
    · cases List.mem_singleton.1 hmem
  have hsame : (p.threads.map HealthThread.target)[i]? = (p.threads.map HealthThread.target)[j]? := by
    rw [List.getElem?_map, List.getElem?_map, hi, hj, hurl i url pc hi, hurl j url' pc' hj]
    rfl
  have hlt : i < (p.threads.map HealthThread.target).length := by
    rw [List.length_map]
    exact (List.getElem?_eq_some_iff.1 hi).1
  exact hij ((List.getElem?_inj hlt htargets).1 hsame)

/-- A thread that is not the one of the step is still there. -/
theorem mem_set_or_eq {threads : List HealthThread} {u : HealthThread} (hi : threads[i]? = some t)
    (hu : u ∈ threads) : u = t ∨ u ∈ threads.set i t' := by
  obtain ⟨j, hj⟩ := List.mem_iff_getElem?.1 hu
  by_cases hij : i = j
  · subst hij
    exact Or.inl (Option.some.inj (hj.symm.trans hi))
  · exact Or.inr (List.mem_of_getElem? ((List.getElem?_set_ne hij).trans hj))

theorem target_set {threads : List HealthThread} (hi : threads[i]? = some t)
    (ht : t'.target = t.target) :
    (threads.set i t').map HealthThread.target = threads.map HealthThread.target := by
  apply List.ext_getElem?
  intro j
  rw [List.getElem?_map, List.getElem?_map]
  by_cases hij : i = j
  · subst hij
    rw [List.getElem?_set_self (List.getElem?_eq_some_iff.1 hi).1, hi, Option.map_some, ht]
    rfl
  · rw [List.getElem?_set_ne hij]

/-- A check goes on with its service. -/
theorem healthAct_target {st : HealthStore} (hs : healthAct durationString st t x = some (st', t')) :
    t'.target = t.target := by
  rcases healthAct_cases hs with ⟨s, url, pc, pc', rfl, rfl, -⟩ | ⟨s, url, response, latency, rfl, rfl, -⟩ |
    ⟨s, url, response, latency, rfl, rfl, -⟩ | ⟨rfl, -, rfl, -⟩
  · rfl
  · rfl
  · rfl
  · rfl

/-- As long as a goroutine is counted, the handler has not answered. -/
theorem HealthSystem.Inv.unanswered (h : p.Inv cfg) (ht : t ∈ p.threads) (hcounted : t.counted = true)
    (response : HealthResponse) : .handler (some response) ∉ p.threads := by
  intro hresponse
  have hpos : 0 < p.threads.countP HealthThread.counted := List.countP_pos_iff.2 ⟨t, ht, hcounted⟩
  have hzero := (h.answer response hresponse).1
  rw [h.pending] at hzero
  omega

/-- **One event** keeps the invariant. -/
theorem healthStep_inv {e : Event Empty HealthInput} {p' : HealthSystem} (h : p.Inv cfg)
    (hs : healthStep durationString p e = some p') : p'.Inv cfg := by
  cases e with
  | request r => exact r.elim
  | advance i x =>
    obtain ⟨t, st', t', hi, hact, rfl⟩ := Pool.step_advance_iff.1 hs
    have ht := List.mem_of_getElem? hi
    have hcount := countP_set hi t' HealthThread.counted
    have htargets := (target_set hi (healthAct_target hact)).trans h.targets
    rcases healthAct_cases hact with ⟨s, url, pc, pc', rfl, rfl, hold, hnew, hc, hc', rfl⟩ |
      ⟨s, url, response, latency, rfl, rfl, rfl⟩ | ⟨s, url, response, latency, rfl, rfl, rfl⟩ |
      ⟨rfl, hzero, rfl, rfl⟩
    · rw [hc, hc'] at hcount
      refine ⟨htargets, ?_, ?_, ?_, ?_⟩
      · exact h.pending.trans (Nat.add_right_cancel hcount).symm
      · intro u hu n sh hwritten
        rcases List.mem_or_eq_of_mem_set hu with hu | rfl
        · exact h.written u hu n sh hwritten
        · rw [hnew] at hwritten
          cases hwritten
      · intro n hn
        obtain ⟨u, hu, sh, hwritten⟩ := h.results n hn
        rcases mem_set_or_eq hi hu with rfl | hu
        · rw [hold] at hwritten
          cases hwritten
        · exact ⟨u, hu, sh, hwritten⟩
      · intro response hresponse
        rcases List.mem_or_eq_of_mem_set hresponse with hresponse | heq
        · exact absurd hresponse (h.unanswered ht hc response)
        · cases heq
    · refine ⟨htargets, ?_, ?_, ?_, ?_⟩
      · exact h.pending.trans (Nat.add_right_cancel hcount).symm
      · intro u hu n sh hwritten
        obtain ⟨j, hj⟩ := List.mem_iff_getElem?.1 hu
        by_cases hij : i = j
        · subst hij
          rw [List.getElem?_set_self (List.getElem?_eq_some_iff.1 hi).1] at hj
          cases hj
          cases hwritten
          exact AList.lookup_insert _
        · rw [List.getElem?_set_ne hij] at hj
          have hkept := h.written u (List.mem_of_getElem? hj) n sh hwritten
          have hne : n ≠ s.name := by
            cases u with
            | handler response => cases hwritten
            | check s' url' pc =>
              have hother := h.other hi hj hij
              have hn : n = s'.name := by cases pc <;> cases hwritten <;> rfl
              rintro rfl
              exact hother (Service.name_inj hn)
          exact (AList.lookup_insert_ne hne).trans hkept
      · intro n hn
        rcases (AList.mem_insert _).1 hn with rfl | hn
        · exact ⟨_, List.mem_set (List.getElem?_eq_some_iff.1 hi).1 _, _, rfl⟩
        · obtain ⟨u, hu, sh, hwritten⟩ := h.results n hn
          rcases mem_set_or_eq hi hu with rfl | hu
          · cases hwritten
          · exact ⟨u, hu, sh, hwritten⟩
      · intro response hresponse
        rcases List.mem_or_eq_of_mem_set hresponse with hresponse | heq
        · exact absurd hresponse (h.unanswered ht rfl response)
        · cases heq
    · refine ⟨htargets, ?_, ?_, ?_, ?_⟩
      · show p.store.pending - 1 = _
        rw [h.pending]
        have hone : (HealthThread.check s url (.release response latency)).counted = true := rfl
        have hnone : (HealthThread.check s url (.finished response latency)).counted = false := rfl
        rw [hone, hnone] at hcount
        exact Nat.sub_eq_of_eq_add hcount.symm
      · intro u hu n sh hwritten
        rcases List.mem_or_eq_of_mem_set hu with hu | rfl
        · exact h.written u hu n sh hwritten
        · exact h.written _ ht n sh hwritten
      · intro n hn
        obtain ⟨u, hu, sh, hwritten⟩ := h.results n hn
        rcases mem_set_or_eq hi hu with rfl | hu
        · exact ⟨_, List.mem_set (List.getElem?_eq_some_iff.1 hi).1 _, sh, hwritten⟩
        · exact ⟨u, hu, sh, hwritten⟩
      · intro response' hresponse
        rcases List.mem_or_eq_of_mem_set hresponse with hresponse | heq
        · exact absurd hresponse (h.unanswered ht rfl response')
        · cases heq
    · refine ⟨htargets, ?_, ?_, ?_, ?_⟩
      · exact h.pending.trans (Nat.add_right_cancel hcount).symm
      · intro u hu n sh hwritten
        rcases List.mem_or_eq_of_mem_set hu with hu | rfl
        · exact h.written u hu n sh hwritten
        · cases hwritten
      · intro n hn
        obtain ⟨u, hu, sh, hwritten⟩ := h.results n hn
        rcases mem_set_or_eq hi hu with rfl | hu
        · cases hwritten
        · exact ⟨u, hu, sh, hwritten⟩
      · intro response hresponse
        rcases List.mem_or_eq_of_mem_set hresponse with hresponse | heq
        · exact h.answer response hresponse
        · cases heq
          exact ⟨hzero, rfl⟩

end Step

/-! ## Runs -/

/-- The whole is healthy if every service is. -/
theorem overall_eq_healthy_iff (results : List ServiceHealth) :
    overall results = "healthy" ↔ ∀ sh ∈ results, sh.status = "healthy" := by
  induction results with
  | nil => simp [overall]
  | cons sh results ih =>
    by_cases hsh : sh.status = "healthy"
    · simp [overall, hsh, ih]
    · simp [overall, hsh]

/-- A service is healthy if it answers 200. -/
theorem serviceHealth_healthy_iff (response : Option ℤ) (latency : String) :
    (serviceHealth response latency).status = "healthy" ↔ response = some 200 := by
  by_cases h : response = some 200
  · simp [serviceHealth, h]
  · simp [serviceHealth, h]

/-- The steps left of a check. -/
def CheckPc.rank : CheckPc → ℕ
  | .start => 4
  | .asking _ => 3
  | .write _ _ => 2
  | .release _ _ => 1
  | .finished _ _ => 0

/-- The steps left of a thread. -/
def HealthThread.rank : HealthThread → ℕ
  | .check _ _ pc => pc.rank
  | .handler none => 1
  | .handler (some _) => 0

theorem healthAct_rank (durationString : ℤ → String) (st : HealthStore) (t : HealthThread)
    (x : HealthInput) (st' : HealthStore) (t' : HealthThread)
    (hs : healthAct durationString st t x = some (st', t')) : t'.rank < t.rank := by
  cases t with
  | check s url pc =>
    cases pc with
    | finished response latency => cases hs
    | _ => cases hs; exact Nat.lt_succ_self _
  | handler response =>
    cases response with
    | none =>
      rw [healthAct, Option.ite_none_right_eq_some] at hs
      cases hs.2
      exact Nat.zero_lt_one
    | some response => cases hs

/-- Some thread can go on until all have finished: a goroutine, or the handler if all of them have. -/
theorem health_no_deadlock {cfg : Config} {durationString : ℤ → String} {p : HealthSystem}
    (h : p.Inv cfg) (hopen : ∃ t : HealthThread, t ∈ p.threads ∧ ¬t.rank = 0) :
    ∃ t : HealthThread, t ∈ p.threads ∧ ∃ x, (healthAct durationString p.store t x).isSome := by
  by_cases hcounted : ∃ t : HealthThread, t ∈ p.threads ∧ t.counted = true
  · obtain ⟨t, ht, hc⟩ := hcounted
    refine ⟨t, ht, ⟨0, none⟩, ?_⟩
    cases t with
    | check s url pc =>
      cases pc with
      | finished response latency => cases hc
      | _ => rfl
    | handler response => cases hc
  · obtain ⟨t, ht, hrank⟩ := hopen
    have hzero : p.store.pending = 0 := by
      rw [h.pending, List.countP_eq_zero]
      exact fun u hu hc => hcounted ⟨u, hu, hc⟩
    refine ⟨t, ht, ⟨0, none⟩, ?_⟩
    cases t with
    | check s url pc =>
      cases pc with
      | finished response latency => exact absurd rfl hrank
      | _ => exact absurd ⟨_, ht, rfl⟩ hcounted
    | handler response =>
      cases response with
      | none =>
        rw [healthAct, if_pos hzero]
        rfl
      | some response => exact absurd rfl hrank

section Answer

variable {cfg : Config} {p : HealthSystem}

/-- The goroutines are those of the services that are checked. -/
theorem HealthSystem.Inv.check_iff (h : p.Inv cfg) (s : Service) (url : String) :
    (∃ pc, .check s url pc ∈ p.threads) ↔ s ∈ cfg.checked ∧ url = cfg.serviceURL s := by
  have hmem : some (s, url) ∈ p.threads.map HealthThread.target ↔
      s ∈ cfg.checked ∧ url = cfg.serviceURL s := by
    rw [h.targets]
    simp only [List.mem_append, List.mem_map, Option.some.injEq, Prod.mk.injEq, List.mem_singleton,
      reduceCtorEq, or_false]
    constructor
    · rintro ⟨s', hs', rfl, rfl⟩
      exact ⟨hs', rfl⟩
    · rintro ⟨hs, rfl⟩
      exact ⟨s, hs, rfl, rfl⟩
  rw [← hmem, List.mem_map]
  constructor
  · rintro ⟨pc, hpc⟩
    exact ⟨_, hpc, rfl⟩
  · rintro ⟨t, ht, htarget⟩
    cases t with
    | check s' url' pc =>
      cases htarget
      exact ⟨pc, ht⟩
    | handler response => cases htarget

/-- The handler is one of the threads. -/
theorem HealthSystem.Inv.handler_mem (h : p.Inv cfg) : ∃ response, .handler response ∈ p.threads := by
  have hmem : none ∈ p.threads.map HealthThread.target := by
    rw [h.targets]
    exact List.mem_append_right _ (List.mem_singleton_self none)
  obtain ⟨t, ht, htarget⟩ := List.mem_map.1 hmem
  cases t with
  | check s url pc => cases htarget
  | handler response => exact ⟨response, ht⟩

/-- The handler answers after all the goroutines. -/
theorem HealthSystem.Inv.finished (h : p.Inv cfg) {response : HealthResponse}
    (hanswer : .handler (some response) ∈ p.threads) {s : Service} {url : String} {pc : CheckPc}
    (hcheck : .check s url pc ∈ p.threads) : ∃ answer latency, pc = .finished answer latency ∧
      response.services.lookup s.name = some (serviceHealth answer latency) := by
  obtain ⟨-, rfl⟩ := h.answer response hanswer
  cases pc with
  | finished answer latency => exact ⟨answer, latency, rfl, h.written _ hcheck _ _ rfl⟩
  | _ => exact absurd hanswer (h.unanswered hcheck rfl _)

/-- The entries of the response are the results of the goroutines. -/
theorem HealthSystem.Inv.entry (h : p.Inv cfg) {response : HealthResponse}
    (hanswer : .handler (some response) ∈ p.threads) {n : String} {sh : ServiceHealth}
    (hentry : response.services.lookup n = some sh) :
    ∃ s url answer latency, s.name = n ∧ .check s url (.finished answer latency) ∈ p.threads ∧
      sh = serviceHealth answer latency := by
  obtain ⟨-, rfl⟩ := h.answer response hanswer
  have hn : n ∈ p.store.results := AList.lookup_isSome.1 (Option.isSome_iff_exists.2 ⟨sh, hentry⟩)
  obtain ⟨t, ht, sh', hwritten⟩ := h.results n hn
  have hsame : sh = sh' := Option.some.inj (hentry.symm.trans (h.written t ht n sh' hwritten))
  subst hsame
  cases t with
  | handler response => cases hwritten
  | check s url pc =>
    obtain ⟨answer, latency, rfl, -⟩ := h.finished hanswer ht
    cases hwritten
    exact ⟨s, url, answer, latency, rfl, ht, rfl⟩

/-- The answer is healthy if every result is. -/
theorem overall_healthy_iff (results : HealthResults) :
    (healthResponse results).status = "healthy" ↔
      ∀ n sh, results.lookup n = some sh → sh.status = "healthy" := by
  show overall _ = "healthy" ↔ _
  rw [overall_eq_healthy_iff]
  constructor
  · intro hall n sh hlookup
    have hmem : (⟨n, sh⟩ : Sigma fun _ : String => ServiceHealth) ∈ results.entries :=
      AList.mem_lookup_iff.1 hlookup
    exact hall sh (List.mem_map.2 ⟨_, hmem, rfl⟩)
  · intro hall sh hsh
    obtain ⟨⟨n, sh'⟩, hmem, rfl⟩ := List.mem_map.1 hsh
    exact hall n sh' (AList.mem_lookup_iff.2 hmem)

end Answer

/-- **The health check covers the routes**: in every order of the steps of the goroutines, each of them asks
the first instance behind the route of its service. If the handler answers, it reports exactly the services
that have a route, each with the result of its own check, and it is healthy exactly if all of these have
answered 200. And from every state the handler comes to its answer. -/
theorem health_covers_routes (parseDuration : String → Option ℤ) (env : Environment)
    (durationString : ℤ → String) (es : List (Event Empty HealthInput)) (p : HealthSystem)
    (hrun : run (healthStep durationString) (loadConfig parseDuration env).healthStart es = some p) :
    let cfg := loadConfig parseDuration env
    (∀ s url pc, .check s url pc ∈ p.threads → (cfg.servicePool s).head? = some url) ∧
    (∀ response, .handler (some response) ∈ p.threads →
      (∀ n, n ∈ response.services ↔ ∃ s, s.name = n ∧ cfg.routed s = true) ∧
      (∀ s url pc, .check s url pc ∈ p.threads → ∃ answer latency, pc = .finished answer latency ∧
        response.services.lookup s.name = some (serviceHealth answer latency)) ∧
      (response.status = "healthy" ↔ ∀ s, cfg.routed s = true →
        ∃ url latency, .check s url (.finished (some 200) latency) ∈ p.threads)) ∧
    ∃ (es' : List (Event Empty HealthInput)) (p' : HealthSystem),
      run (healthStep durationString) p es' = some p' ∧
      ∃ response, .handler (some response) ∈ p'.threads := by
  intro cfg
  have hinv : p.Inv cfg := (always_of_invariant (fun _ _ _ h hs => healthStep_inv h hs)
    (healthStart_inv cfg)).last hrun
  refine ⟨?_, ?_, ?_⟩
  · intro s url pc hcheck
    obtain ⟨hs, rfl⟩ := (hinv.check_iff s url).1 ⟨pc, hcheck⟩
    obtain ⟨url, rest, hpool⟩ := (mem_checked_iff parseDuration env s).1 hs
    rw [serviceURL_eq, hpool]
    rfl
  · intro response hanswer
    have hrouted : ∀ s, cfg.routed s = true ↔ ∃ pc, .check s (cfg.serviceURL s) pc ∈ p.threads := by
      intro s
      rw [routed_iff_mem_checked, hinv.check_iff]
      exact (and_iff_left rfl).symm
    refine ⟨fun n => ⟨fun hn => ?_, ?_⟩, fun s url pc hcheck => hinv.finished hanswer hcheck, ?_⟩
    · obtain ⟨sh, hlookup⟩ := Option.isSome_iff_exists.1 (AList.lookup_isSome.2 hn)
      obtain ⟨s, url, answer, latency, rfl, hcheck, -⟩ := hinv.entry hanswer hlookup
      obtain ⟨-, rfl⟩ := (hinv.check_iff s url).1 ⟨_, hcheck⟩
      exact ⟨s, rfl, (hrouted s).2 ⟨_, hcheck⟩⟩
    · rintro ⟨s, rfl, hs⟩
      obtain ⟨pc, hcheck⟩ := (hrouted s).1 hs
      obtain ⟨answer, latency, -, hlookup⟩ := hinv.finished hanswer hcheck
      exact AList.lookup_isSome.1 (Option.isSome_iff_exists.2 ⟨_, hlookup⟩)
    · have hstatus : response.status = "healthy" ↔
          ∀ n sh, response.services.lookup n = some sh → sh.status = "healthy" := by
        obtain ⟨-, rfl⟩ := hinv.answer response hanswer
        exact overall_healthy_iff p.store.results
      rw [hstatus]
      constructor
      · intro hall s hs
        obtain ⟨pc, hcheck⟩ := (hrouted s).1 hs
        obtain ⟨answer, latency, rfl, hlookup⟩ := hinv.finished hanswer hcheck
        obtain rfl := (serviceHealth_healthy_iff answer latency).1 (hall _ _ hlookup)
        exact ⟨_, latency, hcheck⟩
      · intro hall n sh hlookup
        obtain ⟨s, url, answer, latency, rfl, hcheck, rfl⟩ := hinv.entry hanswer hlookup
        obtain ⟨-, rfl⟩ := (hinv.check_iff s url).1 ⟨_, hcheck⟩
        obtain ⟨url', latency', hhealthy⟩ := hall s ((hrouted s).2 ⟨_, hcheck⟩)
        -- the service has only one goroutine, so the two results are one entry
        obtain ⟨answer₁, latency₁, hpc₁, hlookup₁⟩ := hinv.finished hanswer hhealthy
        cases hpc₁
        rw [Option.some.inj (hlookup.symm.trans hlookup₁)]
        exact (serviceHealth_healthy_iff _ _).2 rfl
  · obtain ⟨es', p', hrun', -, hdone⟩ := exists_completion HealthThread.rank (fun t => t.rank = 0)
      (J := HealthSystem.Inv cfg) (healthAct_rank durationString)
      (fun _ _ _ h hs => healthStep_inv h hs)
      (fun _ h hopen => health_no_deadlock h hopen) hinv
    have hinv' : HealthSystem.Inv cfg p' := (always_of_invariant (fun _ _ _ h hs => healthStep_inv h hs) hinv).last hrun'
    obtain ⟨response, hhandler⟩ := hinv'.handler_mem
    cases response with
    | none => exact absurd (hdone _ hhandler) Nat.one_ne_zero
    | some response => exact ⟨es', p', hrun', response, hhandler⟩

/-- The beach service has two instances; the airport answers in time, the beach does not. -/
def beachEnvironment : Environment := fun key =>
  if key = "BEACH_SERVICE_URL" then "http://beach-1:8002, http://beach-2:8002"
  else if key = "AIRPORT_SERVICE_URL" then "http://airport:3001"
  else if key = "HOTEL_SERVICE_URL" then ","
  else ""

/-- The beach is checked and does not answer in time. -/
def beachCheck : List (Event Empty HealthInput) :=
  [.advance 1 ⟨0, none⟩, .advance 0 ⟨0, none⟩, .advance 0 ⟨5, some 200⟩, .advance 1 ⟨3000, none⟩,
    .advance 1 ⟨3000, none⟩, .advance 0 ⟨3000, none⟩, .advance 0 ⟨3000, none⟩, .advance 1 ⟨3000, none⟩,
    .advance 2 ⟨3000, none⟩]

/-- What the handler has answered. -/
def HealthSystem.response (p : HealthSystem) : Option HealthResponse :=
  match p.threads[2]? with
  | some (HealthThread.handler response) => response
  | _ => none

/-- A beach that does not answer degrades the whole. -/
theorem beach_degraded :
    ∃ p response,
      run (healthStep fun _ => "5ms") (loadConfig (fun _ => none) beachEnvironment).healthStart
        beachCheck = some p ∧
      HealthSystem.response p = some response ∧ response.status = "degraded" ∧
      "beach" ∈ response.services ∧ "hotel" ∉ response.services := by
  have hsome : (run (healthStep fun _ => "5ms")
      (loadConfig (fun _ => none) beachEnvironment).healthStart beachCheck).bind
        (fun p => (HealthSystem.response p).map HealthResponse.status) = some "degraded" := by
    decide +kernel
  obtain ⟨p, hp, hmap⟩ := Option.bind_eq_some_iff.1 hsome
  obtain ⟨response, hresponse, hstatus⟩ := Option.map_eq_some_iff.1 hmap
  have hmem : HealthThread.handler (some response) ∈ p.threads := by
    unfold HealthSystem.response at hresponse
    split at hresponse
    · rename_i ht
      subst hresponse
      exact List.mem_of_getElem? ht
    · cases hresponse
  obtain ⟨-, hanswer, -⟩ := health_covers_routes (fun _ => none) beachEnvironment (fun _ => "5ms")
    beachCheck p hp
  obtain ⟨hservices, -, -⟩ := hanswer response hmem
  refine ⟨p, response, hp, hresponse, hstatus, ?_, ?_⟩
  · exact (hservices "beach").2 ⟨.beach, rfl, by decide +kernel⟩
  · intro hhotel
    obtain ⟨s, hname, hrouted⟩ := (hservices "hotel").1 hhotel
    obtain rfl : s = .hotel := Service.name_inj hname
    exact absurd hrouted (by decide +kernel)

end Gateway
