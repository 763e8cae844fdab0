import Webmeow.Gateway.Admin
import Webmeow.Lib.LastWriter

/-!
# Concurrent changes of the rate limit

A request writes both settings back, the one that it does not carry with the value that it has read.
No change is lost exactly when every such value is still the current one at its store.
-/

namespace Gateway

open Runs Interleaving

variable {parseDuration : String → Option ℤ}

/-! ## One step of the handler -/

/-- The settings after a step: those from before, but for the one that is stored. -/
theorem adminAct_get {rl rl' : RateLimiter} {t t' : AdminThread} {x : Unit}
    (h : adminAct parseDuration rl t x = some (rl', t')) (f : Setting) :
    rl'.get f = match t.storing with
      | none => rl.get f
      | some (g, v) => if g = f then v else rl.get f := by
  obtain ⟨body, -, h⟩ := Option.bind_eq_some_iff.1 h
  obtain ⟨⟨rl1, pc1⟩, hstep, he⟩ := Option.map_eq_some_iff.1 h
  cases he
  obtain ⟨tbody, pc⟩ := t
  cases pc with
  | loadLimit => cases hstep; rfl
  | loadWindow limit => cases hstep; rfl
  | storeLimit limit per => cases hstep; cases f <;> rfl
  | storeWindow per => cases hstep; cases f <;> rfl
  | readLimit => cases hstep; rfl
  | readWindow limit => cases hstep; rfl
  | done response => cases hstep

/-- An answered request takes no step. -/
theorem adminAct_done {rl : RateLimiter} {t : AdminThread} (h : t.Done) (x : Unit) :
    adminAct parseDuration rl t x = none := by
  obtain ⟨response, hpc⟩ := h
  unfold adminAct
  rw [hpc]
  cases t.body <;> rfl

/-- The watcher only watches. -/
theorem watchedAct_iff {s s' : Watched} {t t' : AdminThread} {x : Unit} :
    watchedAct parseDuration s t x = some (s', t') ↔
      ∃ rl', adminAct parseDuration s.limiter t x = some (rl', t') ∧
        s' = s.store parseDuration rl' t := by
  simp only [watchedAct, Option.map_eq_some_iff]
  constructor
  · rintro ⟨⟨rl', t1⟩, h, he⟩
    cases he
    exact ⟨rl', h, rfl⟩
  · rintro ⟨rl', h, rfl⟩
    exact ⟨(rl', t'), h, rfl⟩

/-! ## What a request has stored -/

/-- A value that a request is about to store is the one that it carries, if it carries one. -/
def AdminThread.Sound (parseDuration : String → Option ℤ) (t : AdminThread) : Prop :=
  match t.pc with
  | .loadWindow limit => ∀ v, t.carries parseDuration .limit = some v → limit = v
  | .storeLimit limit per =>
    (∀ v, t.carries parseDuration .limit = some v → limit = v) ∧
      ∀ v, t.carries parseDuration .window = some v → per = v
  | .storeWindow per => ∀ v, t.carries parseDuration .window = some v → per = v
  | .done (.badRequest _) => ∀ f, t.carries parseDuration f = none
  | _ => True

/-- The value that a request carries for a setting, once it has stored it. -/
def AdminThread.wrote (parseDuration : String → Option ℤ) (f : Setting) (t : AdminThread) :
    Option ℤ :=
  match t.pc with
  | .storeWindow _ => if f = .limit then t.carries parseDuration f else none
  | .readLimit => t.carries parseDuration f
  | .readWindow _ => t.carries parseDuration f
  | .done (.ok _ _) => t.carries parseDuration f
  | _ => none

/-- A request that comes in is sound. -/
theorem adminStart_sound (r : Option RateLimitUpdate) :
    (adminStart r).Sound parseDuration := by
  cases r with
  | none => exact fun f => rfl
  | some body => trivial

theorem adminStart_wrote (f : Setting) (r : Option RateLimitUpdate) :
    (adminStart r).wrote parseDuration f = none := by
  cases r <;> rfl

theorem carries_window_pos {t : AdminThread} {v : ℤ}
    (h : t.carries parseDuration .window = some v) : 0 < v := by
  obtain ⟨body, -, hbody⟩ := Option.bind_eq_some_iff.1 h
  simpa using (Option.filter_eq_some_iff.1 hbody).2

/-- The window that a request stores is the one that it carries. -/
theorem resolveWindow_sound {body : RateLimitUpdate} {limit loaded : ℤ}
    (hlimit : ∀ v, body.carries parseDuration .limit = some v → limit = v) :
    AdminThread.Sound parseDuration
      ⟨some body, resolveWindow parseDuration body.window limit loaded⟩ := by
  cases hw : body.window with
  | none =>
    refine ⟨hlimit, fun v hv => ?_⟩
    simp [AdminThread.carries, RateLimitUpdate.carries, hw] at hv
  | some s =>
    cases hd : parseDuration s with
    | none =>
      have hpc : resolveWindow parseDuration (some s) limit loaded =
          .done (.badRequest "invalid window") := by simp only [resolveWindow, hd]
      rw [hpc]
      intro f
      cases f <;> simp [AdminThread.carries, RateLimitUpdate.carries, hw, hd]
    | some d =>
      have hpc : resolveWindow parseDuration (some s) limit loaded = .storeLimit limit d := by
        simp only [resolveWindow, hd]
      rw [hpc]
      refine ⟨hlimit, fun v hv => ?_⟩
      simp only [AdminThread.carries, RateLimitUpdate.carries, hw, hd, Option.bind_some,
        Option.filter_eq_some_iff, Option.some.injEq] at hv
      exact hv.1

/-- A step keeps the request sound. -/
theorem adminAct_sound {rl rl' : RateLimiter} {t t' : AdminThread} {x : Unit}
    (ht : t.Sound parseDuration) (h : adminAct parseDuration rl t x = some (rl', t')) :
    t'.Sound parseDuration := by
  obtain ⟨body, hbody, h⟩ := Option.bind_eq_some_iff.1 h
  obtain ⟨⟨rl1, pc1⟩, hstep, he⟩ := Option.map_eq_some_iff.1 h
  cases he
  obtain ⟨tbody, pc⟩ := t
  simp only at hbody
  subst hbody
  cases pc with
  | loadLimit =>
    cases hstep
    intro v hv
    simp only [AdminThread.carries, RateLimitUpdate.carries, Option.bind_some] at hv
    split_ifs at hv
    rw [hv]
    rfl
  | loadWindow limit =>
    cases hstep
    exact resolveWindow_sound ht
  | storeLimit limit per =>
    cases hstep
    split_ifs
    · exact ht.2
    · trivial
  | storeWindow per => cases hstep; trivial
  | readLimit => cases hstep; trivial
  | readWindow limit => cases hstep; trivial
  | done response => cases hstep

theorem resolveWindow_wrote (body : Option RateLimitUpdate) (window : Option String)
    (limit loaded : ℤ) (f : Setting) :
    AdminThread.wrote parseDuration f ⟨body, resolveWindow parseDuration window limit loaded⟩ =
      none := by
  unfold resolveWindow
  cases window with
  | none => rfl
  | some s => simp only; split <;> rfl

/-- What the watcher has after a store. -/
theorem store_carried (s : Watched) (rl : RateLimiter) {t : AdminThread} {g : Setting} {v : ℤ}
    (h : t.storing = some (g, v)) (f : Setting) :
    (s.store parseDuration rl t).carried f =
      if f = g ∧ (t.carries parseDuration g).isSome = true then v else s.carried f := by
  simp only [Watched.store, h]
  by_cases hc : (t.carries parseDuration g).isSome = true
  · rw [if_pos hc, Function.update_apply]
    simp only [hc, and_true]
  · rw [if_neg hc, if_neg fun hh => hc hh.2]

/-- Storing the limit writes it, if the request carries one, and then the window is still to come or
there is none. -/
theorem storeLimit_writes {body : RateLimitUpdate} {limit per : ℤ} (s : Watched) (rl : RateLimiter)
    (ht : AdminThread.Sound parseDuration ⟨some body, .storeLimit limit per⟩) (f : Setting) :
    ((s.store parseDuration rl ⟨some body, .storeLimit limit per⟩).carried f = s.carried f ∧
        AdminThread.wrote parseDuration f
            ⟨some body, if 0 < per then .storeWindow per else .readLimit⟩ =
          AdminThread.wrote parseDuration f ⟨some body, .storeLimit limit per⟩) ∨
      (AdminThread.wrote parseDuration f
            ⟨some body, if 0 < per then .storeWindow per else .readLimit⟩ =
          some ((s.store parseDuration rl ⟨some body, .storeLimit limit per⟩).carried f) ∧
        ¬ AdminThread.Done ⟨some body, .storeLimit limit per⟩) := by
  simp only [store_carried s rl (t := ⟨some body, .storeLimit limit per⟩) rfl]
  cases f with
  | limit =>
    cases hc : AdminThread.carries parseDuration ⟨some body, .storeLimit limit per⟩ .limit with
    | none =>
      refine Or.inl ⟨by simp, ?_⟩
      split_ifs <;> exact hc
    | some v =>
      obtain rfl := ht.1 v hc
      refine Or.inr ⟨?_, nofun⟩
      simp only [Option.isSome_some, and_self, if_true]
      split_ifs <;> exact hc
  | window =>
    refine Or.inl ⟨by simp, ?_⟩
    split_ifs with hpos
    · rfl
    · -- a window that is not stored was not carried
      cases hc : AdminThread.carries parseDuration ⟨some body, .storeLimit limit per⟩ .window with
      | none => exact hc
      | some v =>
        have hv := carries_window_pos hc
        rw [← ht.2 v hc] at hv
        exact absurd hv hpos

/-- Storing the window writes it, if the request carries one. -/
theorem storeWindow_writes {body : RateLimitUpdate} {per : ℤ} (s : Watched) (rl : RateLimiter)
    (ht : AdminThread.Sound parseDuration ⟨some body, .storeWindow per⟩) (f : Setting) :
    ((s.store parseDuration rl ⟨some body, .storeWindow per⟩).carried f = s.carried f ∧
        AdminThread.wrote parseDuration f ⟨some body, .readLimit⟩ =
          AdminThread.wrote parseDuration f ⟨some body, .storeWindow per⟩) ∨
      (AdminThread.wrote parseDuration f ⟨some body, .readLimit⟩ =
          some ((s.store parseDuration rl ⟨some body, .storeWindow per⟩).carried f) ∧
        ¬ AdminThread.Done ⟨some body, .storeWindow per⟩) := by
  simp only [store_carried s rl (t := ⟨some body, .storeWindow per⟩) rfl]
  cases f with
  | limit => exact Or.inl ⟨by simp, rfl⟩
  | window =>
    cases hc : AdminThread.carries parseDuration ⟨some body, .storeWindow per⟩ .window with
    | none => exact Or.inl ⟨by simp, hc⟩
    | some v =>
      obtain rfl := ht v hc
      refine Or.inr ⟨?_, nofun⟩
      simp only [Option.isSome_some, and_self, if_true]
      exact hc

/-- The value carried for a setting changes when a request that carries it stores it, and that store
is the only one. -/
theorem watched_writesOnce (parseDuration : String → Option ℤ) (f : Setting) :
    WritesOnce (watchedAct parseDuration) (fun s => s.carried f)
      (AdminThread.wrote parseDuration f) AdminThread.Done (AdminThread.Sound parseDuration) where
  keep := by
    intro s t x s' t' ht h
    obtain ⟨rl', ha, -⟩ := watchedAct_iff.1 h
    exact adminAct_sound ht ha
  stuck := by
    intro s t x hd
    simp only [watchedAct, adminAct_done hd, Option.map_none]
  write := by
    intro s t x s' t' ht h
    obtain ⟨rl', ha, rfl⟩ := watchedAct_iff.1 h
    obtain ⟨body, hbody, ha⟩ := Option.bind_eq_some_iff.1 ha
    obtain ⟨⟨rl1, pc1⟩, hstep, he⟩ := Option.map_eq_some_iff.1 ha
    cases he
    obtain ⟨tbody, pc⟩ := t
    simp only at hbody
    subst hbody
    cases pc with
    | loadLimit => cases hstep; exact Or.inl ⟨rfl, rfl⟩
    | loadWindow limit =>
      cases hstep
      exact Or.inl ⟨rfl, resolveWindow_wrote _ _ _ _ f⟩
    | storeLimit limit per =>
      cases hstep
      exact storeLimit_writes s _ ht f
    | storeWindow per =>
      cases hstep
      exact storeWindow_writes s _ ht f
    | readLimit => cases hstep; exact Or.inl ⟨rfl, rfl⟩
    | readWindow limit => cases hstep; exact Or.inl ⟨rfl, rfl⟩
    | done response => cases hstep

/-! ## The exact condition -/

/-- Each setting has the value last stored by a request that carries it, or the initial one: no
request has undone a change of a setting that it does not carry. -/
def NotUndone (p : AdminSystem) : Prop := ∀ f, p.store.limiter.get f = p.store.carried f

/-- A step leaves no update undone if and only if it is no stale store. -/
theorem step_notUndone_iff (p : AdminSystem) (e : Event (Option RateLimitUpdate) Unit)
    (p' : AdminSystem) (h : NotUndone p) (hs : adminStep parseDuration p e = some p') :
    NotUndone p' ↔ staleStore parseDuration p e = false := by
  cases e with
  | request r =>
    cases hs
    exact ⟨fun _ => rfl, fun _ => h⟩
  | advance i x =>
    obtain ⟨t, s', t', hi, hw, rfl⟩ := Pool.step_advance_iff.1 hs
    obtain ⟨rl', ha, rfl⟩ := watchedAct_iff.1 hw
    have hget := adminAct_get ha
    simp only [staleStore, hi]
    cases hst : t.storing with
    | none =>
      simp only [hst] at hget
      refine ⟨fun _ => rfl, fun _ f => ?_⟩
      simp only [Watched.store, hst, hget]
      exact h f
    | some q =>
      obtain ⟨g, v⟩ := q
      simp only [hst] at hget
      simp only [NotUndone, store_carried _ _ hst]
      simp only [Watched.store, hget]
      cases hc : t.carries parseDuration g with
      | some w =>
        simp only [Option.isNone_some, Bool.false_and, iff_true]
        intro f
        by_cases hf : g = f
        · simp [hf]
        · have hne : ¬ f = g := fun he => hf he.symm
          simp only [if_neg hf, if_neg fun hh : f = g ∧ _ => hne hh.1]
          exact h f
      | none =>
        simp only [Option.isNone_none, Bool.true_and, decide_eq_false_iff_not, ne_eq, not_not,
          Option.isSome_none, Bool.false_eq_true, and_false, if_false]
        constructor
        · intro hall
          have hg := hall g
          rw [if_pos rfl, ← h g] at hg
          exact hg.symm
        · intro hv f
          split_ifs with hf
          · rw [← hv, hf]
            exact h f
          · exact h f

/-- When all requests are complete, each setting has the value of a request that carries it, with no
other such request entirely after that one, or the initial value if no request carries it. -/
def LastCarried (parseDuration : String → Option ℤ) (rl : RateLimiter)
    (es : List (Event (Option RateLimitUpdate) Unit)) (p : AdminSystem) : Prop :=
  (∀ t ∈ p.threads, t.Done) → ∀ f,
    (p.store.limiter.get f = rl.get f ∧ ∀ t ∈ p.threads, t.carries parseDuration f = none) ∨
    ∃ i t, p.threads[i]? = some t ∧ t.carries parseDuration f = some (p.store.limiter.get f) ∧
      ∀ j u, p.threads[j]? = some u → u.carries parseDuration f ≠ none →
        ¬ EntirelyAfter adminStart (watchedAct parseDuration) AdminThread.Done
          (AdminSystem.initial rl) es i j

/-- A complete request has stored what it carries. -/
theorem wrote_of_done {t : AdminThread} (hd : t.Done) (hs : t.Sound parseDuration) (f : Setting) :
    t.wrote parseDuration f = t.carries parseDuration f := by
  obtain ⟨response, hpc⟩ := hd
  cases response with
  | ok limit window => simp only [AdminThread.wrote, hpc]
  | badRequest error =>
    have hnone : ∀ f, t.carries parseDuration f = none := by
      simpa only [AdminThread.Sound, hpc] using hs
    simp only [AdminThread.wrote, hpc, hnone]

/-- Where no update is undone, each setting is the last one carried. -/
theorem lastCarried_of_notUndone {rl : RateLimiter}
    {es : List (Event (Option RateLimitUpdate) Unit)} {p : AdminSystem}
    (hr : run (adminStep parseDuration) (AdminSystem.initial rl) es = some p)
    (h : NotUndone p) : LastCarried parseDuration rl es p := by
  intro hdone f
  obtain ⟨hsound, hlast⟩ := (watched_writesOnce parseDuration f).lastWrite (adminStart_wrote f)
    adminStart_sound rfl es p hr
  have hwritten : ∀ j u, p.threads[j]? = some u →
      p.written (AdminThread.wrote parseDuration f) j = u.carries parseDuration f := by
    intro j u hj
    have hmem := List.mem_of_getElem? hj
    rw [Pool.written, hj, Option.bind_some]
    exact wrote_of_done (hdone u hmem) (hsound u hmem) f
  rcases hlast with ⟨hinit, hnone⟩ | ⟨i, hi, hafter⟩
  · refine Or.inl ⟨(h f).trans hinit, fun t ht => ?_⟩
    obtain ⟨j, hj⟩ := List.mem_iff_getElem?.1 ht
    rw [← hwritten j t hj]
    exact hnone j
  · obtain ⟨t, ht, -⟩ := Option.bind_eq_some_iff.1 hi
    rw [hwritten i t ht] at hi
    refine Or.inr ⟨i, t, ht, by rw [h f]; exact hi, fun j u hj hcar => ?_⟩
    exact hafter j (by rw [hwritten j u hj]; exact hcar)

/-- **No update is lost, exactly.** In every interleaving of requests, no change of a setting is ever
undone by a request that does not carry it, and the final settings are those of last requests that
carry them, if and only if every value written back is still current at its store. -/
theorem updates_kept_iff (parseDuration : String → Option ℤ) (rl : RateLimiter)
    (es : List (Event (Option RateLimitUpdate) Unit)) (p : AdminSystem)
    (hr : run (adminStep parseDuration) (AdminSystem.initial rl) es = some p) :
    (Always (adminStep parseDuration) NotUndone (AdminSystem.initial rl) es ∧
      LastCarried parseDuration rl es p) ↔
      Throughout (adminStep parseDuration) (fun q e => staleStore parseDuration q e = false)
        (AdminSystem.initial rl) es := by
  have hinit : NotUndone (AdminSystem.initial rl) := fun f => rfl
  have hexact := always_iff_throughout (J := fun _ => True) (fun _ _ _ _ _ => trivial)
    (fun q e q' _ h hs => step_notUndone_iff q e q' h hs) trivial hinit hr
  rw [← hexact]
  exact and_iff_left_of_imp fun h => lastCarried_of_notUndone hr (h.last hr)

section Race

/-- A parser that knows one duration. -/
def fiveSeconds (s : String) : Option ℤ := if s = "5s" then some 5000000000 else none

/-- A hundred requests in a second. -/
def hundred : RateLimiter := newRateLimiter 100 1000000000

/-- A request for a limit of ten reads both settings, a request for five seconds runs from start to
end, and the first one writes both settings back. -/
def crossingUpdates : List (Event (Option RateLimitUpdate) Unit) :=
  [.request (some ⟨some 10, none⟩), .request (some ⟨none, some "5s"⟩), .advance 0 (), .advance 0 (),
    .advance 1 (), .advance 1 (), .advance 1 (), .advance 1 (), .advance 1 (), .advance 1 (),
    .advance 0 (), .advance 0 (), .advance 0 (), .advance 0 ()]

/-- The same requests, one after the other. -/
def serialUpdates : List (Event (Option RateLimitUpdate) Unit) :=
  [.request (some ⟨some 10, none⟩), .advance 0 (), .advance 0 (), .advance 0 (), .advance 0 (),
    .advance 0 (), .advance 0 (), .request (some ⟨none, some "5s"⟩), .advance 1 (), .advance 1 (),
    .advance 1 (), .advance 1 (), .advance 1 (), .advance 1 ()]

/-- Both requests are complete, one of them carries a window, and the window is the initial one. -/
theorem crossingUpdates_lost :
    ∃ p, run (adminStep fiveSeconds) (AdminSystem.initial hundred) crossingUpdates = some p ∧
      (∀ t ∈ p.threads, t.Done) ∧ p.store.limiter.get .window = hundred.get .window ∧
      ¬ LastCarried fiveSeconds hundred crossingUpdates p := by
  refine ⟨_, rfl, by decide, rfl, fun h => ?_⟩
  rcases h (by decide) .window with ⟨-, hnone⟩ | ⟨i, t, hi, hcar, -⟩
  · exact absurd (hnone _ (List.mem_cons_of_mem _ List.mem_cons_self)) (by decide)
  · have hne : ∀ t ∈ [AdminThread.mk (some ⟨some 10, none⟩) (.done (.ok 10 1000000000)),
        ⟨some ⟨none, some "5s"⟩, .done (.ok 100 5000000000)⟩],
        t.carries fiveSeconds .window ≠ some 1000000000 := by decide
    exact hne t (List.mem_of_getElem? hi) hcar

/-- Updates one after the other are kept. -/
theorem serialUpdates_kept :
    ∃ p, run (adminStep fiveSeconds) (AdminSystem.initial hundred) serialUpdates = some p ∧
      Always (adminStep fiveSeconds) NotUndone (AdminSystem.initial hundred) serialUpdates ∧
      LastCarried fiveSeconds hundred serialUpdates p :=
  ⟨_, rfl, (updates_kept_iff fiveSeconds hundred serialUpdates _ rfl).2 (by decide)⟩

end Race

end Gateway
