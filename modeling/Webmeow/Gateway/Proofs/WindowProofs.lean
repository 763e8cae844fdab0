import Webmeow.Gateway.Proofs.RateLimitProofs
import Webmeow.Lib.FixedWindow

/-!
# The windows of a key

The limiter keeps one window for each key, so the calls for a key are decided as if there were no
others, and they are paced in fixed windows.
-/

namespace Gateway

open FixedWindow

/-! ## The calls for one key -/

/-- Two limiters with the same settings that have counted the same for a key. -/
structure AgreeOn (key : String) (rl rl' : RateLimiter) : Prop where
  /-- The limits agree. -/
  limit : rl.limit = rl'.limit
  /-- The window lengths agree. -/
  perNs : rl.perNs = rl'.perNs
  /-- The windows of the client agree. -/
  lookup : rl.clients.lookup key = rl'.clients.lookup key

theorem AgreeOn.window {key : String} {rl rl' : RateLimiter} (h : AgreeOn key rl rl') (now : ℤ) :
    rl.window key now = rl'.window key now := by
  unfold RateLimiter.window
  rw [h.lookup, h.perNs]

/-- Limiters that agree on a client answer it alike. -/
theorem AgreeOn.answer {c : AllowCall} {rl rl' : RateLimiter} (h : AgreeOn c.key rl rl') :
    rl.answer c = rl'.answer c := by
  unfold RateLimiter.answer
  rw [(allow_spec rl c.key c.now).1, (allow_spec rl' c.key c.now).1, h.window, h.limit]

/-- Limiters that agree on a client do so after its call. -/
theorem AgreeOn.allow {c : AllowCall} {rl rl' : RateLimiter} (h : AgreeOn c.key rl rl') :
    AgreeOn c.key (rl.allow c.key c.now).1 (rl'.allow c.key c.now).1 := by
  obtain ⟨hpass, hlimit, hper, -, hlookup⟩ := allow_spec rl c.key c.now
  obtain ⟨hpass', hlimit', hper', -, hlookup'⟩ := allow_spec rl' c.key c.now
  refine ⟨by rw [hlimit, hlimit', h.limit], by rw [hper, hper', h.perNs], ?_⟩
  rw [hlookup, hlookup', hpass, hpass', h.window, h.limit]

/-- The call of another client does not matter. -/
theorem AgreeOn.allow_other {key : String} {c : AllowCall} {rl rl' : RateLimiter}
    (h : AgreeOn key rl rl') (hne : c.key ≠ key) : AgreeOn key (rl.allow c.key c.now).1 rl' := by
  obtain ⟨-, hlimit, hper, hothers, -⟩ := allow_spec rl c.key c.now
  exact ⟨hlimit.trans h.limit, hper.trans h.perNs, (hothers key hne.symm).trans h.lookup⟩

/-- **Independence**: the calls for a key are answered as they would be alone. -/
theorem AgreeOn.answers {key : String} {rl rl' : RateLimiter} (h : AgreeOn key rl rl')
    (cs : List AllowCall) : (rl.answers cs).filter (fun a => a.key = key) =
      rl'.answers (cs.filter fun c => c.key = key) := by
  induction cs generalizing rl rl' with
  | nil => rfl
  | cons c cs ih =>
    have hcons : rl.answers (c :: cs) = rl.answer c :: (rl.allow c.key c.now).1.answers cs := rfl
    rw [hcons]
    by_cases hkey : c.key = key
    · subst hkey
      have hanswer : (rl.answer c).key = c.key := rfl
      rw [List.filter_cons_of_pos (by simpa using hanswer), List.filter_cons_of_pos (by simp),
        h.answer, ih h.allow]
      rfl
    · rw [List.filter_cons_of_neg (by simp [RateLimiter.answer, hkey]),
        List.filter_cons_of_neg (by simp [hkey]), ih (h.allow_other hkey)]

/-! ## The calls for one key are paced -/

/-- An answer as a decision in a window of the length `per`. -/
def AllowAnswer.decision (per : ℤ) (a : AllowAnswer) : Decision ℤ :=
  ⟨a.now, a.reset - per, a.admitted⟩

/-- The limiter has counted what was admitted for the key in the last window of these decisions. -/
structure Tracks (limit per : ℤ) (key : String) (rl : RateLimiter) (ds : List (Decision ℤ)) :
    Prop where
  /-- The limit is the given one. -/
  limit_eq : rl.limit = limit
  /-- The window length is the given one. -/
  per_eq : rl.perNs = per
  /-- The decisions are those of fixed windows. -/
  paced : Paced limit per ds
  /-- A client that is not listed was never decided on. -/
  fresh : rl.clients.lookup key = none → ds = []
  /-- The window listed is the last one opened. -/
  current : ∀ w, rl.clients.lookup key = some w →
    w.count = admittedIn ds (w.reset - per) ∧ (∃ e ∈ ds, e.opened = w.reset - per) ∧
      ∀ e ∈ ds, e.opened = w.reset - per ∨ e.opened + per < w.reset - per

section Step

variable {limit per : ℤ} {key : String} {rl : RateLimiter} {ds : List (Decision ℤ)} {now : ℤ}

/-- A new limiter has decided nothing. -/
theorem tracks_new (limit per : ℤ) (key : String) :
    Tracks limit per key (newRateLimiter limit per) [] where
  limit_eq := rfl
  per_eq := rfl
  paced := .nil
  fresh _ := rfl
  current _ h := by cases h

/-- A window that opens now has nothing in it, and comes after the end of all others. -/
theorem opens_empty (hper : 0 < per) (hover : ∀ e ∈ ds, e.opened + per < now) :
    admittedIn ds now = 0 := by
  refine List.countP_eq_zero.2 fun e he hin => ?_
  have hopened := (of_decide_eq_true hin).2
  have := hover e he
  omega

/-- The window that counts for a call. -/
theorem window_spec (hper : 0 < per) (h : Tracks limit per key rl ds)
    (hnow : ∀ e ∈ ds, e.now ≤ now) :
    (rl.window key now).count = admittedIn ds ((rl.window key now).reset - per) ∧
      (∀ e ∈ ds, e.opened = (rl.window key now).reset - per ∨
        e.opened + per < (rl.window key now).reset - per) ∧
      (rl.window key now).reset - per ≤ now ∧ now ≤ (rl.window key now).reset := by
  unfold RateLimiter.window
  cases hw : rl.clients.lookup key with
  | none =>
    have hds := h.fresh hw
    subst hds
    simp only [h.per_eq]
    exact ⟨rfl, nofun, by omega, by omega⟩
  | some w =>
    obtain ⟨hcount, ⟨last, hlast, hopened⟩, hapart⟩ := h.current w hw
    have hwithin := (h.paced.within hlast).1
    have hlastnow := hnow last hlast
    simp only
    split_ifs with hreset
    · have hover : ∀ e ∈ ds, e.opened + per < now := by
        intro e he
        rcases hapart e he with heq | hlt
        · omega
        · omega
      have hsub : now + per - per = now := by omega
      simp only [h.per_eq, hsub]
      rw [opens_empty hper hover]
      exact ⟨rfl, fun e he => Or.inr (hover e he), le_rfl, by omega⟩
    · exact ⟨hcount, hapart, by omega, by omega⟩

/-- A call for the key is one more decision. -/
theorem Tracks.allow (hper : 0 < per) {c : AllowCall} (h : Tracks limit per c.key rl ds)
    (hnow : ∀ e ∈ ds, e.now ≤ c.now) :
    Tracks limit per c.key (rl.allow c.key c.now).1 (ds ++ [(rl.answer c).decision per]) := by
  obtain ⟨hpass, hlimit, hperNs, -, hlookup⟩ := allow_spec rl c.key c.now
  obtain ⟨hcount, hapart, hfrom, hto⟩ := window_spec hper h hnow
  refine ⟨hlimit.trans h.limit_eq, hperNs.trans h.per_eq, ?_, ?_, ?_⟩
  · refine .concat h.paced (fun e he => ⟨hnow e he, hapart e he⟩) hfrom ?_ ?_
    · show c.now ≤ (rl.window c.key c.now).reset - per + per
      omega
    · show (rl.allow c.key c.now).2 = true ↔ _
      rw [hpass, decide_eq_true_eq, hcount, h.limit_eq]
      rfl
  · intro hnone
    rw [hnone] at hlookup
    cases hlookup
  · intro w hw
    rw [hlookup, Option.some.injEq] at hw
    subst hw
    refine ⟨?_, ⟨_, List.mem_append_right _ List.mem_cons_self, rfl⟩, fun e he => ?_⟩
    · rw [admittedIn_concat]
      simp only [AllowAnswer.decision, RateLimiter.answer, and_true, hcount]
      push_cast
      rfl
    · rcases List.mem_append.1 he with he | he
      · exact hapart e he
      · rw [List.mem_singleton.1 he]
        exact Or.inl rfl

/-- The answers for the key go on from what the limiter has counted. -/
theorem Tracks.answers (hper : 0 < per) {cs : List AllowCall} (h : Tracks limit per key rl ds)
    (hkey : ∀ c ∈ cs, c.key = key) (hsorted : cs.Pairwise fun c c' => c.now ≤ c'.now)
    (hnow : ∀ e ∈ ds, ∀ c ∈ cs, e.now ≤ c.now) :
    Paced limit per (ds ++ (rl.answers cs).map (AllowAnswer.decision per)) := by
  induction cs generalizing rl ds with
  | nil =>
    rw [RateLimiter.answers, List.map_nil, List.append_nil]
    exact h.paced
  | cons c cs ih =>
    obtain ⟨hc, hcs⟩ := List.pairwise_cons.1 hsorted
    have hck := hkey c List.mem_cons_self
    subst hck
    have hstep := h.allow hper fun e he => hnow e he c List.mem_cons_self
    have hrest := ih hstep (fun c' hc' => hkey c' (List.mem_cons_of_mem _ hc')) hcs ?_
    · rwa [List.append_assoc, List.singleton_append] at hrest
    · intro e he c' hc'
      rcases List.mem_append.1 he with he | he
      · exact hnow e he c' (List.mem_cons_of_mem _ hc')
      · rw [List.mem_singleton.1 he]
        exact hc c' hc'

end Step

/-! ## The bounds -/

/-- How many calls for the key were admitted from `s` to `t`, both included. -/
def admittedOf (key : String) (s t : ℤ) (as : List AllowAnswer) : ℕ :=
  as.countP fun a => decide (a.key = key ∧ a.admitted = true ∧ s ≤ a.now ∧ a.now ≤ t)

/-- The decisions for the key among some answers. -/
def decisionsFor (per : ℤ) (key : String) (as : List AllowAnswer) : List (Decision ℤ) :=
  (as.filter fun a => a.key = key).map (AllowAnswer.decision per)

/-- The admitted calls are the admitted decisions. -/
theorem admittedOf_eq (per : ℤ) (key : String) (s t : ℤ) (as : List AllowAnswer) :
    admittedOf key s t as = admittedBetween (decisionsFor per key as) s t := by
  unfold admittedOf admittedBetween decisionsFor
  rw [List.countP_map, List.countP_filter]
  refine List.countP_congr fun a _ => ?_
  rw [decide_eq_true_eq, Bool.and_eq_true, Function.comp_apply, decide_eq_true_eq,
    decide_eq_true_eq]
  exact and_comm

theorem decisionsFor_append (per : ℤ) (key : String) (as bs : List AllowAnswer) :
    decisionsFor per key (as ++ bs) = decisionsFor per key as ++ decisionsFor per key bs := by
  simp [decisionsFor]

theorem decisionsFor_cons {per : ℤ} {key : String} {a : AllowAnswer} (h : a.key = key)
    (as : List AllowAnswer) :
    decisionsFor per key (a :: as) = a.decision per :: decisionsFor per key as := by
  simp [decisionsFor, h]

/-- The decisions for a key in a run of a new limiter. -/
theorem decisionsFor_paced (limit : ℤ) {per : ℤ} (hper : 0 < per) (key : String)
    {calls : List AllowCall} (hsorted : calls.Pairwise fun c c' => c.now ≤ c'.now) :
    Paced limit per (decisionsFor per key ((newRateLimiter limit per).answers calls)) := by
  have hsame : AgreeOn key (newRateLimiter limit per) (newRateLimiter limit per) := ⟨rfl, rfl, rfl⟩
  unfold decisionsFor
  rw [hsame.answers]
  refine (tracks_new limit per key).answers hper (fun c hc => ?_) (hsorted.filter _) nofun
  exact of_decide_eq_true (List.mem_filter.1 hc).2

/-- **Fixed windows of a key**: with a constant limit and window length, for every sequence of calls at
times that do not decrease, at most `limit` calls of a key are admitted from the opening of one of its
windows to its end, and at most twice as many in any interval as long as a window; a call is refused
only if `limit` calls of its key have been admitted in its window; and the calls of the key are answered
as they would be without all others. -/
theorem fixed_window_bound (limit per : ℤ) (hlimit : 0 < limit) (hper : 0 < per)
    (calls : List AllowCall) (hsorted : calls.Pairwise fun c c' => c.now ≤ c'.now) (key : String) :
    (∀ a ∈ (newRateLimiter limit per).answers calls, a.key = key →
      (admittedOf key (a.reset - per) a.reset ((newRateLimiter limit per).answers calls) : ℤ) ≤
        limit) ∧
    (∀ s : ℤ, (admittedOf key s (s + per) ((newRateLimiter limit per).answers calls) : ℤ) ≤
      2 * limit) ∧
    (∀ before a after, (newRateLimiter limit per).answers calls = before ++ a :: after →
      a.key = key → a.admitted = false →
        (admittedOf key (a.reset - per) a.now before : ℤ) = limit) ∧
    ((newRateLimiter limit per).answers calls).filter (fun a => a.key = key) =
      (newRateLimiter limit per).answers (calls.filter fun c => c.key = key) := by
  have hpaced := decisionsFor_paced limit hper key hsorted
  refine ⟨fun a ha hkey => ?_, fun s => ?_, fun before a after hsplit hkey hrefused => ?_, ?_⟩
  · have hin : a.decision per ∈ decisionsFor per key ((newRateLimiter limit per).answers calls) :=
      List.mem_map_of_mem (List.mem_filter.2 ⟨ha, decide_eq_true hkey⟩)
    have hbound := hpaced.admittedBetween_window_le hlimit.le hin
    rw [← admittedOf_eq] at hbound
    have hend : (a.decision per).opened + per = a.reset := sub_add_cancel a.reset per
    rwa [hend] at hbound
  · rw [admittedOf_eq per]
    exact hpaced.admittedBetween_le hlimit.le s
  · rw [hsplit, decisionsFor_append, decisionsFor_cons hkey] at hpaced
    rw [admittedOf_eq per]
    exact hpaced.refused hlimit.le hrefused
  · exact AgreeOn.answers ⟨rfl, rfl, rfl⟩ calls

/-- Two clients; the third request of the first one is refused, and the one after the window passes. -/
def twoClients : List AllowCall :=
  [⟨"10.0.0.7:50001", 0⟩, ⟨"10.0.0.8:50002", 1⟩, ⟨"10.0.0.7:50001", 4⟩, ⟨"10.0.0.7:50001", 10⟩,
    ⟨"10.0.0.7:50001", 11⟩]

example : ((newRateLimiter 2 10).answers twoClients).map AllowAnswer.admitted =
    [true, true, true, false, true] := by
  decide

/-- Two clients each stay within their bound. -/
theorem twoClients_within_bounds :
    admittedOf "10.0.0.7:50001" 4 14 ((newRateLimiter 2 10).answers twoClients) = 2 ∧
      (admittedOf "10.0.0.7:50001" 4 14 ((newRateLimiter 2 10).answers twoClients) : ℤ) ≤ 2 * 2 :=
  ⟨by decide, (fixed_window_bound 2 10 (by decide) (by decide) twoClients (by decide)
    "10.0.0.7:50001").2.1 4⟩

end Gateway
