import Mathlib.Algebra.Order.Monoid.Defs
import Mathlib.Algebra.Order.Ring.Int
import Mathlib.Data.List.Induction

/-!
# Counting in fixed windows that open on demand

A window opens at a call that comes after the end of the last one, and admits a number of calls. A list
of decisions is `Paced` if each was taken so. At most `limit` calls are admitted in a window, and at
most twice as many in any interval that is as long as one, since it meets two windows at most.
-/

namespace FixedWindow

/-- A call, the time at which its window opened, and whether it was admitted. -/
structure Decision (T : Type*) where
  /-- When it was made. -/
  now : T
  /-- When its window opened. -/
  opened : T
  /-- Whether the call was admitted. -/
  admitted : Bool

variable {T : Type*} [LinearOrder T]

/-- The calls that were admitted in the window that opened at `u`. -/
def admittedIn (ds : List (Decision T)) (u : T) : ℕ :=
  ds.countP fun d => decide (d.admitted = true ∧ d.opened = u)

/-- The calls that were admitted from `s` to `t`, both included. -/
def admittedBetween (ds : List (Decision T)) (s t : T) : ℕ :=
  ds.countP fun d => decide (d.admitted = true ∧ s ≤ d.now ∧ d.now ≤ t)

theorem admittedIn_concat (ds : List (Decision T)) (d : Decision T) (u : T) :
    admittedIn (ds ++ [d]) u =
      admittedIn ds u + if d.admitted = true ∧ d.opened = u then 1 else 0 := by
  simp [admittedIn, List.countP_append, List.countP_cons]

variable [Add T]

/-- Each decision is taken in a window that is not over, the last one or one that opens after its end,
and admits the call just if the window has room. -/
inductive Paced (limit : ℤ) (per : T) : List (Decision T) → Prop
  /-- No decision was made. -/
  | nil : Paced limit per []
  /-- A decision is made in the last window or in one that opens after it. -/
  | concat {ds : List (Decision T)} {d : Decision T} : Paced limit per ds →
      (∀ e ∈ ds, e.now ≤ d.now ∧ (e.opened = d.opened ∨ e.opened + per < d.opened)) →
      d.opened ≤ d.now → d.now ≤ d.opened + per →
      (d.admitted = true ↔ (admittedIn ds d.opened : ℤ) < limit) → Paced limit per (ds ++ [d])

variable {limit : ℤ} {per : T} {ds : List (Decision T)} {d e : Decision T}

/-- A decision is made within its window. -/
theorem Paced.within (h : Paced limit per ds) (hd : d ∈ ds) :
    d.opened ≤ d.now ∧ d.now ≤ d.opened + per := by
  induction h with
  | nil => cases hd
  | concat _ _ hopened hover _ ih =>
    rcases List.mem_append.1 hd with hd | hd
    · exact ih hd
    · rw [List.mem_singleton.1 hd]
      exact ⟨hopened, hover⟩

/-- Decisions are in order, and so are their windows. -/
theorem Paced.ordered (h : Paced limit per ds) :
    ds.Pairwise fun d e => d.now ≤ e.now ∧ (d.opened = e.opened ∨ d.opened + per < e.opened) := by
  induction h with
  | nil => exact List.Pairwise.nil
  | concat _ hlast _ _ _ ih =>
    refine List.pairwise_append.2 ⟨ih, List.pairwise_singleton _ _, fun e he d' hd' => ?_⟩
    rw [List.mem_singleton.1 hd']
    exact hlast e he

/-- Two windows are the same, or one opens after the end of the other. -/
theorem Paced.apart (h : Paced limit per ds) (hd : d ∈ ds) (he : e ∈ ds) :
    d.opened = e.opened ∨ d.opened + per < e.opened ∨ e.opened + per < d.opened := by
  have hforward : ds.Pairwise fun d e =>
      d.opened = e.opened ∨ d.opened + per < e.opened ∨ e.opened + per < d.opened :=
    h.ordered.imp fun hde => hde.2.imp_right Or.inl
  have hbackward : ds.Pairwise (flip fun d e : Decision T =>
      d.opened = e.opened ∨ d.opened + per < e.opened ∨ e.opened + per < d.opened) :=
    h.ordered.imp fun hde => hde.2.imp Eq.symm Or.inr
  have hself : ∀ d ∈ ds,
      d.opened = d.opened ∨ d.opened + per < d.opened ∨ d.opened + per < d.opened :=
    fun d _ => Or.inl rfl
  exact List.Pairwise.forall_of_forall_of_flip hself hforward hbackward hd he

/-- Whoever calls between the opening and the end of a window calls in it. -/
theorem Paced.opened_eq (h : Paced limit per ds) (hd : d ∈ ds) (he : e ∈ ds)
    (hfrom : d.opened ≤ e.now) (hto : e.now ≤ d.opened + per) : e.opened = d.opened := by
  obtain ⟨hopened, hover⟩ := h.within he
  rcases h.apart hd he with heq | hlt | hlt
  · exact heq.symm
  · exact absurd (hopened.trans hto) (not_le.2 hlt)
  · exact absurd (hfrom.trans hover) (not_le.2 hlt)

/-! ## One window -/

/-- No window admits more than the limit. -/
theorem Paced.admittedIn_le (h : Paced limit per ds) (hlimit : 0 ≤ limit) (u : T) :
    (admittedIn ds u : ℤ) ≤ limit := by
  induction h with
  | nil => exact hlimit
  | concat _ _ _ _ hroom ih =>
    rw [admittedIn_concat]
    split_ifs with hin
    · have hlt := hroom.1 hin.1
      rw [hin.2] at hlt
      push_cast
      omega
    · simpa using ih

/-- **The bound of a window**: between its opening and its end at most `limit` calls are admitted. -/
theorem Paced.admittedBetween_window_le (h : Paced limit per ds) (hlimit : 0 ≤ limit) (hd : d ∈ ds) :
    (admittedBetween ds d.opened (d.opened + per) : ℤ) ≤ limit := by
  have hle : admittedBetween ds d.opened (d.opened + per) ≤ admittedIn ds d.opened := by
    refine List.countP_mono_left fun e he hin => ?_
    obtain ⟨hadmitted, hfrom, hto⟩ := of_decide_eq_true hin
    exact decide_eq_true ⟨hadmitted, h.opened_eq hd he hfrom hto⟩
  have hbound := h.admittedIn_le hlimit d.opened
  omega

/-- When a decision may follow. -/
theorem Paced.concat_iff : Paced limit per (ds ++ [d]) ↔ Paced limit per ds ∧
    (∀ e ∈ ds, e.now ≤ d.now ∧ (e.opened = d.opened ∨ e.opened + per < d.opened)) ∧
      d.opened ≤ d.now ∧ d.now ≤ d.opened + per ∧
        (d.admitted = true ↔ (admittedIn ds d.opened : ℤ) < limit) := by
  constructor
  · intro h
    generalize hl : ds ++ [d] = l at h
    cases h with
    | nil => simp at hl
    | concat hpaced hlast hopened hover hroom =>
      obtain ⟨rfl, he⟩ := List.append_inj' hl rfl
      cases he
      exact ⟨hpaced, hlast, hopened, hover, hroom⟩
  · rintro ⟨hpaced, hlast, hopened, hover, hroom⟩
    exact .concat hpaced hlast hopened hover hroom

theorem Paced.of_append {es : List (Decision T)} (h : Paced limit per (ds ++ es)) :
    Paced limit per ds := by
  induction es using List.reverseRecOn with
  | nil => rwa [List.append_nil] at h
  | append_singleton es e ih =>
    rw [← List.append_assoc] at h
    exact ih (concat_iff.1 h).1

/-- **Refusals**: a call is refused only if `limit` calls have been admitted since its window opened. -/
theorem Paced.refused (hlimit : 0 ≤ limit) {before after : List (Decision T)}
    (h : Paced limit per (before ++ d :: after)) (hd : d.admitted = false) :
    (admittedBetween before d.opened d.now : ℤ) = limit := by
  rw [← List.singleton_append, ← List.append_assoc] at h
  have hpaced := h.of_append
  obtain ⟨hbefore, hlast, -, hover, hroom⟩ := concat_iff.1 hpaced
  have hsame : admittedBetween before d.opened d.now = admittedIn before d.opened := by
    refine List.countP_congr fun e he => ?_
    rw [decide_eq_true_eq, decide_eq_true_eq]
    refine and_congr_right fun _ => ⟨fun ⟨hfrom, hto⟩ => ?_, fun heq => ?_⟩
    · exact hpaced.opened_eq (List.mem_append_right _ List.mem_cons_self)
        (List.mem_append_left _ he) hfrom (hto.trans hover)
    · rw [← heq]
      exact ⟨(hbefore.within he).1, (hlast e he).1⟩
  have hfull : ¬(admittedIn before d.opened : ℤ) < limit := fun hlt => by
    rw [hroom.2 hlt] at hd
    cases hd
  have hbound := hbefore.admittedIn_le hlimit d.opened
  rw [hsame]
  omega

/-! ## Two windows -/

section Interval

variable [AddRightMono T]

/-- An interval as long as a window that meets a window and a later one ends before a third. -/
theorem interval_meets_two {s u v : T} {x y : T} (hsx : s ≤ x) (hxu : x ≤ u + per)
    (huv : u + per < v) (hvy : v + per < y) : ¬y ≤ s + per := by
  intro hy
  have hsv : s + per ≤ v + per := add_le_add_left ((hsx.trans hxu).trans huv.le) per
  exact absurd (hvy.trans_le (hy.trans hsv)) (lt_irrefl _)

/-- The calls in an interval as long as a window are in two windows at most. -/
theorem Paced.two_windows (h : Paced limit per ds) (s : T) :
    ∃ u v, ∀ d ∈ ds, s ≤ d.now → d.now ≤ s + per → d.opened = u ∨ d.opened = v := by
  obtain ⟨inside, hinside⟩ : ∃ l, l = ds.filter fun d => decide (s ≤ d.now ∧ d.now ≤ s + per) :=
    ⟨_, rfl⟩
  have hmem : ∀ {d}, d ∈ inside ↔ d ∈ ds ∧ s ≤ d.now ∧ d.now ≤ s + per := by
    intro d
    rw [hinside, List.mem_filter, decide_eq_true_eq]
  have hordered : inside.Pairwise fun d e => d.opened = e.opened ∨ d.opened + per < e.opened := by
    rw [hinside]
    exact (h.ordered.imp And.right).filter _
  cases inside with
  | nil => exact ⟨s, s, fun d hd hfrom hto => absurd (hmem.2 ⟨hd, hfrom, hto⟩) List.not_mem_nil⟩
  | cons a rest =>
    obtain ⟨ha, hsa, -⟩ := hmem.1 List.mem_cons_self
    have hfirst := (List.pairwise_cons.1 hordered).1
    -- `a` is in the first window of the interval, `e` in another one
    by_cases hone : ∀ e ∈ rest, a.opened = e.opened
    · refine ⟨a.opened, a.opened, fun d hd hfrom hto => Or.inl ?_⟩
      rcases List.mem_cons.1 (hmem.2 ⟨hd, hfrom, hto⟩) with rfl | hin
      · rfl
      · exact (hone d hin).symm
    · push Not at hone
      obtain ⟨e, he, hne⟩ := hone
      obtain ⟨heds, -, hes⟩ := hmem.1 (List.mem_cons_of_mem _ he)
      refine ⟨a.opened, e.opened, fun d hd hfrom hto => ?_⟩
      rcases List.mem_cons.1 (hmem.2 ⟨hd, hfrom, hto⟩) with rfl | hin
      · exact Or.inl rfl
      · by_contra hthree
        obtain ⟨hda, hde⟩ := not_or.1 hthree
        have hae := (hfirst e he).resolve_left hne
        have had := (hfirst d hin).resolve_left fun heq => hda heq.symm
        have hover := (h.within ha).2
        rcases h.apart heds hd with heq | hlt | hlt
        · exact hde heq.symm
        · exact interval_meets_two hsa hover hae hlt ((h.within hd).1.trans hto)
        · exact interval_meets_two hsa hover had hlt ((h.within heds).1.trans hes)

theorem countP_le_add {α : Type*} {p q r : α → Bool} {l : List α}
    (h : ∀ a ∈ l, p a = true → q a = true ∨ r a = true) : l.countP p ≤ l.countP q + l.countP r := by
  induction l with
  | nil => exact Nat.zero_le _
  | cons a l ih =>
    have hrest := ih fun b hb => h b (List.mem_cons_of_mem _ hb)
    have ha := h a List.mem_cons_self
    rw [List.countP_cons, List.countP_cons, List.countP_cons]
    by_cases hp : p a = true
    · rcases ha hp with hq | hr
      · rw [if_pos hp, if_pos hq]
        split_ifs <;> omega
      · rw [if_pos hp, if_pos hr]
        split_ifs <;> omega
    · rw [if_neg hp]
      split_ifs <;> omega

/-- **The bound of an interval** that is as long as a window. -/
theorem Paced.admittedBetween_le (h : Paced limit per ds) (hlimit : 0 ≤ limit) (s : T) :
    (admittedBetween ds s (s + per) : ℤ) ≤ 2 * limit := by
  obtain ⟨u, v, huv⟩ := h.two_windows s
  have hle : admittedBetween ds s (s + per) ≤ admittedIn ds u + admittedIn ds v := by
    refine countP_le_add fun d hd hin => ?_
    obtain ⟨hadmitted, hfrom, hto⟩ := of_decide_eq_true hin
    rcases huv d hd hfrom hto with heq | heq
    · exact Or.inl (decide_eq_true ⟨hadmitted, heq⟩)
    · exact Or.inr (decide_eq_true ⟨hadmitted, heq⟩)
  have hu := h.admittedIn_le hlimit u
  have hv := h.admittedIn_le hlimit v
  omega

end Interval

end FixedWindow
