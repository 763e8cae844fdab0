import Webmeow.Lib.Runs
import Webmeow.Tokens.Session
import Webmeow.Tokens.Proofs.SpendProofs

/-!
# What the wallet can pay out

The worth of a guest is the balance and the cost of the tracked booking. Credits raise it by what
they credit, and spending and refunding a tracked booking never raise it. Only the refund of a
booking that the wallet does not track does.
-/

namespace Tokens

open Records Runs

/-- The value is a number only if the other one is, and it is not the larger one. -/
def Amount.NoMore (x y : Amount) : Prop := ∀ n, x = .number n → ∃ m, y = .number m ∧ n ≤ m

theorem Amount.NoMore.refl (x : Amount) : x.NoMore x := fun n hn => ⟨n, hn, Int.le_refl n⟩

theorem Amount.NoMore.trans {x y z : Amount} (h : x.NoMore y) (h' : y.NoMore z) : x.NoMore z := by
  intro n hn
  obtain ⟨m, hm, hle⟩ := h n hn
  obtain ⟨k, hk, hle'⟩ := h' m hm
  exact ⟨k, hk, Int.le_trans hle hle'⟩

theorem Amount.number_noMore_iff {x : Amount} {m : Int} :
    x.NoMore (.number m) ↔ ∀ n, x = .number n → n ≤ m := by
  constructor
  · intro h n hn
    obtain ⟨k, hk, hle⟩ := h n hn
    cases hk
    exact hle
  · intro h n hn
    exact ⟨m, rfl, h n hn⟩

/-- No guest is worth more than was credited. -/
def NoMint (s : Session) : Prop := ∀ g, (s.wallet.worth g).NoMore (.number (s.credited g))

/-- The step settles a cancellation for a guest for whom the wallet tracks no booking. -/
def refundsUntracked (s : Session) : Action → Bool
  | .settle i =>
    match s.mutations[i]? with
    | some (.cancel g _ _, .succeeded) => s.wallet.unbooked g
    | _ => false
  | _ => false

/-! ## Prices -/

/-- No activity is free, where its price is a number. -/
theorem getActivityTokenCost_pos {activity : Activity} {cost : Int}
    (h : getActivityTokenCost activity = .number cost) : 0 < cost := by
  have hids : ∀ p ∈ activityTokenCostById, 0 < p.2 := by decide
  have hnames : ∀ p ∈ activityTokenCostByName, 0 < p.2 := by decide
  have htable : ∀ (entries : List (String × Int)) (key : String), (∀ p ∈ entries, 0 < p.2) →
      costIn (.ofList entries) key = some (.number cost) → 0 < cost := by
    intro entries key hpos hcost
    unfold costIn at hcost
    split at hcost
    · rename_i n hread
      cases hcost
      exact hpos _ (Record.mem_of_read_ofList hread)
    · cases hcost
    · cases hcost
  unfold getActivityTokenCost at h
  cases hid : costIn (.ofList activityTokenCostById) activity.activityId with
  | some x =>
    rw [hid, Option.getD_some] at h
    exact htable _ _ hids (hid.trans (congrArg some h))
  | none =>
    rw [hid, Option.getD_none] at h
    cases hname : costIn (.ofList activityTokenCostByName) activity.activityName with
    | some x =>
      rw [hname, Option.getD_some] at h
      exact htable _ _ hnames (hname.trans (congrArg some h))
    | none =>
      rw [hname, Option.getD_none] at h
      cases h
      decide

/-! ## The worth of a guest -/

namespace WalletState

variable {w w' : WalletState} {g a h : String} {cost : Int} {current : Option String}

theorem worth_congr (hbalance : w'.balances.read h = w.balances.read h)
    (hbooking : w'.activityBookings.read h = w.activityBookings.read h) :
    w'.worth h = w.worth h := by
  unfold worth
  rw [balance_congr hbalance, trackedCost_congr (tracked_congr hbooking)]

/-- A credit raises the worth of its guest by the amount, or does nothing. -/
theorem credit_worth (w : WalletState) (g r : String) (amount : Int) :
    ((w.creditReservationTokens g r amount).1 = true ∧ ∀ h,
        (w.creditReservationTokens g r amount).2.worth h =
          if h = g then (w.worth h).add amount else w.worth h) ∨
      w.creditReservationTokens g r amount = (false, w) := by
  rcases credit_cases w g r amount with ⟨-, hs⟩ | ⟨-, -, hs⟩
  · exact Or.inr hs
  · refine Or.inl ⟨by rw [hs], fun h => ?_⟩
    rw [hs]
    by_cases hg : h = g
    · subst hg
      rw [if_pos rfl, worth, balance_set_self rfl]
      show ((w.balance h).add amount).add (w.trackedCost h) = _
      unfold worth
      cases w.balance h with
      | notNumber => rfl
      | number n =>
        simp only [Amount.add_number, Amount.number.injEq]
        omega
    · rw [if_neg hg]
      exact worth_congr (Record.read_set_of_ne hg _ _) rfl

/-- The refund is at most the tracked cost. -/
theorem getRefundableCost_le (current : Option String) (hw : 0 ≤ w.trackedCost g) :
    w.getRefundableCost g current ≤ w.trackedCost g := by
  unfold trackedCost at hw ⊢
  unfold getRefundableCost
  cases hb : w.tracked g with
  | none => exact Int.le_refl 0
  | some tracked =>
    rw [hb] at hw
    dsimp only
    split_ifs
    · exact Int.le_refl _
    · exact hw

/-- Spending exchanges balance for a booking of the same cost; a tracked booking may be lost, but
nothing is won. -/
theorem spend_worth (hw : 0 ≤ w.trackedCost g) (h : String) :
    ((w.spendActivityTokens g a cost current).2.worth h).NoMore (w.worth h) := by
  by_cases hg : h = g
  · subst hg
    rcases spend_cases w h a cost current with ⟨-, hs⟩ | ⟨-, -, hs⟩ | ⟨-, -, hs⟩
    · rw [hs]
      exact .refl _
    · rw [hs]
      exact .refl _
    · have hle := getRefundableCost_le current hw
      rw [hs, worth, balance_set_self rfl, trackedCost, tracked_set_self rfl, worth, nextBalance]
      intro n hn
      cases hb : w.balance h with
      | notNumber => rw [hb] at hn; cases hn
      | number b =>
        rw [hb] at hn
        cases hn
        refine ⟨b + w.trackedCost h, rfl, ?_⟩
        show b + w.getRefundableCost h current - cost + cost ≤ b + w.trackedCost h
        omega
  · have hworth : (w.spendActivityTokens g a cost current).2.worth h = w.worth h :=
      worth_congr (spend_others hg).1 (spend_others hg).2
    rw [hworth]
    exact .refl _

/-- What is paid back is worth as much in the balance as in the booking. -/
theorem payBack_worth (w : WalletState) (g : String) (cost : Int) :
    (w.payBack g (.number cost)).worth g = (w.balance g).add cost := by
  rw [worth, payBack_balance_self, trackedCost, payBack_tracked_self, Amount.plus_number]
  cases w.balance g with
  | notNumber => rfl
  | number n =>
    simp only [Amount.add_number, Option.map_none, Option.getD_none, Int.add_zero]

/-- A refund where a booking is tracked exchanges it for balance. -/
theorem refund_worth_tracked {fallback : Amount} (hw : w.unbooked g = false) (h : String) :
    (w.refundActivityTokens g a fallback).2.worth h = w.worth h := by
  by_cases hg : h = g
  · subst hg
    rcases refund_cases w h a fallback with ⟨booking, hb, hs⟩ | ⟨hunbooked, -, -⟩ | hs
    · rw [hs, payBack_worth, worth, trackedCost, hb]
      rfl
    · rw [hw] at hunbooked
      cases hunbooked
    · rw [hs]
  · exact worth_congr (refund_others hg).1 (refund_others hg).2

/-- A guest without a booking has none tracked. -/
theorem tracked_of_unbooked (hw : w.unbooked g = true) : w.tracked g = none := by
  unfold unbooked at hw
  unfold tracked
  cases hread : w.activityBookings.read g with
  | inherited => rfl
  | absent => rfl
  | own booking =>
    cases booking with
    | none => rfl
    | some booking =>
      rw [hread] at hw
      cases hw

/-- A refund where no booking is tracked pays the fallback cost out of nothing. -/
theorem refund_worth_untracked (hw : w.unbooked g = true) (hcost : 0 < cost) :
    (w.refundActivityTokens g a (.number cost)).2.worth g = (w.worth g).add cost := by
  have htracked := tracked_of_unbooked hw
  have hle : (Amount.number cost).le 0 = false := by
    rw [Amount.le_number, decide_eq_false_iff_not]
    omega
  have hpaid := refund_unbooked hw a (.number cost)
  rw [hle, if_neg Bool.false_ne_true] at hpaid
  rw [hpaid, payBack_worth, worth, trackedCost, htracked]
  cases w.balance g with
  | notNumber => rfl
  | number n =>
    simp only [Amount.add_number, Option.map_none, Option.getD_none, Int.add_zero]

end WalletState

/-! ## Sessions -/

/-- The cost that a mutation carries. -/
def Mutation.cost : Mutation → Amount
  | .book _ _ cost _ => .number cost
  | .cancel _ _ cost => cost

/-- Prices that are numbers are positive, and the wallet has no debts. -/
structure Priced (s : Session) : Prop where
  /-- The costs of the mutations are positive. -/
  mutations : ∀ m ∈ s.mutations, ∀ cost, m.1.cost = .number cost → 0 < cost
  /-- No balance is negative. -/
  solvent : s.wallet.Solvent

/-- `onSuccess` leaves no negative balance. -/
theorem onSuccess_solvent {w : WalletState} {m : Mutation}
    (hm : ∀ cost, m.cost = .number cost → 0 < cost) (hw : w.Solvent) : (onSuccess w m).Solvent := by
  cases m with
  | book g a cost current => exact hw.spend g a (Int.le_of_lt (hm cost rfl)) current
  | cancel g a cost => exact hw.refund g a cost

/-- **What a step does**: it credits, it settles a mutation, or it leaves the wallet alone. -/
theorem step_cases {s s' : Session} {e : Action} (hs : s.step e = some s') :
    (∃ g r amount, e = .credit g r amount ∧ s' = s.credit g r amount) ∨
      (∃ i m, e = .settle i ∧ s.mutations[i]? = some (m, .succeeded) ∧
        s' = { s with wallet := onSuccess s.wallet m, mutations := s.mutations.set i (m, .settled) }) ∨
      ((∀ i, e ≠ .settle i) ∧ s'.wallet = s.wallet ∧ s'.credited = s.credited ∧
        ∀ m ∈ s'.mutations, (∃ p, (m.1, p) ∈ s.mutations) ∨
          ∃ activity, m.1.cost = getActivityTokenCost activity) := by
  cases e with
  | credit g r amount => exact Or.inl ⟨g, r, amount, rfl, (Option.some.inj hs).symm⟩
  | book g activity current =>
    simp only [Session.step] at hs
    split at hs
    · cases hs
    · rename_i cost hcost
      split_ifs at hs
      cases hs
      refine Or.inr (Or.inr ⟨nofun, rfl, rfl, fun m hm => ?_⟩)
      rcases List.mem_append.1 hm with hm | hm
      · exact Or.inl ⟨m.2, hm⟩
      · rw [List.mem_singleton.1 hm]
        exact Or.inr ⟨activity, hcost.symm⟩
  | cancel g activity =>
    cases hs
    refine Or.inr (Or.inr ⟨nofun, rfl, rfl, fun m hm => ?_⟩)
    rcases List.mem_append.1 hm with hm | hm
    · exact Or.inl ⟨m.2, hm⟩
    · rw [List.mem_singleton.1 hm]
      exact Or.inr ⟨activity, rfl⟩
  | answer i limit =>
    simp only [Session.step] at hs
    split at hs
    · rename_i m hm
      cases hs
      refine Or.inr (Or.inr ⟨nofun, rfl, rfl, fun m' hm' => ?_⟩)
      rcases List.mem_or_eq_of_mem_set hm' with hm' | rfl
      · exact Or.inl ⟨m'.2, hm'⟩
      · exact Or.inl ⟨.sent, List.mem_of_getElem? hm⟩
    · cases hs
  | settle i =>
    simp only [Session.step] at hs
    split at hs
    · rename_i m hm
      cases hs
      exact Or.inr (Or.inl ⟨i, m, rfl, hm, rfl⟩)
    · cases hs
  | checkIn v =>
    cases hs
    exact Or.inr (Or.inr ⟨nofun, rfl, rfl, fun m hm => Or.inl ⟨m.2, hm⟩⟩)
  | checkOut v =>
    cases hs
    exact Or.inr (Or.inr ⟨nofun, rfl, rfl, fun m hm => Or.inl ⟨m.2, hm⟩⟩)

theorem credit_wallet (s : Session) (g r : String) (amount : Int) :
    (s.credit g r amount).wallet = (s.wallet.creditReservationTokens g r amount).2 ∧
      (s.credit g r amount).mutations = s.mutations := by
  unfold Session.credit
  dsimp only
  split_ifs
  · exact ⟨rfl, rfl⟩
  · exact ⟨rfl, rfl⟩

/-- A step keeps the session priced. -/
theorem step_priced {s s' : Session} {e : Action} (h : Priced s) (hs : s.step e = some s') :
    Priced s' := by
  rcases step_cases hs with ⟨g, r, amount, -, rfl⟩ | ⟨i, m, -, hm, rfl⟩ | ⟨-, hw, -, hm⟩
  · obtain ⟨hwallet, hmut⟩ := credit_wallet s g r amount
    exact ⟨by rw [hmut]; exact h.mutations, by rw [hwallet]; exact h.solvent.credit g r amount⟩
  · have hcost := h.mutations _ (List.mem_of_getElem? hm)
    refine ⟨fun m' hm' => ?_, onSuccess_solvent hcost h.solvent⟩
    rcases List.mem_or_eq_of_mem_set hm' with hm' | rfl
    · exact h.mutations m' hm'
    · exact hcost
  · refine ⟨fun m hmem => ?_, by rw [hw]; exact h.solvent⟩
    rcases hm m hmem with ⟨p, hold⟩ | ⟨activity, hcost⟩
    · exact h.mutations (m.1, p) hold
    · intro cost hnumber
      exact getActivityTokenCost_pos (hcost.symm.trans hnumber)

/-- Settling raises nobody's worth, unless it refunds an untracked booking. -/
theorem onSuccess_worth {s : Session} (h : Priced s) {i : ℕ} {m : Mutation}
    (hm : s.mutations[i]? = some (m, .succeeded)) (hok : refundsUntracked s (.settle i) = false)
    (g : String) : ((onSuccess s.wallet m).worth g).NoMore (s.wallet.worth g) := by
  cases m with
  | book g' a cost current => exact WalletState.spend_worth (h.solvent.tracked g') g
  | cancel g' a cost =>
    have hbooked : s.wallet.unbooked g' = false := by
      simpa only [refundsUntracked, hm] using hok
    rw [onSuccess, WalletState.refund_worth_tracked hbooked]
    exact .refl _

/-- A step that refunds what is tracked mints no tokens. -/
theorem step_noMint (s : Session) (e : Action) (s' : Session) (h : Priced s ∧ NoMint s)
    (hok : refundsUntracked s e = false) (hs : s.step e = some s') : Priced s' ∧ NoMint s' := by
  refine ⟨step_priced h.1 hs, fun g => ?_⟩
  obtain ⟨hpriced, hmint⟩ := h
  rcases step_cases hs with ⟨g', r, amount, -, rfl⟩ | ⟨i, m, rfl, hm, rfl⟩ | ⟨-, hw, hc, -⟩
  · unfold Session.credit
    dsimp only
    rcases WalletState.credit_worth s.wallet g' r amount with ⟨hcredited, hworth⟩ | hsame
    · rw [if_pos hcredited]
      show (WalletState.worth _ g).NoMore
        (.number (Function.update s.credited g' (s.credited g' + amount) g))
      rw [hworth]
      by_cases hg : g = g'
      · subst hg
        rw [if_pos rfl, Function.update_self]
        have hle := Amount.number_noMore_iff.1 (hmint g)
        refine Amount.number_noMore_iff.2 fun n hn => ?_
        cases hworth' : s.wallet.worth g with
        | notNumber => rw [hworth'] at hn; cases hn
        | number m =>
          rw [hworth', Amount.add_number, Amount.number.injEq] at hn
          have := hle m hworth'
          omega
      · rw [if_neg hg, Function.update_of_ne hg]
        exact hmint g
    · rw [hsame]
      exact hmint g
  · exact (onSuccess_worth hpriced hm hok g).trans (hmint g)
  · rw [hw, hc]
    exact hmint g

theorem initial_noMint (db : Beach.Db) :
    Priced (Session.initial db) ∧ NoMint (Session.initial db) := by
  refine ⟨⟨fun _ hm => absurd hm List.not_mem_nil, WalletState.solvent_empty⟩, fun g => ?_⟩
  show (WalletState.empty.worth g).NoMore (.number 0)
  rw [WalletState.worth, WalletState.trackedCost, WalletState.tracked_empty]
  by_cases hg : g ∈ inheritedNames
  · rw [WalletState.balance_empty_inherited hg]
    intro n hn
    cases hn
  · rw [WalletState.balance_empty_ordinary hg]
    exact .refl _

/-- The refund of an untracked booking takes a guest whose worth is all that was credited beyond it. -/
theorem untracked_refund_mints {s s' : Session} {i : ℕ} {g a : String} {cost : Int} (h : Priced s)
    (hm : s.mutations[i]? = some (.cancel g a (.number cost), .succeeded))
    (htight : s.wallet.worth g = .number (s.credited g))
    (hbad : refundsUntracked s (.settle i) = true) (hs : s.step (.settle i) = some s') :
    ¬ NoMint s' := by
  intro hmint
  have hcost : 0 < cost := h.mutations _ (List.mem_of_getElem? hm) cost rfl
  have hunbooked : s.wallet.unbooked g = true := by
    simpa only [refundsUntracked, hm] using hbad
  simp only [Session.step, hm, Option.some.injEq] at hs
  subst hs
  have hle := Amount.number_noMore_iff.1 (hmint g) (s.credited g + cost) (by
    show ((s.wallet.refundActivityTokens g a (.number cost)).2.worth g) = _
    rw [WalletState.refund_worth_untracked hunbooked hcost, htight]
    rfl)
  have hcredited : s.credited g + cost ≤ s.credited g := hle
  omega

/-- **The wallet does not mint** in a session, with any bookings at its start, in which no
cancellation is settled for a guest for whom the wallet tracks no booking: in every state, balance
and tracked cost of every guest are at most what was credited. -/
theorem noMint_of_tracked_refunds (db : Beach.Db) (es : List Action)
    (hok : Throughout Session.step (fun s e => refundsUntracked s e = false) (Session.initial db) es) :
    Always Session.step NoMint (Session.initial db) es :=
  (always_of_throughout step_noMint (initial_noMint db) hok).imp fun _ h => h.2

/-! ## The same cancellation twice -/

/-- The activity of the examples. -/
def volleyball : Activity := ⟨"ACT001", "Beach Volleyball"⟩

/-- A beach with that activity and no booking. -/
def volleyballDb : Beach.Db where
  activities := [⟨"ACT001", "Beach Volleyball", none, 12⟩]
  activityKey := by decide
  visitors := fun _ => none
  bookings := ∅

/-- Four tokens are credited, two are spent and come back, and the cancellation is answered. -/
def bookAndCancel : List Action :=
  [.credit "ann" "r1" 4, .checkIn "ann", .book "ann" volleyball none, .answer 0 .least, .settle 0,
    .cancel "ann" volleyball, .answer 1 .least, .settle 1]

/-- The cancellation is sent again; the server answers success although nothing is booked. -/
def cancelTwice : List Action :=
  bookAndCancel ++ [.cancel "ann" volleyball, .answer 2 .least, .settle 2]

/-- Cancelling twice pays the refund twice. -/
theorem cancelTwice_mints :
    volleyballDb.bookings = ∅ ∧
      ∃ s, run Session.step (Session.initial volleyballDb) cancelTwice = some s ∧
        s.wallet.worth "ann" = .number 6 ∧ s.credited "ann" = 4 ∧ ¬ NoMint s := by
  refine ⟨rfl, _, rfl, by decide, by decide, fun h => ?_⟩
  have hle := Amount.number_noMore_iff.1 (h "ann") 6 (by decide)
  revert hle
  decide

/-- Booking and cancelling once mints nothing. -/
theorem bookAndCancel_noMint :
    Throughout Session.step (fun s e => refundsUntracked s e = false) (Session.initial volleyballDb)
        bookAndCancel ∧
      Always Session.step NoMint (Session.initial volleyballDb) bookAndCancel :=
  ⟨by decide, noMint_of_tracked_refunds volleyballDb bookAndCancel (by decide)⟩

end Tokens
