import Webmeow.Tokens.Proofs.WalletObjectsProofs

/-!
# Switching activities and what is affordable

A spend that takes place pays for the new booking and replaces the tracked one. The cost of the old
one comes back only if its id is the one that the query for the booked activity returned.
-/

namespace Tokens

open Records

namespace WalletState

variable {w w' : WalletState} {g a : String} {cost : Int} {current : Option String}

/-- The cost of the tracked booking, nothing without one. -/
def trackedCost (w : WalletState) (g : String) : Int :=
  ((w.tracked g).map ActivityTokenBooking.cost).getD 0

/-- The balance and the cost of the tracked booking. -/
def worth (w : WalletState) (g : String) : Amount := (w.balance g).add (w.trackedCost g)

/-- From `w` to `w'` the guest loses and wins no token, and the others keep their entries. -/
def Keeps (w w' : WalletState) (g : String) : Prop :=
  (∃ n, w.worth g = .number n ∧ w'.worth g = .number n) ∧
    ∀ g', g' ≠ g → w'.balances.read g' = w.balances.read g' ∧
      w'.activityBookings.read g' = w.activityBookings.read g'

/-! ## Switching -/

/-- The whole cost comes back if the tracked booking is the one that the server says is booked, or
was for free. -/
theorem getRefundableCost_eq_trackedCost_iff :
    w.getRefundableCost g current = w.trackedCost g ↔
      ∀ tracked, w.tracked g = some tracked →
        some tracked.activityId = current ∨ tracked.cost = 0 := by
  unfold getRefundableCost trackedCost
  cases htracked : w.tracked g with
  | none => simp
  | some tracked =>
    simp only [Option.map_some, Option.getD_some, Option.some.injEq, forall_eq']
    split_ifs with hcurrent
    · simp [hcurrent]
    · simp [hcurrent, eq_comm]

theorem trackedCost_congr {w' : WalletState} (h : w'.tracked g = w.tracked g) :
    w'.trackedCost g = w.trackedCost g := by
  unfold trackedCost
  rw [h]

/-- The worth is a number if the balance is. -/
theorem worth_number_iff : (∃ n, w.worth g = .number n) ↔ ∃ n, w.balance g = .number n := by
  unfold worth
  cases w.balance g <;> simp

/-- **Switching activities**: a spend that succeeds keeps the balance and the cost of the tracked
booking together exactly when the balance is a number and the booking that it replaces is the
requested one, the one that the server says is booked, or was for free. -/
theorem spend_keeps_iff (w : WalletState) (g a : String) (cost : Int) (current : Option String)
    (h : (w.spendActivityTokens g a cost current).1 = true) :
    w.Keeps (w.spendActivityTokens g a cost current).2 g ↔
      (∃ n, w.balance g = .number n) ∧
        ∀ tracked, w.tracked g = some tracked →
          tracked.activityId = a ∨ some tracked.activityId = current ∨ tracked.cost = 0 := by
  unfold Keeps
  rw [and_iff_left fun g' hg' => spend_others hg']
  rcases spend_cases w g a cost current with
    ⟨htracked, hspend⟩ | ⟨-, -, hspend⟩ | ⟨htracked, -, hspend⟩
  · -- the activity is tracked already, and nothing happens
    have hsame : ∀ tracked, w.tracked g = some tracked → tracked.activityId = a := by
      intro tracked heq
      rw [heq, Option.map_some, Option.some.injEq] at htracked
      exact htracked
    rw [hspend]
    simp only [and_self, worth_number_iff]
    exact ⟨fun hn => ⟨hn, fun tracked heq => Or.inl (hsame tracked heq)⟩, fun hn => hn.1⟩
  · rw [hspend] at h
    cases h
  · have hother : ∀ tracked, w.tracked g = some tracked → tracked.activityId ≠ a := by
      intro tracked heq ha
      rw [heq, Option.map_some, ha] at htracked
      exact htracked rfl
    have hcondition : (∀ tracked, w.tracked g = some tracked →
          tracked.activityId = a ∨ some tracked.activityId = current ∨ tracked.cost = 0) ↔
        w.getRefundableCost g current = w.trackedCost g := by
      rw [getRefundableCost_eq_trackedCost_iff]
      exact forall₂_congr fun tracked heq => or_iff_right (hother tracked heq)
    have hworth : (w.spendActivityTokens g a cost current).2.worth g =
        (w.nextBalance g cost current).add cost := by
      rw [hspend, worth, balance_set_self rfl, trackedCost, tracked_set_self rfl]
      rfl
    rw [hcondition, hworth]
    unfold worth nextBalance
    cases w.balance g with
    | notNumber => simp
    | number n =>
      simp only [Amount.add_number, Amount.sub_number, Amount.number.injEq, exists_eq_left',
        exists_eq', true_and]
      omega

end WalletState

/-- Ten tokens are left of fifteen after the surf lessons were booked. -/
def surfWallet : WalletState :=
  walletAfter [.credit "ann" "r1" 15, .spend "ann" "ACT002" 5 none]

theorem surfWallet_tracked : surfWallet.tracked "ann" = some ⟨"ACT002", 5⟩ := by decide

/-- The query for the booked activity returned the surf lessons before the switch. -/
theorem surfWallet_switch_keeps :
    (surfWallet.spendActivityTokens "ann" "ACT010" 3 (some "ACT002")).1 = true ∧
      surfWallet.Keeps (surfWallet.spendActivityTokens "ann" "ACT010" 3 (some "ACT002")).2 "ann" := by
  have hspend : (surfWallet.spendActivityTokens "ann" "ACT010" 3 (some "ACT002")).1 = true := by
    decide
  refine ⟨hspend, (WalletState.spend_keeps_iff _ _ _ _ _ hspend).2 ⟨⟨10, by decide⟩, ?_⟩⟩
  intro tracked htracked
  rw [surfWallet_tracked, Option.some.injEq] at htracked
  exact Or.inr (Or.inl (congrArg (fun b => some b.activityId) htracked.symm))

/-- The query has returned nothing: the five tokens of the surf lessons are gone. -/
theorem surfWallet_switch_loses :
    (surfWallet.spendActivityTokens "ann" "ACT010" 3 none).1 = true ∧
      ¬ surfWallet.Keeps (surfWallet.spendActivityTokens "ann" "ACT010" 3 none).2 "ann" := by
  have hbefore : surfWallet.worth "ann" = .number 15 := by decide
  have hafter : (surfWallet.spendActivityTokens "ann" "ACT010" 3 none).2.worth "ann" = .number 10 := by
    decide
  refine ⟨by decide, ?_⟩
  rintro ⟨⟨n, hn, hn'⟩, -⟩
  rw [hbefore] at hn
  rw [hafter, ← hn] at hn'
  cases hn'

/-! ## What is affordable -/

namespace WalletState

/-- The wallet pays out what it holds to the guest, says so before, and is asked the same question by
the list of activities. -/
structure RulesAgree (w : WalletState) (g : String) : Prop where
  /-- The balance is a number and not negative. -/
  solvent : ∃ n, w.balance g = .number n ∧ 0 ≤ n
  /-- A spend succeeds if it is affordable or tracked already. -/
  spends : ∀ a cost current, (w.spendActivityTokens g a cost current).1 = true ↔
    w.canAffordActivity g cost current = true ∨
      (w.tracked g).map ActivityTokenBooking.activityId = some a
  /-- A refused spend changes nothing. -/
  refuses : ∀ a cost current, (w.spendActivityTokens g a cost current).1 = false →
    (w.spendActivityTokens g a cost current).2 = w
  /-- The list shows an activity as affordable if the store does. -/
  lists : ∀ a cost current, current ≠ some a →
    w.canAffordActivity g cost current = w.isAffordable g a cost current

variable {w : WalletState} {g a : String} {cost : Int} {current : Option String}

/-- Where the balance is a number, what can be afforded leaves no debt. -/
theorem nextBalance_lt_iff {n : Int} (hn : w.balance g = .number n) :
    (w.nextBalance g cost current).lt 0 = true ↔ w.canAffordActivity g cost current = false := by
  unfold nextBalance canAffordActivity
  rw [hn]
  simp only [Amount.add_number, Amount.sub_number, Amount.lt_number, Amount.ge_number,
    decide_eq_true_eq, decide_eq_false_iff_not]
  omega

/-- With a balance that is a number, a spend succeeds if it is affordable or tracked already. -/
theorem spend_iff {n : Int} (hn : w.balance g = .number n) :
    (w.spendActivityTokens g a cost current).1 = true ↔
      w.canAffordActivity g cost current = true ∨
        (w.tracked g).map ActivityTokenBooking.activityId = some a := by
  rcases spend_cases w g a cost current with
    ⟨htracked, hspend⟩ | ⟨htracked, hlt, hspend⟩ | ⟨-, hlt, hspend⟩
  · rw [hspend]
    exact iff_of_true rfl (Or.inr htracked)
  · have hafford := (nextBalance_lt_iff hn).1 hlt
    rw [hspend, hafford]
    exact iff_of_false Bool.false_ne_true fun h => h.elim Bool.false_ne_true htracked
  · have hafford := (nextBalance_lt_iff hn).not.1 (by rw [hlt]; exact Bool.false_ne_true)
    rw [Bool.not_eq_false] at hafford
    rw [hspend]
    exact iff_of_true rfl (Or.inl hafford)

/-- A refused spend changes nothing. -/
theorem spend_false (h : (w.spendActivityTokens g a cost current).1 = false) :
    (w.spendActivityTokens g a cost current).2 = w := by
  rcases spend_cases w g a cost current with ⟨-, hspend⟩ | ⟨-, -, hspend⟩ | ⟨-, -, hspend⟩
  · rw [hspend]
  · rw [hspend]
  · rw [hspend] at h
    cases h

/-- The list leaves out the refund only for the booked activity. -/
theorem isAffordable_eq (h : current ≠ some a) :
    w.isAffordable g a cost current = w.canAffordActivity g cost current := by
  unfold isAffordable canAffordActivity getRefundableCost
  cases current with
  | none => cases w.tracked g <;> simp
  | some b => cases w.tracked g <;> simp [h]

end WalletState

/-! ## Solvency -/

/-- The costs of the spends are not negative. -/
def CostsNonneg (calls : List WalletCall) : Prop :=
  ∀ g a cost current, .spend g a cost current ∈ calls → 0 ≤ cost

/-- No debts, also none that a refund would make. -/
structure WalletState.Solvent (w : WalletState) : Prop where
  /-- No balance is negative. -/
  balance : ∀ g n, w.balance g = .number n → 0 ≤ n
  /-- No tracked cost is negative. -/
  tracked : ∀ g, 0 ≤ w.trackedCost g

namespace WalletState

variable {w : WalletState}

theorem solvent_empty : WalletState.empty.Solvent where
  balance g n hn := by
    by_cases hg : g ∈ inheritedNames
    · rw [balance_empty_inherited hg] at hn
      cases hn
    · rw [balance_empty_ordinary hg, Amount.number.injEq] at hn
      exact Int.le_of_eq hn
  tracked g := by
    rw [trackedCost, tracked_empty]
    exact Int.le_refl 0

/-- A credit leaves no negative balance. -/
theorem Solvent.credit (h : w.Solvent) (g r : String) (amount : Int) :
    (w.creditReservationTokens g r amount).2.Solvent := by
  rcases credit_cases w g r amount with ⟨-, hs⟩ | ⟨hamount, -, hs⟩
  · rw [hs]
    exact h
  · rw [hs]
    refine ⟨fun g' n hn => ?_, h.tracked⟩
    by_cases hg : g' = g
    · subst hg
      rw [balance_set_self rfl] at hn
      cases hb : w.balance g' with
      | notNumber => rw [hb] at hn; cases hn
      | number m =>
        rw [hb, Amount.add_number, Amount.number.injEq] at hn
        have hm := h.balance g' m hb
        omega
    · rw [balance_set_of_ne rfl hg] at hn
      exact h.balance g' n hn

/-- A spend leaves no negative balance. -/
theorem Solvent.spend (h : w.Solvent) (g a : String) {cost : Int} (hcost : 0 ≤ cost)
    (current : Option String) : (w.spendActivityTokens g a cost current).2.Solvent := by
  rcases spend_cases w g a cost current with ⟨-, hs⟩ | ⟨-, -, hs⟩ | ⟨-, hlt, hs⟩
  · rw [hs]
    exact h
  · rw [hs]
    exact h
  · refine ⟨fun g' n hn => ?_, fun g' => ?_⟩
    · by_cases hg : g' = g
      · subst hg
        rw [hs, balance_set_self rfl] at hn
        rw [hn, Amount.lt_number, decide_eq_false_iff_not] at hlt
        exact Int.not_lt.1 hlt
      · rw [balance_congr (spend_others hg).1] at hn
        exact h.balance g' n hn
    · by_cases hg : g' = g
      · subst hg
        rw [hs, trackedCost, tracked_set_self rfl]
        exact hcost
      · rw [trackedCost_congr (tracked_congr (spend_others hg).2)]
        exact h.tracked g'

/-- A payback leaves no negative balance. -/
theorem Solvent.payBack (h : w.Solvent) (g : String) {cost : Amount}
    (hcost : ∀ n, cost = .number n → 0 ≤ n) : (w.payBack g cost).Solvent := by
  refine ⟨fun g' n hn => ?_, fun g' => ?_⟩
  · by_cases hg : g' = g
    · subst hg
      rw [payBack_balance_self] at hn
      cases cost with
      | notNumber => cases hn
      | number c =>
        cases hb : w.balance g' with
        | notNumber => rw [hb] at hn; cases hn
        | number m =>
          rw [hb, Amount.plus_number, Amount.add_number, Amount.number.injEq] at hn
          have hm := h.balance g' m hb
          have hc := hcost c rfl
          omega
    · rw [balance_set_of_ne rfl hg] at hn
      exact h.balance g' n hn
  · by_cases hg : g' = g
    · subst hg
      rw [trackedCost, payBack_tracked_self]
      exact Int.le_refl 0
    · rw [trackedCost_congr (tracked_congr (Record.read_set_of_ne hg _ _))]
      exact h.tracked g'

/-- A refund leaves no negative balance. -/
theorem Solvent.refund (h : w.Solvent) (g a : String) (fallback : Amount) :
    (w.refundActivityTokens g a fallback).2.Solvent := by
  rcases refund_cases w g a fallback with ⟨booking, hb, hs⟩ | ⟨-, hle, hs⟩ | hs
  · rw [hs]
    refine h.payBack g fun n hn => ?_
    have htracked := h.tracked g
    rw [trackedCost, hb] at htracked
    cases hn
    exact htracked
  · rw [hs]
    refine h.payBack g fun n hn => ?_
    rw [hn, Amount.le_number, decide_eq_false_iff_not] at hle
    omega
  · rw [hs]
    exact h

end WalletState

/-- **Solvency** after any credits, refunds and spends at nonnegative costs. -/
theorem walletAfter_solvent {calls : List WalletCall} (hcosts : CostsNonneg calls) :
    (walletAfter calls).Solvent := by
  induction calls using List.reverseRecOn with
  | nil => exact WalletState.solvent_empty
  | append_singleton before call ih =>
    have hbefore := ih fun g a cost current hmem =>
      hcosts g a cost current (List.mem_append_left _ hmem)
    rw [walletAfter_concat]
    cases call with
    | credit g r amount => exact hbefore.credit g r amount
    | spend g a cost current =>
      exact hbefore.spend g a (hcosts g a cost current (by simp)) current
    | refund g a fallback => exact hbefore.refund g a (.number fallback)

/-- **The affordability rules agree** after any credits, refunds and spends at nonnegative costs,
exactly for the guest ids that are no names of members of `Object.prototype`. -/
theorem rulesAgree_iff (calls : List WalletCall) (hcosts : CostsNonneg calls) (g : String) :
    (walletAfter calls).RulesAgree g ↔ g ∉ inheritedNames := by
  constructor
  · intro h hg
    obtain ⟨n, hn, -⟩ := h.solvent
    rw [walletAfter_balance_inherited hg] at hn
    cases hn
  · intro hg
    have hbalance := (walletAfter_mirrors calls).balance g hg
    exact {
      solvent := ⟨_, hbalance, (walletAfter_solvent hcosts).balance g _ hbalance⟩
      spends := fun a cost current => WalletState.spend_iff hbalance
      refuses := fun a cost current => WalletState.spend_false
      lists := fun a cost current h => (WalletState.isAffordable_eq h).symm }

/-- They agree for Ann, who has booked the surf lessons. -/
theorem surfWallet_rulesAgree :
    CostsNonneg [.credit "ann" "r1" 15, .spend "ann" "ACT002" 5 none] ∧
      surfWallet.RulesAgree "ann" := by
  have hcosts : CostsNonneg [.credit "ann" "r1" 15, .spend "ann" "ACT002" 5 none] := by
    intro g a cost current hmem
    simp only [List.mem_cons, reduceCtorEq, WalletCall.spend.injEq, List.not_mem_nil, or_false,
      false_or] at hmem
    omega
  exact ⟨hcosts, (rulesAgree_iff _ hcosts "ann").2 (by decide)⟩

/-- A guest whose id is an inherited name books the jet ski with an empty wallet. -/
theorem constructor_books_for_free :
    ((walletAfter []).spendActivityTokens "constructor" "ACT009" 10 none).1 = true ∧
      (walletAfter []).canAffordActivity "constructor" 10 none = false ∧
      (walletAfter []).tracked "constructor" = none ∧
      ¬ (walletAfter []).RulesAgree "constructor" := by
  refine ⟨by decide, by decide, by decide, fun h => ?_⟩
  have hspends := (h.spends "ACT009" 10 none).1 (by decide)
  revert hspends
  decide

end Tokens
