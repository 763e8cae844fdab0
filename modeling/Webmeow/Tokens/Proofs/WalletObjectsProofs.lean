import Webmeow.Tokens.WalletObjects

/-!
# The wallet objects against the wallet that is a map

For a guest id that is no inherited name, the objects hold what `TokenWallet` says, and its calls
return the same. What the calls do for the other ids stays in the entries of those ids.
-/

namespace Tokens

open Records

@[simp]
theorem Amount.add_number (n m : Int) : (Amount.number n).add m = .number (n + m) := rfl

@[simp]
theorem Amount.add_notNumber (m : Int) : Amount.notNumber.add m = .notNumber := rfl

@[simp]
theorem Amount.sub_number (n m : Int) : (Amount.number n).sub m = .number (n - m) := rfl

@[simp]
theorem Amount.sub_notNumber (m : Int) : Amount.notNumber.sub m = .notNumber := rfl

@[simp]
theorem Amount.lt_number (n m : Int) : (Amount.number n).lt m = decide (n < m) := rfl

@[simp]
theorem Amount.plus_number (x : Amount) (m : Int) : x.plus (.number m) = x.add m := rfl

theorem Amount.notNumber_plus (x : Amount) : Amount.notNumber.plus x = .notNumber := by
  cases x <;> rfl

@[simp]
theorem Amount.le_number (n m : Int) : (Amount.number n).le m = decide (n ≤ m) := rfl

@[simp]
theorem Amount.ge_number (n m : Int) : (Amount.number n).ge m = decide (m ≤ n) := rfl

/-- The key of a credit has a colon, so no member of `Object.prototype` is in its way. -/
theorem reservationCreditKey_ordinary (g r : String) :
    reservationCreditKey g r ∉ inheritedNames := by
  intro hmem
  have hcolon : ∀ name ∈ inheritedNames, ':' ∉ name.toList := by decide
  exact hcolon _ hmem (by simp [reservationCreditKey])

namespace WalletState

variable {w w' : WalletState} {g a r : String} {amount cost : Int} {fallback : Amount}
  {current : Option String}

/-! ## Reading what was written -/

/-- An ordinary id starts with no tokens. -/
@[simp]
theorem balance_empty_ordinary (hg : g ∉ inheritedNames) : empty.balance g = .number 0 := by
  simp [balance, empty, Record.read_empty_ordinary hg]

/-- An inherited name starts with no number. -/
@[simp]
theorem balance_empty_inherited (hg : g ∈ inheritedNames) : empty.balance g = .notNumber := by
  simp [balance, empty, Record.read_empty_inherited hg]

@[simp]
theorem tracked_empty (g : String) : empty.tracked g = none := by
  by_cases hg : g ∈ inheritedNames
  · simp [tracked, empty, Record.read_empty_inherited hg]
  · simp [tracked, empty, Record.read_empty_ordinary hg]

theorem balance_set_self {x : Amount} (h : w'.balances = w.balances.set g x) : w'.balance g = x := by
  simp [balance, h]

theorem balance_set_of_ne {x : Amount} {g' : String} (h : w'.balances = w.balances.set g x)
    (hg : g' ≠ g) : w'.balance g' = w.balance g' := by
  simp [balance, h, hg]

theorem tracked_set_self {b : Option ActivityTokenBooking}
    (h : w'.activityBookings = w.activityBookings.set g b) : w'.tracked g = b := by
  simp [tracked, h]

/-! ## What each call does -/

/-- What an accepted credit changes. -/
theorem credit_accepted (hamount : 0 < amount)
    (hkey : w.creditedReservations.read (reservationCreditKey g r) = .absent) :
    w.creditReservationTokens g r amount = (true, { w with
      balances := w.balances.set g ((w.balance g).add amount)
      creditedReservations := w.creditedReservations.set (reservationCreditKey g r) () }) := by
  unfold creditReservationTokens
  rw [if_neg (by omega)]
  dsimp only
  rw [if_neg (not_not_intro hkey)]

/-- A refused credit changes nothing. -/
theorem credit_refused (h : amount ≤ 0 ∨
    w.creditedReservations.read (reservationCreditKey g r) ≠ .absent) :
    w.creditReservationTokens g r amount = (false, w) := by
  unfold creditReservationTokens
  rcases h with hamount | hkey
  · rw [if_pos hamount]
  · dsimp only
    rw [if_pos hkey, ite_self]

/-- A credit is refused, or it adds the amount. -/
theorem credit_cases (w : WalletState) (g r : String) (amount : Int) :
    ((amount ≤ 0 ∨ w.creditedReservations.read (reservationCreditKey g r) ≠ .absent) ∧
        w.creditReservationTokens g r amount = (false, w)) ∨
      (0 < amount ∧ w.creditedReservations.read (reservationCreditKey g r) = .absent ∧
        w.creditReservationTokens g r amount = (true, { w with
          balances := w.balances.set g ((w.balance g).add amount)
          creditedReservations :=
            w.creditedReservations.set (reservationCreditKey g r) () })) := by
  by_cases hamount : amount ≤ 0
  · exact Or.inl ⟨Or.inl hamount, credit_refused (Or.inl hamount)⟩
  by_cases hkey : w.creditedReservations.read (reservationCreditKey g r) = .absent
  · have hpos : 0 < amount := by omega
    exact Or.inr ⟨hpos, hkey, credit_accepted hpos hkey⟩
  · exact Or.inl ⟨Or.inr hkey, credit_refused (Or.inr hkey)⟩

/-- A booking that is tracked already costs nothing. -/
theorem spend_tracked (h : (w.tracked g).map ActivityTokenBooking.activityId = some a) :
    w.spendActivityTokens g a cost current = (true, w) := if_pos h

/-- The balance that a spend of another activity would leave. -/
def nextBalance (w : WalletState) (g : String) (cost : Int) (current : Option String) : Amount :=
  ((w.balance g).add (w.getRefundableCost g current)).sub cost

/-- A spend that would go below zero changes nothing. -/
theorem spend_refused (h : (w.tracked g).map ActivityTokenBooking.activityId ≠ some a)
    (hlt : (w.nextBalance g cost current).lt 0 = true) :
    w.spendActivityTokens g a cost current = (false, w) := by
  unfold spendActivityTokens
  rw [if_neg h]
  exact if_pos hlt

/-- What an accepted spend changes. -/
theorem spend_accepted (h : (w.tracked g).map ActivityTokenBooking.activityId ≠ some a)
    (hlt : (w.nextBalance g cost current).lt 0 = false) :
    w.spendActivityTokens g a cost current = (true, { w with
      balances := w.balances.set g (w.nextBalance g cost current)
      activityBookings := w.activityBookings.set g (some ⟨a, cost⟩) }) := by
  unfold spendActivityTokens
  rw [if_neg h]
  exact if_neg (by rw [nextBalance] at hlt; simp [hlt])

/-- A spend goes one of three ways. -/
theorem spend_cases (w : WalletState) (g a : String) (cost : Int) (current : Option String) :
    ((w.tracked g).map ActivityTokenBooking.activityId = some a ∧
        w.spendActivityTokens g a cost current = (true, w)) ∨
      ((w.tracked g).map ActivityTokenBooking.activityId ≠ some a ∧
        (w.nextBalance g cost current).lt 0 = true ∧
        w.spendActivityTokens g a cost current = (false, w)) ∨
      ((w.tracked g).map ActivityTokenBooking.activityId ≠ some a ∧
        (w.nextBalance g cost current).lt 0 = false ∧
        w.spendActivityTokens g a cost current = (true, { w with
          balances := w.balances.set g (w.nextBalance g cost current)
          activityBookings := w.activityBookings.set g (some ⟨a, cost⟩) })) := by
  by_cases h : (w.tracked g).map ActivityTokenBooking.activityId = some a
  · exact Or.inl ⟨h, spend_tracked h⟩
  · cases hlt : (w.nextBalance g cost current).lt 0 with
    | true => exact Or.inr (Or.inl ⟨h, rfl, spend_refused h hlt⟩)
    | false => exact Or.inr (Or.inr ⟨h, rfl, spend_accepted h hlt⟩)

/-- The guest has no entry for a booking, or `null`. -/
def unbooked (w : WalletState) (g : String) : Bool :=
  match w.activityBookings.read g with
  | .own (some _) => false
  | .inherited => false
  | .own none => true
  | .absent => true

/-- Where nothing is tracked, a refund is the fallback cost, if that is positive. -/
theorem refund_unbooked (h : w.unbooked g = true) (a : String) (fallback : Amount) :
    w.refundActivityTokens g a fallback =
      if fallback.le 0 then (.number 0, w) else (fallback, w.payBack g fallback) := by
  unfold unbooked at h
  unfold refundActivityTokens
  cases hread : w.activityBookings.read g with
  | inherited =>
    rw [hread] at h
    cases h
  | absent => rfl
  | own booking =>
    cases booking with
    | none => rfl
    | some booking =>
      rw [hread] at h
      cases h

/-- A refund goes one of three ways: the tracked booking is paid back, the fallback cost is paid where
nothing is tracked, or nothing happens. -/
theorem refund_cases (w : WalletState) (g a : String) (fallback : Amount) :
    (∃ booking, w.tracked g = some booking ∧ w.refundActivityTokens g a fallback =
        (.number booking.cost, w.payBack g (.number booking.cost))) ∨
      (w.unbooked g = true ∧ fallback.le 0 = false ∧
        w.refundActivityTokens g a fallback = (fallback, w.payBack g fallback)) ∨
      w.refundActivityTokens g a fallback = (.number 0, w) := by
  cases hunbooked : w.unbooked g with
  | true =>
    have hrefund := refund_unbooked hunbooked a fallback
    cases hle : fallback.le 0 with
    | true => exact Or.inr (Or.inr (by rw [hrefund, hle, if_pos rfl]))
    | false =>
      refine Or.inr (Or.inl ⟨rfl, rfl, ?_⟩)
      rw [hrefund, hle, if_neg Bool.false_ne_true]
  | false =>
    unfold unbooked at hunbooked
    unfold tracked
    cases hread : w.activityBookings.read g with
    | inherited => exact Or.inr (Or.inr (by rw [refundActivityTokens, hread]))
    | absent =>
      rw [hread] at hunbooked
      cases hunbooked
    | own booking =>
      cases booking with
      | none =>
        rw [hread] at hunbooked
        cases hunbooked
      | some booking =>
        by_cases ha : booking.activityId ≠ a
        · refine Or.inr (Or.inr ?_)
          rw [refundActivityTokens, hread]
          exact if_pos ha
        · refine Or.inl ⟨booking, rfl, ?_⟩
          rw [refundActivityTokens, hread]
          exact if_neg ha

/-- A refund pays an amount back, or does nothing. -/
theorem refund_payBack (w : WalletState) (g a : String) (fallback : Amount) :
    (∃ cost, w.refundActivityTokens g a fallback = (cost, w.payBack g cost)) ∨
      w.refundActivityTokens g a fallback = (.number 0, w) := by
  rcases refund_cases w g a fallback with ⟨booking, -, h⟩ | ⟨-, -, h⟩ | h
  · exact Or.inl ⟨_, h⟩
  · exact Or.inl ⟨_, h⟩
  · exact Or.inr h

theorem payBack_balance_self (w : WalletState) (g : String) (cost : Amount) :
    (w.payBack g cost).balance g = (w.balance g).plus cost := balance_set_self rfl

theorem payBack_tracked_self (w : WalletState) (g : String) (cost : Amount) :
    (w.payBack g cost).tracked g = none := tracked_set_self rfl

/-- Spending and refunding touch only the entries of the guest. -/
theorem spend_others {g' : String} (hg : g' ≠ g) :
    (w.spendActivityTokens g a cost current).2.balances.read g' = w.balances.read g' ∧
      (w.spendActivityTokens g a cost current).2.activityBookings.read g' =
        w.activityBookings.read g' := by
  rcases spend_cases w g a cost current with ⟨-, h⟩ | ⟨-, -, h⟩ | ⟨-, -, h⟩
  · rw [h]
    exact ⟨rfl, rfl⟩
  · rw [h]
    exact ⟨rfl, rfl⟩
  · rw [h]
    exact ⟨Record.read_set_of_ne hg _ _, Record.read_set_of_ne hg _ _⟩

/-- A refund leaves the other guests alone. -/
theorem refund_others {g' : String} (hg : g' ≠ g) :
    (w.refundActivityTokens g a fallback).2.balances.read g' = w.balances.read g' ∧
      (w.refundActivityTokens g a fallback).2.activityBookings.read g' =
        w.activityBookings.read g' := by
  rcases refund_payBack w g a fallback with ⟨cost, h⟩ | h
  · rw [h]
    exact ⟨Record.read_set_of_ne hg _ _, Record.read_set_of_ne hg _ _⟩
  · rw [h]
    exact ⟨rfl, rfl⟩

theorem balance_congr (h : w'.balances.read g = w.balances.read g) : w'.balance g = w.balance g := by
  unfold balance
  rw [h]

theorem tracked_congr (h : w'.activityBookings.read g = w.activityBookings.read g) :
    w'.tracked g = w.tracked g := by
  unfold tracked
  rw [h]

/-- A spend credits nothing. -/
@[simp]
theorem spend_credited (w : WalletState) (g a : String) (cost : Int) (current : Option String) :
    (w.spendActivityTokens g a cost current).2.creditedReservations = w.creditedReservations := by
  rcases spend_cases w g a cost current with ⟨-, h⟩ | ⟨-, -, h⟩ | ⟨-, -, h⟩ <;> rw [h]

/-- A refund credits nothing. -/
@[simp]
theorem refund_credited (w : WalletState) (g a : String) (fallback : Amount) :
    (w.refundActivityTokens g a fallback).2.creditedReservations = w.creditedReservations := by
  rcases refund_payBack w g a fallback with ⟨cost, h⟩ | h
  · rw [h]
    rfl
  · rw [h]

end WalletState

/-! ## The map that the objects stand for -/

/-- For every id that is no inherited name, the objects hold what the map holds. -/
structure Mirrors (w : WalletState) (t : TokenWallet) : Prop where
  /-- The balances of ordinary ids agree. -/
  balance : ∀ g, g ∉ inheritedNames → w.balance g = .number (t.balances g)
  /-- The tracked bookings of ordinary ids agree. -/
  tracked : ∀ g, g ∉ inheritedNames → w.tracked g = t.activityBookings g
  /-- The credited keys that are ordinary agree. -/
  credited : ∀ key, key ∉ inheritedNames →
    (w.creditedReservations.read key ≠ .absent ↔ t.creditedReservations key = true)

theorem mirrors_empty : Mirrors WalletState.empty TokenWallet.empty where
  balance _ hg := WalletState.balance_empty_ordinary hg
  tracked g _ := WalletState.tracked_empty g
  credited key hkey := by
    simp [WalletState.empty, TokenWallet.empty, Record.read_empty_ordinary hkey]

section Refinement

variable {w w' : WalletState} {t t' : TokenWallet} {g a r : String} {amount cost fallback : Int}
  {current : Option String}

/-- A step for one guest, if it leaves the others and the credits alone on both sides. -/
theorem Mirrors.of_guest (h : Mirrors w t)
    (hothers : ∀ g', g' ≠ g → w'.balance g' = w.balance g' ∧ w'.tracked g' = w.tracked g')
    (hothers' : ∀ g', g' ≠ g →
      t'.balances g' = t.balances g' ∧ t'.activityBookings g' = t.activityBookings g')
    (hself : g ∉ inheritedNames →
      w'.balance g = .number (t'.balances g) ∧ w'.tracked g = t'.activityBookings g)
    (hcredited : w'.creditedReservations = w.creditedReservations)
    (hcredited' : t'.creditedReservations = t.creditedReservations) : Mirrors w' t' where
  balance g' hg' := by
    by_cases hg : g' = g
    · subst hg
      exact (hself hg').1
    · rw [(hothers g' hg).1, (hothers' g' hg).1]
      exact h.balance g' hg'
  tracked g' hg' := by
    by_cases hg : g' = g
    · subst hg
      exact (hself hg').2
    · rw [(hothers g' hg).2, (hothers' g' hg).2]
      exact h.tracked g' hg'
  credited key hkey := by
    rw [hcredited, hcredited']
    exact h.credited key hkey

/-- **Crediting refines**: the same answer for every guest id, and again the same contents. -/
theorem Mirrors.credit (h : Mirrors w t) (g r : String) (amount : Int) :
    (w.creditReservationTokens g r amount).1 = (t.creditReservationTokens g r amount).1 ∧
      Mirrors (w.creditReservationTokens g r amount).2 (t.creditReservationTokens g r amount).2 := by
  have hkey := h.credited _ (reservationCreditKey_ordinary g r)
  by_cases hamount : amount ≤ 0
  · rw [WalletState.credit_refused (Or.inl hamount)]
    unfold TokenWallet.creditReservationTokens
    rw [if_pos hamount]
    exact ⟨rfl, h⟩
  by_cases hcredited : t.creditedReservations (reservationCreditKey g r) = true
  · rw [WalletState.credit_refused (Or.inr (hkey.2 hcredited))]
    unfold TokenWallet.creditReservationTokens
    rw [if_neg hamount]
    dsimp only
    rw [if_pos hcredited]
    exact ⟨rfl, h⟩
  · have habsent := not_not.1 (mt hkey.1 hcredited)
    rw [WalletState.credit_accepted (by omega) habsent]
    unfold TokenWallet.creditReservationTokens
    rw [if_neg hamount]
    dsimp only
    rw [if_neg hcredited]
    refine ⟨rfl, fun g' hg' => ?_, h.tracked, fun key' hkey' => ?_⟩
    · by_cases hg : g' = g
      · subst hg
        rw [WalletState.balance_set_self rfl, h.balance g' hg']
        simp
      · rw [WalletState.balance_set_of_ne rfl hg]
        simpa [hg] using h.balance g' hg'
    · by_cases hk : key' = reservationCreditKey g r
      · subst hk
        simp
      · rw [Record.read_set_of_ne hk]
        simpa [hk] using h.credited key' hkey'

/-- The refunds of ordinary ids agree. -/
theorem Mirrors.getRefundableCost (h : Mirrors w t) (hg : g ∉ inheritedNames) :
    w.getRefundableCost g current = t.getRefundableCost g current := by
  have htracked := h.tracked g hg
  unfold WalletState.getRefundableCost TokenWallet.getRefundableCost
  cases hb : t.activityBookings g with
  | none => simp only [htracked, hb]
  | some tracked => simp only [htracked, hb]

/-- What ordinary ids can afford agrees. -/
theorem Mirrors.canAffordActivity (h : Mirrors w t) (hg : g ∉ inheritedNames) :
    w.canAffordActivity g cost current = t.canAffordActivity g cost current := by
  unfold WalletState.canAffordActivity TokenWallet.canAffordActivity
  rw [h.balance g hg, h.getRefundableCost hg, Amount.add_number, Amount.ge_number]

/-- The balances after a spend agree. -/
theorem Mirrors.nextBalance (h : Mirrors w t) (hg : g ∉ inheritedNames) (cost : Int)
    (current : Option String) : w.nextBalance g cost current =
      .number (t.balances g + t.getRefundableCost g current - cost) := by
  unfold WalletState.nextBalance
  rw [h.balance g hg, h.getRefundableCost hg, Amount.add_number, Amount.sub_number]

/-- A spend leaves the other guests alone. -/
theorem TokenWallet.spend_others {g' : String} (hg : g' ≠ g) :
    (t.spendActivityTokens g a cost current).2.balances g' = t.balances g' ∧
      (t.spendActivityTokens g a cost current).2.activityBookings g' = t.activityBookings g' := by
  unfold TokenWallet.spendActivityTokens
  split_ifs
  · exact ⟨rfl, rfl⟩
  · dsimp only
    split_ifs
    · exact ⟨rfl, rfl⟩
    · exact ⟨Function.update_of_ne hg _ _, Function.update_of_ne hg _ _⟩

theorem TokenWallet.spend_credited (t : TokenWallet) (g a : String) (cost : Int)
    (current : Option String) :
    (t.spendActivityTokens g a cost current).2.creditedReservations = t.creditedReservations := by
  unfold TokenWallet.spendActivityTokens
  split_ifs
  · rfl
  · dsimp only
    split_ifs <;> rfl

/-- **Spending refines**: the same answer for an ordinary guest id, and again the same contents. -/
theorem Mirrors.spend_self (h : Mirrors w t) (hg : g ∉ inheritedNames) :
    let result := w.spendActivityTokens g a cost current
    let result' := t.spendActivityTokens g a cost current
    result.1 = result'.1 ∧ result.2.balance g = .number (result'.2.balances g) ∧
      result.2.tracked g = result'.2.activityBookings g := by
  unfold TokenWallet.spendActivityTokens
  rw [← h.tracked g hg]
  have hnext := h.nextBalance hg cost current
  rcases WalletState.spend_cases w g a cost current with
    ⟨htracked, hspend⟩ | ⟨htracked, hlt, hspend⟩ | ⟨htracked, hlt, hspend⟩
  · rw [hspend, if_pos htracked]
    exact ⟨rfl, h.balance g hg, h.tracked g hg⟩
  · rw [hnext, Amount.lt_number, decide_eq_true_eq] at hlt
    rw [hspend, if_neg htracked]
    dsimp only
    rw [if_pos hlt]
    exact ⟨rfl, h.balance g hg, h.tracked g hg⟩
  · rw [hnext, Amount.lt_number, decide_eq_false_iff_not] at hlt
    rw [hspend, if_neg htracked]
    dsimp only
    rw [if_neg hlt]
    refine ⟨rfl, ?_, ?_⟩
    · rw [WalletState.balance_set_self rfl, hnext]
      simp
    · rw [WalletState.tracked_set_self rfl]
      simp

/-- Wallets that agree do so after a spend. -/
theorem Mirrors.spend (h : Mirrors w t) (g a : String) (cost : Int) (current : Option String) :
    Mirrors (w.spendActivityTokens g a cost current).2
      (t.spendActivityTokens g a cost current).2 := by
  refine h.of_guest (g := g) (fun g' hg' => ?_) (fun g' hg' => TokenWallet.spend_others hg')
    (fun hg => (h.spend_self hg).2) (WalletState.spend_credited w g a cost current)
    (TokenWallet.spend_credited t g a cost current)
  obtain ⟨hbalance, hbooking⟩ := WalletState.spend_others hg'
  exact ⟨WalletState.balance_congr hbalance, WalletState.tracked_congr hbooking⟩

/-- A refund leaves the other guests alone. -/
theorem TokenWallet.refund_others {g' : String} (hg : g' ≠ g) :
    (t.refundActivityTokens g a fallback).2.balances g' = t.balances g' ∧
      (t.refundActivityTokens g a fallback).2.activityBookings g' = t.activityBookings g' := by
  unfold TokenWallet.refundActivityTokens
  split
  all_goals
    split_ifs
    · exact ⟨rfl, rfl⟩
    · exact ⟨Function.update_of_ne hg _ _, Function.update_of_ne hg _ _⟩

theorem TokenWallet.refund_credited (t : TokenWallet) (g a : String) (fallback : Int) :
    (t.refundActivityTokens g a fallback).2.creditedReservations = t.creditedReservations := by
  unfold TokenWallet.refundActivityTokens
  split <;> split_ifs <;> rfl

/-- **Refunding refines**: the same amount for an ordinary guest id, and again the same contents. -/
theorem Mirrors.refund_self (h : Mirrors w t) (hg : g ∉ inheritedNames) :
    let result := w.refundActivityTokens g a (.number fallback)
    let result' := t.refundActivityTokens g a fallback
    result.1 = .number result'.1 ∧ result.2.balance g = .number (result'.2.balances g) ∧
      result.2.tracked g = result'.2.activityBookings g := by
  have hsame : w.balance g = .number (t.balances g) ∧ w.tracked g = t.activityBookings g :=
    ⟨h.balance g hg, h.tracked g hg⟩
  have hpaid : ∀ cost : Int,
      (w.payBack g (.number cost)).balance g =
          .number (Function.update t.balances g (t.balances g + cost) g) ∧
        (w.payBack g (.number cost)).tracked g = Function.update t.activityBookings g none g := by
    intro cost
    rw [WalletState.payBack_balance_self, WalletState.payBack_tracked_self, h.balance g hg,
      Function.update_self, Function.update_self]
    exact ⟨rfl, rfl⟩
  have htracked := h.tracked g hg
  unfold WalletState.tracked at htracked
  unfold WalletState.refundActivityTokens TokenWallet.refundActivityTokens
  simp only [Amount.le_number, decide_eq_true_eq]
  cases hread : w.activityBookings.read g with
  | inherited => exact absurd hread (Record.read_ne_inherited hg _)
  | absent =>
    rw [hread] at htracked
    rw [← htracked]
    dsimp only
    split_ifs
    · exact ⟨rfl, hsame⟩
    · exact ⟨rfl, hpaid fallback⟩
  | own booking =>
    rw [hread] at htracked
    rw [← htracked]
    cases booking with
    | none =>
      dsimp only
      split_ifs
      · exact ⟨rfl, hsame⟩
      · exact ⟨rfl, hpaid fallback⟩
    | some tracked =>
      dsimp only
      split_ifs
      · exact ⟨rfl, hsame⟩
      · exact ⟨rfl, hpaid tracked.cost⟩

/-- Wallets that agree do so after a refund. -/
theorem Mirrors.refund (h : Mirrors w t) (g a : String) (fallback : Int) :
    Mirrors (w.refundActivityTokens g a (.number fallback)).2
      (t.refundActivityTokens g a fallback).2 := by
  refine h.of_guest (g := g) (fun g' hg' => ?_) (fun g' hg' => TokenWallet.refund_others hg')
    (fun hg => (h.refund_self hg).2) (WalletState.refund_credited w g a _)
    (TokenWallet.refund_credited t g a fallback)
  obtain ⟨hbalance, hbooking⟩ := WalletState.refund_others hg'
  exact ⟨WalletState.balance_congr hbalance, WalletState.tracked_congr hbooking⟩

/-- Wallets that agree do so after any call. -/
theorem Mirrors.apply (h : Mirrors w t) (call : WalletCall) :
    Mirrors (w.apply call) (t.apply call) := by
  cases call with
  | credit g r amount => exact (h.credit g r amount).2
  | spend g a cost current => exact h.spend g a cost current
  | refund g a fallback => exact h.refund g a fallback

end Refinement

@[simp]
theorem walletAfter_concat (before : List WalletCall) (call : WalletCall) :
    walletAfter (before ++ [call]) = (walletAfter before).apply call :=
  List.foldl_concat _ _ _ _

/-- The wallet that is a map after the same calls. -/
def tokenWalletAfter (calls : List WalletCall) : TokenWallet :=
  calls.foldl TokenWallet.apply .empty

/-- **The objects refine the map** after any calls. -/
theorem walletAfter_mirrors (calls : List WalletCall) :
    Mirrors (walletAfter calls) (tokenWalletAfter calls) :=
  List.foldl_rel mirrors_empty fun call _ _ _ h => h.apply call

/-! ## Inherited names -/

/-- What is no number stays no number. -/
theorem WalletState.apply_notNumber {w : WalletState} {g : String} (h : w.balance g = .notNumber)
    (call : WalletCall) : (w.apply call).balance g = .notNumber := by
  have hset : ∀ {w' : WalletState} {g' : String} {x : Amount},
      w'.balances = w.balances.set g' x → (g = g' → x = .notNumber) →
        w'.balance g = .notNumber := by
    intro w' g' x hset hx
    by_cases hg : g = g'
    · subst hg
      rw [balance_set_self hset, hx rfl]
    · rw [balance_set_of_ne hset hg, h]
  cases call with
  | credit g' r amount =>
    unfold apply
    dsimp only
    rcases credit_cases w g' r amount with ⟨-, hs⟩ | ⟨-, -, hs⟩
    · rw [hs]
      exact h
    · rw [hs]
      refine hset rfl fun hg => ?_
      rw [← hg, h, Amount.add_notNumber]
  | spend g' a cost current =>
    unfold apply
    dsimp only
    rcases spend_cases w g' a cost current with ⟨-, hs⟩ | ⟨-, -, hs⟩ | ⟨-, -, hs⟩
    · rw [hs]
      exact h
    · rw [hs]
      exact h
    · rw [hs]
      refine hset rfl fun hg => ?_
      rw [← hg, nextBalance, h, Amount.add_notNumber, Amount.sub_notNumber]
  | refund g' a fallback =>
    unfold apply
    dsimp only
    rcases refund_payBack w g' a (.number fallback) with ⟨cost, hs⟩ | hs
    · rw [hs]
      refine hset rfl fun hg => ?_
      rw [← hg, h, Amount.notNumber_plus]
    · rw [hs]
      exact h

/-- The balance of an inherited name is never a number. -/
theorem walletAfter_balance_inherited {g : String} (hg : g ∈ inheritedNames)
    (calls : List WalletCall) : (walletAfter calls).balance g = .notNumber := by
  induction calls using List.reverseRecOn with
  | nil => exact WalletState.balance_empty_inherited hg
  | append_singleton before call ih =>
    rw [walletAfter_concat]
    exact WalletState.apply_notNumber ih call

end Tokens
