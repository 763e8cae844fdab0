import Webmeow.Lib.Separators
import Webmeow.Tokens.Proofs.WalletObjectsProofs

/-!
# Each reservation is credited once

The key of a credit is the guest id and the reservation id with a colon between them. No reservation
id has a colon, so the last colon of the key is that one, whatever the guest id is.
-/

namespace Tokens

open Records

/-- The reservation ids have no colon. -/
def PlainReservations (calls : List WalletCall) : Prop :=
  ∀ g r amount, .credit g r amount ∈ calls → ':' ∉ r.toList

/-- After the calls `before`, a credit is accepted if it is the first of its guest and reservation
with a positive amount. It then adds the amount to the balance of this guest and to nothing else;
otherwise it does nothing. -/
structure CreditExact (before : List WalletCall) (g r : String) (amount : Int) : Prop where
  /-- A credit is accepted if it is positive and the first of its reservation that is. -/
  accepted_iff : ((walletAfter before).creditReservationTokens g r amount).1 = true ↔
    0 < amount ∧ ∀ earlier, .credit g r earlier ∈ before → earlier ≤ 0
  /-- A refused credit changes nothing. -/
  refused : ((walletAfter before).creditReservationTokens g r amount).1 = false →
    ((walletAfter before).creditReservationTokens g r amount).2 = walletAfter before
  /-- An accepted one adds its amount. -/
  adds : ((walletAfter before).creditReservationTokens g r amount).1 = true →
    ∃ n, (walletAfter before).balance g = .number n ∧
      ((walletAfter before).creditReservationTokens g r amount).2.balance g = .number (n + amount)
  /-- The other balances stay. -/
  others : ∀ g', g' ≠ g →
    ((walletAfter before).creditReservationTokens g r amount).2.balances.read g' =
      (walletAfter before).balances.read g'
  /-- The tracked bookings stay. -/
  bookings : ((walletAfter before).creditReservationTokens g r amount).2.activityBookings =
    (walletAfter before).activityBookings

/-- Every credit among the calls is exact. -/
def CreditedOnce (calls : List WalletCall) : Prop :=
  ∀ before g r amount after, calls = before ++ .credit g r amount :: after →
    CreditExact before g r amount

/-! ## The keys -/

theorem reservationCreditKey_inj {g g' r r' : String} (hr : ':' ∉ r.toList) (hr' : ':' ∉ r'.toList)
    (h : reservationCreditKey g r = reservationCreditKey g' r') : g = g' ∧ r = r' := by
  have hlist := congrArg String.toList h
  simp only [reservationCreditKey, String.toList_append, List.append_assoc] at hlist
  obtain ⟨hg, hres⟩ := Separators.append_last_sep_inj hr hr' hlist
  exact ⟨String.toList_inj.1 hg, String.toList_inj.1 hres⟩

/-- A credit enters its key if the amount is positive. -/
theorem credit_read_iff (w : WalletState) (g r : String) (amount : Int) (key : String) :
    (w.creditReservationTokens g r amount).2.creditedReservations.read key ≠ .absent ↔
      w.creditedReservations.read key ≠ .absent ∨ 0 < amount ∧ key = reservationCreditKey g r := by
  rcases WalletState.credit_cases w g r amount with ⟨hrefused, hcredit⟩ | ⟨hpos, habsent, hcredit⟩
  · rw [hcredit]
    refine (or_iff_left_of_imp ?_).symm
    rintro ⟨hpos, rfl⟩
    exact hrefused.resolve_left (by omega)
  · rw [hcredit]
    dsimp only
    by_cases hself : key = reservationCreditKey g r
    · subst hself
      rw [Record.read_set_self]
      exact iff_of_true nofun (Or.inr ⟨hpos, rfl⟩)
    · rw [Record.read_set_of_ne hself]
      exact (or_iff_left fun h => hself h.2).symm

/-- A key is in the record of the credits if some call gave a positive amount for it. -/
theorem credited_iff {calls : List WalletCall} (hcalls : PlainReservations calls) {g r : String}
    (hr : ':' ∉ r.toList) :
    (walletAfter calls).creditedReservations.read (reservationCreditKey g r) ≠ .absent ↔
      ∃ amount, .credit g r amount ∈ calls ∧ 0 < amount := by
  induction calls using List.reverseRecOn with
  | nil =>
    have habsent : (walletAfter []).creditedReservations.read (reservationCreditKey g r) = .absent :=
      Record.read_empty_ordinary (reservationCreditKey_ordinary g r)
    simp [habsent]
  | append_singleton before call ih =>
    have ih := ih fun g r amount hmem => hcalls g r amount (List.mem_append_left _ hmem)
    rw [walletAfter_concat]
    cases call with
    | spend g' a cost current =>
      unfold WalletState.apply
      dsimp only
      rw [WalletState.spend_credited, ih]
      simp
    | refund g' a fallback =>
      unfold WalletState.apply
      dsimp only
      rw [WalletState.refund_credited, ih]
      simp
    | credit g' r' amount' =>
      have hr' : ':' ∉ r'.toList := hcalls g' r' amount' (by simp)
      unfold WalletState.apply
      dsimp only
      rw [credit_read_iff, ih]
      constructor
      · rintro (⟨amount, hmem, hpos⟩ | ⟨hpos, hkey⟩)
        · exact ⟨amount, List.mem_append_left _ hmem, hpos⟩
        · obtain ⟨rfl, rfl⟩ := reservationCreditKey_inj hr hr' hkey
          exact ⟨amount', by simp, hpos⟩
      · rintro ⟨amount, hmem, hpos⟩
        rcases List.mem_append.1 hmem with hmem | hmem
        · exact Or.inl ⟨amount, hmem, hpos⟩
        · rw [List.mem_singleton, WalletCall.credit.injEq] at hmem
          obtain ⟨rfl, rfl, rfl⟩ := hmem
          exact Or.inr ⟨hpos, rfl⟩

/-! ## One credit -/

section Credit

variable {before : List WalletCall} {g r : String} {amount : Int}

/-- A credit is accepted if it is positive and its key is new. -/
theorem credit_true_iff (w : WalletState) (g r : String) (amount : Int) :
    (w.creditReservationTokens g r amount).1 = true ↔
      0 < amount ∧ w.creditedReservations.read (reservationCreditKey g r) = .absent := by
  rcases WalletState.credit_cases w g r amount with ⟨hrefused, hcredit⟩ | ⟨hpos, habsent, hcredit⟩
  · rw [hcredit]
    refine iff_of_false Bool.false_ne_true ?_
    rintro ⟨hpos, habsent⟩
    exact hrefused.elim (by omega) fun hkey => hkey habsent
  · rw [hcredit]
    exact iff_of_true rfl ⟨hpos, habsent⟩

/-- Which credit is accepted depends only on the earlier ones for the same guest and reservation. -/
theorem credit_accepted_iff (hbefore : PlainReservations before) (hr : ':' ∉ r.toList) :
    ((walletAfter before).creditReservationTokens g r amount).1 = true ↔
      0 < amount ∧ ∀ earlier, .credit g r earlier ∈ before → earlier ≤ 0 := by
  rw [credit_true_iff]
  refine and_congr_right fun _ => ?_
  rw [← not_iff_not, ← ne_eq, credited_iff hbefore hr]
  simp only [not_forall, not_le, exists_prop]

/-- A refused credit changes nothing. -/
theorem credit_false {w : WalletState} (h : (w.creditReservationTokens g r amount).1 = false) :
    (w.creditReservationTokens g r amount).2 = w := by
  rw [← Bool.not_eq_true, credit_true_iff, not_and_or, not_lt] at h
  rw [WalletState.credit_refused h]

/-- A credit touches no other balance and no booking. -/
theorem credit_others {w : WalletState} {g' : String} (hg : g' ≠ g) :
    (w.creditReservationTokens g r amount).2.balances.read g' = w.balances.read g' := by
  rcases WalletState.credit_cases w g r amount with ⟨-, hcredit⟩ | ⟨-, -, hcredit⟩
  · rw [hcredit]
  · rw [hcredit]
    exact Record.read_set_of_ne hg _ _

theorem credit_bookings (w : WalletState) (g r : String) (amount : Int) :
    (w.creditReservationTokens g r amount).2.activityBookings = w.activityBookings := by
  rcases WalletState.credit_cases w g r amount with ⟨-, hcredit⟩ | ⟨-, -, hcredit⟩
  · rw [hcredit]
  · rw [hcredit]

theorem credit_balance {w : WalletState} (h : (w.creditReservationTokens g r amount).1 = true) :
    (w.creditReservationTokens g r amount).2.balance g = (w.balance g).add amount := by
  obtain ⟨hamount, hkey⟩ := (credit_true_iff w g r amount).1 h
  rw [WalletState.credit_accepted hamount hkey]
  exact WalletState.balance_set_self rfl

/-- A credit for an ordinary guest id is exact. -/
theorem creditExact_of_ordinary (hbefore : PlainReservations before) (hr : ':' ∉ r.toList)
    (hg : 0 < amount → g ∉ inheritedNames) : CreditExact before g r amount where
  accepted_iff := credit_accepted_iff hbefore hr
  refused := credit_false
  adds h := by
    have hamount := ((credit_true_iff _ _ _ _).1 h).1
    have hbalance := (walletAfter_mirrors before).balance g (hg hamount)
    refine ⟨_, hbalance, ?_⟩
    rw [credit_balance h, hbalance, Amount.add_number]
  others g' hg' := credit_others hg'
  bookings := credit_bookings _ _ _ _

end Credit

/-! ## All credits -/

/-- The call gives a positive amount for the guest and the reservation. -/
def WalletCall.pays (g r : String) : WalletCall → Bool
  | .credit g' r' amount => decide (g' = g ∧ r' = r ∧ 0 < amount)
  | _ => false

/-- A call pays if it is a positive credit of the reservation. -/
theorem pays_credit_iff {g r : String} {call : WalletCall} :
    call.pays g r = true ↔ ∃ amount, call = .credit g r amount ∧ 0 < amount := by
  cases call with
  | credit g' r' amount =>
    simp only [WalletCall.pays, decide_eq_true_eq, WalletCall.credit.injEq]
    constructor
    · rintro ⟨rfl, rfl, hpos⟩
      exact ⟨amount, ⟨rfl, rfl, rfl⟩, hpos⟩
    · rintro ⟨amount, ⟨rfl, rfl, rfl⟩, hpos⟩
      exact ⟨rfl, rfl, hpos⟩
  | spend g' a cost current => simp [WalletCall.pays]
  | refund g' a fallback => simp [WalletCall.pays]

/-- **Every reservation is credited once**, in any order of credits, spends and refunds, exactly when
no positive amount is given for a guest id that is the name of a member of `Object.prototype`. -/
theorem creditedOnce_iff (calls : List WalletCall) (hcalls : PlainReservations calls) :
    CreditedOnce calls ↔
      ∀ g r amount, .credit g r amount ∈ calls → 0 < amount → g ∉ inheritedNames := by
  constructor
  · -- the first positive amount for an inherited name is added to something that is no number
    intro honce g r amount hmem hpos hg
    have hpays : ∃ call ∈ calls, call.pays g r = true :=
      ⟨_, hmem, pays_credit_iff.2 ⟨amount, rfl, hpos⟩⟩
    obtain ⟨call, hfind⟩ := Option.isSome_iff_exists.1 (List.find?_isSome.2 hpays)
    obtain ⟨hcall, before, after, hsplit, hfirst⟩ := List.find?_eq_some_iff_append.1 hfind
    obtain ⟨first, rfl, hfirstpos⟩ := pays_credit_iff.1 hcall
    have hexact := honce before g r first after hsplit
    have hunpaid : ∀ earlier, .credit g r earlier ∈ before → earlier ≤ 0 := by
      intro earlier hearlier
      by_contra hlt
      have hnot := hfirst _ hearlier
      rw [pays_credit_iff.2 ⟨earlier, rfl, by omega⟩] at hnot
      cases hnot
    obtain ⟨n, hn, -⟩ := hexact.adds (hexact.accepted_iff.2 ⟨hfirstpos, hunpaid⟩)
    rw [walletAfter_balance_inherited hg] at hn
    cases hn
  · intro hordinary before g r amount after hsplit
    have hmem : .credit g r amount ∈ calls := by simp [hsplit]
    have hbefore : PlainReservations before := fun g' r' amount' hmem' =>
      hcalls g' r' amount' (by simp [hsplit, hmem'])
    exact creditExact_of_ordinary hbefore (hcalls g r amount hmem) (hordinary g r amount hmem)

/-- The form and two fetches credit Ann, who books and cancels in between, and Bob has a reservation
of his own. -/
def refetchedCalls : List WalletCall :=
  [.credit "ann" "r1" 4, .spend "ann" "ACT001" 2 none, .credit "ann" "r1" 4,
    .refund "ann" "ACT001" 2, .credit "bob" "r2" 8, .credit "ann" "r1" 4]

/-- Credits repeated by a refetch are paid once. -/
theorem refetchedCalls_creditedOnce :
    PlainReservations refetchedCalls ∧ CreditedOnce refetchedCalls := by
  have hmem : ∀ {g r amount}, .credit g r amount ∈ refetchedCalls →
      (g = "ann" ∧ r = "r1") ∨ (g = "bob" ∧ r = "r2") := by
    intro g r amount hmem
    simp only [refetchedCalls, List.mem_cons, WalletCall.credit.injEq, reduceCtorEq,
      List.not_mem_nil, or_false, false_or] at hmem
    tauto
  have hplain : PlainReservations refetchedCalls := by
    intro g r amount h
    rcases hmem h with ⟨rfl, rfl⟩ | ⟨rfl, rfl⟩ <;> decide
  refine ⟨hplain, (creditedOnce_iff refetchedCalls hplain).2 fun g r amount h _ => ?_⟩
  rcases hmem h with ⟨rfl, rfl⟩ | ⟨rfl, rfl⟩ <;> decide

/-- The reservation of a guest whose id is an inherited name is entered as credited, and no token
arrives. -/
theorem constructor_not_credited :
    PlainReservations [.credit "constructor" "r1" 4] ∧
      ((walletAfter []).creditReservationTokens "constructor" "r1" 4).1 = true ∧
      ¬ CreditedOnce [.credit "constructor" "r1" 4] := by
  refine ⟨fun g r amount h => ?_, by decide, fun honce => ?_⟩
  · rw [List.mem_singleton, WalletCall.credit.injEq] at h
    rw [h.2.1]
    decide
  · obtain ⟨n, hn, -⟩ := (honce [] "constructor" "r1" 4 [] rfl).adds (by decide)
    have hbalance : (walletAfter []).balance "constructor" = .notNumber := by decide
    rw [hbalance] at hn
    cases hn

end Tokens
