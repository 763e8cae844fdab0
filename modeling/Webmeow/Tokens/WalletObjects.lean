import Webmeow.Tokens.TokenRules
import Webmeow.Tokens.TokenStore

/-!
# The token wallet as the objects of the store

The three records of the store are object literals, and a guest id is used as a key as it is. Where
the id is the name of a member of `Object.prototype`, a lookup without an own entry finds that
member: `?? 0` does not replace it, and it is no number.
-/

namespace Tokens

open Records

/-- The wallet as the objects of the source. -/
structure WalletState where
  /-- The balance of each guest. -/
  balances : Record Amount
  /-- The reservations credited so far, by their keys. -/
  creditedReservations : Record Unit
  /-- The tracked booking of each guest. -/
  activityBookings : Record (Option ActivityTokenBooking)

/-- `EMPTY_WALLET_STATE` -/
def WalletState.empty : WalletState := ⟨.empty, .empty, .empty⟩

namespace WalletState

/-- `balances[guestId] ?? 0` -/
def balance (w : WalletState) (guestId : String) : Amount :=
  match w.balances.read guestId with
  | .own a => a
  | .inherited => .notNumber
  | .absent => .number 0

/-- `activityBookings[guestId]`, if it is a booking. An inherited member has no `activityId`. -/
def tracked (w : WalletState) (guestId : String) : Option ActivityTokenBooking :=
  match w.activityBookings.read guestId with
  | .own booking => booking
  | .inherited => none
  | .absent => none

/-- The cost of the tracked booking, if it is of the current activity. -/
def getRefundableCost (w : WalletState) (guestId : String) (currentActivityId : Option String) :
    Int :=
  match w.tracked guestId with
  | some tracked => if some tracked.activityId = currentActivityId then tracked.cost else 0
  | none => 0

/-- The amount is added once for each reservation. -/
def creditReservationTokens (w : WalletState) (guestId reservationId : String) (amount : Int) :
    Bool × WalletState :=
  if amount ≤ 0 then (false, w)
  else
    let key := reservationCreditKey guestId reservationId
    if w.creditedReservations.read key ≠ .absent then (false, w)
    else (true, { w with
      balances := w.balances.set guestId ((w.balance guestId).add amount)
      creditedReservations := w.creditedReservations.set key () })

/-- Whether the balance and the refund of the current activity cover the cost. -/
def canAffordActivity (w : WalletState) (guestId : String) (cost : Int)
    (currentActivityId : Option String) : Bool :=
  ((w.balance guestId).add (w.getRefundableCost guestId currentActivityId)).ge cost

/-- The cost is taken and the booking tracked, unless it is the tracked one already. -/
def spendActivityTokens (w : WalletState) (guestId activityId : String) (cost : Int)
    (currentActivityId : Option String) : Bool × WalletState :=
  if (w.tracked guestId).map ActivityTokenBooking.activityId = some activityId then (true, w)
  else
    let nextBalance :=
      ((w.balance guestId).add (w.getRefundableCost guestId currentActivityId)).sub cost
    if nextBalance.lt 0 then (false, w)
    else (true, { w with
      balances := w.balances.set guestId nextBalance
      activityBookings := w.activityBookings.set guestId (some ⟨activityId, cost⟩) })

/-- The two assignments of `refundActivityTokens`. -/
def payBack (w : WalletState) (guestId : String) (cost : Amount) : WalletState :=
  { w with
    balances := w.balances.set guestId ((w.balance guestId).plus cost)
    activityBookings := w.activityBookings.set guestId none }

/-- The amount that goes back. An inherited member is no booking of this activity, but it is truthy,
so the fallback cost is not paid either. -/
def refundActivityTokens (w : WalletState) (guestId activityId : String) (fallbackCost : Amount) :
    Amount × WalletState :=
  match w.activityBookings.read guestId with
  | .own (some tracked) =>
    if tracked.activityId ≠ activityId then (.number 0, w)
    else (.number tracked.cost, w.payBack guestId (.number tracked.cost))
  | .inherited => (.number 0, w)
  | .own none | .absent =>
    if fallbackCost.le 0 then (.number 0, w)
    else (fallbackCost, w.payBack guestId fallbackCost)

/-- The flag of `ActivitiesList` for an activity in its list. -/
def isAffordable (w : WalletState) (guestId activityId : String) (tokenCost : Int)
    (bookedActivityId : Option String) : Bool :=
  let isBooked := decide (bookedActivityId = some activityId)
  let isReplacing := decide (bookedActivityId ≠ none) && !isBooked
  let refundableTokens :=
    match w.tracked guestId with
    | some tracked =>
      if isReplacing ∧ some tracked.activityId = bookedActivityId then tracked.cost else 0
    | none => 0
  ((w.balance guestId).add refundableTokens).ge tokenCost

end WalletState

/-- The calls that change the wallet. -/
inductive WalletCall where
  /-- A call of `creditReservationTokens`. -/
  | credit (guestId reservationId : String) (amount : Int)
  /-- A call of `spendActivityTokens`. -/
  | spend (guestId activityId : String) (cost : Int) (currentActivityId : Option String)
  /-- A call of `refundActivityTokens`. -/
  | refund (guestId activityId : String) (fallbackCost : Int)
deriving DecidableEq

/-- The wallet after one call. -/
def WalletState.apply (w : WalletState) : WalletCall → WalletState
  | .credit g r amount => (w.creditReservationTokens g r amount).2
  | .spend g a cost current => (w.spendActivityTokens g a cost current).2
  | .refund g a fallbackCost => (w.refundActivityTokens g a (.number fallbackCost)).2

/-- The same call of the wallet that is a map. -/
def TokenWallet.apply (w : TokenWallet) : WalletCall → TokenWallet
  | .credit g r amount => (w.creditReservationTokens g r amount).2
  | .spend g a cost current => (w.spendActivityTokens g a cost current).2
  | .refund g a fallbackCost => (w.refundActivityTokens g a fallbackCost).2

/-- The wallet after some calls, from the empty one. -/
def walletAfter (calls : List WalletCall) : WalletState := calls.foldl WalletState.apply .empty

end Tokens
