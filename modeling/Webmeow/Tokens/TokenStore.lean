import Mathlib.Logic.Function.Basic

/-!
# The token wallet

The wallet that the browser keeps for the session. A missing balance reads as zero, and a booking
that is `null` as one that is missing.
-/

namespace Tokens

/-- The booking the wallet keeps track of. -/
structure ActivityTokenBooking where
  /-- The activity booked. -/
  activityId : String
  /-- What it cost. -/
  cost : Int
deriving DecidableEq

/-- The wallet as maps that every guest id is in. -/
structure TokenWallet where
  /-- The balance of each guest. -/
  balances : String → Int
  /-- The reservations credited so far, by their keys. -/
  creditedReservations : String → Bool
  /-- The tracked booking of each guest, if there is one. -/
  activityBookings : String → Option ActivityTokenBooking

/-- Nobody has tokens or bookings. -/
def TokenWallet.empty : TokenWallet := ⟨fun _ => 0, fun _ => false, fun _ => none⟩

/-- The key a credited reservation is remembered under. -/
def reservationCreditKey (guestId reservationId : String) : String := guestId ++ ":" ++ reservationId

/-- What the guest gets back for the activity that the server says is booked. -/
def TokenWallet.getRefundableCost (w : TokenWallet) (guestId : String)
    (currentActivityId : Option String) : Int :=
  match w.activityBookings guestId with
  | some tracked => if some tracked.activityId = currentActivityId then tracked.cost else 0
  | none => 0

/-- The amount is added once for each reservation. -/
def TokenWallet.creditReservationTokens (w : TokenWallet) (guestId reservationId : String)
    (amount : Int) : Bool × TokenWallet :=
  if amount ≤ 0 then (false, w)
  else
    let key := reservationCreditKey guestId reservationId
    if w.creditedReservations key then (false, w)
    else (true, { w with
      balances := Function.update w.balances guestId (w.balances guestId + amount)
      creditedReservations := Function.update w.creditedReservations key true })

/-- Whether the balance and the refund of the current activity cover the cost. -/
def TokenWallet.canAffordActivity (w : TokenWallet) (guestId : String) (cost : Int)
    (currentActivityId : Option String) : Bool :=
  decide (cost ≤ w.balances guestId + w.getRefundableCost guestId currentActivityId)

/-- The cost is taken and the booking tracked, unless it is the tracked one already. -/
def TokenWallet.spendActivityTokens (w : TokenWallet) (guestId activityId : String) (cost : Int)
    (currentActivityId : Option String) : Bool × TokenWallet :=
  if (w.activityBookings guestId).map ActivityTokenBooking.activityId = some activityId then (true, w)
  else
    let nextBalance := w.balances guestId + w.getRefundableCost guestId currentActivityId - cost
    if nextBalance < 0 then (false, w)
    else (true, { w with
      balances := Function.update w.balances guestId nextBalance
      activityBookings := Function.update w.activityBookings guestId (some ⟨activityId, cost⟩) })

/-- The amount that goes back. Where no booking is tracked, it is the fallback cost. -/
def TokenWallet.refundActivityTokens (w : TokenWallet) (guestId activityId : String)
    (fallbackCost : Int) : Int × TokenWallet :=
  match w.activityBookings guestId with
  | none =>
    if fallbackCost ≤ 0 then (0, w)
    else (fallbackCost, { w with
      balances := Function.update w.balances guestId (w.balances guestId + fallbackCost)
      activityBookings := Function.update w.activityBookings guestId none })
  | some tracked =>
    if tracked.activityId ≠ activityId then (0, w)
    else (tracked.cost, { w with
      balances := Function.update w.balances guestId (w.balances guestId + tracked.cost)
      activityBookings := Function.update w.activityBookings guestId none })

end Tokens
