import Webmeow.Beach.Activity
import Webmeow.Tokens.WalletObjects

/-!
# A browser session with the beach service

`useBookActivity` sends a request and touches the wallet when the server has answered with success,
so a request is sent, answered and settled in three steps, with anything in between. What the query
for the booked activity has returned last may be stale; it is part of the event.
-/

namespace Tokens

/-- Where a mutation is: the request is under way, the answer is a success, or it is over. -/
inductive Progress where
  /-- The request is on its way. -/
  | sent
  /-- The server has agreed. -/
  | succeeded
  /-- `onSuccess` has run. -/
  | settled
  /-- The server has refused. -/
  | failed
deriving DecidableEq

/-- The variables of a mutation with the guest of its closure. A booking is sent only at a cost that
compares with the balance, so at a number. -/
inductive Mutation where
  /-- An activity is booked. -/
  | book (guestId activityId : String) (cost : Int) (currentActivityId : Option String)
  /-- An activity is cancelled. -/
  | cancel (guestId activityId : String) (cost : Amount)
deriving DecidableEq

/-- The beach service, the wallet and the mutations of a session. -/
structure Session where
  /-- The tables of the beach service. -/
  db : Beach.Db
  /-- The wallet of the browser. -/
  wallet : WalletState
  /-- The mutations sent, with how far each has come. -/
  mutations : List (Mutation × Progress)
  /-- The amounts credited so far, for each guest. -/
  credited : String → Int

/-- What can happen in a session. -/
inductive Action where
  /-- The allowance of a reservation is credited. -/
  | credit (guestId reservationId : String) (amount : Int)
  /-- The button of an activity is pressed; the activity booked so far is the last argument. -/
  | book (guestId : String) (activity : Activity) (currentActivityId : Option String)
  /-- The booking is cancelled. -/
  | cancel (guestId : String) (activity : Activity)
  /-- The server handles a request. -/
  | answer (i : ℕ) (limit : Beach.LimitOne)
  /-- `onSuccess` runs. -/
  | settle (i : ℕ)
  /-- The guest checks in at the beach. -/
  | checkIn (visitorId : String)
  /-- The guest checks out. -/
  | checkOut (visitorId : String)

/-- An empty wallet and nothing booked. -/
def Session.initial (db : Beach.Db) : Session := ⟨db, .empty, [], fun _ => 0⟩

/-- `creditReservationTokens`, with its account of what was credited. -/
def Session.credit (s : Session) (guestId reservationId : String) (amount : Int) : Session :=
  let result := s.wallet.creditReservationTokens guestId reservationId amount
  if result.1 then
    { s with
      wallet := result.2
      credited := Function.update s.credited guestId (s.credited guestId + amount) }
  else { s with wallet := result.2 }

/-- What the server answers to a request: `none` is success. -/
def serverAnswer (db : Beach.Db) (limit : Beach.LimitOne) : Mutation → Option Beach.Error × Beach.Db
  | .book g a _ _ => Beach.bookActivity db a g limit
  | .cancel g a _ => Beach.cancelActivity db a g

/-- The `onSuccess` of a mutation. -/
def onSuccess (w : WalletState) : Mutation → WalletState
  | .book g a cost current => (w.spendActivityTokens g a cost current).2
  | .cancel g a cost => (w.refundActivityTokens g a cost).2

/-- One action; `none` where it cannot happen. -/
def Session.step (s : Session) : Action → Option Session
  | .credit g r amount => some (s.credit g r amount)
  | .book g activity current =>
    match getActivityTokenCost activity with
    -- no balance is `>=` what is no number
    | .notNumber => none
    | .number cost =>
      if s.wallet.canAffordActivity g cost current then
        some { s with
          mutations := s.mutations ++ [(.book g activity.activityId cost current, .sent)] }
      else none
  | .cancel g activity =>
    some { s with
      mutations := s.mutations ++
        [(.cancel g activity.activityId (getActivityTokenCost activity), .sent)] }
  | .answer i limit =>
    match s.mutations[i]? with
    | some (m, .sent) =>
      let (error, db) := serverAnswer s.db limit m
      some { s with
        db := db
        mutations := s.mutations.set i (m, if error.isNone then .succeeded else .failed) }
    | _ => none
  | .settle i =>
    match s.mutations[i]? with
    | some (m, .succeeded) =>
      some { s with wallet := onSuccess s.wallet m, mutations := s.mutations.set i (m, .settled) }
    | _ => none
  | .checkIn v => some { s with db := s.db.checkIn v }
  | .checkOut v => some { s with db := s.db.checkOut v }

end Tokens
