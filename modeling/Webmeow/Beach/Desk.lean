import Webmeow.Beach.Controller
import Webmeow.Lib.FunctionGraph
import Webmeow.Lib.Keyed

/-!
# The beach as a desk with seats

What the service is for, said without tables: a desk where a visitor who is checked in has one seat at
most, on an activity that exists and has the places. The desk is not translated from the source; its
answers are in the words of the HTTP interface so that they can be compared.
-/

namespace Beach

open FunctionGraph

/-- A desk: what is on offer, who has been here and who has which seat. -/
@[ext]
structure Desk where
  /-- What is on offer. -/
  activities : List ActivityRow
  /-- Activities are told apart by their ids. -/
  activityKey : (activities.map ActivityRow.id).Nodup
  /-- Whether a visitor who has been here is checked in. -/
  visitors : String → Option Bool
  /-- The activity on which a visitor has a seat. -/
  seat : String → Option String
  /-- Only so many visitors have seats. -/
  finite : {v | (seat v).isSome}.Finite
  /-- Seats are for visitors who are checked in. -/
  seatedCheckedIn : ∀ v, (seat v).isSome → visitors v = some true
  /-- Seats are on activities that exist. -/
  seatedActivity : ∀ v a, seat v = some a → ∃ row ∈ activities, row.id = a
  /-- No activity has more seats taken than it has places. -/
  seatedCapacity : ∀ row ∈ activities, {v | seat v = some row.id}.ncard ≤ row.capacity.toNat

namespace Desk

/-- The number of seats that are taken on an activity. -/
noncomputable def taken (d : Desk) (a : String) : ℕ := {v | d.seat v = some a}.ncard

/-- A visitor may take a seat, if need be for the one that the visitor has. -/
structure MaySit (d : Desk) (a v : String) : Prop where
  /-- The visitor has a name. -/
  notBlank : isBlank v = false
  /-- The activity exists and has a place left. -/
  free : ∃ row ∈ d.activities, row.id = a ∧ (d.taken a : Int) < row.capacity
  /-- The visitor is here. -/
  checkedIn : d.visitors v = some true
  /-- The seat would be another one. -/
  notSeated : d.seat v ≠ some a

/-- A visitor takes a seat, and gives up the one before. -/
def sit (d : Desk) (a v : String) (h : d.MaySit a v) : Desk where
  activities := d.activities
  activityKey := d.activityKey
  visitors := d.visitors
  seat := Function.update d.seat v (some a)
  finite := finite_update d.finite v (some a)
  seatedCheckedIn u hu := by
    by_cases huv : u = v
    · rw [huv]
      exact h.checkedIn
    · rw [Function.update_of_ne huv] at hu
      exact d.seatedCheckedIn u hu
  seatedActivity u b hu := by
    by_cases huv : u = v
    · subst huv
      rw [Function.update_self] at hu
      obtain ⟨row, hrow, hid, -⟩ := h.free
      exact ⟨row, hrow, hid.trans (Option.some.inj hu)⟩
    · rw [Function.update_of_ne huv] at hu
      exact d.seatedActivity u b hu
  seatedCapacity row hrow := by
    have hle := ncard_update_le d.finite a row.id v
    by_cases ha : row.id = a
    · obtain ⟨row', hrow', hid, hlt⟩ := h.free
      have he : row' = row := by
        have hfind := Keyed.find_of_mem d.activityKey hrow
        have hfind' := Keyed.find_of_mem d.activityKey hrow'
        rw [hid, ← ha, hfind] at hfind'
        exact (Option.some.inj hfind').symm
      subst he
      unfold taken at hlt
      rw [if_pos ha] at hle
      rw [← ha] at hlt
      omega
    · rw [if_neg ha] at hle
      exact hle.trans (d.seatedCapacity row hrow)

/-- A visitor gives up the seat. -/
def leave (d : Desk) (v : String) : Desk where
  activities := d.activities
  activityKey := d.activityKey
  visitors := d.visitors
  seat := Function.update d.seat v none
  finite := finite_update d.finite v none
  seatedCheckedIn u hu := by
    by_cases huv : u = v
    · rw [huv, Function.update_self] at hu
      cases hu
    · rw [Function.update_of_ne huv] at hu
      exact d.seatedCheckedIn u hu
  seatedActivity u b hu := by
    by_cases huv : u = v
    · rw [huv, Function.update_self] at hu
      cases hu
    · rw [Function.update_of_ne huv] at hu
      exact d.seatedActivity u b hu
  seatedCapacity row hrow :=
    (ncard_update_none_le d.finite row.id v).trans (d.seatedCapacity row hrow)

/-- A visitor arrives. -/
def welcome (d : Desk) (v : String) : Desk :=
  { d with
    visitors := Function.update d.visitors v (some true)
    seatedCheckedIn := by
      intro u hu
      by_cases huv : u = v
      · rw [huv, Function.update_self]
      · rw [Function.update_of_ne huv]
        exact d.seatedCheckedIn u hu }

/-- A visitor who leaves the beach leaves the seat too. -/
def farewell (d : Desk) (v : String) : Desk :=
  { d.leave v with
    visitors := Function.update d.visitors v ((d.visitors v).map fun _ => false)
    seatedCheckedIn := by
      intro u hu
      have hu' : (Function.update d.seat v none u).isSome := hu
      by_cases huv : u = v
      · rw [huv, Function.update_self] at hu'
        cases hu'
      · rw [Function.update_of_ne huv]
        rw [Function.update_of_ne huv] at hu'
        exact d.seatedCheckedIn u hu' }

/-! ## Answers -/

open Classical in
/-- Why a visitor may not sit: the first reason in the order of the service. -/
noncomputable def refusal (d : Desk) (a v : String) : Error :=
  if isBlank v then .VISITOR_MISSING_ID
  else if ∀ row ∈ d.activities, row.id ≠ a then .ACTIVITY_NOT_FOUND
  else if d.visitors v = none then .VISITOR_NOT_FOUND
  else if d.visitors v = some false then .VISITOR_NOT_CHECKED_IN
  else if d.seat v = some a then .ACTIVITY_ALREADY_BOOKED
  else .ACTIVITY_FULL

open Classical in
/-- A booking succeeds for those who may sit. -/
noncomputable def book (d : Desk) (a v : String) : Option Error × Desk :=
  if h : d.MaySit a v then (none, d.sit a v h) else (some (d.refusal a v), d)

open Classical in
/-- Giving up a seat that one does not have changes nothing. -/
noncomputable def cancel (d : Desk) (a v : String) : Option Error × Desk :=
  if ∀ row ∈ d.activities, row.id ≠ a then (some .ACTIVITY_NOT_FOUND, d)
  else if isBlank v then (some .VISITOR_MISSING_ID, d)
  else (none, if d.seat v = some a then d.leave v else d)

/-- An activity with the seats that are left. -/
noncomputable def response (d : Desk) (row : ActivityRow) : ActivityResponse :=
  ⟨row.id, row.name, row.description, row.capacity, row.capacity - d.taken row.id⟩

/-- What is on offer. -/
noncomputable def list (d : Desk) : List ActivityResponse := d.activities.map d.response

/-- What is asked of the desk. -/
inductive Call where
  /-- Take a seat. -/
  | book (a v : String)
  /-- Give up a seat. -/
  | cancel (a v : String)
  /-- Where does this visitor sit? -/
  | seatOf (v : String)
  /-- What is left of this activity? -/
  | activity (a : String)
  /-- What is on offer? -/
  | activities
  | arrival (v : String)
  | departure (v : String)

/-- A request as the desk understands it, or the answer that it gets at every desk. -/
def read : HttpRequest → Except Response Call
  | .health => .error ⟨200, .status "ok"⟩
  | .root => .error ⟨200, .text "Hello"⟩
  | .book a request =>
    if isBlank a then .error (respondError MISSING_ACTIVITY_ID)
    else match request with
      | .error status => .error ⟨status, .empty⟩
      | .ok v => .ok (.book a v)
  | .cancel a request =>
    if isBlank a then .error (respondError MISSING_ACTIVITY_ID)
    else match request with
      | .error status => .error ⟨status, .empty⟩
      | .ok v => if fitsText a then .ok (.cancel a v) else .error ⟨500, .empty⟩
  | .getActivityByGuest v =>
    if isBlank v then .error (respondError (Error.message .VISITOR_MISSING_ID))
    else if fitsText v then .ok (.seatOf v) else .error ⟨500, .empty⟩
  | .getActivity a =>
    if isBlank a then .error (respondError MISSING_ACTIVITY_ID)
    else if fitsText a then .ok (.activity a) else .error ⟨500, .empty⟩
  | .getActivities => .ok .activities
  | .checkInVisitor (.error status) | .checkOutVisitor (.error status) => .error ⟨status, .empty⟩
  | .checkInVisitor (.ok v) =>
    if isBlank v then .error (respondError (Error.message .VISITOR_MISSING_ID))
    else if fitsText v then .ok (.arrival v) else .error ⟨500, .empty⟩
  | .checkOutVisitor (.ok v) =>
    if isBlank v then .error (respondError (Error.message .VISITOR_MISSING_ID))
    else if fitsText v then .ok (.departure v) else .error ⟨500, .empty⟩

/-- A booking that cannot be read: the activity, or after it the visitor, is no text. -/
def Illegible (d : Desk) (a v : String) : Prop :=
  isBlank v = false ∧ (fitsText a = false ∨ (∃ row ∈ d.activities, row.id = a) ∧ fitsText v = false)

open Classical in
/-- The answer to a call, and the desk after it. -/
noncomputable def answer (d : Desk) : Call → Response × Desk
  | .book a v =>
    if d.Illegible a v then (⟨500, .empty⟩, d)
    else (respondOutcome (d.book a v).1 "booked", (d.book a v).2)
  | .cancel a v => (respondOutcome (d.cancel a v).1 "cancelled", (d.cancel a v).2)
  | .seatOf v => (⟨200, .activityId (d.seat v)⟩, d)
  | .activity a =>
    match d.list.find? fun response => response.activity_id = a with
    | none => (respondError (Error.message .ACTIVITY_NOT_FOUND), d)
    | some response => (⟨200, .activity response⟩, d)
  | .activities => (⟨200, .activities d.list⟩, d)
  | .arrival v =>
    -- the book of visitors has no line for a long name
    if d.visitors v = none ∧ ¬ fitsVisitorId v then (⟨500, .empty⟩, d)
    else (⟨200, .status "checked_in"⟩, d.welcome v)
  | .departure v => (⟨200, .status "checked_out"⟩, d.farewell v)

/-- The answer to a request, and the desk after it. -/
noncomputable def serve (d : Desk) (call : HttpRequest) : Response × Desk :=
  match read call with
  | .error response => (response, d)
  | .ok call => d.answer call

/-- The desk as a machine. -/
noncomputable def step (d : Desk) (call : HttpRequest) : Option (Desk × Response) :=
  some (d.serve call).swap

end Desk

end Beach
