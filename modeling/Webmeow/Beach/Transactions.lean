import Webmeow.Beach.Activity
import Webmeow.Lib.SnapshotIsolation

/-!
# The writing transactions of the beach under REPEATABLE READ

`DatabaseFactory` configures REPEATABLE READ, so each writing repository call is a program of the
snapshot isolation model. A retried call is a further transaction. The row of a booking is its
primary key.
-/

namespace Beach

open SnapshotIsolation

/-- What two transactions can both write: a row by its primary key. -/
inductive RowKey where
  | booking (activityId visitorId : String)
  | visitor (id : String)
deriving DecidableEq

/-- The repository calls that write. -/
inductive Program where
  | book (activityId visitorId : String)
  | cancel (activityId visitorId : String)
  | checkIn (visitorId : String)
  | checkOut (visitorId : String)
deriving DecidableEq

/-- The bookings that the program's `deleteWhere` finds. -/
def Program.deleted (p : Program) (db : Db) : Finset (String × String) :=
  match p with
  | .book _ v => db.bookings.filter fun row => row.2 = v
  | .cancel a v => db.bookings.filter fun row => row.1 = a ∧ row.2 = v
  | .checkIn _ => ∅
  | .checkOut v => db.bookings.filter fun row => row.2 = v

/-- The visitor whose row the program updates, when it exists. -/
def Program.updatedVisitor (p : Program) (db : Db) : Finset RowKey :=
  match p with
  | .checkIn v | .checkOut v => if (db.visitors v).isSome then {.visitor v} else ∅
  | _ => ∅

/-- The rows that a transaction inserts. -/
def Program.inserted (p : Program) (db : Db) : Finset RowKey :=
  match p with
  | .book a v => {.booking a v}
  | .checkIn v => if (db.visitors v).isSome then ∅ else {.visitor v}
  | _ => ∅

/-- The row exists. -/
def Db.present (db : Db) : RowKey → Bool
  | .booking a v => decide ((a, v) ∈ db.bookings)
  | .visitor v => (db.visitors v).isSome

/-- The statements of the program: rows are selected in the snapshot and changed in `db`. -/
def Program.install (p : Program) (snapshot db : Db) : Db :=
  match p with
  | .book a v => { db with bookings := insert (a, v) (db.bookings \ p.deleted snapshot) }
  | .cancel _ _ => { db with bookings := db.bookings \ p.deleted snapshot }
  | .checkIn v => { db with visitors := fun u => if u = v then some true else db.visitors u }
  | .checkOut v =>
    { db with
      bookings := db.bookings \ p.deleted snapshot
      visitors := fun u =>
        if u = v ∧ (snapshot.visitors v).isSome then some false else db.visitors u }

/-- What the transactions write, for snapshot isolation. -/
def transactions : Semantics Db RowKey Program where
  modified p db := (p.deleted db).image (fun row => .booking row.1 row.2) ∪ p.updatedVisitor db
  inserted := Program.inserted
  present := Db.present
  install := Program.install

/-- The committed tables and the transactions under way. -/
abbrev Session := State Db RowKey Program

/-- A transaction begins or commits. -/
def transactionStep : Session → Event Program → Option Session := State.step transactions

end Beach
