import Webmeow.Beach.Server
import Mathlib.Logic.Relation

/-!
# A use case that is not interrupted

The threads of `Beach.Server` and the functions `bookActivity` and `cancelActivity` of
`Beach.Activity` describe the same code.
-/

namespace Beach

open Relation

/-- The repository calls of one booking with nothing in between. -/
abbrev BookSteps (a v : String) (limit : LimitOne) : Db × BookPc → Db × BookPc → Prop :=
  ReflTransGen fun p q => bookStep p.1 a v limit p.2 = some q

/-- The repository calls of one cancellation with nothing in between. -/
abbrev CancelSteps (a v : String) : Db × CancelPc → Db × CancelPc → Prop :=
  ReflTransGen fun p q => cancelStep p.1 a v p.2 = some q

/-- **A booking that runs alone** ends with the answer and the tables of `bookActivity`. -/
theorem book_alone (db : Db) (a v : String) (limit : LimitOne) :
    ∃ pc, start (.book a v) = .book a v pc ∧
      BookSteps a v limit (db, pc)
        ((bookActivity db a v limit).2, .done (bookActivity db a v limit).1) := by
  refine ⟨_, rfl, ?_⟩
  unfold bookActivity
  by_cases hblank : isBlank v = true
  · rw [if_pos hblank, if_pos hblank]
  · rw [if_neg hblank, if_neg hblank]
    cases hact : db.findById a with
    | none => exact ReflTransGen.single (by simp [bookStep, hact])
    | some activity =>
      have h1 : bookStep db a v limit .findActivity = some (db, .findVisitor activity) := by
        simp [bookStep, hact]
      refine ReflTransGen.head h1 ?_
      cases hvis : db.findVisitor v with
      | none => exact ReflTransGen.single (by simp [bookStep, hvis])
      | some visitor =>
        by_cases hin : visitor.checkedIn = true
        · have h2 : bookStep db a v limit (.findVisitor activity) =
              some (db, .findCurrent activity) := by
            simp [bookStep, hvis, hin]
          refine ReflTransGen.head h2 ?_
          simp only [hin, not_true_eq_false, if_false]
          cases herr : bookingError a activity (db.findByBookedVisitor v limit) with
          | some e => exact ReflTransGen.single (by simp [bookStep, herr])
          | none =>
            have h3 : bookStep db a v limit (.findCurrent activity) = some (db, .book) := by
              simp [bookStep, herr]
            exact ReflTransGen.head h3 (ReflTransGen.single rfl)
        · exact ReflTransGen.single (by simp [bookStep, hvis, hin])

/-- **A cancellation that runs alone** ends with the answer and the tables of `cancelActivity`. -/
theorem cancel_alone (db : Db) (a v : String) :
    CancelSteps a v (db, .findActivity)
      ((cancelActivity db a v).2, .done (cancelActivity db a v).1) := by
  unfold cancelActivity
  cases hact : db.findById a with
  | none => exact ReflTransGen.single (by simp [cancelStep, hact])
  | some activity =>
    by_cases hblank : isBlank v = true
    · exact ReflTransGen.single (by simp [cancelStep, hact, hblank])
    · by_cases hbooked : v ∈ activity.bookedVisitors
      · have h1 : cancelStep db a v .findActivity = some (db, .cancel) := by
          simp [cancelStep, hact, hblank, hbooked]
        refine ReflTransGen.head h1 ?_
        simp only [hblank, hbooked, not_true_eq_false, if_false, Bool.false_eq_true]
        exact ReflTransGen.single rfl
      · exact ReflTransGen.single (by simp [cancelStep, hact, hblank, hbooked])

end Beach
