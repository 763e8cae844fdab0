import Webmeow.GameTime.Clock
import Mathlib.Tactic.Ring
import Mathlib.Tactic.Linarith
import Mathlib.Tactic.FieldSimp

/-!
# Whether the services share a day

The hotel and the airport count their days from the start time that they are given, the frontend
from a date of its own. At a positive speed two clocks with different origins disagree at the
earlier of the two.
-/

namespace GameTime

/-- The day of a clock that began at `origin`. -/
def dayFrom (origin : ℚ) (speed : ℤ) (now : ℚ) : ℤ := ⌊(now - origin) * speed / 86400⌋

/-- The day of the origin is day zero. -/
theorem dayFrom_origin (origin : ℚ) (speed : ℤ) : dayFrom origin speed origin = 0 := by
  simp [dayFrom]

/-- Before its origin a clock counts negative days. -/
theorem dayFrom_neg {origin now : ℚ} {speed : ℤ} (hspeed : 0 < speed) (h : now < origin) :
    dayFrom origin speed now < 0 := by
  have hs : (0 : ℚ) < speed := Int.cast_pos.2 hspeed
  have hneg : (now - origin) * speed / 86400 < 0 :=
    div_neg_of_neg_of_pos (mul_neg_of_neg_of_pos (sub_neg.2 h) hs) (by norm_num)
  exact Int.floor_lt.2 (by simpa using hneg)

/-- Clocks of one speed always show the same day exactly if they began at the same instant. -/
theorem dayFrom_eq_iff {a b : ℚ} {speed : ℤ} (hspeed : 0 < speed) :
    (∀ now, dayFrom a speed now = dayFrom b speed now) ↔ a = b := by
  constructor
  · intro h
    rcases lt_trichotomy a b with hlt | heq | hlt
    · have hneg := dayFrom_neg hspeed hlt
      rw [← h a, dayFrom_origin] at hneg
      exact absurd hneg (lt_irrefl 0)
    · exact heq
    · have hneg := dayFrom_neg hspeed hlt
      rw [h b, dayFrom_origin] at hneg
      exact absurd hneg (lt_irrefl 0)
  · rintro rfl now
    rfl

/-! ## The three implementations as clocks -/

/-- Milliseconds since an instant, turned into seconds. -/
theorem seconds_sub (t : Timestamp) (now : ℚ) :
    (1000 * now - t.parse) / 1000 = now - t.timestamp := by
  unfold Timestamp.timestamp
  ring

/-- The hotel counts its days from the start. -/
theorem hotel_dayFrom (boot start : Timestamp) (speed : ℤ) (now : ℚ) :
    Hotel.currentDay boot ⟨some start, some speed⟩ (1000 * now) =
      dayFrom start.timestamp speed now := by
  simp only [Hotel.currentDay, Hotel.computeCurrentDay, Hotel.computeElapsedGameSeconds,
    Hotel.SECONDS_PER_DAY, Option.getD_some, seconds_sub, dayFrom]

/-- The airport counts its days from the start. -/
theorem airport_dayFrom (start : Timestamp) (speed : ℤ) (now : ℚ) :
    Airport.day ⟨some start, some speed⟩ now = dayFrom start.timestamp speed now := rfl

/-- The browser counts its days from the anchor. -/
theorem frontend_dayFrom (start : Timestamp) {speed : ℤ} (hspeed : 0 < speed) (now : ℚ) :
    Frontend.getCurrentSimulationDay (Frontend.parseEnv ⟨some start, some speed⟩) (1000 * now) =
      dayFrom Frontend.anchor.timestamp speed now := by
  simp only [Frontend.getCurrentSimulationDay, Frontend.parseEnv, if_pos hspeed, seconds_sub,
    dayFrom]

/-- Seconds and milliseconds tell the same timestamps apart. -/
theorem timestamp_eq_iff {s t : Timestamp} : s.timestamp = t.timestamp ↔ s.parse = t.parse := by
  simp only [Timestamp.timestamp]
  rw [div_left_inj' (by norm_num), Int.cast_inj]

/-- At the instant `now`, all three implementations are on the same day. -/
def SameDay (boot : Timestamp) (env : Environment) (now : ℚ) : Prop :=
  Hotel.currentDay boot env (1000 * now) = Airport.day env now ∧
    Frontend.getCurrentSimulationDay (Frontend.parseEnv env) (1000 * now) = Airport.day env now

/-- **One shared day, exactly.** With the same start time and the same positive speed in all three
environments, the hotel, the airport and the frontend are on the same day at every instant if and
only if the start time is the instant that the frontend is anchored to. -/
theorem sameDay_iff_start_eq_anchor (boot start : Timestamp) (speed : ℤ) (hspeed : 0 < speed) :
    (∀ now, SameDay boot ⟨some start, some speed⟩ now) ↔ start.parse = Frontend.anchor.parse := by
  rw [← timestamp_eq_iff, ← dayFrom_eq_iff hspeed]
  refine forall_congr' fun now => ?_
  rw [SameDay, hotel_dayFrom, frontend_dayFrom start hspeed, airport_dayFrom, and_iff_right rfl,
    eq_comm]

section Deployed

/-- The start time of the deployment, 2026-06-20T00:00:00Z, which is also the airport's default. -/
def deployed : Timestamp := Airport.SIMULATION_START_TIME ⟨none, none⟩

/-- At its own start time the deployed airport is on day 0 and the frontend on day 187. -/
theorem deployed_differs :
    Airport.day ⟨some deployed, some 300⟩ deployed.timestamp = 0 ∧
      Frontend.getCurrentSimulationDay (Frontend.parseEnv ⟨some deployed, some 300⟩)
        (1000 * deployed.timestamp) = 187 ∧
      ¬ SameDay deployed ⟨some deployed, some 300⟩ deployed.timestamp := by
  have hair : Airport.day ⟨some deployed, some 300⟩ deployed.timestamp = 0 := dayFrom_origin _ _
  have hfront : Frontend.getCurrentSimulationDay (Frontend.parseEnv ⟨some deployed, some 300⟩)
      (1000 * deployed.timestamp) = 187 := by
    rw [frontend_dayFrom deployed (by decide)]
    have hdep : deployed.timestamp = 1781913600 := by
      rw [Timestamp.timestamp, show deployed.parse = 1781913600000 by decide]
      norm_num
    have hanchor : Frontend.anchor.timestamp = 1781859600 := by
      rw [Timestamp.timestamp, show Frontend.anchor.parse = 1781859600000 by decide]
      norm_num
    rw [dayFrom, hdep, hanchor, Int.floor_eq_iff]
    constructor <;> norm_num
  refine ⟨hair, hfront, fun h => ?_⟩
  have h2 := h.2
  rw [hfront, hair] at h2
  exact absurd h2 (by decide)

/-- Started at the anchor, all three agree when the deployment starts. -/
theorem anchored_sameDay :
    SameDay deployed ⟨some Frontend.anchor, some 300⟩ deployed.timestamp :=
  (sameDay_iff_start_eq_anchor deployed Frontend.anchor 300 (by decide)).2 rfl deployed.timestamp

end Deployed

end GameTime
