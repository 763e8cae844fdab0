import Mathlib.Algebra.Order.Floor.Ring
import Mathlib.Data.Rat.Floor

/-!
# The simulation day

The hotel, the airport and the frontend each compute the day of the game from their own settings.
Instants are rational numbers of seconds since 1970-01-01T00:00:00Z, so nothing is rounded before
the floor. Each function is the code's own, with its own unit and its own default.
-/

namespace GameTime

/-- The leap years of the Gregorian calendar. -/
def isLeap (year : ℕ) : Bool := year % 4 = 0 && (year % 100 ≠ 0 || year % 400 = 0)

/-- The days of a month. -/
def daysInMonth (year month : ℕ) : ℕ :=
  if month = 2 then (if isLeap year then 29 else 28)
  else if month ∈ [4, 6, 9, 11] then 30 else 31

/-- The days from 0001-01-01 to the first of January of `year`. -/
def daysBeforeYear (year : ℕ) : ℤ :=
  let y : ℤ := year - 1
  y * 365 + y / 4 - y / 100 + y / 400

/-- The days from the first of January to the first day of `month`. -/
def daysBeforeMonth (year month : ℕ) : ℕ :=
  ((List.range (month - 1)).map fun m => daysInMonth year (m + 1)).foldl (· + ·) 0

/-- A date and time with an offset from UTC, in minutes: an ISO timestamp that `Date.parse` and
`datetime.fromisoformat` both accept. -/
structure Timestamp where
  /-- The year. -/
  year : ℕ
  /-- The month, from 1. -/
  month : ℕ
  /-- The day of the month, from 1. -/
  day : ℕ
  /-- The hour. -/
  hour : ℕ
  /-- The minute. -/
  minute : ℕ
  /-- The second. -/
  second : ℕ
  /-- The millisecond. -/
  millisecond : ℕ
  /-- The minutes the local time is ahead of UTC. -/
  utcOffset : ℤ
  /-- The year has at most four digits. -/
  year_valid : 1 ≤ year ∧ year ≤ 9999
  /-- The month is one of twelve. -/
  month_valid : 1 ≤ month ∧ month ≤ 12
  /-- The month has the day. -/
  day_valid : 1 ≤ day ∧ day ≤ daysInMonth year month
  /-- The time is one of a day. -/
  time_valid : hour < 24 ∧ minute < 60 ∧ second < 60 ∧ millisecond < 1000
  /-- The offset is less than a day. -/
  offset_valid : -1440 < utcOffset ∧ utcOffset < 1440

/-- The instant in milliseconds, which is what `Date.parse` returns. -/
def Timestamp.parse (t : Timestamp) : ℤ :=
  let days := daysBeforeYear t.year + daysBeforeMonth t.year t.month + (t.day - 1) -
    daysBeforeYear 1970
  (((days * 24 + t.hour) * 60 + t.minute - t.utcOffset) * 60 + t.second) * 1000 + t.millisecond

/-- `datetime.timestamp()`, in seconds. -/
def Timestamp.timestamp (t : Timestamp) : ℚ := (t.parse : ℚ) / 1000

/-- A date at a full hour, in UTC. -/
def utc (year month day hour : ℕ) (hy : 1 ≤ year ∧ year ≤ 9999) (hm : 1 ≤ month ∧ month ≤ 12)
    (hd : 1 ≤ day ∧ day ≤ daysInMonth year month) (hh : hour < 24) : Timestamp :=
  ⟨year, month, day, hour, 0, 0, 0, 0, hy, hm, hd, ⟨hh, by decide, by decide, by decide⟩, by decide⟩

/-- The variables of an environment; one that is not set is `none`. -/
structure Environment where
  /-- `SIMULATION_START_TIME`, if it is set. -/
  startTime : Option Timestamp
  /-- `GAME_SPEED`, if it is set. -/
  gameSpeed : Option ℤ

/-! ## The hotel: `simulation-clock.ts` and `SimulationService` -/

namespace Hotel

/-- The seconds of a game day. -/
def SECONDS_PER_DAY : ℚ := 86400

/-- The game seconds since the start. -/
def computeElapsedGameSeconds (nowMs : ℚ) (startTime : Timestamp) (gameSpeed : ℤ) : ℚ :=
  let elapsedRealSeconds := (nowMs - startTime.parse) / 1000
  elapsedRealSeconds * gameSpeed

/-- The game day, counted from zero. -/
def computeCurrentDay (nowMs : ℚ) (startTime : Timestamp) (gameSpeed : ℤ) : ℤ :=
  ⌊computeElapsedGameSeconds nowMs startTime gameSpeed / SECONDS_PER_DAY⌋

/-- `SimulationService.currentDay`; `boot` is the time at which the service was created. -/
def currentDay (boot : Timestamp) (env : Environment) (nowMs : ℚ) : ℤ :=
  computeCurrentDay nowMs (env.startTime.getD boot) (env.gameSpeed.getD 300)

end Hotel

/-! ## The airport: `game_time.py` -/

namespace Airport

/-- The start the airport reads, with its default. -/
def SIMULATION_START_TIME (env : Environment) : Timestamp :=
  env.startTime.getD (utc 2026 6 20 0 (by decide) (by decide) (by decide) (by decide))

/-- The speed the airport reads, with its default. -/
def GAME_SPEED (env : Environment) : ℤ := env.gameSpeed.getD 300

/-- The start in seconds of the epoch. -/
def SIMULATION_START (env : Environment) : ℚ := (SIMULATION_START_TIME env).timestamp

/-- `game_now()` at the time `time.time()`. -/
def game_now (env : Environment) (time : ℚ) : ℚ :=
  let real_elapsed := time - SIMULATION_START env
  real_elapsed * GAME_SPEED env

/-- The game day at the airport. -/
def day (env : Environment) (time : ℚ) : ℤ := ⌊game_now env time / 86400⌋

end Airport

/-! ## The frontend: `env.ts` and `simulation-time.ts` -/

namespace Frontend

/-- The environment of the frontend. -/
structure Env where
  /-- `VITE_SIMULATION_START_TIME` -/
  simulationStartTime : Timestamp
  /-- `VITE_GAME_SPEED` -/
  gameSpeed : ℤ

/-- `EnvSchema.parse`: a speed that is missing or not positive is replaced. -/
def parseEnv (vars : Environment) : Env where
  simulationStartTime :=
    vars.startTime.getD (utc 2026 6 14 9 (by decide) (by decide) (by decide) (by decide))
  gameSpeed := match vars.gameSpeed with
    | some speed => if 0 < speed then speed else 300
    | none => 300

/-- The start that is written into the code. -/
def anchor : Timestamp := utc 2026 6 19 9 (by decide) (by decide) (by decide) (by decide)

/-- The game day in the browser. -/
def getCurrentSimulationDay (env : Env) (nowMs : ℚ) : ℤ :=
  let elapsedRealSeconds := (nowMs - anchor.parse) / 1000
  let elapsedGameSeconds := elapsedRealSeconds * env.gameSpeed
  ⌊elapsedGameSeconds / 86400⌋

end Frontend

end GameTime
