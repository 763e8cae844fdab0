import Webmeow.Hotel.Reservation
import Webmeow.Lib.Records

/-!
# Token rules

The price of an activity in entertainment tokens, and the tokens that come with a stay.
-/

namespace Tokens

open Hotel Records

/-! ## Amounts -/

/-- A value that the code takes for a number. An inherited member turns into a text or into `NaN`
as soon as it is added to or subtracted from, and so does everything computed from it. -/
inductive Amount where
  /-- A whole number. -/
  | number (n : Int)
  /-- A value that arithmetic makes `NaN` or a text of. -/
  | notNumber
deriving DecidableEq

/-- The sum with a number. -/
def Amount.add : Amount → Int → Amount
  | .number n, m => .number (n + m)
  | .notNumber, _ => .notNumber

/-- The sum of two values. -/
def Amount.plus (x : Amount) : Amount → Amount
  | .number m => x.add m
  | .notNumber => .notNumber

/-- The difference with a number. -/
def Amount.sub : Amount → Int → Amount
  | .number n, m => .number (n - m)
  | .notNumber, _ => .notNumber

/-- `a < m`, which is false of what is no number. -/
def Amount.lt : Amount → Int → Bool
  | .number n, m => decide (n < m)
  | .notNumber, _ => false

/-- `a <= m`, which is false of what is no number. -/
def Amount.le : Amount → Int → Bool
  | .number n, m => decide (n ≤ m)
  | .notNumber, _ => false

/-- `a >= m`, which is false of what is no number. -/
def Amount.ge : Amount → Int → Bool
  | .number n, m => decide (m ≤ n)
  | .notNumber, _ => false

/-! ## Prices -/

/-- The entries of `ACTIVITY_TOKEN_COST_BY_ID`. -/
def activityTokenCostById : List (String × Int) :=
  [("ACT001", 2), ("ACT002", 5), ("ACT003", 6), ("ACT004", 2), ("ACT005", 4), ("ACT006", 1),
    ("ACT007", 2), ("ACT008", 9), ("ACT009", 10), ("ACT010", 3), ("ACT011", 5), ("ACT012", 4),
    ("ACT013", 1), ("ACT014", 3), ("ACT015", 2), ("ACT016", 4), ("ACT017", 5), ("ACT018", 1),
    ("ACT019", 2), ("ACT020", 7), ("activity-sunset-cruise", 7), ("activity-snorkeling", 6),
    ("activity-glass-bottom-boat", 5), ("activity-beach-volleyball", 2), ("activity-kayaking", 4),
    ("activity-beach-yoga", 2)]

/-- The entries of `ACTIVITY_TOKEN_COST_BY_NAME`. -/
def activityTokenCostByName : List (String × Int) :=
  [("Beach Volleyball", 2), ("Surf Lessons", 5), ("Snorkeling Adventure", 6), ("Snorkeling", 6),
    ("Sunrise Yoga", 2), ("Beach Yoga", 2), ("Kayaking Tour", 4), ("Kayaking", 4),
    ("Sandcastle Competition", 1), ("Beach Soccer", 2), ("Scuba Diving", 9),
    ("Jet Ski Experience", 10), ("Beach Bonfire", 3), ("Fishing Excursion", 5),
    ("Paddle Boarding", 4), ("Nature Walk", 1), ("Photography Workshop", 3), ("Treasure Hunt", 2),
    ("Cooking Class", 4), ("Sailing Basics", 5), ("Beach Cleanup", 1), ("Meditation Session", 2),
    ("Sunset Cruise", 7), ("Glass-Bottom Boat", 5)]

/-- An activity as the beach service lists it, as far as its price is concerned. -/
structure Activity where
  /-- `activity_id` -/
  activityId : String
  /-- `activity_name` -/
  activityName : String
deriving DecidableEq

/-- `table[key]`, where `none` stands for `undefined`. -/
def costIn (table : Record Int) (key : String) : Option Amount :=
  match table.read key with
  | .own cost => some (.number cost)
  | .inherited => some .notNumber
  | .absent => none

/-- The cost listed for the id, else for the name, else two tokens. -/
def getActivityTokenCost (activity : Activity) : Amount :=
  (costIn (.ofList activityTokenCostById) activity.activityId).getD
    ((costIn (.ofList activityTokenCostByName) activity.activityName).getD (.number 2))

/-! ## The package of a stay -/

/-- The tokens of a night. -/
def ROOM_TOKEN_ALLOWANCE_PER_NIGHT : RoomType → Int
  | .STANDARD => 4
  | .DELUXE => 8
  | .SUITE => 16

/-- `ROOM_PRICE_PER_NIGHT` of the frontend's `hotel/types.ts`. -/
def ROOM_PRICE_PER_NIGHT : RoomType → Int
  | .STANDARD => 100
  | .DELUXE => 200
  | .SUITE => 400

/-- The tokens of a stay, of one night at least. -/
def getPackageTokenAllowance (roomType : RoomType) (nights : Int) : Int :=
  ROOM_TOKEN_ALLOWANCE_PER_NIGHT roomType * max 1 nights

/-- The price of a stay, of one night at least. -/
def getPackagePrice (roomType : RoomType) (nights : Int) : Int :=
  ROOM_PRICE_PER_NIGHT roomType * max 1 nights

/-- The tokens of a reservation. -/
def getReservationTokenAllowance (reservation : ReservationResponseDto) : Int :=
  getPackageTokenAllowance reservation.roomType (reservation.checkOutDay - reservation.checkInDay)

end Tokens
