import Webmeow.GameTime.Clock
import Webmeow.Tokens.TokenRules

/-!
# The reservation form

`ReservationFormSchema`, the request that `formToRequest` makes of accepted values, and what the form
shows while it is filled in. A date is an instant in milliseconds since 1970-01-01T00:00:00Z.
-/

namespace Frontend

open Hotel Tokens

/-- The milliseconds of a day. -/
def dayMs : ℤ := 86400000

/-- The two functions of `date-fns` that are used here, in a time zone whose clocks are never
changed: local midnight, and full periods of 24 hours rounded towards zero. -/
structure DateFns where
  /-- How far local time is ahead of UTC. -/
  offset : ℤ
  /-- `startOfDay`, on milliseconds. -/
  startOfDay : ℤ → ℤ
  /-- `differenceInDays`, on milliseconds. -/
  differenceInDays : ℤ → ℤ → ℤ
  /-- `startOfDay` is the last midnight of local time. -/
  startOfDay_eq : ∀ date, startOfDay date = (date + offset) / dayMs * dayMs - offset
  /-- `differenceInDays` counts the full days in between, rounded towards zero. -/
  differenceInDays_eq : ∀ later earlier,
    differenceInDays later earlier = (later - earlier).tdiv dayMs

/-! ## `simulation-time.ts` -/

/-- The simulation day of a date. -/
def dateToSimulationDay (fns : DateFns) (date : ℤ) : ℤ :=
  fns.differenceInDays (fns.startOfDay date) (fns.startOfDay GameTime.Frontend.anchor.parse)

/-! ## `reservation-form-schema.ts` -/

/-- What is submitted; a date field that was cleared is `undefined`. -/
structure FormInput where
  /-- `room_type` -/
  roomType : String
  /-- `guest_count` -/
  guestCount : ℚ
  /-- `check_in_date`, in milliseconds. -/
  checkInDate : Option ℤ
  /-- `check_out_date`, in milliseconds. -/
  checkOutDate : Option ℤ

/-- The values that the schema accepts. -/
structure ReservationFormValues where
  /-- `room_type` -/
  roomType : RoomType
  /-- `guest_count` -/
  guestCount : ℤ
  /-- `check_in_date`, in milliseconds. -/
  checkInDate : ℤ
  /-- `check_out_date`, in milliseconds. -/
  checkOutDate : ℤ
  /-- There is at least one guest. -/
  guestCount_min : 1 ≤ guestCount
  /-- The stay ends after it starts. -/
  checkOut_after : checkInDate < checkOutDate

/-- The first issue that the schema reports; `none` is a text of the library. -/
structure Issue where
  /-- The field the issue is about. -/
  path : String
  /-- The text the source gives it, if it gives one. -/
  message : Option String
deriving DecidableEq, Repr

/-- The room type of that name, if there is one. -/
def RoomTypeSchema (value : String) : Option RoomType :=
  [RoomType.STANDARD, .DELUXE, .SUITE].find? fun type => type.name = value

/-- The first issue of the input, or its values. -/
def ReservationFormSchema (input : FormInput) : Except Issue ReservationFormValues :=
  match RoomTypeSchema input.roomType with
  | none => .error ⟨"room_type", none⟩
  | some roomType =>
    if hguests : input.guestCount.den = 1 ∧ 1 ≤ input.guestCount.num then
      match input.checkInDate, input.checkOutDate with
      | none, _ => .error ⟨"check_in_date", none⟩
      | some _, none => .error ⟨"check_out_date", none⟩
      | some checkIn, some checkOut =>
        if hdates : checkIn < checkOut then
          .ok ⟨roomType, input.guestCount.num, checkIn, checkOut, hguests.2, hdates⟩
        else .error ⟨"check_out_date", some "Check-out must be after check-in"⟩
    else .error ⟨"guest_count", none⟩

/-- The request a form that passed its schema is sent as. -/
def formToRequest (fns : DateFns) (values : ReservationFormValues) (guestId : String) :
    CreateReservationDto where
  guestId := guestId
  partyGuestIds := none
  roomType := values.roomType
  guestCount := values.guestCount
  checkInDay := dateToSimulationDay fns values.checkInDate
  checkOutDay := dateToSimulationDay fns values.checkOutDate

/-! ## `reservation-form.tsx` -/

/-- The nights between the dates that are watched. -/
def nightsBetween (fns : DateFns) (checkIn checkOut : Option ℤ) : Option ℤ :=
  match checkIn, checkOut with
  | some checkIn, some checkOut =>
    if checkIn < checkOut then some (fns.differenceInDays checkOut checkIn) else none
  | _, _ => none

/-- What the form shows of the stay. -/
structure Quote where
  /-- The nights of the stay, if the dates are a stay. -/
  nights : Option ℤ
  /-- The price of the package. -/
  packagePrice : ℤ
  /-- The tokens of the package. -/
  packageTokens : ℤ
deriving DecidableEq, Repr

/-- What the form shows for its room type and dates. -/
def ReservationForm (fns : DateFns) (roomType : RoomType) (checkIn checkOut : Option ℤ) : Quote :=
  let nights := nightsBetween fns checkIn checkOut
  let packageNights := nights.getD 1
  ⟨nights, getPackagePrice roomType packageNights, getPackageTokenAllowance roomType packageNights⟩

/-- The badge between the date fields. -/
def Quote.badge (quote : Quote) : Option String := quote.nights.map fun n => toString n ++ "n"

/-- The text of the button. -/
def Quote.submitLabel (quote : Quote) : String :=
  match quote.nights with
  | none => "Book room"
  | some n =>
    if n = 0 then "Book room"
    else "Book " ++ toString n ++ " night" ++ (if 1 < n then "s" else "")

/-- The quote for values that were accepted. -/
def ReservationFormValues.quote (values : ReservationFormValues) (fns : DateFns) : Quote :=
  ReservationForm fns values.roomType (some values.checkInDate) (some values.checkOutDate)

end Frontend
