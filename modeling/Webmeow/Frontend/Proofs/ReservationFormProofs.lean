import Webmeow.Frontend.ReservationForm
import Webmeow.Hotel.Proofs.FirstFitProofs

/-!
# When a quote is the stay that is booked

Validation compares instants, the request compares local days, and the quote counts full periods of
24 hours. The three agree exactly if the dates lie on different local days and the check-out is not
earlier in its day than the check-in is in its own.
-/

namespace Frontend

open Hotel Tokens

/-- The local day of a date. -/
def localDay (fns : DateFns) (date : ℤ) : ℤ := (date + fns.offset) / dayMs

/-- The time that has passed since local midnight. -/
def timeOfDay (fns : DateFns) (date : ℤ) : ℤ := (date + fns.offset) % dayMs

/-- A date is a local day and a time of day. -/
theorem localDay_add_timeOfDay (fns : DateFns) (date : ℤ) :
    dayMs * localDay fns date + timeOfDay fns date = date + fns.offset :=
  Int.mul_ediv_add_emod _ _

/-- The time of day lies within a day. -/
theorem timeOfDay_bounds (fns : DateFns) (date : ℤ) :
    0 ≤ timeOfDay fns date ∧ timeOfDay fns date < dayMs :=
  ⟨Int.emod_nonneg _ (by decide), Int.emod_lt_of_pos _ (by decide)⟩

/-- Days of the simulation are local days, counted from that of the anchor. -/
theorem dateToSimulationDay_eq (fns : DateFns) (date : ℤ) :
    dateToSimulationDay fns date =
      localDay fns date - localDay fns GameTime.Frontend.anchor.parse := by
  have hmul : ∀ a b : ℤ, a * dayMs - fns.offset - (b * dayMs - fns.offset) = (a - b) * dayMs := by
    intro a b
    rw [Int.sub_mul]
    omega
  rw [dateToSimulationDay, fns.differenceInDays_eq, fns.startOfDay_eq, fns.startOfDay_eq, hmul]
  exact Int.mul_tdiv_cancel _ (by decide)

/-- Full periods of 24 hours are local days, less one if the later date is earlier in its day. -/
theorem differenceInDays_of_lt (fns : DateFns) {earlier later : ℤ} (h : earlier < later) :
    fns.differenceInDays later earlier = localDay fns later - localDay fns earlier -
      if timeOfDay fns later < timeOfDay fns earlier then 1 else 0 := by
  have he := localDay_add_timeOfDay fns earlier
  have hl := localDay_add_timeOfDay fns later
  obtain ⟨he0, he1⟩ := timeOfDay_bounds fns earlier
  obtain ⟨hl0, hl1⟩ := timeOfDay_bounds fns later
  rw [fns.differenceInDays_eq, Int.tdiv_eq_ediv_of_nonneg (by omega)]
  simp only [dayMs] at *
  split_ifs with htime
  · omega
  · omega

/-! ## What is accepted -/

/-- The schema accepts a known room type, a positive whole number of guests, and two dates in
order, and changes none of them. -/
theorem ReservationFormSchema_eq_ok_iff {input : FormInput} {values : ReservationFormValues} :
    ReservationFormSchema input = .ok values ↔
      RoomTypeSchema input.roomType = some values.roomType ∧
        input.guestCount = values.guestCount ∧ input.checkInDate = some values.checkInDate ∧
          input.checkOutDate = some values.checkOutDate := by
  constructor
  · intro h
    unfold ReservationFormSchema at h
    split at h
    · cases h
    · rename_i roomType htype
      split_ifs at h with hguests
      split at h
      · cases h
      · cases h
      · rename_i checkIn checkOut hin hout
        split_ifs at h with hdates
        obtain rfl := Except.ok.inj h
        exact ⟨htype, ((Rat.den_eq_one_iff _).1 hguests.1).symm, hin, hout⟩
  · rintro ⟨htype, hcount, hin, hout⟩
    have hguests : input.guestCount.den = 1 ∧ 1 ≤ input.guestCount.num := by
      rw [hcount]
      exact ⟨Rat.den_intCast _, values.guestCount_min⟩
    simp only [ReservationFormSchema, htype, hin, hout, dif_pos hguests,
      dif_pos values.checkOut_after]
    have hnum : input.guestCount.num = values.guestCount := by rw [hcount, Rat.num_intCast]
    cases values
    simp only at hnum
    simp only [hnum]

/-- Dates that are not in order are reported at the check-out. -/
theorem ReservationFormSchema_unordered {input : FormInput} {roomType : RoomType} {guests : ℤ}
    {checkIn checkOut : ℤ} (htype : RoomTypeSchema input.roomType = some roomType)
    (hcount : input.guestCount = guests) (hguests : 1 ≤ guests)
    (hin : input.checkInDate = some checkIn) (hout : input.checkOutDate = some checkOut)
    (h : checkOut ≤ checkIn) : ReservationFormSchema input =
      .error ⟨"check_out_date", some "Check-out must be after check-in"⟩ := by
  have hwhole : input.guestCount.den = 1 ∧ 1 ≤ input.guestCount.num := by
    rw [hcount]
    exact ⟨Rat.den_intCast _, hguests⟩
  simp only [ReservationFormSchema, htype, hin, hout, dif_pos hwhole, dif_neg (not_lt.2 h)]

/-! ## The stay that is booked -/

/-- A reservation that the hotel makes has the room type and the days of the request. -/
theorem create_answers {db db' : Db} {airport : String → Option Bool} {uuid : String}
    {dto : CreateReservationDto} {row : ReservationWithRoomAndGuests}
    (h : create db airport uuid dto = .ok (db', row)) :
    (toReservationResponse row).roomType = dto.roomType ∧
      (toReservationResponse row).checkInDay = dto.checkInDay ∧
        (toReservationResponse row).checkOutDay = dto.checkOutDay := by
  obtain ⟨hdays, party, room, hparty, -, hpick, hdb⟩ := create_eq_ok_iff.1 h
  have hfits := (firstFit_of_pickRoom hdays
    ((resolvePartyGuests_eq_ok_iff.1 hparty).2 ▸ hpick)).fits
  obtain ⟨hins, hrow⟩ := createReservation_eq_ok_iff.1 hdb
  have hroom : room ∈ db'.rooms := (insertReservation_eq_some hins).1 ▸ hfits.listed
  have hfind : (db'.rooms.find? fun r => r.id =
      (newReservation dto party.partyGuestIds room uuid).roomId) = some room :=
    Keyed.find_of_mem db'.roomKey hroom
  rw [Db.include, hfind, Option.map_some] at hrow
  obtain rfl := Option.some.inj hrow
  exact ⟨hfits.type, rfl, rfl⟩

/-- The request of accepted values is for at least one night, the quote is for its nights, and the
tokens quoted are those of the reservation that the hotel makes for it. -/
def QuoteKept (fns : DateFns) (values : ReservationFormValues) (guestId : String) : Prop :=
  let request := formToRequest fns values guestId
  let quote := values.quote fns
  request.checkInDay < request.checkOutDay ∧
    quote.nights = some (request.checkOutDay - request.checkInDay) ∧
    ∀ (db : Db) (airport : String → Option Bool) (uuid : String) (db' : Db)
      (row : ReservationWithRoomAndGuests), create db airport uuid request = .ok (db', row) →
        quote.packageTokens = getReservationTokenAllowance (toReservationResponse row)

/-- The form that passed its schema shows the nights between its dates. -/
theorem quote_nights (fns : DateFns) (values : ReservationFormValues) :
    (values.quote fns).nights =
      some (fns.differenceInDays values.checkOutDate values.checkInDate) := by
  simp only [ReservationFormValues.quote, ReservationForm, nightsBetween,
    if_pos values.checkOut_after]

/-- A quote of the right number of nights has the right number of tokens. -/
theorem packageTokens_of_nights {fns : DateFns} {values : ReservationFormValues} {guestId : String}
    (hnights : (values.quote fns).nights = some ((formToRequest fns values guestId).checkOutDay -
      (formToRequest fns values guestId).checkInDay)) {db db' : Db}
    {airport : String → Option Bool} {uuid : String} {row : ReservationWithRoomAndGuests}
    (h : create db airport uuid (formToRequest fns values guestId) = .ok (db', row)) :
    (values.quote fns).packageTokens =
      getReservationTokenAllowance (toReservationResponse row) := by
  obtain ⟨htype, hin, hout⟩ := create_answers h
  rw [getReservationTokenAllowance, htype, hin, hout]
  show getPackageTokenAllowance values.roomType ((values.quote fns).nights.getD 1) = _
  rw [hnights]
  rfl

/-- **Quotes that are kept**: accepted values make a request for the stay that was quoted if and
only if the check-out is on a later local day than the check-in, and not earlier in that day than
the check-in is in its own. -/
theorem quoteKept_iff (fns : DateFns) (values : ReservationFormValues) (guestId : String) :
    QuoteKept fns values guestId ↔
      localDay fns values.checkInDate < localDay fns values.checkOutDate ∧
        timeOfDay fns values.checkInDate ≤ timeOfDay fns values.checkOutDate := by
  have hdays : (formToRequest fns values guestId).checkOutDay -
      (formToRequest fns values guestId).checkInDay =
      localDay fns values.checkOutDate - localDay fns values.checkInDate := by
    simp only [formToRequest, dateToSimulationDay_eq]
    omega
  have hnights : (values.quote fns).nights = some ((formToRequest fns values guestId).checkOutDay -
      (formToRequest fns values guestId).checkInDay) ↔
      timeOfDay fns values.checkInDate ≤ timeOfDay fns values.checkOutDate := by
    rw [quote_nights, differenceInDays_of_lt fns values.checkOut_after, hdays, Option.some.injEq]
    split_ifs with htime
    · omega
    · omega
  constructor
  · rintro ⟨horder, hn, -⟩
    refine ⟨?_, hnights.1 hn⟩
    omega
  · rintro ⟨hlater, htime⟩
    refine ⟨?_, hnights.2 htime, fun _ _ _ _ _ h => packageTokens_of_nights (hnights.2 htime) h⟩
    omega

section DatePicker

/-- The functions in UTC. -/
def utcFns : DateFns where
  offset := 0
  startOfDay date := (date + 0) / dayMs * dayMs - 0
  differenceInDays later earlier := (later - earlier).tdiv dayMs
  startOfDay_eq _ := rfl
  differenceInDays_eq _ _ := rfl

/-- The check-in is left at its default, the time at which the form was opened, here 2026-06-20 at
15:00; the check-out was picked, which is midnight at the start of 2026-06-22. -/
def pickedCheckOut : ReservationFormValues where
  roomType := .STANDARD
  guestCount := 1
  checkInDate := 1781967600000
  checkOutDate := 1782086400000
  guestCount_min := by decide
  checkOut_after := by decide

/-- The check-in was picked, and the check-out is left at its default, a day after the form was
opened: both are on 2026-06-21. -/
def pickedCheckIn : ReservationFormValues where
  roomType := .STANDARD
  guestCount := 1
  checkInDate := 1782000000000
  checkOutDate := 1782054000000
  guestCount_min := by decide
  checkOut_after := by decide

/-- One night and 4 tokens are quoted for a stay of two nights with 8 tokens; and a stay on one day
is accepted, for which the hotel is asked and refuses. -/
theorem pickedDates_not_kept :
    (pickedCheckOut.quote utcFns).nights = some 1 ∧
      (pickedCheckOut.quote utcFns).packageTokens = 4 ∧
      formToRequest utcFns pickedCheckOut "kiki-smith" =
        ⟨"kiki-smith", none, .STANDARD, 1, 1, 3⟩ ∧
      getPackageTokenAllowance .STANDARD (3 - 1) = 8 ∧
      ¬QuoteKept utcFns pickedCheckOut "kiki-smith" ∧
      formToRequest utcFns pickedCheckIn "kiki-smith" = ⟨"kiki-smith", none, .STANDARD, 1, 2, 2⟩ ∧
      checkDays (formToRequest utcFns pickedCheckIn "kiki-smith") =
        .error ⟨"check_out_day must be greater than check_in_day", .BAD_REQUEST⟩ ∧
      ¬QuoteKept utcFns pickedCheckIn "kiki-smith" := by
  have hout : formToRequest utcFns pickedCheckOut "kiki-smith" =
      ⟨"kiki-smith", none, .STANDARD, 1, 1, 3⟩ := by decide
  have hin : formToRequest utcFns pickedCheckIn "kiki-smith" =
      ⟨"kiki-smith", none, .STANDARD, 1, 2, 2⟩ := by decide
  refine ⟨by decide, by decide, hout, by decide, ?_, hin, by rw [hin]; rfl, ?_⟩
  · rintro ⟨-, hnights, -⟩
    rw [hout] at hnights
    exact absurd hnights (by decide)
  · rintro ⟨horder, -⟩
    rw [hin] at horder
    exact absurd horder (by decide)

end DatePicker

end Frontend
