import Webmeow.Airport.Proofs.PositionProofs
import Webmeow.Hotel.AirportClient
import Webmeow.Hotel.Proofs.FirstFitProofs

/-!
# Whose arrival the hotel asks for

A plain id is asked for as it is. Another one is answered by the arrival of somebody else, by a route
that is no arrival, or by nothing, and then the reservation goes ahead.
-/

namespace Airport

open Runs

/-- The latest arrival of the guest is processed. -/
def Service.Processed (s : Service) (guestId : String) : Prop :=
  ∃ row, s.system.db.getGuest guestId = some row ∧ row.status = .processed

/-- The service after some run. -/
def Service.Reachable (s : Service) : Prop :=
  ∃ es, run (System.step s.cfg) System.initial es = some s.system

theorem Status.name_eq_processed_iff (status : Status) :
    status.name = "processed" ↔ status = .processed := by
  cases status <;> decide

/-- The airport says `processed` of who has been processed. -/
theorem getArrival_status_iff (s : Service) (guestId : String) :
    (s.getArrival guestId).status = "processed" ↔ s.Processed guestId := by
  unfold Service.getArrival Service.Processed
  cases hrow : s.system.db.getGuest guestId with
  | none => simp [notStarted]
  | some row =>
    dsimp only
    rw [Status.name_eq_processed_iff]
    simp

/-- The service before the first arrival. -/
def Service.fresh : Service := ⟨⟨1, 1⟩, System.initial, 0⟩

/-- A fresh airport is reachable. -/
theorem Service.fresh_reachable : Service.fresh.Reachable := ⟨[], rfl⟩

/-- A fresh airport has processed nobody. -/
theorem Service.fresh_not_processed (guestId : String) : ¬ Service.fresh.Processed guestId := by
  rintro ⟨row, hrow, -⟩
  cases hrow

/-- One guest arrives and is processed. -/
def soloRun (guestId : String) : List Event :=
  [.arrive ⟨guestId, "Ann", "Lee", 40, .EU, .standard, false⟩, .choose 0 1, .commit 0, .enqueue 0,
    .respond 0, .pop ⟨.EU, 1⟩, .commitProcessing ⟨.EU, 1⟩, .commitProcessed ⟨.EU, 1⟩ 2]

/-- After it the guest, and nobody else, is processed. -/
theorem exists_solo (guestId : String) :
    ∃ s : Service, s.Reachable ∧ s.Processed guestId ∧
      ∀ other, other ≠ guestId → ¬ s.Processed other := by
  obtain ⟨s, hrun, hrows⟩ : ∃ s, run (System.step ⟨1, 1⟩) System.initial (soloRun guestId) = some s ∧
      s.db.rows = [⟨1, ⟨guestId, "Ann", "Lee", 40, .EU, .standard, false⟩, .processed, ⟨.EU, 1⟩, 1,
        some 2, some (2 - 1)⟩] := ⟨_, rfl, rfl⟩
  refine ⟨⟨⟨1, 1⟩, s, 2⟩, ⟨soloRun guestId, hrun⟩, ?_, ?_⟩
  · unfold Service.Processed Db.getGuest
    dsimp only
    rw [hrows]
    simp [Arrival.isOf]
  · rintro other hne ⟨row, hrow, -⟩
    obtain ⟨hmem, hguest⟩ := getGuest_mem hrow
    dsimp only at hmem
    rw [hrows, List.mem_singleton] at hmem
    subst hmem
    exact hne hguest.symm

end Airport

namespace Hotel

/-! ## Routes -/

/-- The paths that ask for an arrival. -/
theorem airportRoute_arrival_iff {path : List Char} {guestId : String} :
    airportRoute path = .arrival guestId ↔
      path = "/arrivals/".toList ++ guestId.toList ∧ guestId.toList ≠ [] ∧ '/' ∉ guestId.toList := by
  constructor
  · intro h
    unfold airportRoute at h
    split_ifs at h
    cases hdrop : path.dropPrefix? "/arrivals/".toList with
    | none =>
      rw [hdrop] at h
      cases h
    | some rest =>
      obtain ⟨front, rfl, hfront⟩ := List.dropPrefix?_eq_some_iff.1 hdrop
      obtain rfl := eq_of_beq hfront
      rw [hdrop] at h
      dsimp only at h
      split_ifs at h with hrest
      cases h
      have hlist : (String.ofList rest).toList = rest := String.toList_ofList
      rw [hlist]
      exact ⟨rfl, hrest⟩
  · rintro ⟨rfl, hrest⟩
    have hdrop : ("/arrivals/".toList ++ guestId.toList).dropPrefix? "/arrivals/".toList =
        some guestId.toList := List.dropPrefix?_eq_some_iff.2 ⟨_, rfl, beq_self_eq_true _⟩
    unfold airportRoute
    rw [if_neg (by simp), if_neg (by simp), if_neg (by simp), if_neg (by simp), hdrop]
    dsimp only
    rw [if_pos hrest, String.ofList_toList]

/-- **Whose arrival is asked for**: the guest's own exactly for a plain id. -/
theorem arrivalRequest_own_iff (guestId : String) :
    arrivalRequest guestId = .arrival guestId ↔ WebUrl.Plain guestId.toList := by
  unfold arrivalRequest
  rw [airportRoute_arrival_iff]
  exact WebUrl.requestPath_below_iff (d := "arrivals".toList) (by decide)

/-- The routes that answer, but not with an arrival. -/
def AirportRoute.isOther : AirportRoute → Bool
  | .arrivals => true
  | .queue => true
  | .stats => true
  | .health => true
  | .arrival _ => false
  | .notFound => false

/-! ## Answers -/

section Answers

variable {airport : Airport.Service} {guestId other : String}

/-- A request for an arrival is answered by its guest. -/
theorem cleared_arrival (h : arrivalRequest guestId = .arrival other) :
    hasGuestClearedProcessing (some airport) guestId ≠ none ∧
      (hasGuestClearedProcessing (some airport) guestId = some true ↔ airport.Processed other) := by
  simp [hasGuestClearedProcessing, h, AirportRoute.status, Airport.getArrival_status_iff]

/-- A request for another route clears nobody. -/
theorem cleared_other (h : (arrivalRequest guestId).isOther = true) :
    hasGuestClearedProcessing (some airport) guestId = some false := by
  unfold hasGuestClearedProcessing
  cases hroute : arrivalRequest guestId with
  | arrival other => rw [hroute] at h; cases h
  | notFound => rw [hroute] at h; cases h
  | arrivals => rfl
  | queue => rfl
  | stats => rfl
  | health => rfl

/-- A request for no route is no answer. -/
theorem cleared_notFound (h : arrivalRequest guestId = .notFound) :
    hasGuestClearedProcessing (some airport) guestId = none := by
  simp [hasGuestClearedProcessing, h, AirportRoute.status]

end Answers

/-! ## The gate -/

/-- With the airport in this state, a clearance of the guest means that the guest's own latest arrival
is processed, and no request for a party with the guest succeeds without it. The answers for the
other guests of the party may come from any time. -/
structure ChecksOwnArrival (airport : Airport.Service) (guestId : String) : Prop where
  /-- A guest taken for cleared has been processed. -/
  cleared : hasGuestClearedProcessing (some airport) guestId = some true →
    airport.Processed guestId
  /-- Who gets a room has been processed. -/
  reserved : ∀ db answers uuid dto db' row,
    answers guestId = hasGuestClearedProcessing (some airport) guestId →
    dto.validate = true → create db answers uuid dto = .ok (db', row) → guestId ∈ dto.party →
      airport.Processed guestId

/-- An answer that is about the guest checks its own arrival. -/
theorem checksOwnArrival_of_answer {airport : Airport.Service} {guestId : String}
    (hsome : hasGuestClearedProcessing (some airport) guestId ≠ none)
    (htrue : hasGuestClearedProcessing (some airport) guestId = some true →
      airport.Processed guestId) : ChecksOwnArrival airport guestId where
  cleared := htrue
  reserved db answers uuid dto db' row hanswer hvalid hcreate hmem := by
    have hnot := (create_ok hcreate).1.cleared guestId hmem
    rw [hanswer] at hnot
    cases hcleared : hasGuestClearedProcessing (some airport) guestId with
    | none => exact absurd hcleared hsome
    | some b =>
      cases b with
      | true => exact htrue hcleared
      | false => exact absurd hcleared hnot

/-- No reservation is stored for a guest whose id no column can hold. -/
theorem checksOwnArrival_of_unstorable {airport : Airport.Service} {guestId : String}
    (hnone : hasGuestClearedProcessing (some airport) guestId = none)
    (htext : fitsText guestId = false) : ChecksOwnArrival airport guestId where
  cleared htrue := nomatch hnone.symm.trans htrue
  reserved db answers uuid dto db' row _ _ hcreate hmem := by
    have hfits := (create_ok hcreate).1.storable.party guestId hmem
    rw [htext] at hfits
    cases hfits

/-- A guest whom the airport does not refuse may reserve. -/
theorem unrefused_reserves {answers : String → Option Bool} {guestId : String}
    (h : answers guestId ≠ some false) (htext : fitsText guestId = true) :
    ∃ q, create oneRoom answers "r1" (stay guestId) = .ok q := by
  have hdays : (stay guestId).checkInDay < (stay guestId).checkOutDay := by
    show (1 : Int) < 3
    omega
  have hcapacity : (stay guestId).headCount ≤ 2 := by
    show (1 : Int) ≤ 2
    omega
  have hparty : ∀ id ∈ (stay guestId).party, id = guestId := fun id hid => List.mem_singleton.1 hid
  refine create_of_acceptable (by decide) ⟨hdays, nofun, ?_, ?_, ?_⟩
  · intro id hid
    rw [hparty id hid]
    exact h
  · exact ⟨_, List.mem_singleton_self _, rfl, hcapacity, fun r hr => absurd hr List.not_mem_nil⟩
  · refine ⟨rfl, rfl, rfl, fun id hid => ?_⟩
    rw [hparty id hid]
    exact htext

/-- **The right guest is checked**, whatever the airport has seen, exactly for the plain ids, for the
ids that lead to a route without arrivals, whose guests are never let in, and for the ids that lead to
no route and cannot be stored. -/
theorem checksOwnArrival_iff (guestId : String) :
    (∀ airport : Airport.Service, airport.Reachable → ChecksOwnArrival airport guestId) ↔
      WebUrl.Plain guestId.toList ∨ (arrivalRequest guestId).isOther = true ∨
        (arrivalRequest guestId = .notFound ∧ fitsText guestId = false) := by
  rw [← arrivalRequest_own_iff]
  constructor
  · intro h
    cases hroute : arrivalRequest guestId with
    | arrival other =>
      by_cases hother : other = guestId
      · rw [hother]
        exact Or.inl rfl
      · -- the other guest is processed, and this one has not arrived
        obtain ⟨airport, hreachable, hprocessed, hnobody⟩ := Airport.exists_solo other
        have hcleared := (cleared_arrival hroute).2.2 hprocessed
        exact absurd ((h airport hreachable).cleared hcleared)
          (hnobody guestId fun heq => hother heq.symm)
    | notFound =>
      cases htext : fitsText guestId with
      | false => exact Or.inr (Or.inr ⟨rfl, rfl⟩)
      | true =>
        -- nobody has arrived, and the guest may reserve all the same
        have hunrefused :
            hasGuestClearedProcessing (some Airport.Service.fresh) guestId ≠ some false := by
          rw [cleared_notFound hroute]
          exact nofun
        obtain ⟨⟨db', row⟩, hcreate⟩ := unrefused_reserves hunrefused htext
        have hprocessed := (h _ Airport.Service.fresh_reachable).reserved _ _ _ _ _ _ rfl rfl
          hcreate List.mem_cons_self
        exact absurd hprocessed (Airport.Service.fresh_not_processed guestId)
    | arrivals => exact Or.inr (Or.inl rfl)
    | queue => exact Or.inr (Or.inl rfl)
    | stats => exact Or.inr (Or.inl rfl)
    | health => exact Or.inr (Or.inl rfl)
  · rintro (hown | hother | ⟨hnone, htext⟩) airport -
    · exact checksOwnArrival_of_answer (cleared_arrival hown).1 (cleared_arrival hown).2.1
    · have hfalse : hasGuestClearedProcessing (some airport) guestId = some false :=
        cleared_other hother
      refine checksOwnArrival_of_answer (by rw [hfalse]; exact nofun) fun htrue => ?_
      rw [hfalse] at htrue
      cases htrue
    · exact checksOwnArrival_of_unstorable (cleared_notFound hnone) htext

/-- An ordinary id is checked. -/
theorem mangoMiles_checked :
    WebUrl.Plain "mango-miles".toList ∧ ChecksOwnArrival Airport.Service.fresh "mango-miles" :=
  ⟨by decide, (checksOwnArrival_iff "mango-miles").2 (Or.inl (by decide)) _
    Airport.Service.fresh_reachable⟩

/-- The question mark ends the path: the arrival of Ann clears a guest who has never arrived. -/
theorem questionMark_reserves :
    ∃ airport : Airport.Service, airport.Reachable ∧
      hasGuestClearedProcessing (some airport) "ann?x" = some true ∧ ¬ airport.Processed "ann?x" ∧
      ∃ q, create oneRoom (hasGuestClearedProcessing (some airport)) "r1" (stay "ann?x") =
        .ok q := by
  obtain ⟨airport, hreachable, hprocessed, hnobody⟩ := Airport.exists_solo "ann"
  have hroute : arrivalRequest "ann?x" = .arrival "ann" := by decide
  have hcleared := (cleared_arrival hroute).2.2 hprocessed
  refine ⟨airport, hreachable, hcleared, hnobody "ann?x" (by decide),
    unrefused_reserves ?_ (by decide)⟩
  rw [hcleared]
  exact nofun

end Hotel
