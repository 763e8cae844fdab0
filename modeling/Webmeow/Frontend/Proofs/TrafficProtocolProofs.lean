import Webmeow.Frontend.Proofs.TrafficGeneratorProofs
import Webmeow.Lib.Ledger

/-!
# The traffic generator keeps to what it was told

The steps of the simulated guests overlap and may overwrite each other's transitions. Yet a guest is at a
gate, holds a reservation or an activity only if a backend has said so in an answer to a call for this
guest, and every call that presupposes something is made on the strength of such an answer.
-/

namespace Frontend.Traffic

open Runs

/-- What an answer tells about a guest. -/
inductive Fact where
  /-- The guest was given the gate. -/
  | gate (gate : String)
  /-- The arrival is processed. -/
  | cleared
  /-- The guest has the reservation. -/
  | reservation (id : String)
  /-- The guest is checked in at the beach. -/
  | checkedIn
  /-- The activity has places left. -/
  | offered (activityId : String)
  /-- The guest has booked the activity. -/
  | activity (activityId : String)
deriving DecidableEq

/-- What the answer to a call tells. -/
def Call.learns : Call → Answer → List Fact
  | .postArrival, .arrival gate => [.gate gate]
  | .getArrivalStatus, .arrivalStatus .processed => [.cleared]
  | .existingReservation, .reservationByGuest (some id) => [.reservation id]
  | .recoverReservation, .reservationByGuest (some id) => [.reservation id]
  | .activeReservation, .reservationByGuest (some id) => [.reservation id]
  | .postReservation, .reservation id => [.reservation id]
  | .checkInVisitor, .ok => [.checkedIn]
  | .getActivityByGuest, .activityByGuest (some activityId) => [.activity activityId]
  | .getActivities, .activities activities =>
    (activities.filter fun a => 0 < a.2).map fun a => .offered a.1
  | .bookActivity activityId, .ok => [.activity activityId]
  | _, _ => []

/-- What an event tells about which guest. -/
def Generator.learns (g : Generator) : TrafficEvent → List (String × Fact)
  | .answer i answer _ =>
    match g.loops[i]? with
    | some (.running ⟨guest, _, .awaiting call⟩) => (call.learns answer).map fun fact => (guest, fact)
    | _ => []
  | _ => []

/-- All that the answers of a run have told. -/
def told (env : Env) (lastParrotChatAt : ℤ) (es : List TrafficEvent) : List (String × Fact) :=
  collect (Generator.step env) Generator.learns (Generator.initial lastParrotChatAt) es

/-! ## What needs which facts -/

section Backed

variable (known : Fact → Prop)

/-- What a state remembers was answered by a service. -/
def SimGuestState.Backed : SimGuestState → Prop
  | .new => True
  | .arrived gate => known (.gate gate)
  | .hotelBooked gate reservationId => known (.gate gate) ∧ known (.reservation reservationId)
  | .beachBooked gate reservationId activityId =>
    known (.gate gate) ∧ known (.reservation reservationId) ∧ known (.activity activityId)

/-- A room is asked for after passport control, a visitor is checked in with a reservation and books,
when checked in, an activity with places left; what is cancelled is the guest's own. -/
def Call.Backed : Call → Prop
  | .existingReservation => known .cleared
  | .postReservation => known .cleared
  | .checkInVisitor => ∃ id, known (.reservation id)
  | .getActivityByGuest => known .checkedIn
  | .getActivities => known .checkedIn
  | .bookActivity activityId => known .checkedIn ∧ known (.offered activityId)
  | .cancelActivity activityId => known (.activity activityId)
  | .cancelReservation reservationId => known (.reservation reservationId)
  | _ => True

/-- What a continuation remembers was answered by a service. -/
def Continuation.Backed : Continuation → Prop
  | .afterArrive => True
  | .afterBookHotel gate => known (.gate gate)
  | .afterAskParrot => True
  | .afterBookRandomActivity gate reservationId =>
    known (.gate gate) ∧ known (.reservation reservationId)
  | .beforeCancelHotel reservationId => known (.reservation reservationId)
  | .afterCancelHotel _ => True
  | .afterCancelBeach gate reservationId => known (.gate gate) ∧ known (.reservation reservationId)

/-- The calls of the action that a handler awaits. -/
def Continuation.Calls : Continuation → Call → Prop
  | .afterArrive, .postArrival => True
  | .afterBookHotel _, .getArrivalStatus => True
  | .afterBookHotel _, .existingReservation => True
  | .afterBookHotel _, .postReservation => True
  | .afterBookHotel _, .recoverReservation => True
  | .afterAskParrot, .postChat => True
  | .afterBookRandomActivity _ _, .activeReservation => True
  | .afterBookRandomActivity _ _, .checkInVisitor => True
  | .afterBookRandomActivity _ _, .getActivityByGuest => True
  | .afterBookRandomActivity _ _, .getActivities => True
  | .afterBookRandomActivity _ _, .bookActivity _ => True
  | .beforeCancelHotel _, .cancelActivity _ => True
  | .afterCancelBeach _ _, .cancelActivity _ => True
  | .afterCancelHotel _, .cancelReservation _ => True
  | _, _ => False

/-- The fact behind a value that the action returns to the handler. -/
def Continuation.Expects : Continuation → String → Prop
  | .afterArrive, gate => known (.gate gate)
  | .afterBookHotel _, reservationId => known (.reservation reservationId)
  | .afterBookRandomActivity _ _, activityId => known (.activity activityId)
  | _, _ => True

/-- The action under way is one the continuation waits for. -/
def Continuation.Awaits (next : Continuation) : Action → Prop
  | .awaiting call => next.Calls call ∧ call.Backed known
  | .returned value => ∀ v, value = some v → next.Expects known v

/-- What a step remembers and awaits was answered by a service. -/
structure GuestStep.Backed (t : GuestStep) : Prop where
  /-- What follows is backed. -/
  next : t.next.Backed known
  /-- The action under way fits it. -/
  action : t.next.Awaits known t.action

/-- What a handler starts or sets was answered by a service. -/
def HandlerStep.Backed : HandlerStep → Prop
  | .await next action => next.Backed known ∧ next.Awaits known action
  | .finish none => True
  | .finish (some state) => state.Backed known

end Backed

/-- Every guest's state, and every step under way, rests on what was told about this guest. -/
structure Generator.Backed (facts : List (String × Fact)) (g : Generator) : Prop where
  /-- The states of the guests are backed. -/
  states : ∀ guest, (g.states guest).Backed fun fact => (guest, fact) ∈ facts
  /-- The steps under way are backed. -/
  steps : ∀ (i : ℕ) (t : GuestStep), g.loops[i]? = some (.running t) → t.Backed fun fact => (t.guest, fact) ∈ facts

/-! ## More facts -/

section Mono

variable {known known' : Fact → Prop}

theorem SimGuestState.Backed.mono (hsub : ∀ fact, known fact → known' fact) {state : SimGuestState}
    (h : state.Backed known) : state.Backed known' := by
  cases state with
  | new => trivial
  | arrived gate => exact hsub _ h
  | hotelBooked gate reservationId => exact ⟨hsub _ h.1, hsub _ h.2⟩
  | beachBooked gate reservationId activityId =>
    exact ⟨hsub _ h.1, hsub _ h.2.1, hsub _ h.2.2⟩

theorem Call.Backed.mono (hsub : ∀ fact, known fact → known' fact) {call : Call}
    (h : call.Backed known) : call.Backed known' := by
  cases call with
  | checkInVisitor =>
    obtain ⟨id, hid⟩ := h
    exact ⟨id, hsub _ hid⟩
  | bookActivity activityId => exact ⟨hsub _ h.1, hsub _ h.2⟩
  | existingReservation => exact hsub _ h
  | postReservation => exact hsub _ h
  | getActivityByGuest => exact hsub _ h
  | getActivities => exact hsub _ h
  | cancelActivity activityId => exact hsub _ h
  | cancelReservation reservationId => exact hsub _ h
  | _ => trivial

theorem Continuation.Backed.mono (hsub : ∀ fact, known fact → known' fact) {next : Continuation}
    (h : next.Backed known) : next.Backed known' := by
  cases next with
  | afterBookHotel gate => exact hsub _ h
  | afterBookRandomActivity gate reservationId => exact ⟨hsub _ h.1, hsub _ h.2⟩
  | beforeCancelHotel reservationId => exact hsub _ h
  | afterCancelBeach gate reservationId => exact ⟨hsub _ h.1, hsub _ h.2⟩
  | _ => trivial

theorem Continuation.Expects.mono (hsub : ∀ fact, known fact → known' fact) {next : Continuation}
    {v : String} (h : next.Expects known v) : next.Expects known' v := by
  cases next with
  | afterArrive => exact hsub _ h
  | afterBookHotel gate => exact hsub _ h
  | afterBookRandomActivity gate reservationId => exact hsub _ h
  | _ => trivial

theorem GuestStep.Backed.mono (hsub : ∀ fact, known fact → known' fact) {t : GuestStep}
    (h : t.Backed known) : t.Backed known' := by
  obtain ⟨guest, next, action⟩ := t
  refine ⟨h.next.mono hsub, ?_⟩
  have haction := h.action
  cases action with
  | awaiting call => exact ⟨haction.1, haction.2.mono hsub⟩
  | returned value => exact fun v hv => (haction v hv).mono hsub

end Mono

/-! ## Handlers -/

section Handlers

variable {known : Fact → Prop}

theorem askParrot_backed (env : Env) (last now : ℤ) :
    Continuation.afterAskParrot.Awaits known (askParrot env last now).1 := by
  unfold askParrot
  split_ifs
  · exact fun _ hv => nomatch hv
  · exact fun _ hv => nomatch hv
  · exact ⟨trivial, trivial⟩

/-- A handler begins with calls that the guest's state vouches for. -/
theorem stageHandler_backed (env : Env) (last now : ℤ) (random : ℚ) {state : SimGuestState}
    (h : state.Backed known) : (stageHandler env last now random state).1.Backed known := by
  cases state with
  | new => exact ⟨trivial, trivial, trivial⟩
  | arrived gate =>
    unfold stageHandler handleArrived
    split_ifs
    · exact ⟨h, trivial, trivial⟩
    · exact ⟨trivial, askParrot_backed env last now⟩
  | hotelBooked gate reservationId =>
    unfold stageHandler handleHotelBooked
    split_ifs
    · exact ⟨h, trivial, trivial⟩
    · exact ⟨trivial, askParrot_backed env last now⟩
    · trivial
  | beachBooked gate reservationId activityId =>
    unfold stageHandler handleBeachBooked
    split_ifs
    · exact ⟨h.2.1, trivial, h.2.2⟩
    · exact ⟨⟨h.1, h.2.1⟩, trivial, h.2.2⟩
    · exact ⟨trivial, askParrot_backed env last now⟩
    · trivial

/-- A handler goes on with the value that its action returned. -/
theorem resume_backed {next : Continuation} {value : Option String} (hnext : next.Backed known)
    (hvalue : ∀ v, value = some v → next.Expects known v) : (next.resume value).Backed known := by
  have htruthy : ∀ v, truthy value = some v → next.Expects known v := fun v hv =>
    hvalue v (Option.filter_eq_some_iff.1 hv).1
  unfold Continuation.resume
  cases next with
  | afterArrive =>
    cases hv : truthy value with
    | none => trivial
    | some v => exact htruthy v hv
  | afterBookHotel gate =>
    cases hv : truthy value with
    | none => trivial
    | some v => exact ⟨hnext, htruthy v hv⟩
  | afterAskParrot => trivial
  | afterBookRandomActivity gate reservationId =>
    cases hv : truthy value with
    | none => trivial
    | some v => exact ⟨hnext.1, hnext.2, htruthy v hv⟩
  | beforeCancelHotel reservationId => exact ⟨trivial, trivial, hnext⟩
  | afterCancelHotel reservationId => trivial
  | afterCancelBeach gate reservationId => exact hnext

/-- The value of an action that ends. -/
theorem awaits_returned {next : Continuation} {v : String} (h : next.Expects known v) :
    next.Awaits known (.returned (some v)) := fun _ hw => Option.some.inj hw ▸ h

theorem awaits_nothing (next : Continuation) : next.Awaits known (.returned none) :=
  fun _ hw => nomatch hw

/-- The calls of `bookHotel`. -/
theorem settle_bookHotel {gate : String} {call : Call} {sample : ℕ} {answer : Answer}
    {action : Action} (hcalls : (Continuation.afterBookHotel gate).Calls call)
    (hcall : call.Backed known) (hlearns : ∀ fact ∈ call.learns answer, known fact)
    (h : call.settle sample answer = some action) :
    (Continuation.afterBookHotel gate).Awaits known action := by
  cases call with
  | getArrivalStatus =>
    cases answer with
    | arrivalStatus status =>
      cases status with
      | processed =>
        cases h
        exact ⟨trivial, hlearns .cleared List.mem_cons_self⟩
      | _ =>
        cases h
        exact awaits_nothing _
    | error =>
      cases h
      exact ⟨trivial, trivial⟩
    | _ => cases h
  | existingReservation =>
    cases answer with
    | reservationByGuest id =>
      cases id with
      | some id =>
        cases h
        exact awaits_returned (hlearns (.reservation id) List.mem_cons_self)
      | none =>
        cases h
        exact ⟨trivial, hcall⟩
    | error =>
      cases h
      exact ⟨trivial, trivial⟩
    | _ => cases h
  | postReservation =>
    cases answer with
    | reservation id =>
      cases h
      exact awaits_returned (hlearns (.reservation id) List.mem_cons_self)
    | error =>
      cases h
      exact ⟨trivial, trivial⟩
    | _ => cases h
  | recoverReservation =>
    cases answer with
    | reservationByGuest id =>
      cases h
      cases id with
      | some id => exact awaits_returned (hlearns (.reservation id) List.mem_cons_self)
      | none => exact awaits_nothing _
    | error =>
      cases h
      exact awaits_nothing _
    | _ => cases h
  | _ => cases hcalls

/-- The calls of `bookRandomActivity`. -/
theorem settle_bookRandomActivity {gate reservationId : String} {call : Call} {sample : ℕ}
    {answer : Answer} {action : Action}
    (hcalls : (Continuation.afterBookRandomActivity gate reservationId).Calls call)
    (hcall : call.Backed known) (hlearns : ∀ fact ∈ call.learns answer, known fact)
    (h : call.settle sample answer = some action) :
    (Continuation.afterBookRandomActivity gate reservationId).Awaits known action := by
  cases call with
  | activeReservation =>
    cases answer with
    | reservationByGuest id =>
      cases id with
      | some id =>
        cases h
        exact ⟨trivial, id, hlearns (.reservation id) List.mem_cons_self⟩
      | none =>
        cases h
        exact awaits_nothing _
    | error =>
      cases h
      exact awaits_nothing _
    | _ => cases h
  | checkInVisitor =>
    cases answer with
    | ok =>
      cases h
      exact ⟨trivial, hlearns .checkedIn List.mem_cons_self⟩
    | error =>
      cases h
      exact awaits_nothing _
    | _ => cases h
  | getActivityByGuest =>
    cases answer with
    | activityByGuest activityId =>
      cases h
      cases activityId with
      | none => exact ⟨trivial, hcall⟩
      | some id =>
        by_cases hid : id = ""
        · rw [show truthy (some id) = none by simp [truthy, hid]]
          exact ⟨trivial, hcall⟩
        · rw [show truthy (some id) = some id by simp [truthy, hid]]
          exact awaits_returned (hlearns (.activity id) List.mem_cons_self)
    | error =>
      cases h
      exact awaits_nothing _
    | _ => cases h
  | getActivities =>
    cases answer with
    | activities activities =>
      simp only [Call.settle] at h
      split_ifs at h
      · cases h
        exact awaits_nothing _
      · obtain ⟨activity, hdrawn, rfl⟩ := Option.map_eq_some_iff.1 h
        exact ⟨trivial, hcall, hlearns _ (List.mem_map_of_mem (List.mem_of_getElem? hdrawn))⟩
    | error =>
      cases h
      exact awaits_nothing _
    | _ => cases h
  | bookActivity activityId =>
    cases answer with
    | ok =>
      cases h
      exact awaits_returned (hlearns (.activity activityId) List.mem_cons_self)
    | error =>
      cases h
      exact awaits_nothing _
    | _ => cases h
  | _ => cases hcalls

/-- The actions of one call whose value no handler uses. -/
theorem settle_returned {call : Call} {sample : ℕ} {answer : Answer} {action : Action}
    (hcall : call = .postChat ∨ (∃ a, call = .cancelActivity a) ∨ ∃ r, call = .cancelReservation r)
    (h : call.settle sample answer = some action) : action = .returned none := by
  rcases hcall with rfl | ⟨a, rfl⟩ | ⟨r, rfl⟩ <;> cases answer <;> cases h <;> rfl

/-- **An answer**: the action goes on with a call that the answer vouches for, or returns what the answer
said. -/
theorem settle_backed {next : Continuation} {call : Call} {sample : ℕ} {answer : Answer}
    {action : Action} (hcalls : next.Calls call) (hcall : call.Backed known)
    (hlearns : ∀ fact ∈ call.learns answer, known fact)
    (h : call.settle sample answer = some action) : next.Awaits known action := by
  cases next with
  | afterArrive =>
    cases call with
    | postArrival =>
      cases answer with
      | arrival gate =>
        cases h
        exact awaits_returned (hlearns (.gate gate) List.mem_cons_self)
      | error =>
        cases h
        exact awaits_nothing _
      | _ => cases h
    | _ => cases hcalls
  | afterBookHotel gate => exact settle_bookHotel hcalls hcall hlearns h
  | afterBookRandomActivity gate reservationId =>
    exact settle_bookRandomActivity hcalls hcall hlearns h
  | afterAskParrot =>
    have hone : call = .postChat := by
      cases call with
      | postChat => rfl
      | _ => cases hcalls
    rw [settle_returned (Or.inl hone) h]
    exact awaits_nothing _
  | beforeCancelHotel reservationId =>
    have hone : ∃ a, call = .cancelActivity a := by
      cases call with
      | cancelActivity a => exact ⟨a, rfl⟩
      | _ => cases hcalls
    rw [settle_returned (Or.inr (Or.inl hone)) h]
    exact awaits_nothing _
  | afterCancelBeach gate reservationId =>
    have hone : ∃ a, call = .cancelActivity a := by
      cases call with
      | cancelActivity a => exact ⟨a, rfl⟩
      | _ => cases hcalls
    rw [settle_returned (Or.inr (Or.inl hone)) h]
    exact awaits_nothing _
  | afterCancelHotel reservationId =>
    have hone : ∃ r, call = .cancelReservation r := by
      cases call with
      | cancelReservation r => exact ⟨r, rfl⟩
      | _ => cases hcalls
    rw [settle_returned (Or.inr (Or.inr hone)) h]
    exact awaits_nothing _

end Handlers

/-! ## Events -/

section Events

variable {env : Env} {facts : List (String × Fact)} {g g' : Generator}

theorem Generator.Backed.mono (h : g.Backed facts) (more : List (String × Fact)) :
    g.Backed (facts ++ more) where
  states guest := (h.states guest).mono fun _ hfact => List.mem_append_left more hfact
  steps i t ht := (h.steps i t ht).mono fun _ hfact => List.mem_append_left more hfact

/-- The handler of loop `i` runs to its next `await` or to its end. -/
theorem proceed_backed (h : g.Backed facts) (i : ℕ) {guest : String} {s : HandlerStep}
    (hs : s.Backed fun fact => (guest, fact) ∈ facts) : (g.proceed i guest s).Backed facts := by
  refine ⟨fun guest' => ?_, fun j t ht => ?_⟩
  · cases s with
    | await next action => exact h.states guest'
    | finish state =>
      cases state with
      | none => exact h.states guest'
      | some state =>
        show (Function.update g.states guest state guest').Backed _
        by_cases hg : guest' = guest
        · subst hg
          rw [Function.update_self]
          exact hs
        · rw [Function.update_of_ne hg]
          exact h.states guest'
  · rw [proceed_loops] at ht
    rcases loop_after_set ht with ⟨-, hloop⟩ | ⟨-, hold⟩
    · cases s with
      | await next action =>
        cases hloop
        exact ⟨hs.1, hs.2⟩
      | finish state => cases hloop
    · exact h.steps j t hold

/-- A step keeps the generator backed by what was answered. -/
theorem step_backed {e : TrafficEvent} (h : g.Backed facts) (hs : g.step env e = some g') :
    g'.Backed (facts ++ g.learns e) := by
  have htimers : ∀ running loops, (∀ (i : ℕ) (t : GuestStep), loops[i]? = some (.running t) →
      g.loops[i]? = some (.running t)) →
      Generator.Backed (facts ++ g.learns e) { g with running := running, loops := loops } :=
    fun running loops hloops => ⟨(h.mono _).states, fun i t ht => (h.mono _).steps i t (hloops i t ht)⟩
  cases e with
  | mount =>
    simp only [Generator.step] at hs
    split_ifs at hs
    cases hs
    unfold Generator.mount
    split_ifs
    · exact h.mono _
    · exact htimers _ _ fun _ _ ht => mount_running ht
  | unmount =>
    simp only [Generator.step] at hs
    split_ifs at hs
    cases hs
    exact htimers _ _ fun _ _ ht => clearTimeout_running ht
  | fire i k random now =>
    simp only [Generator.step] at hs
    split at hs
    · rename_i guest _ _
      cases hs
      have hg := h.mono (g.learns (.fire i k random now))
      have hclock : ∀ last, Generator.Backed (facts ++ g.learns (.fire i k random now))
          { g with lastParrotChatAt := last } := fun last => ⟨hg.states, hg.steps⟩
      exact proceed_backed (hclock _) i
        (stageHandler_backed env g.lastParrotChatAt now random (hg.states guest))
    · cases hs
  | answer i answer sample =>
    simp only [Generator.step] at hs
    split at hs
    · rename_i guest next call hi
      obtain ⟨action, hsettle, rfl⟩ := Option.map_eq_some_iff.1 hs
      have hg := h.mono (g.learns (.answer i answer sample))
      obtain ⟨hnext, hcalls, hcall⟩ := hg.steps i _ hi
      refine proceed_backed hg i ⟨hnext, settle_backed hcalls hcall (fun fact hfact => ?_) hsettle⟩
      refine List.mem_append_right facts ?_
      simp only [Generator.learns, hi]
      exact List.mem_map_of_mem hfact
    · cases hs
  | resume i =>
    simp only [Generator.step] at hs
    split at hs
    · rename_i guest next value hi
      cases hs
      have hg := h.mono (g.learns (.resume i))
      obtain ⟨hnext, hvalue⟩ := hg.steps i _ hi
      exact proceed_backed hg i (resume_backed hnext hvalue)
    · cases hs
  | scheduleNext i =>
    simp only [Generator.step] at hs
    split at hs
    · cases hs
      refine htimers g.running _ fun j t ht => ?_
      rcases loop_after_set ht with ⟨-, hloop⟩ | ⟨-, hold⟩
      · split_ifs at hloop
      · exact hold
    · cases hs

end Events

end Frontend.Traffic
