import Webmeow.Frontend.TrafficGenerator
import Webmeow.Lib.LostWrites

/-!
# Transitions of simulated guests

A step sets the state of its guest from what it read before its calls. If no other step of the guest
is under way whenever a state is set, then no transition is lost, and a cancelled reservation comes
back only if a later step books it.
-/

namespace Frontend.Traffic

open Runs LostWrites

/-! ## What a step reads and sets -/

/-- The loop whose timer fires, with the sampled guest. -/
def TrafficEvent.sampled : TrafficEvent → Option (ℕ × String)
  | .fire i guest _ _ => syntheticGuests[guest]?.map fun guest => (i, guest)
  | _ => none

/-- The guest whose state the loop may still set. A chat sets none. -/
def Loop.guest : Loop → Option String
  | .running step => if step.next = .afterAskParrot then none else some step.guest
  | _ => none

/-- The guest whose step loop `i` runs, but for a chat with the parrot. -/
def Generator.stepping (g : Generator) (i : ℕ) : Option String := g.loops[i]?.bind Loop.guest

/-- The loop that calls `setState` at an event, with its guest. -/
def Generator.sets (g : Generator) : TrafficEvent → Option (ℕ × String)
  | .resume i =>
    match g.loops[i]? with
    | some (.running ⟨guest, next, .returned value⟩) =>
      match next.resume value with
      | .finish (some _) => some (i, guest)
      | _ => none
    | _ => none
  | _ => none

/-- The guest with the reservation that a step has cancelled, at the event that ends the step. -/
def Generator.cancels (g : Generator) : TrafficEvent → Option (String × String)
  | .resume i =>
    match g.loops[i]? with
    | some (.running ⟨guest, .afterCancelHotel reservationId, .returned _⟩) =>
      some (guest, reservationId)
    | _ => none
  | _ => none

/-- The loop whose `bookHotel` has returned a reservation, with its guest and the reservation. -/
def Generator.books (g : Generator) : TrafficEvent → Option (ℕ × String × String)
  | .resume i =>
    match g.loops[i]? with
    | some (.running ⟨guest, .afterBookHotel _, .returned value⟩) =>
      (truthy value).map fun reservationId => (i, guest, reservationId)
    | _ => none
  | _ => none

/-- The reservation that is part of the state. -/
def SimGuestState.reservationId : SimGuestState → Option String
  | .hotelBooked _ reservationId | .beachBooked _ reservationId _ => some reservationId
  | _ => none

/-- The reservation that a handler has read from the state. -/
def Continuation.reservationId : Continuation → Option String
  | .afterBookRandomActivity _ reservationId | .beforeCancelHotel reservationId
  | .afterCancelHotel reservationId | .afterCancelBeach _ reservationId => some reservationId
  | _ => none

/-- The reads and writes of guest states, in the terms of the library. -/
def accesses : Accesses Generator TrafficEvent String :=
  ⟨TrafficEvent.sampled, Generator.sets, Generator.stepping⟩

/-- A transition of a guest is never overwritten by a step that sampled the guest before. -/
def NoTransitionLost (env : Env) (lastParrotChatAt : ℤ) (es : List TrafficEvent) : Prop :=
  accesses.Undisturbed (Generator.step env) (Generator.initial lastParrotChatAt) es

/-- Among the events there are the beginning and the end of a step that booked the reservation. -/
def RebookedIn (env : Env) (g : Generator) (es : List TrafficEvent) (guest reservationId : String) :
    Prop :=
  ∃ before b mid e after i g', es = before ++ b :: (mid ++ e :: after) ∧
    b.sampled = some (i, guest) ∧ (∀ e' ∈ mid, ∀ guest', e'.sampled ≠ some (i, guest')) ∧
    run (Generator.step env) g (before ++ b :: mid) = some g' ∧
    g'.books e = some (i, guest, reservationId)

/-- A guest whose reservation was cancelled by a completed step is in a stage with this reservation
only if a step has booked it that began after that. -/
def NotPutBack (env : Env) (lastParrotChatAt : ℤ) (es : List TrafficEvent) : Prop :=
  ∀ before c after g g' h guest reservationId, es = before ++ c :: after →
    run (Generator.step env) (Generator.initial lastParrotChatAt) before = some g →
    g.cancels c = some (guest, reservationId) → g.step env c = some g' →
    run (Generator.step env) g' after = some h →
    (h.states guest).reservationId = some reservationId →
    RebookedIn env g' after guest reservationId

/-- Whenever a step sets the state of its guest, no other step that may still set it is under way. -/
def Alone (g : Generator) (e : TrafficEvent) : Prop :=
  ∀ w ∈ g.sets e, ∀ j < g.loops.length, j ≠ w.1 → g.stepping j ≠ some w.2

instance (g : Generator) (e : TrafficEvent) : Decidable (Alone g e) :=
  inferInstanceAs (Decidable (∀ w ∈ g.sets e, ∀ j < g.loops.length, _ → _))

/-! ## The handlers -/

/-- A handler at its beginning knows no reservation but that of the state. -/
theorem reservationId_of_stageHandler {env : Env} {last now : ℤ} {random : ℚ} {state : SimGuestState}
    {next : Continuation} {action : Action} {r : String}
    (h : (stageHandler env last now random state).1 = .await next action)
    (hr : next.reservationId = some r) : state.reservationId = some r := by
  cases state with
  | new =>
    cases h
    cases hr
  | arrived gate =>
    simp only [stageHandler, handleArrived] at h
    split_ifs at h <;> cases h <;> cases hr
  | hotelBooked gate reservationId =>
    simp only [stageHandler, handleHotelBooked] at h
    split_ifs at h <;> cases h
    · exact hr
    · cases hr
  | beachBooked gate reservationId activityId =>
    simp only [stageHandler, handleBeachBooked] at h
    split_ifs at h <;> cases h
    · exact hr
    · exact hr
    · cases hr

/-- Before its first `await` a handler sets no state. -/
theorem stageHandler_finish {env : Env} {last now : ℤ} {random : ℚ} {state : SimGuestState}
    {next : Option SimGuestState} (h : (stageHandler env last now random state).1 = .finish next) :
    next = none := by
  cases state with
  | new => cases h
  | arrived gate =>
    simp only [stageHandler, handleArrived] at h
    split_ifs at h
  | hotelBooked gate reservationId =>
    simp only [stageHandler, handleHotelBooked] at h
    split_ifs at h
    cases h
    rfl
  | beachBooked gate reservationId activityId =>
    simp only [stageHandler, handleBeachBooked] at h
    split_ifs at h
    cases h
    rfl

/-- A handler that awaits another action is the one that cancels the reservation. -/
theorem resume_await {next next' : Continuation} {value : Option String} {action : Action}
    (h : next.resume value = .await next' action) :
    next.reservationId = next'.reservationId ∧ next ≠ .afterAskParrot := by
  cases next with
  | beforeCancelHotel reservationId =>
    cases h
    exact ⟨rfl, nofun⟩
  | _ => cases h

/-- A state that is set has its reservation from `bookHotel`, or from the state that was read. -/
theorem resume_finish {next : Continuation} {value : Option String} {state : SimGuestState}
    (h : next.resume value = .finish (some state)) : next ≠ .afterAskParrot ∧
      ∀ r, state.reservationId = some r →
        (∃ gate, next = .afterBookHotel gate ∧ truthy value = some r) ∨
          next.reservationId = some r := by
  cases next with
  | afterArrive =>
    obtain ⟨gate, -, rfl⟩ := Option.map_eq_some_iff.1 (HandlerStep.finish.inj h)
    exact ⟨nofun, nofun⟩
  | afterBookHotel gate =>
    obtain ⟨reservationId, hvalue, rfl⟩ := Option.map_eq_some_iff.1 (HandlerStep.finish.inj h)
    exact ⟨nofun, fun r hr => Or.inl ⟨gate, rfl, hvalue.trans hr⟩⟩
  | afterAskParrot => cases h
  | afterBookRandomActivity gate reservationId =>
    obtain ⟨activityId, -, rfl⟩ := Option.map_eq_some_iff.1 (HandlerStep.finish.inj h)
    exact ⟨nofun, fun r hr => Or.inr hr⟩
  | beforeCancelHotel reservationId => cases h
  | afterCancelHotel reservationId =>
    cases h
    exact ⟨nofun, nofun⟩
  | afterCancelBeach gate reservationId =>
    cases h
    exact ⟨nofun, fun r hr => Or.inr hr⟩

/-! ## One event -/

/-- All that an event does: it is about timers alone, or a step begins, is answered or goes on. -/
inductive Happens (env : Env) (g : Generator) : TrafficEvent → Generator → Prop where
  /-- Only timers change. -/
  | timers (e : TrafficEvent) (running : Bool) (loops : List Loop) (hsampled : e.sampled = none)
      (hsets : g.sets e = none)
      (h : ∀ (i : ℕ) (t : GuestStep), loops[i]? = some (.running t) →
        g.loops[i]? = some (.running t)) :
      Happens env g e { g with running := running, loops := loops }
  /-- A guest is sampled. -/
  | fire (i k : ℕ) (guest : String) (random : ℚ) (now : ℤ) (hguest : syntheticGuests[k]? = some guest) :
      Happens env g (.fire i k random now)
        ({ g with lastParrotChatAt :=
          (stageHandler env g.lastParrotChatAt now random (g.states guest)).2 }.proceed i guest
            (stageHandler env g.lastParrotChatAt now random (g.states guest)).1)
  /-- A call is answered. -/
  | answer (i : ℕ) (answer : Answer) (sample : ℕ) (guest : String) (next : Continuation) (call : Call)
      (action : Action) (h : g.loops[i]? = some (.running ⟨guest, next, .awaiting call⟩)) :
      Happens env g (.answer i answer sample) (g.proceed i guest (.await next action))
  /-- A handler goes on. -/
  | resume (i : ℕ) (guest : String) (next : Continuation) (value : Option String)
      (h : g.loops[i]? = some (.running ⟨guest, next, .returned value⟩)) :
      Happens env g (.resume i) (g.proceed i guest (next.resume value))

/-- An entry of the list of loops after the step of one of them. -/
theorem loop_after_set {loops : List Loop} {i j : ℕ} {l : Loop} {t : GuestStep}
    (h : (loops.set i l)[j]? = some (.running t)) :
    (i = j ∧ l = .running t) ∨ (i ≠ j ∧ loops[j]? = some (.running t)) := by
  by_cases hij : i = j
  · subst hij
    refine Or.inl ⟨rfl, ?_⟩
    rw [List.getElem?_set_self'] at h
    obtain ⟨l', -, hl⟩ := Option.map_eq_some_iff.1 h
    exact hl
  · rw [List.getElem?_set_ne hij] at h
    exact Or.inr ⟨hij, h⟩

/-- Mounting starts no step. -/
theorem mount_running {g : Generator} {i : ℕ} {t : GuestStep}
    (h : (g.loops ++ List.replicate CONCURRENT_GUESTS Loop.scheduled)[i]? = some (.running t)) :
    g.loops[i]? = some (.running t) := by
  rw [List.getElem?_append] at h
  split_ifs at h
  · exact h
  · cases List.eq_of_mem_replicate (List.mem_of_getElem? h)

/-- The cleanup starts no step. -/
theorem clearTimeout_running {loops : List Loop} {i : ℕ} {t : GuestStep}
    (h : (loops.map Loop.clearTimeout)[i]? = some (.running t)) : loops[i]? = some (.running t) := by
  rw [List.getElem?_map] at h
  obtain ⟨l, hl, hclear⟩ := Option.map_eq_some_iff.1 h
  cases l with
  | running t' => exact hclear ▸ hl
  | _ => cases hclear

/-- Every event is one of four kinds. -/
theorem happens {env : Env} {g g' : Generator} {e : TrafficEvent} (hs : g.step env e = some g') :
    Happens env g e g' := by
  cases e with
  | mount =>
    simp only [Generator.step] at hs
    split_ifs at hs
    cases hs
    unfold Generator.mount
    split_ifs
    · exact .timers _ g.running g.loops rfl rfl fun _ _ h => h
    · exact .timers _ true _ rfl rfl fun _ _ h => mount_running h
  | unmount =>
    simp only [Generator.step] at hs
    split_ifs at hs
    cases hs
    exact .timers _ false _ rfl rfl fun _ _ h => clearTimeout_running h
  | fire i k random now =>
    simp only [Generator.step] at hs
    split at hs
    · rename_i hguest
      cases hs
      exact .fire i k _ random now hguest
    · cases hs
  | answer i answer sample =>
    simp only [Generator.step] at hs
    split at hs
    · rename_i hi
      obtain ⟨action, -, rfl⟩ := Option.map_eq_some_iff.1 hs
      exact .answer i answer sample _ _ _ action hi
    · cases hs
  | resume i =>
    simp only [Generator.step] at hs
    split at hs
    · rename_i hi
      cases hs
      exact .resume i _ _ _ hi
    · cases hs
  | scheduleNext i =>
    simp only [Generator.step] at hs
    split at hs
    · cases hs
      refine .timers _ g.running _ rfl rfl fun j t h => ?_
      rcases loop_after_set h with ⟨-, hloop⟩ | ⟨-, hold⟩
      · split_ifs at hloop
      · exact hold
    · cases hs

/-- A step that is under way after an event: it was so before and the event is not its own, or it has
just begun, or an answer has come, or its handler has gone on. -/
inductive UnderWay (env : Env) (g : Generator) (e : TrafficEvent) (i : ℕ) (t : GuestStep) : Prop where
  /-- The step was under way before. -/
  | same (h : g.loops[i]? = some (.running t)) (hsampled : ∀ guest, e.sampled ≠ some (i, guest))
      (hsets : ∀ guest, g.sets e ≠ some (i, guest))
  /-- The step has just begun. -/
  | begun (now : ℤ) (random : ℚ) (hsampled : e.sampled = some (i, t.guest))
      (h : (stageHandler env g.lastParrotChatAt now random (g.states t.guest)).1 =
        .await t.next t.action)
  /-- Its call was answered. -/
  | answered (call : Call) (hsampled : ∀ guest, e.sampled ≠ some (i, guest))
      (hsets : g.sets e = none) (h : g.loops[i]? = some (.running ⟨t.guest, t.next, .awaiting call⟩))
  /-- Its handler went on to the next action. -/
  | resumed (next : Continuation) (value : Option String) (he : e = .resume i)
      (h : g.loops[i]? = some (.running ⟨t.guest, next, .returned value⟩))
      (hnext : next.resume value = .await t.next t.action)

/-- What the loop does next. -/
def HandlerStep.loop (guest : String) : HandlerStep → Loop
  | .await next action => .running ⟨guest, next, action⟩
  | .finish _ => .settled

theorem proceed_loops (g : Generator) (i : ℕ) (guest : String) (s : HandlerStep) :
    (g.proceed i guest s).loops = g.loops.set i (s.loop guest) := by
  cases s with
  | await next action => rfl
  | finish state =>
    cases state with
    | none => rfl
    | some state => rfl

/-- A handler that has gone on is at an `await`, if the step is still under way. -/
theorem await_of_running {guest : String} {s : HandlerStep} {t : GuestStep}
    (h : s.loop guest = .running t) : guest = t.guest ∧ s = .await t.next t.action := by
  cases s with
  | await next action =>
    cases h
    exact ⟨rfl, rfl⟩
  | finish state => cases h

theorem sets_resume_ne {g : Generator} {i j : ℕ} (hij : i ≠ j) (guest : String) :
    g.sets (.resume i) ≠ some (j, guest) := by
  intro h
  simp only [Generator.sets] at h
  split at h
  · split at h
    · cases h
      exact hij rfl
    · cases h
  · cases h

theorem sampled_fire {k : ℕ} {guest : String} (hguest : syntheticGuests[k]? = some guest) (i : ℕ)
    (random : ℚ) (now : ℤ) : (TrafficEvent.fire i k random now).sampled = some (i, guest) := by
  rw [TrafficEvent.sampled, hguest]
  rfl

/-- A step under way was so before or comes from the event. -/
theorem underWay {env : Env} {g g' : Generator} {e : TrafficEvent} (hs : g.step env e = some g')
    {i : ℕ} {t : GuestStep} (ht : g'.loops[i]? = some (.running t)) : UnderWay env g e i t := by
  cases happens hs with
  | timers e running loops hsampled hsets h =>
    refine .same (h i t ht) (fun guest hin => ?_) fun guest hin => ?_
    · rw [hsampled] at hin
      cases hin
    · rw [hsets] at hin
      cases hin
  | fire k _ guest random now hguest =>
    have hsampled := sampled_fire hguest k random now
    rw [proceed_loops] at ht
    rcases loop_after_set ht with ⟨rfl, hloop⟩ | ⟨hki, hold⟩
    · obtain ⟨rfl, hawait⟩ := await_of_running hloop
      exact .begun now random hsampled hawait
    · refine .same hold (fun guest' hin => ?_) nofun
      rw [hsampled, Option.some.injEq, Prod.mk.injEq] at hin
      exact hki hin.1
  | answer k answer sample guest next call action hk =>
    rw [proceed_loops] at ht
    rcases loop_after_set ht with ⟨rfl, hloop⟩ | ⟨hki, hold⟩
    · obtain ⟨rfl, hawait⟩ := await_of_running hloop
      cases hawait
      exact .answered call nofun rfl hk
    · exact .same hold nofun nofun
  | resume k guest next value hk =>
    rw [proceed_loops] at ht
    rcases loop_after_set ht with ⟨rfl, hloop⟩ | ⟨hki, hold⟩
    · obtain ⟨rfl, hawait⟩ := await_of_running hloop
      exact .resumed next value rfl hk hawait
    · exact .same hold nofun (sets_resume_ne hki)

/-- The state of a guest after an event is the one before, or it has been set by a step of the guest. -/
theorem states_after {env : Env} {g g' : Generator} {e : TrafficEvent}
    (hs : g.step env e = some g') (guest : String) :
    g'.states guest = g.states guest ∨
      ∃ i next value, e = .resume i ∧
        g.loops[i]? = some (.running ⟨guest, next, .returned value⟩) ∧
        next.resume value = .finish (some (g'.states guest)) := by
  cases happens hs with
  | timers e running loops hsampled hsets h => exact Or.inl rfl
  | fire i k guest' random now hguest =>
    cases hq : (stageHandler env g.lastParrotChatAt now random (g.states guest')).1 with
    | await next action => exact Or.inl rfl
    | finish state =>
      rw [stageHandler_finish hq]
      exact Or.inl rfl
  | answer i answer sample guest' next call action hi => exact Or.inl rfl
  | resume i guest' next value hi =>
    cases hq : next.resume value with
    | await next' action => exact Or.inl rfl
    | finish state =>
      cases state with
      | none => exact Or.inl rfl
      | some state =>
        by_cases hg : guest = guest'
        · subst hg
          refine Or.inr ⟨i, next, value, rfl, hi, ?_⟩
          rw [hq]
          simp only [Generator.proceed, Function.update_self]
        · exact Or.inl (Function.update_of_ne hg _ _)

theorem stepping_of_running {g : Generator} {i : ℕ} {guest : String} {next : Continuation}
    {action : Action} (hi : g.loops[i]? = some (.running ⟨guest, next, action⟩))
    (hnext : next ≠ .afterAskParrot) : g.stepping i = some guest := by
  rw [Generator.stepping, hi]
  exact if_neg hnext

/-- A loop that is stepping runs the step of its guest. -/
theorem running_of_stepping {g : Generator} {i : ℕ} {guest : String}
    (h : g.stepping i = some guest) :
    ∃ t, g.loops[i]? = some (.running t) ∧ t.guest = guest ∧ t.next ≠ .afterAskParrot := by
  obtain ⟨l, hl, hguest⟩ := Option.bind_eq_some_iff.1 h
  cases l with
  | running t =>
    simp only [Loop.guest] at hguest
    split_ifs at hguest with hnext
    exact ⟨t, hl, Option.some.inj hguest, hnext⟩
  | _ => cases hguest

/-- A step that sets the state of its guest is at its end. -/
theorem sets_inv {g : Generator} {e : TrafficEvent} {i : ℕ} {guest : String}
    (h : g.sets e = some (i, guest)) :
    ∃ next value state, e = .resume i ∧
      g.loops[i]? = some (.running ⟨guest, next, .returned value⟩) ∧
      next.resume value = .finish (some state) := by
  cases e with
  | resume k =>
    simp only [Generator.sets] at h
    split at h
    · rename_i hk
      split at h
      · rename_i hnext
        cases h
        exact ⟨_, _, _, rfl, hk, hnext⟩
      · cases h
    · cases h
  | _ => cases h

/-- A handler that ends sets the state of its guest. -/
theorem sets_of_finish {g : Generator} {i : ℕ} {guest : String} {next : Continuation}
    {value : Option String} {state : SimGuestState}
    (hi : g.loops[i]? = some (.running ⟨guest, next, .returned value⟩))
    (h : next.resume value = .finish (some state)) : g.sets (.resume i) = some (i, guest) := by
  simp only [Generator.sets, hi, h]

/-- A loop may set the state of a guest from the moment it has sampled the guest until it does. -/
theorem disciplined (env : Env) : accesses.Disciplined (Generator.step env) where
  writer g e i guest h := by
    obtain ⟨next, value, state, -, hi, hnext⟩ := sets_inv h
    exact stepping_of_running hi (resume_finish hnext).1
  kept g e g' i guest hs h := by
    obtain ⟨t, ht, rfl, hparrot⟩ := running_of_stepping h
    cases underWay hs ht with
    | same hold hsampled hsets =>
      exact Or.inr ⟨stepping_of_running hold hparrot, hsets⟩
    | begun now random hsampled hhandler => exact Or.inl hsampled
    | answered call hsampled hsets hold =>
      refine Or.inr ⟨stepping_of_running hold hparrot, fun guest' hw => ?_⟩
      exact absurd (hsets.symm.trans hw) nofun
    | resumed next value he hold hnext =>
      refine Or.inr ⟨stepping_of_running hold (resume_await hnext).2, fun guest' hw => ?_⟩
      obtain ⟨next', value', state, he', hold', hnext'⟩ := sets_inv hw
      rw [hold] at hold'
      cases hold'
      rw [hnext] at hnext'
      cases hnext'

/-- A guest stepped alone has one holder. -/
theorem Alone.soleHolder {g : Generator} {e : TrafficEvent} (h : Alone g e) :
    accesses.SoleHolder g e := by
  intro i guest hw j hj hstep
  obtain ⟨t, ht, -⟩ := running_of_stepping hstep
  exact h (i, guest) hw j (List.getElem?_eq_some_iff.1 ht).1 hj hstep

/-! ## After a cancellation -/

/-- The loop has sampled the guest during the events, and no guest since then. -/
def SampledIn (es : List TrafficEvent) (i : ℕ) (guest : String) : Prop :=
  ∃ before b mid, es = before ++ b :: mid ∧ b.sampled = some (i, guest) ∧
    ∀ e ∈ mid, ∀ guest', e.sampled ≠ some (i, guest')

theorem SampledIn.concat {es : List TrafficEvent} {e : TrafficEvent} {i : ℕ} {guest : String}
    (h : SampledIn es i guest) (he : ∀ guest', e.sampled ≠ some (i, guest')) :
    SampledIn (es ++ [e]) i guest := by
  obtain ⟨before, b, mid, rfl, hb, hmid⟩ := h
  refine ⟨before, b, mid ++ [e], by rw [List.append_assoc, List.cons_append], hb, fun e' he' => ?_⟩
  rcases List.mem_append.1 he' with he' | he'
  · exact hmid e' he'
  · rw [List.mem_singleton.1 he']
    exact he

theorem RebookedIn.concat {env : Env} {g : Generator} {es : List TrafficEvent} {guest r : String}
    (h : RebookedIn env g es guest r) (e : TrafficEvent) : RebookedIn env g (es ++ [e]) guest r := by
  obtain ⟨before, b, mid, e', after, i, g', rfl, hrest⟩ := h
  refine ⟨before, b, mid, e', after ++ [e], i, g', ?_, hrest⟩
  simp only [List.append_assoc, List.cons_append]

/-- After the reservation of the guest was cancelled in state `g0`: steps of the guest that are under
way have begun since then, and who holds the reservation has it from a booking since then. -/
structure SinceCancelled (env : Env) (g0 : Generator) (guest r : String) (es : List TrafficEvent)
    (g : Generator) : Prop where
  /-- A step for the guest was sampled since. -/
  sampled : ∀ i, g.stepping i = some guest → SampledIn es i guest
  /-- The state has the reservation again only by a new booking. -/
  state : (g.states guest).reservationId = some r → RebookedIn env g0 es guest r
  /-- A step holds the reservation again only by a new booking. -/
  held : ∀ (i : ℕ) (t : GuestStep), g.loops[i]? = some (.running t) → t.guest = guest →
    t.next.reservationId = some r → RebookedIn env g0 es guest r

variable {env : Env} {g0 g g' : Generator} {guest r : String} {es : List TrafficEvent}
  {e : TrafficEvent}

/-- A step since the cancellation was sampled since. -/
theorem sampledIn_step (h : SinceCancelled env g0 guest r es g) (hs : g.step env e = some g') {i : ℕ}
    (hi : g'.stepping i = some guest) : SampledIn (es ++ [e]) i guest := by
  obtain ⟨t, ht, rfl, hparrot⟩ := running_of_stepping hi
  cases underWay hs ht with
  | same hold hsampled hsets =>
    exact (h.sampled i (stepping_of_running hold hparrot)).concat hsampled
  | begun now random hsampled hhandler => exact ⟨es, e, [], rfl, hsampled, nofun⟩
  | answered call hsampled hsets hold =>
    exact (h.sampled i (stepping_of_running hold hparrot)).concat hsampled
  | resumed next value he hold hnext =>
    subst he
    exact (h.sampled i (stepping_of_running hold (resume_await hnext).2)).concat nofun

/-- The state regains the reservation only by a new booking, one step on. -/
theorem state_step (h : SinceCancelled env g0 guest r es g)
    (hr : run (Generator.step env) g0 es = some g) (hs : g.step env e = some g')
    (hstate : (g'.states guest).reservationId = some r) : RebookedIn env g0 (es ++ [e]) guest r := by
  rcases states_after hs guest with hsame | ⟨i, next, value, rfl, hi, hnext⟩
  · rw [hsame] at hstate
    exact (h.state hstate).concat e
  · obtain ⟨hparrot, hfrom⟩ := resume_finish hnext
    rcases hfrom r hstate with ⟨gate, rfl, hvalue⟩ | hheld
    · -- the step that books has sampled the guest after the cancellation
      obtain ⟨before, b, mid, rfl, hb, hmid⟩ := h.sampled i (stepping_of_running hi hparrot)
      refine ⟨before, b, mid, .resume i, [], i, g, ?_, hb, hmid, hr, ?_⟩
      · rw [List.append_assoc, List.cons_append]
      · simp only [Generator.books, hi, hvalue, Option.map_some]
    · exact (h.held i _ hi rfl hheld).concat _

/-- A step holds the reservation only by a new booking, one step on. -/
theorem held_step (h : SinceCancelled env g0 guest r es g) (hs : g.step env e = some g') {i : ℕ}
    {t : GuestStep} (ht : g'.loops[i]? = some (.running t)) (hguest : t.guest = guest)
    (hheld : t.next.reservationId = some r) : RebookedIn env g0 (es ++ [e]) guest r := by
  cases underWay hs ht with
  | same hold hsampled hsets => exact (h.held i t hold hguest hheld).concat e
  | begun now random hsampled hhandler =>
    rw [hguest] at hhandler
    exact (h.state (reservationId_of_stageHandler hhandler hheld)).concat e
  | answered call hsampled hsets hold => exact (h.held i _ hold hguest hheld).concat e
  | resumed next value he hold hnext =>
    exact (h.held i _ hold hguest ((resume_await hnext).1.trans hheld)).concat e

theorem SinceCancelled.step (h : SinceCancelled env g0 guest r es g)
    (hr : run (Generator.step env) g0 es = some g) (hs : g.step env e = some g') :
    SinceCancelled env g0 guest r (es ++ [e]) g' where
  sampled _ hi := sampledIn_step h hs hi
  state hstate := state_step h hr hs hstate
  held _ _ ht hguest hheld := held_step h hs ht hguest hheld

theorem cancels_inv {c : TrafficEvent} (h : g.cancels c = some (guest, r)) :
    ∃ i value, c = .resume i ∧
      g.loops[i]? = some (.running ⟨guest, .afterCancelHotel r, .returned value⟩) := by
  cases c with
  | resume i =>
    simp only [Generator.cancels] at h
    split at h
    · rename_i hi
      cases h
      exact ⟨i, _, rfl, hi⟩
    · cases h
  | _ => cases h

/-- Right after a cancellation by a step that was the only one of its guest, none is under way. -/
theorem sinceCancelled_nil {c : TrafficEvent} (halone : Alone g c)
    (hcancel : g.cancels c = some (guest, r)) (hs : g.step env c = some g') :
    SinceCancelled env g' guest r [] g' := by
  obtain ⟨i, value, rfl, hi⟩ := cancels_inv hcancel
  have hsets : g.sets (.resume i) = some (i, guest) := sets_of_finish hi rfl
  have hnone : ∀ j, g'.stepping j ≠ some guest := by
    intro j hj
    rcases (disciplined env).kept g (.resume i) g' j guest hs hj with hbegin | ⟨hold, hown⟩
    · cases hbegin
    · by_cases hji : j = i
      · exact hown guest (hji ▸ hsets)
      · exact halone.soleHolder i guest hsets j hji hold
  refine ⟨fun j hj => absurd hj (hnone j), fun hstate => ?_, fun j t ht hguest hheld => ?_⟩
  · simp only [Generator.step, hi, Option.some.injEq] at hs
    rw [← hs] at hstate
    simp only [Continuation.resume, Generator.proceed, Function.update_self] at hstate
    cases hstate
  · refine absurd (stepping_of_running ht ?_) (hguest ▸ hnone j)
    intro hparrot
    rw [hparrot] at hheld
    cases hheld

/-- **Transitions of guests**: in every interleaving in which, whenever a step sets the state of its
guest, no other step that may still set it is under way, no transition is lost, and no cancelled
reservation is put back. -/
theorem transitions_kept (env : Env) (lastParrotChatAt : ℤ) (es : List TrafficEvent)
    (halone : Throughout (Generator.step env) Alone (Generator.initial lastParrotChatAt) es) :
    NoTransitionLost env lastParrotChatAt es ∧ NotPutBack env lastParrotChatAt es := by
  constructor
  · exact (disciplined env).undisturbed (halone.imp fun _ _ h => h.soleHolder)
  · intro before c after g g' h guest r hes hg hcancel hs hrun hstate
    rw [hes] at halone
    have hsince := sinceCancelled_nil (halone.at_split hg) hcancel hs
    rw [List.append_cons] at halone
    have hg' : run (Generator.step env) (Generator.initial lastParrotChatAt) (before ++ [c]) =
        some g' := run_concat_iff.2 ⟨g, hg, hs⟩
    have hend := history_invariant hsince
      (fun as q a q' hq hH _ hstep => hH.step hq hstep) (halone.after hg') hrun
    exact hend.state hstate

section Overlap

/-- An environment in which nobody chats with the parrot. -/
def quietParrot : Env := ⟨true, false, 30000⟩

/-- Loop 0 takes the first guest through all stages. -/
def firstVisit : List TrafficEvent :=
  [.mount, .fire 0 0 0 0, .answer 0 (.arrival "A1") 0, .resume 0, .scheduleNext 0,
    .fire 0 0 0 0, .answer 0 (.arrivalStatus .processed) 0, .answer 0 (.reservationByGuest none) 0,
    .answer 0 (.reservation "res-1") 0, .resume 0, .scheduleNext 0,
    .fire 0 0 0 0, .answer 0 (.reservationByGuest (some "res-1")) 0, .answer 0 .ok 0,
    .answer 0 (.activityByGuest none) 0, .answer 0 (.activities [("surf", 5)]) 0, .answer 0 .ok 0,
    .resume 0, .scheduleNext 0]

/-- Loop 0 cancels the activity and the reservation of the guest. -/
def cancelAll : List TrafficEvent := [.answer 0 .ok 0, .resume 0, .answer 0 .ok 0, .resume 0]

/-- A guest is taken through all stages and back while the steps of another guest overlap. -/
def twoGuests : List TrafficEvent :=
  firstVisit ++ [.fire 1 1 0 0, .fire 0 0 0 0] ++ cancelAll ++ [.answer 1 (.arrival "B1") 0, .resume 1]

/-- Two guests that are stepped in turn keep their transitions. -/
theorem twoGuests_kept : NoTransitionLost quietParrot 0 twoGuests ∧ NotPutBack quietParrot 0 twoGuests :=
  transitions_kept quietParrot 0 twoGuests (by decide +kernel)

/-- Two loops sample a guest at the beach. While one cancels everything, the other one, which only
cancels the activity, puts the guest back into the hotel with the cancelled reservation. -/
theorem cancelled_guest_put_back :
    ¬NoTransitionLost quietParrot 0
        (firstVisit ++ [.fire 0 0 0 0, .fire 1 0 (1 / 5) 0] ++ cancelAll ++
          [.answer 1 .ok 0, .resume 1]) ∧
      ¬NotPutBack quietParrot 0
        (firstVisit ++ [.fire 0 0 0 0, .fire 1 0 (1 / 5) 0] ++ cancelAll ++
          [.answer 1 .ok 0, .resume 1]) := by
  constructor
  · intro h
    have hquiet : ∀ e ∈ cancelAll ++ [TrafficEvent.answer 1 .ok 0], ∀ guest,
        e.sampled ≠ some (1, guest) := by
      simp [cancelAll, TrafficEvent.sampled]
    have hnone := h (firstVisit ++ [.fire 0 0 0 0]) (.fire 1 0 (1 / 5) 0)
      (cancelAll ++ [.answer 1 .ok 0]) (.resume 1) [] _ _ 1 "sim-guest-mango-0001" rfl
      (by with_unfolding_all rfl) rfl hquiet (by with_unfolding_all rfl) (by with_unfolding_all rfl)
    -- the other step sets the state in between
    have hset := @Throughout.at_split _ TrafficEvent _ _ _ _
      [.answer 0 .ok 0, .resume 0, .answer 0 .ok 0] [.answer 1 .ok 0] (.resume 0) hnone
      (by with_unfolding_all rfl)
    exact hset 0 (by with_unfolding_all rfl)
  · intro h
    obtain ⟨before, b, mid, e, after, i, g', hes, hb, -⟩ :=
      h (firstVisit ++ [.fire 0 0 0 0, .fire 1 0 (1 / 5) 0, .answer 0 .ok 0, .resume 0,
        .answer 0 .ok 0]) (.resume 0) [.answer 1 .ok 0, .resume 1] _ _ _ "sim-guest-mango-0001" "res-1"
        rfl (by with_unfolding_all rfl) (by with_unfolding_all rfl) (by with_unfolding_all rfl)
        (by with_unfolding_all rfl) (by with_unfolding_all rfl)
    -- no step begins after the cancellation
    have hnone : ∀ e ∈ [TrafficEvent.answer 1 .ok 0, .resume 1], e.sampled = none := by
      simp [TrafficEvent.sampled]
    have hmem : b ∈ before ++ b :: (mid ++ e :: after) :=
      List.mem_append_right before List.mem_cons_self
    rw [← hes] at hmem
    rw [hnone b hmem] at hb
    cases hb

end Overlap

end Frontend.Traffic
