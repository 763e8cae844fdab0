import Webmeow.Frontend.GuestStep

/-!
# The traffic generator

`use-traffic-generator.ts`: loops that each wait for a timer, run a step of a sampled guest and set the
timer again, over one map of guest states. The steps overlap, since each call is awaited.
-/

namespace Frontend.Traffic

/-- How many loops run at once. -/
def CONCURRENT_GUESTS : ℕ := 3

/-- A step of `runGuestStep` under way. -/
structure GuestStep where
  /-- The guest that was sampled. -/
  guest : String
  /-- What follows the action. -/
  next : Continuation
  /-- The action under way. -/
  action : Action

/-- Where one of the loops stands. -/
inductive Loop where
  /-- The timer is set. -/
  | scheduled
  /-- A guest was sampled and its handler is under way. -/
  | running (step : GuestStep)
  /-- The step has ended, `finally` is next. -/
  | settled
  /-- The loop has ended. -/
  | stopped

/-- The traffic generator with the states of its guests. -/
structure Generator where
  /-- `guestStatesRef` -/
  states : GuestStates
  /-- `lastParrotChatAt` -/
  lastParrotChatAt : ℤ
  /-- `runningRef` -/
  running : Bool
  /-- The loops started so far. -/
  loops : List Loop

/-- No loop is started. -/
def Generator.initial (lastParrotChatAt : ℤ) : Generator :=
  ⟨createInitialState, lastParrotChatAt, false, []⟩

/-- What can happen at the generator. -/
inductive TrafficEvent where
  /-- The effect is set up. -/
  | mount
  /-- The effect is cleaned up. -/
  | unmount
  /-- The timer of loop `i` fires and a guest is sampled. -/
  | fire (i guest : ℕ) (random : ℚ) (now : ℤ)
  /-- The call that the step of loop `i` awaits is answered. -/
  | answer (i : ℕ) (answer : Answer) (sample : ℕ)
  /-- The handler of loop `i` goes on after its action. -/
  | resume (i : ℕ)
  /-- `scheduleNext`, in the `finally` block of loop `i`. -/
  | scheduleNext (i : ℕ)

/-- The effect starts its loops, if the environment lets it. -/
def Generator.mount (env : Env) (g : Generator) : Generator :=
  if env.trafficGeneratorEnabled = false then g
  else { g with running := true, loops := g.loops ++ List.replicate CONCURRENT_GUESTS .scheduled }

/-- A pending timer is cleared. -/
def Loop.clearTimeout : Loop → Loop
  | .scheduled => .stopped
  | loop => loop

/-- The cleanup stops the loops that wait for their timer. -/
def Generator.unmount (g : Generator) : Generator :=
  { g with running := false, loops := g.loops.map Loop.clearTimeout }

/-- Loop `i` after its handler has run to its next `await` or to its end. -/
def Generator.proceed (g : Generator) (i : ℕ) (guest : String) : HandlerStep → Generator
  | .await next action => { g with loops := g.loops.set i (.running ⟨guest, next, action⟩) }
  | .finish none => { g with loops := g.loops.set i .settled }
  | .finish (some state) =>
    { g with states := Function.update g.states guest state, loops := g.loops.set i .settled }

/-- One event; `none` where it cannot happen. -/
def Generator.step (env : Env) (g : Generator) : TrafficEvent → Option Generator
  | .mount => if g.running then none else some (g.mount env)
  | .unmount => if g.running then some g.unmount else none
  | .fire i guest random now =>
    match g.loops[i]?, syntheticGuests[guest]? with
    | some .scheduled, some guest =>
      let q := stageHandler env g.lastParrotChatAt now random (g.states guest)
      some ({ g with lastParrotChatAt := q.2 }.proceed i guest q.1)
    | _, _ => none
  | .answer i answer sample =>
    match g.loops[i]? with
    | some (.running ⟨guest, next, .awaiting call⟩) =>
      (call.settle sample answer).map fun action => g.proceed i guest (.await next action)
    | _ => none
  | .resume i =>
    match g.loops[i]? with
    | some (.running ⟨guest, next, .returned value⟩) => some (g.proceed i guest (next.resume value))
    | _ => none
  | .scheduleNext i =>
    match g.loops[i]? with
    | some .settled =>
      some { g with loops := g.loops.set i (if g.running then .scheduled else .stopped) }
    | _ => none

end Frontend.Traffic
