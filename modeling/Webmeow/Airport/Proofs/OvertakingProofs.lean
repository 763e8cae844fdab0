import Webmeow.Airport.Proofs.ResponseProofs
import Webmeow.Airport.Proofs.SettledProofs
import Webmeow.Lib.Ledger

/-!
# Who overtakes whom

A guest who waits at a gate moves up by one with every guest that the worker takes, and moves back by one
with every newcomer of a smaller rank; nothing else moves the guest. So a guest is taken after as many
others as were ahead on arrival, and those with a better claim who came since.
-/

namespace Airport

open Runs

/-- The guest whom a step puts into the queue of the gate. -/
def newcomerAt (g : GateId) (s : System) : Event → Option Guest
  | .enqueue i =>
    match s.calls[i]? with
    | some (.enqueue guest) => if guest.gate = g then some guest else none
    | _ => none
  | _ => none

/-- A guest of a smaller rank is put into the queue. -/
def overtakesAt (g : GateId) (x : Guest) (s : System) (e : Event) : Bool :=
  ((newcomerAt g s e).map fun guest => decide (guest.rank < x.rank)).getD false

/-- How many wait before the guest. -/
def Gate.ahead (gate : Gate) (x : Guest) : ℕ := gate.queue.idxOf x

/-- The ranks in the queue of the gate do not fall. -/
def RanksSorted (g : GateId) (s : System) : Prop :=
  (s.gates g).queue.Pairwise fun a b => a.rank ≤ b.rank

variable {cfg : Config} {s s' : System}

/-! ## The queue of one gate -/

theorem setGate_queue_self (s : System) (g : GateId) (gate : Gate) :
    ((s.setGate g gate).gates g).queue = gate.queue := by
  show (Function.update s.gates g gate g).queue = gate.queue
  rw [Function.update_self]

/-- The queues of other gates stay. -/
theorem setGate_queue_other (s : System) {g g' : GateId} (h : g ≠ g') (gate : Gate) :
    ((s.setGate g' gate).gates g).queue = (s.gates g).queue := by
  show (Function.update s.gates g' gate g).queue = (s.gates g).queue
  rw [Function.update_of_ne h]

/-- The worker's guest is in no queue. -/
theorem setCurrent_queue (s : System) (g g' : GateId) (c : Option (Stage × Guest)) :
    ((s.setGate g' { s.gates g' with current := c }).gates g).queue = (s.gates g).queue := by
  by_cases h : g = g'
  · rw [h, setGate_queue_self]
  · rw [setGate_queue_other s h]

/-- **What a step does to a queue**: it takes the first guest, puts in a newcomer, or leaves it. -/
theorem step_queue (g : GateId) {e : Event} (hlive : e.isRestart = false)
    (h : s.step cfg e = some s') :
    (popsAt g s e = true ∧ newcomerAt g s e = none ∧ ∃ y, (s.gates g).queue = y :: (s'.gates g).queue) ∨
      (popsAt g s e = false ∧ ∃ guest, newcomerAt g s e = some guest ∧
        (s'.gates g).queue = StableQueue.insert Guest.rank guest (s.gates g).queue) ∨
      (popsAt g s e = false ∧ newcomerAt g s e = none ∧ (s'.gates g).queue = (s.gates g).queue) := by
  cases e with
  | arrive t =>
    cases h
    exact Or.inr (Or.inr ⟨rfl, rfl, rfl⟩)
  | choose i now =>
    obtain ⟨t, -, rfl | ⟨g', -, rfl⟩⟩ := chooseStep_cases h
    · exact Or.inr (Or.inr ⟨rfl, rfl, rfl⟩)
    · exact Or.inr (Or.inr ⟨rfl, rfl, rfl⟩)
  | commit i =>
    obtain ⟨t, g', now, -, rfl⟩ := commitStep_cases h
    exact Or.inr (Or.inr ⟨rfl, rfl, rfl⟩)
  | enqueue i =>
    obtain ⟨guest, hi, rfl⟩ := enqueueStep_cases h
    by_cases hg : guest.gate = g
    · refine Or.inr (Or.inl ⟨rfl, guest, by simp only [newcomerAt, hi, if_pos hg], ?_⟩)
      subst hg
      exact setGate_queue_self s guest.gate _
    · exact Or.inr (Or.inr ⟨rfl, by simp only [newcomerAt, hi, if_neg hg],
        setGate_queue_other s (Ne.symm hg) _⟩)
  | respond i =>
    obtain ⟨guest, position, answer, -, rfl⟩ := respondStep_cases h
    exact Or.inr (Or.inr ⟨rfl, rfl, rfl⟩)
  | pop g' =>
    obtain ⟨guest, queue, -, hq, rfl⟩ := popStep_cases h
    by_cases hg : g' = g
    · subst hg
      refine Or.inl ⟨decide_eq_true rfl, rfl, guest, ?_⟩
      rw [setGate_queue_self, hq]
    · exact Or.inr (Or.inr ⟨decide_eq_false hg, rfl, setGate_queue_other s (Ne.symm hg) _⟩)
  | commitProcessing g' =>
    obtain ⟨guest, -, rfl⟩ := commitProcessingStep_cases h
    exact Or.inr (Or.inr ⟨rfl, rfl, setCurrent_queue s g g' _⟩)
  | commitProcessed g' now =>
    obtain ⟨guest, -, rfl⟩ := commitProcessedStep_cases h
    exact Or.inr (Or.inr ⟨rfl, rfl, setCurrent_queue s g g' _⟩)
  | publish g' =>
    obtain ⟨guest, -, rfl⟩ := publishStep_cases h
    exact Or.inr (Or.inr ⟨rfl, rfl, setCurrent_queue s g g' _⟩)
  | clear g' =>
    obtain ⟨guest, -, rfl⟩ := clearStep_cases h
    exact Or.inr (Or.inr ⟨rfl, rfl, setCurrent_queue s g g' _⟩)
  | restart rows => cases hlive

/-- Without a crash the ranks in a queue do not decrease. -/
theorem step_ranksSorted {g : GateId} {e : Event} (hsorted : RanksSorted g s)
    (hlive : e.isRestart = false) (h : s.step cfg e = some s') : RanksSorted g s' := by
  unfold RanksSorted at hsorted ⊢
  rcases step_queue g hlive h with ⟨-, -, y, hq⟩ | ⟨-, guest, -, hq⟩ | ⟨-, -, hq⟩
  · rw [hq] at hsorted
    exact (List.pairwise_cons.1 hsorted).2
  · rw [hq]
    exact StableQueue.insert_rank_sorted hsorted
  · rw [hq]
    exact hsorted

/-- A step moves a waiting guest up by a guest who is taken and back by a newcomer who overtakes. -/
theorem step_ahead {g : GateId} {x : Guest} {e : Event} (hsorted : RanksSorted g s)
    (hx : x ∈ (s.gates g).queue) (hx' : x ∈ (s'.gates g).queue) (hlive : e.isRestart = false)
    (h : s.step cfg e = some s') (honce : (s.gates g).queue.Nodup) :
    (s'.gates g).ahead x + (if popsAt g s e then 1 else 0) =
      (s.gates g).ahead x + if overtakesAt g x s e then 1 else 0 := by
  unfold Gate.ahead overtakesAt
  rcases step_queue g hlive h with ⟨hpop, hno, y, hq⟩ | ⟨hpop, guest, hnew, hq⟩ | ⟨hpop, hno, hq⟩
  · have hne : y ≠ x := by
      rintro rfl
      rw [hq] at honce
      exact (List.nodup_cons.1 honce).1 hx'
    rw [hq, hpop, hno, List.idxOf_cons_ne _ hne]
    rfl
  · rw [hq, hpop, hnew]
    by_cases hlt : guest.rank < x.rank
    · rw [StableQueue.idxOf_insert_of_lt hx hlt]
      simp [hlt]
    · rw [StableQueue.idxOf_insert_of_le hsorted hx (not_lt.1 hlt)]
      simp [hlt]
  · rw [hq, hpop, hno]
    rfl

/-! ## Waiting -/

/-- The next guest is the one with nobody ahead. -/
theorem pop_takes_iff (hinv : Inv cfg s) {g : GateId} {x : Guest} (hx : x ∈ (s.gates g).queue)
    (h : s.popStep g = some s') :
    (s'.gates g).currentlyProcessing.map Guest.arrivalId = some x.arrivalId ↔
      (s.gates g).ahead x = 0 := by
  obtain ⟨guest, queue, -, hq, rfl⟩ := popStep_cases h
  have hids := hinv.queue_nodup g
  have hcurrent : ((s.setGate g ⟨queue, some (.popped, { guest with status := .processing })⟩).gates
      g).currentlyProcessing.map Guest.arrivalId = some guest.arrivalId := by
    show (Function.update s.gates g _ g).currentlyProcessing.map Guest.arrivalId = _
    rw [Function.update_self]
    rfl
  unfold Gate.ahead
  rw [hcurrent, hq, Option.some.injEq]
  constructor
  · intro hid
    obtain rfl : guest = x := List.inj_on_of_nodup_map hids (hq ▸ List.mem_cons_self) hx hid
    exact List.idxOf_cons_self
  · intro hzero
    by_contra hid
    rw [List.idxOf_cons_ne _ fun he => hid (congrArg Guest.arrivalId he)] at hzero
    cases hzero

/-- How a guest `x` who is in the queue in `s` comes up until `s'`. -/
structure ComesUp (cfg : Config) (g : GateId) (x : Guest) (es : List Event) (s s' : System) : Prop where
  /-- Those ahead at the end are those ahead at the beginning and those who overtook, less those taken. -/
  ahead : (s'.gates g).ahead x + countSteps (System.step cfg) (popsAt g) s es =
    (s.gates g).ahead x + countSteps (System.step cfg) (overtakesAt g x) s es
  /-- The worker takes the guest next exactly when all of these have been taken. -/
  turn : ∀ t, s'.popStep g = some t →
    ((t.gates g).currentlyProcessing.map Guest.arrivalId = some x.arrivalId ↔
      countSteps (System.step cfg) (popsAt g) s es =
        (s.gates g).ahead x + countSteps (System.step cfg) (overtakesAt g x) s es)

/-- **Bounded overtaking**: in every run without a crash, whatever the interleaving of calls and workers,
a guest in a queue waits exactly for those who were ahead and for the later guests of a strictly smaller
rank; no guest of the same or a larger rank gets ahead. -/
theorem overtaken_by_better_ranks_only (cfg : Config) (es es' : List Event) (s s' : System) (g : GateId)
    (x : Guest) (hlive : ∀ e ∈ es ++ es', e.isRestart = false)
    (hbefore : run (System.step cfg) System.initial es = some s)
    (hafter : run (System.step cfg) s es' = some s')
    (hwaits : Always (System.step cfg) (fun t => x ∈ (t.gates g).queue) s es') :
    ComesUp cfg g x es' s s' := by
  have hstep : ∀ t (e : Event) t', Inv cfg t ∧ RanksSorted g t → e.isRestart = false →
      t.step cfg e = some t' → Inv cfg t' ∧ RanksSorted g t' := fun t e t' h hl hs =>
    ⟨step_inv t e t' h.1 hs, step_ranksSorted h.2 hl hs⟩
  have hinit : Inv cfg System.initial ∧ RanksSorted g System.initial :=
    ⟨initial_inv, List.Pairwise.nil⟩
  have hfirst : Inv cfg s ∧ RanksSorted g s := by
    refine (always_of_throughout hstep hinit ?_).last hbefore
    exact (throughout_label_iff hbefore).2 fun e he => hlive e (List.mem_append_left es' he)
  have hlast : Inv cfg s' := (always_of_invariant step_inv hfirst.1).last hafter
  have hahead := ledger_while (f := fun t => (t.gates g).ahead x) hstep
    (fun t e t' h hx hx' hl hs => step_ahead h.2 hx hx' hl hs (h.1.queue_nodup g).of_map) hfirst
    (fun e he => hlive e (List.mem_append_right es he)) hwaits hafter
  refine ⟨hahead, fun t ht => ?_⟩
  rw [pop_takes_iff hlast (hwaits.last hafter) ht]
  omega

/-- A traveller for another gate. -/
def carol : Traveller := ⟨"carol", "Carol", "Kim", 30, .nonEU, .fast, false⟩

/-- Ann and Carol wait at their gates. -/
def twoWait : List Event :=
  [.arrive ann, .choose 0 1, .commit 0, .enqueue 0, .respond 0,
    .arrive carol, .choose 1 2, .commit 1, .enqueue 1, .respond 1]

/-- Bob comes to the gate of Ann, and its worker takes the first guest. -/
def bobComes : List Event := [.arrive bob, .choose 2 3, .commit 2, .enqueue 2, .pop ⟨.EU, 1⟩]

/-- The copy of Ann's row. -/
def annWaiting : Guest := (newRow ann ⟨.EU, 1⟩ 1 1).dump

/-- The step leaves Ann in the queue. -/
def annStays (s : System) (e : Event) : Prop :=
  ((s.step ⟨1, 1⟩ e).all fun t => decide (annWaiting ∈ (t.gates ⟨.EU, 1⟩).queue)) = true

instance : ∀ s e, Decidable (annStays s e) := fun _ _ => inferInstanceAs (Decidable (_ = true))

theorem annStays_spec (s : System) (e : Event) (t : System)
    (h : annStays s e) (hs : s.step ⟨1, 1⟩ e = some t) : annWaiting ∈ (t.gates ⟨.EU, 1⟩).queue := by
  unfold annStays at h
  rw [hs] at h
  exact of_decide_eq_true h

/-- Bob goes before Ann, and the worker takes him first. -/
theorem bob_overtakes_ann :
    ∃ s s', run (System.step ⟨1, 1⟩) System.initial twoWait = some s ∧
      run (System.step ⟨1, 1⟩) s bobComes = some s' ∧
      ComesUp ⟨1, 1⟩ ⟨.EU, 1⟩ annWaiting bobComes s s' := by
  refine ⟨_, _, rfl, rfl, ?_⟩
  refine overtaken_by_better_ranks_only ⟨1, 1⟩ twoWait bobComes _ _ ⟨.EU, 1⟩ annWaiting (by decide) rfl
    rfl ?_
  exact always_of_throughout (C := annStays) (fun t e t' _ h hs => annStays_spec t e t' h hs)
    (by decide) (by decide)

end Airport
