import Webmeow.Airport.Proofs.OrderProofs

/-!
# The response to an arrival

The position is computed under the lock of the gate, and the queue is measured after the lock is
released. What the worker pops in between is missing from the measure, what other calls enqueue is in
it too.
-/

namespace Airport

open Runs

/-- A crash loses the calls in progress. -/
def Event.isRestart : Event → Bool
  | .restart _ => true
  | _ => false

/-- The worker of the gate takes a guest from the queue. -/
def popsAt (g : GateId) (_ : System) : Event → Bool
  | .pop g' => decide (g' = g)
  | _ => false

/-- A call enqueues its guest at the gate. -/
def enqueuesAt (g : GateId) (s : System) : Event → Bool
  | .enqueue i =>
    match s.calls[i]? with
    | some (.enqueue guest) => decide (guest.gate = g)
    | _ => false
  | _ => false

/-- The guests of a queue before whom a newcomer is inserted: those from the first of a larger rank on. -/
def Gate.overtaken (gate : Gate) (guest : Guest) : List Guest :=
  gate.queue.dropWhile fun other => other.rank ≤ guest.rank

variable {cfg : Config} {s s' : System}

/-! ## The length of a queue -/

theorem length_enqueue (gate : Gate) (guest : Guest) :
    (gate.enqueue guest).1.queue.length = gate.queue.length + 1 :=
  (StableQueue.insert_perm guest gate.queue).length_eq

/-- The position counts the guests who stay in front, and the newcomer. -/
theorem position_add_overtaken (gate : Gate) (guest : Guest) :
    (gate.enqueue guest).2 + (gate.overtaken guest).length = gate.queue.length + 1 := by
  have hsplit : ∀ queue : List Guest, StableQueue.position Guest.rank guest queue +
      (queue.dropWhile fun other => decide (other.rank ≤ guest.rank)).length = queue.length := by
    intro queue
    induction queue with
    | nil => rfl
    | cons other queue ih =>
      by_cases h : guest.rank < other.rank
      · have hle : ¬ other.rank ≤ guest.rank := not_le.2 h
        simp [StableQueue.position, List.findIdx_cons, h, hle]
      · have hle : other.rank ≤ guest.rank := not_lt.1 h
        simp only [StableQueue.position] at ih
        simp only [StableQueue.position, List.findIdx_cons, h, decide_false, cond_false,
          List.dropWhile_cons, hle, decide_true, if_true, List.length_cons]
        omega
  have := hsplit gate.queue
  unfold Gate.overtaken Gate.enqueue
  omega

theorem queue_length_setGate (s : System) (g g' : GateId) (gate : Gate) :
    ((s.setGate g' gate).gates g).queue.length =
      if g = g' then gate.queue.length else (s.gates g).queue.length := by
  by_cases h : g = g'
  · subst h
    simp [System.setGate]
  · simp [System.setGate, h]

/-- What the worker does to its guest leaves the queue. -/
theorem queue_length_setCurrent (s : System) (g g' : GateId) (c : Option (Stage × Guest)) :
    ((s.setGate g' { s.gates g' with current := c }).gates g).queue.length =
      (s.gates g).queue.length := by
  rw [queue_length_setGate]
  split_ifs with h
  · rw [h]
  · rfl

/-- A queue gets longer by an enqueue at its gate and shorter by a pop. -/
theorem step_queue_length (cfg : Config) (g : GateId) (s : System) (e : Event) (s' : System)
    (hlive : e.isRestart = false) (hs : s.step cfg e = some s') :
    (s'.gates g).queue.length + (if popsAt g s e then 1 else 0) =
      (s.gates g).queue.length + if enqueuesAt g s e then 1 else 0 := by
  cases e with
  | arrive t =>
    cases hs
    rfl
  | choose i now =>
    obtain ⟨t, -, rfl | ⟨g', -, rfl⟩⟩ := chooseStep_cases hs
    · rfl
    · rfl
  | commit i =>
    obtain ⟨t, g', now, -, rfl⟩ := commitStep_cases hs
    rfl
  | enqueue i =>
    obtain ⟨guest, hi, rfl⟩ := enqueueStep_cases hs
    show ((s.setGate guest.gate ((s.gates guest.gate).enqueue guest).1).gates g).queue.length + 0 = _
    rw [queue_length_setGate]
    simp only [enqueuesAt, hi, decide_eq_true_eq]
    by_cases hg : g = guest.gate
    · subst hg
      rw [if_pos rfl, if_pos rfl, length_enqueue]
    · rw [if_neg hg, if_neg (Ne.symm hg)]
  | respond i =>
    obtain ⟨guest, position, answer, -, rfl⟩ := respondStep_cases hs
    rfl
  | pop g' =>
    obtain ⟨guest, queue, -, hq, rfl⟩ := popStep_cases hs
    rw [queue_length_setGate]
    simp only [popsAt, decide_eq_true_eq, enqueuesAt, Bool.false_eq_true, if_false]
    by_cases hg : g = g'
    · subst hg
      rw [if_pos rfl, if_pos rfl, hq]
      rfl
    · rw [if_neg hg, if_neg (Ne.symm hg)]
  | commitProcessing g' =>
    obtain ⟨guest, -, rfl⟩ := commitProcessingStep_cases hs
    exact queue_length_setCurrent s g g' _
  | commitProcessed g' now =>
    obtain ⟨guest, -, rfl⟩ := commitProcessedStep_cases hs
    exact queue_length_setCurrent s g g' _
  | publish g' =>
    obtain ⟨guest, -, rfl⟩ := publishStep_cases hs
    exact queue_length_setCurrent s g g' _
  | clear g' =>
    obtain ⟨guest, -, rfl⟩ := clearStep_cases hs
    exact queue_length_setCurrent s g g' _
  | restart rows => cases hlive

/-! ## The call that waits for its answer -/

/-- The call has its position and has not answered, or it has answered. -/
def System.Enqueued (s : System) (i : ℕ) (guest : Guest) (position : ℕ) : Prop :=
  s.calls[i]? = some (.respond guest position) ∨ ∃ answer, s.calls[i]? = some (.done answer)

/-- The call has enqueued its guest. -/
def Call.hasEnqueued : Call → Bool
  | .respond _ _ => true
  | .done _ => true
  | _ => false

/-- A step of a call leaves the other calls, and a call that has enqueued its guest can only answer. -/
theorem Enqueued.setCall {i j : ℕ} {guest : Guest} {position : ℕ} {call call' : Call}
    (h : s.Enqueued i guest position) (hj : s.calls[j]? = some call)
    (hcall : call.hasEnqueued = false ∨ ∃ answer, call' = .done answer) :
    (s.setCall j call').Enqueued i guest position := by
  by_cases hij : j = i
  · subst hij
    have hlt : j < s.calls.length := (List.getElem?_eq_some_iff.1 hj).1
    rcases hcall with hcall | ⟨answer, rfl⟩
    · rcases h with h | ⟨answer, h⟩
      · rw [hj] at h
        cases h
        cases hcall
      · rw [hj] at h
        cases h
        cases hcall
    · exact Or.inr ⟨answer, by rw [System.setCall, List.getElem?_set_self hlt]⟩
  · unfold System.Enqueued System.setCall
    rw [List.getElem?_set_ne hij]
    exact h

/-- A call that has queued its guest stays so until it answers. -/
theorem step_enqueued {i : ℕ} {guest : Guest} {position : ℕ} {e : Event}
    (h : s.Enqueued i guest position) (hlive : e.isRestart = false) (hs : s.step cfg e = some s') :
    s'.Enqueued i guest position := by
  cases e with
  | arrive t =>
    cases hs
    have hold : ∀ call, s.calls[i]? = some call →
        (s.calls ++ [Call.choose t])[i]? = some call := fun call hc => by
      rw [List.getElem?_append_left (List.getElem?_eq_some_iff.1 hc).1, hc]
    rcases h with h | ⟨answer, h⟩
    · exact Or.inl (hold _ h)
    · exact Or.inr ⟨answer, hold _ h⟩
  | choose j now =>
    obtain ⟨t, hj, rfl | ⟨g, -, rfl⟩⟩ := chooseStep_cases hs
    · exact Enqueued.setCall h hj (Or.inl rfl)
    · exact Enqueued.setCall h hj (Or.inl rfl)
  | commit j =>
    obtain ⟨t, g, now, hj, rfl⟩ := commitStep_cases hs
    exact Enqueued.setCall (s := s.addRow t g now) h hj (Or.inl rfl)
  | enqueue j =>
    obtain ⟨x, hj, rfl⟩ := enqueueStep_cases hs
    exact Enqueued.setCall (s := s.setGate x.gate ((s.gates x.gate).enqueue x).1) h hj (Or.inl rfl)
  | respond j =>
    obtain ⟨x, p, answer, hj, rfl⟩ := respondStep_cases hs
    exact Enqueued.setCall h hj (Or.inr ⟨answer, rfl⟩)
  | pop g =>
    obtain ⟨x, queue, -, -, rfl⟩ := popStep_cases hs
    exact h
  | commitProcessing g =>
    obtain ⟨x, -, rfl⟩ := commitProcessingStep_cases hs
    exact h
  | commitProcessed g now =>
    obtain ⟨x, -, rfl⟩ := commitProcessedStep_cases hs
    exact h
  | publish g =>
    obtain ⟨x, -, rfl⟩ := publishStep_cases hs
    exact h
  | clear g =>
    obtain ⟨x, -, rfl⟩ := clearStep_cases hs
    exact h
  | restart rows => cases hlive

/-- Also over a run. -/
theorem run_enqueued {i : ℕ} {guest : Guest} {position : ℕ} {es : List Event}
    (h : s.Enqueued i guest position) (hlive : ∀ e ∈ es, e.isRestart = false)
    (hr : run (System.step cfg) s es = some s') : s'.Enqueued i guest position := by
  induction es generalizing s with
  | nil =>
    cases hr
    exact h
  | cons e es ih =>
    obtain ⟨u, hs, hr'⟩ := run_cons_iff.1 hr
    exact ih (step_enqueued h (hlive e List.mem_cons_self) hs)
      (fun e' he' => hlive e' (List.mem_cons_of_mem e he')) hr'

/-- The answer of a call: its position, and the length of the queue as it is now. -/
theorem respond_answer {i : ℕ} {guest : Guest} {position : ℕ} (h : s.Enqueued i guest position)
    (hs : s.step cfg (.respond i) = some s') :
    s'.calls[i]? = some (.done ⟨guest.traveller.guestId, guest.gate, position,
      (s.gates guest.gate).queue.length, guest.queuedAt⟩) := by
  have hstep : s.respondStep i = some s' := hs
  unfold System.respondStep at hstep
  rcases h with h | ⟨answer, h⟩
  · rw [h] at hstep
    cases hstep
    have hlt : i < s.calls.length := (List.getElem?_eq_some_iff.1 h).1
    rw [System.setCall, List.getElem?_set_self hlt]
  · rw [h] at hstep
    cases hstep

/-- **The response, exactly**: from every state, in every interleaving `es` of an enqueue and the
response of its call with steps of workers and other calls, the position is at least one, and it is at
most the reported size if and only if the worker of the gate has popped no more guests in between
than other calls have enqueued there and the newcomer has overtaken. -/
theorem response_consistent_iff (cfg : Config) (s s' : System) (i : ℕ) (guest : Guest)
    (es : List Event) (hcall : s.calls[i]? = some (.enqueue guest))
    (hlive : ∀ e ∈ es, e.isRestart = false)
    (hrun : run (System.step cfg) s (.enqueue i :: es ++ [.respond i]) = some s') :
    ∃ answer s1, s'.calls[i]? = some (.done answer) ∧ s.step cfg (.enqueue i) = some s1 ∧
      1 ≤ answer.position ∧
      (1 ≤ answer.position ∧ answer.position ≤ answer.queueSize ↔
        countSteps (System.step cfg) (popsAt guest.gate) s1 es ≤
          countSteps (System.step cfg) (enqueuesAt guest.gate) s1 es +
            ((s.gates guest.gate).overtaken guest).length) := by
  obtain ⟨s2, hbefore, hrespond⟩ := run_concat_iff.1 hrun
  obtain ⟨s1, hfirst, hmid⟩ := run_cons_iff.1 hbefore
  have hlt : i < s.calls.length := (List.getElem?_eq_some_iff.1 hcall).1
  have hs1 : s1 = (s.setGate guest.gate ((s.gates guest.gate).enqueue guest).1).setCall i
      (.respond guest ((s.gates guest.gate).enqueue guest).2) := by
    obtain ⟨x, hx, rfl⟩ := enqueueStep_cases hfirst
    rw [hcall] at hx
    cases hx
    rfl
  have henq : s1.Enqueued i guest ((s.gates guest.gate).enqueue guest).2 := by
    refine Or.inl ?_
    rw [hs1, System.setCall]
    exact List.getElem?_set_self hlt
  refine ⟨_, s1, respond_answer (run_enqueued henq hlive hmid) hrespond, hfirst, ?_, ?_⟩
  · exact Nat.succ_le_succ (Nat.zero_le _)
  -- the size is the length right after the enqueue, plus what was enqueued, less what was popped
  have hlength : (s1.gates guest.gate).queue.length = (s.gates guest.gate).queue.length + 1 := by
    rw [hs1]
    show ((s.setGate _ _).gates _).queue.length = _
    rw [queue_length_setGate, if_pos rfl, length_enqueue]
  have hledger := ledger (step_queue_length cfg guest.gate) hlive hmid
  have hposition := position_add_overtaken (s.gates guest.gate) guest
  have hone : 1 ≤ ((s.gates guest.gate).enqueue guest).2 := Nat.succ_le_succ (Nat.zero_le _)
  dsimp only
  omega

/-! ## A pop before the response -/

/-- Ann is alone at the gate; the worker pops her before her call measures the queue. -/
def poppedBeforeResponse : List Event :=
  [.arrive ann, .choose 0 1, .commit 0, .enqueue 0, .pop ⟨.EU, 1⟩, .respond 0]

/-- The call answers that Ann is number one of none. -/
theorem poppedBeforeResponse_inconsistent :
    ∃ s answer, run (System.step ⟨1, 1⟩) System.initial poppedBeforeResponse = some s ∧
      s.calls[0]? = some (.done answer) ∧
      ¬ (1 ≤ answer.position ∧ answer.position ≤ answer.queueSize) :=
  ⟨_, ⟨"ann", ⟨.EU, 1⟩, 1, 0, 1⟩, rfl, rfl, by decide⟩

/-- The state in which the calls of Ann and Bob are about to enqueue them at one gate. -/
def bothCommitted : System :=
  ⟨⟨[newRow ann ⟨.EU, 1⟩ 1 1, newRow bob ⟨.EU, 1⟩ 2 2], 3, by decide, by decide⟩,
    fun _ => Gate.empty,
    [.enqueue (newRow ann ⟨.EU, 1⟩ 1 1).dump, .enqueue (newRow bob ⟨.EU, 1⟩ 2 2).dump]⟩

/-- Bob gets in front of Ann and is popped before her call measures the queue. -/
def bobPopped : List Event := [.enqueue 1, .pop ⟨.EU, 1⟩]

/-- What Bob adds makes up for what the worker takes. -/
theorem bobPopped_consistent :
    ∃ s' answer, run (System.step ⟨1, 1⟩) bothCommitted (.enqueue 0 :: bobPopped ++ [.respond 0]) =
        some s' ∧ s'.calls[0]? = some (.done answer) ∧
      1 ≤ answer.position ∧ answer.position ≤ answer.queueSize := by
  obtain ⟨answer, s1, hdone, hfirst, -, hiff⟩ := response_consistent_iff ⟨1, 1⟩ bothCommitted _ 0
    (newRow ann ⟨.EU, 1⟩ 1 1).dump bobPopped rfl (by decide) rfl
  cases hfirst
  exact ⟨_, answer, rfl, hdone, hiff.2 (by decide)⟩

end Airport
