import Webmeow.Airport.Assignment

/-!
# When concurrent arrivals are serialisable

A call enqueues its guest at the gate that it chose some time before. If at every enqueue the choice is
still the one that the queues suggest, and the stamp is not older than those of the guests of its rank
that were enqueued there, the calls have the effect of running one after another in the order of
their enqueues.
-/

namespace Airport

open Interleaving Runs

/-- A guest without the id of its row, which the database hands out in the order of the commits. -/
def Guest.ticket (g : Guest) : Guest := { g with arrivalId := 0 }

/-- The queues hold the same guests in the same order. -/
def SameQueues (gates gates' : Gates) : Prop :=
  ∀ g, (gates g).queue.map Guest.ticket = (gates' g).queue.map Guest.ticket

/-- The calls that have enqueued could have run one after another: in some order of theirs they choose
the same gates and leave the same queues, in which guests of one rank follow their stamps. -/
def Serialisable (cfg : Config) (s0 : Shared) (p : Pool Shared Assign) : Prop :=
  ∃ order : List (ℕ × Guest),
    (order.map Prod.fst).Nodup ∧
    (∀ i guest, (i, guest) ∈ order ↔ ∃ pos, p.threads[i]? = some (.enqueued guest pos)) ∧
    (order.Pairwise fun a b => a.2.gate = b.2.gate → a.2.rank = b.2.rank →
      a.2.queuedAt ≤ b.2.queuedAt) ∧
    ∃ s guests, serial cfg s0 (order.map fun c => (c.2.traveller, c.2.queuedAt)) = some (s, guests) ∧
      guests.map Guest.ticket = order.map (fun c => c.2.ticket) ∧ SameQueues s.gates p.store.gates

/-- A guest of the same rank that was enqueued at the same gate has no later stamp. -/
def Assign.notAfter (guest : Guest) : Assign → Bool
  | .enqueued other _ =>
    decide (other.gate = guest.gate → other.rank = guest.rank → other.queuedAt ≤ guest.queuedAt)
  | _ => true

/-- A call enqueues its guest at a gate that it would choose now, and behind no guest of its rank with a
later stamp. -/
def enqueuesInOrder (cfg : Config) (p : Pool Shared Assign) (e : ℕ × ℚ) : Bool :=
  match p.threads[e.1]? with
  | some (.enqueue guest) =>
    decide (chooseGate cfg p.store.gates guest.traveller = some guest.gate) &&
      p.threads.all (Assign.notAfter guest)
  | _ => true

/-! ## Calls that run alone -/

/-- All that a step of the calls can do. -/
theorem assignmentStep_iff {cfg : Config} {p p' : Pool Shared Assign} {e : ℕ × ℚ} :
    assignmentStep cfg p e = some p' ↔
      ∃ call s' call', p.threads[e.1]? = some call ∧ assignStep cfg p.store call e.2 = some (s', call') ∧
        p' = ⟨s', p.threads.set e.1 call'⟩ :=
  Pool.step_advance_iff

/-- The four steps of a call with nothing in between do what the function does. -/
theorem assign_alone {cfg : Config} {p : Pool Shared Assign} {i : ℕ} {t : Traveller} {now : ℚ}
    {s : Shared} {guest : Guest} (hi : p.threads[i]? = some (.choose t))
    (h : assignAndEnqueue cfg p.store t now = some (s, guest)) :
    ∃ pos, run (assignmentStep cfg) p [(i, now), (i, now), (i, now), (i, now)] =
      some ⟨s, p.threads.set i (.enqueued guest pos)⟩ := by
  obtain ⟨g, hg, hq⟩ := Option.map_eq_some_iff.1 h
  cases hq
  have hlt : i < p.threads.length := (List.getElem?_eq_some_iff.1 hi).1
  have hget : ∀ call, (p.threads.set i call)[i]? = some call := fun call =>
    List.getElem?_set_self hlt
  have h1 : assignmentStep cfg p (i, now) = some ⟨p.store, p.threads.set i (.stamp t g)⟩ :=
    assignmentStep_iff.2 ⟨_, _, _, hi, by simp [assignStep, hg], rfl⟩
  have h2 : assignmentStep cfg ⟨p.store, p.threads.set i (.stamp t g)⟩ (i, now) =
      some ⟨p.store, p.threads.set i (.commit t g now)⟩ :=
    assignmentStep_iff.2 ⟨_, _, _, hget _, rfl, by simp⟩
  have h3 : assignmentStep cfg ⟨p.store, p.threads.set i (.commit t g now)⟩ (i, now) =
      some ⟨p.store.addRow t g now,
        p.threads.set i (.enqueue (newRow t g now p.store.db.nextId).dump)⟩ :=
    assignmentStep_iff.2 ⟨_, _, _, hget _, rfl, by simp⟩
  refine ⟨((p.store.gates g).enqueue (newRow t g now p.store.db.nextId).dump).2, ?_⟩
  refine run_cons_iff.2 ⟨_, h1, run_cons_iff.2 ⟨_, h2, run_cons_iff.2 ⟨_, h3, run_cons_iff.2
    ⟨_, assignmentStep_iff.2 ⟨_, _, _, hget _, rfl, rfl⟩, ?_⟩⟩⟩⟩
  rw [run_nil, List.set_set]
  rfl

/-! ## Queues up to the ids of the rows -/

/-- The place in a queue depends on the ticket alone. -/
theorem insert_map_ticket (a : Guest) (queue : List Guest) :
    (StableQueue.insert Guest.rank a queue).map Guest.ticket =
      StableQueue.insert Guest.rank a.ticket (queue.map Guest.ticket) := by
  induction queue with
  | nil => rfl
  | cons b queue ih =>
    rw [List.map_cons, StableQueue.insert_cons, StableQueue.insert_cons]
    by_cases h : a.rank < b.rank
    · rw [if_pos h, if_pos (show a.ticket.rank < b.ticket.rank from h)]
      rfl
    · rw [if_neg h, if_neg (show ¬a.ticket.rank < b.ticket.rank from h), List.map_cons, ih]

/-- The choice of a gate looks at the lengths of the queues only. -/
theorem chooseGate_congr (cfg : Config) {gates gates' : Gates}
    (h : ∀ g, (gates g).queue.length = (gates' g).queue.length) (t : Traveller) :
    chooseGate cfg gates t = chooseGate cfg gates' t := by
  have hfun : (fun g => (gates g).queue.length) = fun g => (gates' g).queue.length := funext h
  have hshort : ∀ type, shortestQueueGate cfg gates type = shortestQueueGate cfg gates' type := by
    intro type
    unfold shortestQueueGate
    rw [hfun]
  unfold chooseGate
  simp only [hshort, h]

theorem SameQueues.length_eq {gates gates' : Gates} (h : SameQueues gates gates') (g : GateId) :
    (gates g).queue.length = (gates' g).queue.length := by
  have := congrArg List.length (h g)
  simpa using this

/-- Guests with one ticket get the same place. -/
theorem SameQueues.enqueue {s s' : Shared} (h : SameQueues s.gates s'.gates) {a a' : Guest}
    (ha : a.ticket = a'.ticket) : SameQueues (s.enqueue a).gates (s'.enqueue a').gates := by
  have hgate : a.gate = a'.gate := by
    show a.ticket.gate = a'.ticket.gate
    rw [ha]
  intro g
  unfold Shared.enqueue
  rw [hgate]
  by_cases hg : g = a'.gate
  · subst hg
    simp only [Function.update_self, Gate.enqueue]
    rw [insert_map_ticket, insert_map_ticket, h, ha]
  · simp only [Function.update_of_ne hg]
    exact h g

/-! ## Serial runs -/

theorem serial_append {cfg : Config} {s s1 s2 : Shared} {cs cs' : List (Traveller × ℚ)}
    {gs gs' : List Guest} (h1 : serial cfg s cs = some (s1, gs)) (h2 : serial cfg s1 cs' = some (s2, gs')) :
    serial cfg s (cs ++ cs') = some (s2, gs ++ gs') := by
  induction cs generalizing s gs with
  | nil =>
    cases h1
    exact h2
  | cons c cs ih =>
    simp only [serial, Option.bind_eq_some_iff, Option.map_eq_some_iff] at h1
    obtain ⟨q, hq, r, hr, he⟩ := h1
    cases he
    simp only [List.cons_append, serial, Option.bind_eq_some_iff, Option.map_eq_some_iff]
    exact ⟨q, hq, _, ih hr, rfl⟩

/-- One more call after the others. -/
theorem serial_concat {cfg : Config} {s s1 s2 : Shared} {cs : List (Traveller × ℚ)} {gs : List Guest}
    {t : Traveller} {now : ℚ} {guest : Guest} (h1 : serial cfg s cs = some (s1, gs))
    (h2 : assignAndEnqueue cfg s1 t now = some (s2, guest)) :
    serial cfg s (cs ++ [(t, now)]) = some (s2, gs ++ [guest]) := by
  have hlast : serial cfg s1 [(t, now)] = some (s2, [guest]) := by
    simp only [serial, h2, Option.bind_some, Option.map_some]
  exact serial_append h1 hlast

/-- The calls that have enqueued after one more has. -/
theorem enqueued_set_iff {threads : List Assign} {i : ℕ} {guest : Guest}
    (hi : threads[i]? = some (.enqueue guest)) (pos j : ℕ) (other : Guest) :
    (∃ pos', (threads.set i (.enqueued guest pos))[j]? = some (.enqueued other pos')) ↔
      (∃ pos', threads[j]? = some (.enqueued other pos')) ∨ (j, other) = (i, guest) := by
  have hlt : i < threads.length := (List.getElem?_eq_some_iff.1 hi).1
  by_cases hij : i = j
  · subst hij
    rw [List.getElem?_set_self hlt, hi]
    constructor
    · rintro ⟨pos', hpos'⟩
      cases hpos'
      exact Or.inr rfl
    · rintro (⟨pos', hpos'⟩ | he)
      · cases hpos'
      · cases he
        exact ⟨pos, rfl⟩
  · rw [List.getElem?_set_ne hij]
    constructor
    · exact Or.inl
    · rintro (h | h)
      · exact h
      · cases h
        exact absurd rfl hij

/-- A call that has not enqueued before the step and is not enqueued by it leaves everything. -/
theorem Serialisable.of_quiet {cfg : Config} {s0 : Shared} {p : Pool Shared Assign} {i : ℕ}
    {call call' : Assign} {s' : Shared} (h : Serialisable cfg s0 p) (hi : p.threads[i]? = some call)
    (hgates : s'.gates = p.store.gates) (hcall : ∀ guest pos, call ≠ .enqueued guest pos)
    (hcall' : ∀ guest pos, call' ≠ .enqueued guest pos) :
    Serialisable cfg s0 ⟨s', p.threads.set i call'⟩ := by
  obtain ⟨order, hnodup, hmem, hstamps, s, guests, hserial, hguests, hsame⟩ := h
  refine ⟨order, hnodup, fun j guest => ?_, hstamps, s, guests, hserial, hguests, ?_⟩
  · rw [hmem]
    refine exists_congr fun pos => ?_
    by_cases hij : i = j
    · subst hij
      have hlt : i < p.threads.length := (List.getElem?_eq_some_iff.1 hi).1
      show p.threads[i]? = _ ↔ (p.threads.set i call')[i]? = _
      rw [List.getElem?_set_self hlt, hi]
      constructor
      · intro he
        exact absurd (Option.some.inj he) (hcall guest pos)
      · intro he
        exact absurd (Option.some.inj he) (hcall' guest pos)
    · show p.threads[j]? = _ ↔ (p.threads.set i call')[j]? = _
      rw [List.getElem?_set_ne hij]
  · intro g
    rw [hsame g]
    show _ = (s'.gates g).queue.map Guest.ticket
    rw [hgates]

/-- An enqueue in order comes last in the serial order. -/
theorem Serialisable.of_enqueue {cfg : Config} {s0 : Shared} {p : Pool Shared Assign} {i : ℕ}
    {guest : Guest} (h : Serialisable cfg s0 p) (hi : p.threads[i]? = some (.enqueue guest))
    (hnew : ∃ id, guest = (newRow guest.traveller guest.gate guest.queuedAt id).dump)
    (hchoice : chooseGate cfg p.store.gates guest.traveller = some guest.gate)
    (hstamp : ∀ other pos, .enqueued other pos ∈ p.threads → other.gate = guest.gate →
      other.rank = guest.rank → other.queuedAt ≤ guest.queuedAt) (pos : ℕ) :
    Serialisable cfg s0 ⟨p.store.enqueue guest, p.threads.set i (.enqueued guest pos)⟩ := by
  obtain ⟨order, hnodup, hmem, hstamps, s, guests, hserial, hguests, hsame⟩ := h
  have hfresh : i ∉ order.map Prod.fst := by
    intro hin
    obtain ⟨c, hc, rfl⟩ := List.mem_map.1 hin
    obtain ⟨pos', hpos'⟩ := (hmem c.1 c.2).1 hc
    rw [hi] at hpos'
    cases hpos'
  have hlast : assignAndEnqueue cfg s guest.traveller guest.queuedAt =
      some ((s.addRow guest.traveller guest.gate guest.queuedAt).enqueue
        (newRow guest.traveller guest.gate guest.queuedAt s.db.nextId).dump,
          (newRow guest.traveller guest.gate guest.queuedAt s.db.nextId).dump) := by
    unfold assignAndEnqueue
    rw [chooseGate_congr cfg hsame.length_eq, hchoice]
    rfl
  have hticket : (newRow guest.traveller guest.gate guest.queuedAt s.db.nextId).dump.ticket =
      guest.ticket := by
    obtain ⟨id, hid⟩ := hnew
    rw [hid]
    rfl
  refine ⟨order ++ [(i, guest)], ?_, fun j other => ?_, ?_, _,
    guests ++ [(newRow guest.traveller guest.gate guest.queuedAt s.db.nextId).dump],
    ?_, ?_, SameQueues.enqueue (s := s.addRow guest.traveller guest.gate guest.queuedAt) hsame hticket⟩
  · exact Keyed.nodup_concat hnodup hfresh
  · rw [List.mem_append, hmem, List.mem_singleton]
    exact (enqueued_set_iff hi pos j other).symm
  · refine List.pairwise_append.2 ⟨hstamps, List.pairwise_singleton _ _, fun a ha b hb => ?_⟩
    rw [List.mem_singleton.1 hb]
    obtain ⟨pos', hpos'⟩ := (hmem a.1 a.2).1 ha
    exact hstamp a.2 pos' (List.mem_of_getElem? hpos')
  · rw [List.map_append]
    exact serial_concat hserial hlast
  · rw [List.map_append, List.map_append, hguests]
    exact congrArg (_ ++ [·]) hticket

/-! ## Runs -/

/-- The guest of a call is what its row says. -/
def FreshGuests (p : Pool Shared Assign) : Prop :=
  ∀ guest, .enqueue guest ∈ p.threads →
    ∃ id, guest = (newRow guest.traveller guest.gate guest.queuedAt id).dump

/-- A call that goes on with a fresh guest, or with none, keeps the others. -/
theorem FreshGuests.set {p : Pool Shared Assign} (h : FreshGuests p) (s' : Shared) (i : ℕ)
    {call : Assign} (hcall : ∀ guest, call = .enqueue guest →
      ∃ id, guest = (newRow guest.traveller guest.gate guest.queuedAt id).dump) :
    FreshGuests ⟨s', p.threads.set i call⟩ := by
  intro guest hguest
  rcases List.mem_or_eq_of_mem_set hguest with hold | hnew
  · exact h guest hold
  · exact hcall guest hnew.symm

/-- A step that keeps the order of the stamps keeps the serialisation. -/
theorem serialisable_step {cfg : Config} {s0 : Shared} (p : Pool Shared Assign) (e : ℕ × ℚ)
    (p' : Pool Shared Assign) (h : Serialisable cfg s0 p ∧ FreshGuests p)
    (hC : enqueuesInOrder cfg p e = true) (hs : assignmentStep cfg p e = some p') :
    Serialisable cfg s0 p' ∧ FreshGuests p' := by
  obtain ⟨hser, hfresh⟩ := h
  obtain ⟨call, s', call', hi, hact, rfl⟩ := assignmentStep_iff.1 hs
  cases call with
  | choose t =>
    simp only [assignStep] at hact
    cases hg : chooseGate cfg p.store.gates t with
    | none =>
      rw [hg] at hact
      cases hact
      exact ⟨hser.of_quiet hi rfl (fun _ _ h => by cases h) (fun _ _ h => by cases h),
        hfresh.set _ _ fun _ h => by cases h⟩
    | some g =>
      rw [hg] at hact
      cases hact
      exact ⟨hser.of_quiet hi rfl (fun _ _ h => by cases h) (fun _ _ h => by cases h),
        hfresh.set _ _ fun _ h => by cases h⟩
  | stamp t g =>
    cases hact
    exact ⟨hser.of_quiet hi rfl (fun _ _ h => by cases h) (fun _ _ h => by cases h),
      hfresh.set _ _ fun _ h => by cases h⟩
  | commit t g queuedAt =>
    cases hact
    refine ⟨hser.of_quiet hi rfl (fun _ _ h => by cases h) (fun _ _ h => by cases h),
      hfresh.set _ _ fun guest h => ?_⟩
    cases h
    exact ⟨p.store.db.nextId, rfl⟩
  | enqueue guest =>
    cases hact
    simp only [enqueuesInOrder, hi, Bool.and_eq_true, decide_eq_true_eq, List.all_eq_true] at hC
    refine ⟨hser.of_enqueue hi (hfresh guest (List.mem_of_getElem? hi)) hC.1 ?_ _,
      hfresh.set _ _ fun _ h => by cases h⟩
    intro other pos hother
    exact of_decide_eq_true (hC.2 _ hother)
  | enqueued guest pos => cases hact
  | raised => cases hact

/-- Before the first step there is nothing to serialise. -/
theorem serialisable_start (cfg : Config) (s0 : Shared) (travellers : List Traveller) :
    Serialisable cfg s0 (callsOf s0 travellers) ∧ FreshGuests (callsOf s0 travellers) := by
  refine ⟨⟨[], List.nodup_nil, fun i guest => ?_, List.Pairwise.nil, s0, [], rfl, rfl, fun _ => rfl⟩,
    fun guest hguest => ?_⟩
  · constructor
    · intro h
      cases h
    · rintro ⟨pos, h⟩
      obtain ⟨t, -, ht⟩ := List.mem_map.1 (List.mem_of_getElem? h)
      cases ht
  · obtain ⟨t, -, ht⟩ := List.mem_map.1 hguest
    cases ht

/-- **Concurrent arrivals**: from any queues and any table, in every interleaving of any number of calls
of `assign_and_enqueue` in which each call enqueues at a gate that it would choose at that moment and
behind no guest of its rank with a later stamp, the calls that have enqueued could have run one after
another, at every moment. -/
theorem arrivals_serialisable (cfg : Config) (s0 : Shared) (travellers : List Traveller)
    (events : List (ℕ × ℚ))
    (h : Throughout (assignmentStep cfg) (fun p e => enqueuesInOrder cfg p e = true)
      (callsOf s0 travellers) events) :
    Always (assignmentStep cfg) (Serialisable cfg s0) (callsOf s0 travellers) events :=
  (always_of_throughout serialisable_step (serialisable_start cfg s0 travellers) h).imp fun _ hp => hp.1

/-- A guest with the given passport. -/
def someGuest (passport : PassportType) : Traveller :=
  ⟨"g1", "Ada", "Lovelace", 36, passport, .standard, false⟩

/-- No rows and empty gates. -/
def emptyAirport : Shared := ⟨Db.empty, fun _ => Gate.empty⟩

/-- Two calls that overlap but choose among different gates. -/
theorem separate_gates_serialisable :
    let events := [(0, 1), (1, 1), (1, 2), (0, 3), (1, 3), (0, 4), (1, 5), (0, 5)]
    (run (assignmentStep ⟨1, 2⟩) (callsOf emptyAirport [someGuest .EU, someGuest .nonEU])
        events).isSome ∧
      Always (assignmentStep ⟨1, 2⟩) (Serialisable ⟨1, 2⟩ emptyAirport)
        (callsOf emptyAirport [someGuest .EU, someGuest .nonEU]) events := by
  refine ⟨rfl, arrivals_serialisable _ _ _ _ ?_⟩
  decide

/-- The guest of a call that has enqueued at the first gate for all passports. -/
def guestAtFirst (queuedAt : ℚ) (id : ℕ) : Guest :=
  (newRow (someGuest .nonEU) ⟨.ALL, 1⟩ queuedAt id).dump

/-- Two guests at once without an EU passport: both go to the first gate, where one after another they
go to different ones. -/
theorem simultaneous_arrivals_not_serialisable :
    ∃ s, run (assignmentStep ⟨1, 2⟩) (callsOf emptyAirport [someGuest .nonEU, someGuest .nonEU])
        [(0, 1), (1, 1), (0, 1), (1, 2), (0, 2), (1, 2), (0, 3), (1, 3)] =
          some ⟨s, [.enqueued (guestAtFirst 1 1) 1, .enqueued (guestAtFirst 2 2) 2]⟩ ∧
      ¬Serialisable ⟨1, 2⟩ emptyAirport
        ⟨s, [.enqueued (guestAtFirst 1 1) 1, .enqueued (guestAtFirst 2 2) 2]⟩ := by
  refine ⟨_, rfl, ?_⟩
  rintro ⟨order, hnodup, hmem, -, s, guests, hserial, hguests, -⟩
  have hperm : order.Perm [(0, guestAtFirst 1 1), (1, guestAtFirst 2 2)] := by
    refine (List.perm_ext_iff_of_nodup hnodup.of_map (by decide)).2 fun c => ?_
    obtain ⟨i, guest⟩ := c
    rw [hmem]
    match i with
    | 0 => simp [eq_comm]
    | 1 => simp [eq_comm]
    | i + 2 => simp
  obtain ⟨a, b, rfl⟩ := List.length_eq_two.1 hperm.length_eq
  -- in either order the second call finds a guest at the first gate
  have hcases : [a, b] = [(0, guestAtFirst 1 1), (1, guestAtFirst 2 2)] ∨
      [a, b] = [(1, guestAtFirst 2 2), (0, guestAtFirst 1 1)] := by
    have ha := hperm.mem_iff.1 (List.mem_cons_self : a ∈ [a, b])
    have hb := hperm.mem_iff.1 (List.mem_cons_of_mem a (List.mem_singleton_self b))
    have hne : a ≠ b := by
      intro he
      simp [he] at hnodup
    simp only [List.mem_cons, List.not_mem_nil, or_false] at ha hb
    rcases ha with rfl | rfl <;> rcases hb with rfl | rfl
    · exact absurd rfl hne
    · exact Or.inl rfl
    · exact Or.inr rfl
    · exact absurd rfl hne
  rcases hcases with h | h
  · rw [h] at hserial hguests
    cases hserial
    exact absurd hguests (by decide)
  · rw [h] at hserial hguests
    cases hserial
    exact absurd hguests (by decide)

end Airport
