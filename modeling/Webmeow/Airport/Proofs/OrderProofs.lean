import Webmeow.Airport.Proofs.ArrivalProofs

/-!
# The order of the queues, across restarts

When arrivals are handled one at a time with increasing stamps, every queue is sorted by effective
rank and stamp. The restart keeps this: a row that was being processed goes to the front, and it may,
because everybody who was waiting before it has a larger rank, or it would not have been popped.
-/

namespace Airport

open Placement Runs StableQueue

/-- The order of a queue. -/
abbrev Guest.Before : Guest → Guest → Prop := StableQueue.Before Guest.rank Guest.queuedAt

/-- The call has chosen its gate and not yet enqueued its guest. -/
def Call.inFlight : Call → Bool
  | .commit _ _ _ => true
  | .enqueue _ => true
  | _ => false

/-- A call starts to handle its arrival when no other is being handled, with a later stamp. -/
def oneAtATime (s : System) : Event → Bool
  | .choose _ now =>
    decide ((∀ call ∈ s.calls, call.inFlight = false) ∧ ∀ row ∈ s.db.rows, row.queuedAt < now)
  | _ => true

/-- Every queue is in the order of rank and arrival. -/
def QueuesSorted (s : System) : Prop := ∀ g, (s.gates g).queue.Pairwise Guest.Before

/-- The guest that a worker pops comes before everybody else who is waiting at its gate. -/
def popsMinimum (cfg : Config) (s : System) : Event → Prop
  | .pop g => ∀ s' guest, s.step cfg (.pop g) = some s' →
      (s'.gates g).currentlyProcessing = some guest →
      (∃ first ∈ (s.gates g).queue, first.arrivalId = guest.arrivalId) ∧
        ∀ other ∈ (s.gates g).queue, other.arrivalId = guest.arrivalId ∨ Guest.Before guest other
  | _ => True

/-- The invariant behind it, for arrivals one at a time. -/
structure Ordered (s : System) : Prop where
  /-- The queue is sorted. -/
  sorted : QueuesSorted s
  /-- Later rows have later times. -/
  stamps : s.db.rows.Pairwise fun a b => a.queuedAt < b.queuedAt
  /-- One call at a time is between its choice and its enqueue. -/
  alone : ∀ (i j : ℕ) (a b : Call), s.calls[i]? = some a → s.calls[j]? = some b →
    a.inFlight = true → b.inFlight = true → i = j
  /-- The time of a call is later than those of all rows. -/
  chosen : ∀ t g now, Call.commit t g now ∈ s.calls → ∀ row ∈ s.db.rows, row.queuedAt < now
  /-- A guest who is to be queued is the latest. -/
  latest : ∀ guest, Call.enqueue guest ∈ s.calls → ∀ row ∈ s.db.rows,
    row.id ≠ guest.arrivalId → row.queuedAt < guest.queuedAt
  /-- A worker's guest goes before all who wait. -/
  popped : ∀ g stage guest, (s.gates g).current = some (stage, guest) → stage.rowStatus ≠ .processed →
    ∀ row ∈ s.db.pending, row.gate = g → row.queuedAt < guest.queuedAt →
      guest.rank < effectiveRank row.traveller

/-! ## Rehydrated queues -/

section Rehydrate

variable {cfg : Config}

theorem rehydrate_concat (rows : List Arrival) (row : Arrival) :
    rehydrate cfg (rows ++ [row]) = rehydrateRow cfg (rehydrate cfg rows) row := by
  unfold rehydrate
  rw [List.foldl_append]
  rfl

/-- Rows in the order of their stamps give sorted queues, if each row that was being processed has a
smaller rank than the earlier rows of its gate. -/
theorem rehydrate_sorted {rows : List Arrival}
    (hok : ∀ row ∈ rows, row.gate ∈ cfg.gateIds ∧ row.status ≠ .processed)
    (hstamps : rows.Pairwise fun a b => a.queuedAt < b.queuedAt)
    (hfront : ∀ a ∈ rows, ∀ b ∈ rows, a.status = .processing → b.gate = a.gate →
      b.queuedAt < a.queuedAt → effectiveRank a.traveller < effectiveRank b.traveller) (g : GateId) :
    (rehydrate cfg rows g).queue.Pairwise Guest.Before := by
  induction rows using List.reverseRecOn with
  | nil => exact List.Pairwise.nil
  | append_singleton rows row ih =>
    have hsub : ∀ r ∈ rows, r ∈ rows ++ [row] := fun r hr => List.mem_append_left [row] hr
    have hmem : row ∈ rows ++ [row] := List.mem_append_right rows (List.mem_singleton_self row)
    have hok' : ∀ r ∈ rows, r.gate ∈ cfg.gateIds ∧ r.status ≠ .processed := fun r hr => hok r (hsub r hr)
    obtain ⟨hstamps', -, hlater⟩ := List.pairwise_append.1 hstamps
    have ih := ih hok' hstamps' fun a ha b hb => hfront a (hsub a ha) b (hsub b hb)
    have hqueue : ∀ x ∈ (rehydrate cfg rows g).queue,
        ∃ r ∈ rows, r.gate = g ∧ x = r.rehydrated := by
      intro x hx
      obtain ⟨r, hr, rfl⟩ := List.mem_map.1 ((rehydrate_queue hok' g).mem_iff.1 hx)
      obtain ⟨hr, hg⟩ := List.mem_filter.1 hr
      exact ⟨r, hr, of_decide_eq_true hg, rfl⟩
    have hstamp : ∀ x ∈ (rehydrate cfg rows g).queue, x.queuedAt < row.queuedAt := by
      intro x hx
      obtain ⟨r, hr, -, rfl⟩ := hqueue x hx
      exact hlater r hr row (List.mem_singleton_self row)
    rw [rehydrate_concat]
    unfold rehydrateRow
    rw [if_pos (hok row hmem).1]
    by_cases hg : g = row.gate
    · subst hg
      split_ifs with hp
      · rw [Function.update_self]
        refine List.pairwise_cons.2 ⟨fun x hx => Or.inl ?_, ih⟩
        have hs := hstamp x hx
        obtain ⟨r, hr, hrg, rfl⟩ := hqueue x hx
        exact hfront row hmem r (hsub r hr) hp hrg hs
      · rw [Function.update_self]
        exact StableQueue.insert_sorted ih hstamp
    · split_ifs with hp
      · rw [Function.update_of_ne hg]
        exact ih
      · rw [Function.update_of_ne hg]
        exact ih

end Rehydrate

/-! ## Steps -/

section Steps

variable {cfg : Config} {s s' : System}

theorem initial_ordered : Ordered System.initial where
  sorted g := List.Pairwise.nil
  stamps := List.Pairwise.nil
  alone i j a b ha := by cases ha
  chosen t g now hc := absurd hc List.not_mem_nil
  latest guest hc := absurd hc List.not_mem_nil
  popped g stage guest hc := nomatch hc

/-- The stamp of a guest in memory is the stamp of a row. -/
theorem Mirrors.stamp {db : Db} {guest : Guest} {g : GateId} {status : Status}
    (h : Mirrors db guest g status) :
    ∃ row ∈ db.rows, row.id = guest.arrivalId ∧ row.queuedAt = guest.queuedAt ∧
      effectiveRank row.traveller = guest.rank := by
  obtain ⟨row, hrow, hid, ht, -, hq, -⟩ := h
  exact ⟨row, hrow, hid, hq, by rw [ht]; rfl⟩

theorem ordered_arrive (h : Ordered s) (t : Traveller) :
    Ordered { s with calls := s.calls ++ [.choose t] } := by
  have hget : ∀ (i : ℕ) (a : Call), (s.calls ++ [Call.choose t])[i]? = some a → a.inFlight = true →
      s.calls[i]? = some a := by
    intro i a ha hfl
    by_cases hi : i < s.calls.length
    · rwa [List.getElem?_append_left hi] at ha
    · rw [List.getElem?_append_right (by omega)] at ha
      rw [List.mem_singleton.1 (List.mem_of_getElem? ha)] at hfl
      cases hfl
  refine ⟨h.sorted, h.stamps, fun i j a b ha hb hfa hfb => ?_, fun t' g now hc => ?_,
    fun guest hc => ?_, h.popped⟩
  · exact h.alone i j a b (hget i a ha hfa) (hget j b hb hfb) hfa hfb
  · rcases List.mem_append.1 hc with hc | hc
    · exact h.chosen t' g now hc
    · cases List.mem_singleton.1 hc
  · rcases List.mem_append.1 hc with hc | hc
    · exact h.latest guest hc
    · cases List.mem_singleton.1 hc

/-- A call that is in flight afterwards only if it was before, with the same rows and gates. -/
theorem ordered_setCall (h : Ordered s) {i : ℕ} {call call' : Call} (hi : s.calls[i]? = some call)
    (hfl : call'.inFlight = true → call.inFlight = true)
    (hchosen : ∀ t g now, call' = .commit t g now → ∀ row ∈ s.db.rows, row.queuedAt < now)
    (hlatest : ∀ guest, call' = .enqueue guest → ∀ row ∈ s.db.rows, row.id ≠ guest.arrivalId →
      row.queuedAt < guest.queuedAt) : Ordered (s.setCall i call') := by
  have hlt : i < s.calls.length := (List.getElem?_eq_some_iff.1 hi).1
  have hget : ∀ (j : ℕ) (a : Call), (s.calls.set i call')[j]? = some a → a.inFlight = true →
      ∃ b : Call, s.calls[j]? = some b ∧ b.inFlight = true := by
    intro j a ha hfa
    by_cases hj : i = j
    · subst hj
      rw [List.getElem?_set_self hlt] at ha
      cases ha
      exact ⟨call, hi, hfl hfa⟩
    · rw [List.getElem?_set_ne hj] at ha
      exact ⟨a, ha, hfa⟩
  refine ⟨h.sorted, h.stamps, fun j k a b ha hb hfa hfb => ?_, fun t g now hc => ?_,
    fun guest hc => ?_, h.popped⟩
  · obtain ⟨a', ha', hfa'⟩ := hget j a ha hfa
    obtain ⟨b', hb', hfb'⟩ := hget k b hb hfb
    exact h.alone j k a' b' ha' hb' hfa' hfb'
  · rcases List.mem_or_eq_of_mem_set hc with hc | hc
    · exact h.chosen t g now hc
    · exact hchosen t g now hc.symm
  · rcases List.mem_or_eq_of_mem_set hc with hc | hc
    · exact h.latest guest hc
    · exact hlatest guest hc.symm

/-- A call that ends or raises. -/
theorem ordered_idle (h : Ordered s) {i : ℕ} {call : Call} (call' : Call)
    (hi : s.calls[i]? = some call) (hidle : call'.inFlight = false) : Ordered (s.setCall i call') := by
  refine ordered_setCall h hi (fun hfl => ?_) (fun t g now he => ?_) (fun guest he => ?_)
  · rw [hidle] at hfl
    cases hfl
  · rw [he] at hidle
    cases hidle
  · rw [he] at hidle
    cases hidle

/-- The call that chooses is alone, so its time is the latest. -/
theorem ordered_choose (h : Ordered s) {i : ℕ} {now : ℚ} (hone : oneAtATime s (.choose i now) = true)
    (hs : s.chooseStep cfg i now = some s') : Ordered s' := by
  obtain ⟨hidle, hstamp⟩ := of_decide_eq_true hone
  obtain ⟨t, hi, rfl | ⟨g, -, rfl⟩⟩ := chooseStep_cases hs
  · exact ordered_idle h _ hi rfl
  · -- after the step the call is the only one in flight
    have hget : ∀ (j : ℕ) (a : Call), (s.calls.set i (.commit t g now))[j]? = some a →
        a.inFlight = true → j = i := by
      intro j a ha hfa
      by_contra hj
      rw [List.getElem?_set_ne (Ne.symm hj)] at ha
      rw [hidle a (List.mem_of_getElem? ha)] at hfa
      cases hfa
    refine ⟨h.sorted, h.stamps, fun j k a b ha hb hfa hfb => ?_, fun t' g' now' hc => ?_,
      fun guest hc => ?_, h.popped⟩
    · rw [hget j a ha hfa, hget k b hb hfb]
    · rcases List.mem_or_eq_of_mem_set hc with hc | hc
      · exact h.chosen t' g' now' hc
      · cases hc
        exact hstamp
    · rcases List.mem_or_eq_of_mem_set hc with hc | hc
      · exact h.latest guest hc
      · cases hc

theorem ordered_respond (h : Ordered s) {i : ℕ} (hs : s.respondStep i = some s') : Ordered s' := by
  obtain ⟨guest, position, answer, hi, rfl⟩ := respondStep_cases hs
  exact ordered_idle h _ hi rfl

/-- A call in flight that is not this one is a contradiction. -/
theorem Ordered.only (h : Ordered s) {i : ℕ} {call call' : Call} (hi : s.calls[i]? = some call)
    (hfl : call.inFlight = true) {c : Call} (hc : c ∈ s.calls.set i call') (hfc : c.inFlight = true) :
    c = call' := by
  obtain ⟨j, hj⟩ := List.getElem?_of_mem hc
  have hlt : i < s.calls.length := (List.getElem?_eq_some_iff.1 hi).1
  by_cases hij : i = j
  · subst hij
    rw [List.getElem?_set_self hlt] at hj
    exact (Option.some.inj hj).symm
  · rw [List.getElem?_set_ne hij] at hj
    exact absurd (h.alone i j call c hi hj hfl hfc) hij

/-- The new row has the latest time. -/
theorem ordered_commit (hinv : Inv cfg s) (h : Ordered s) {i : ℕ} (hs : s.commitStep i = some s') :
    Ordered s' := by
  obtain ⟨t, g, now, hi, rfl⟩ := commitStep_cases hs
  have hlast : ∀ row ∈ s.db.rows, row.queuedAt < now := h.chosen t g now (List.mem_of_getElem? hi)
  have hset : Ordered (s.setCall i (.enqueue (newRow t g now s.db.nextId).dump)) := by
    refine ordered_setCall h hi (fun _ => rfl) (fun t' g' now' he => ?_) (fun guest he row hrow _ => ?_)
    · cases he
    · cases he
      exact hlast row hrow
  refine ⟨h.sorted, ?_, hset.alone, fun t' g' now' hc => ?_, fun guest hc row hrow hne => ?_,
    fun g' stage guest hc hst row hrow hg hlt => ?_⟩
  · refine List.pairwise_append.2 ⟨h.stamps, List.pairwise_singleton _ _, fun a ha b hb => ?_⟩
    rw [List.mem_singleton.1 hb]
    exact hlast a ha
  · cases h.only hi rfl hc rfl
  · rcases List.mem_append.1 hrow with hrow | hrow
    · exact hset.latest guest hc row hrow hne
    · cases h.only hi rfl hc rfl
      rw [List.mem_singleton.1 hrow] at hne
      exact absurd rfl hne
  · obtain ⟨hrow, hpend⟩ := mem_pending.1 hrow
    rcases List.mem_append.1 hrow with hrow | hrow
    · exact h.popped g' stage guest hc hst row (mem_pending.2 ⟨hrow, hpend⟩) hg hlt
    · -- the new row is later than the guest of the worker
      obtain ⟨r, hr, -, hq, -⟩ := (hinv.current g' stage guest hc).stamp
      have hearlier := hlast r hr
      rw [List.mem_singleton.1 hrow] at hlt
      rw [hq] at hearlier
      exact absurd hlt (lt_asymm hearlier)

/-- The latest guest goes behind those of the same rank. -/
theorem ordered_enqueue (hinv : Inv cfg s) (h : Ordered s) {i : ℕ} (hs : s.enqueueStep i = some s') :
    Ordered s' := by
  obtain ⟨guest, hi, rfl⟩ := enqueueStep_cases hs
  have hset := ordered_idle h (.respond guest ((s.gates guest.gate).enqueue guest).2) hi rfl
  refine ⟨fun g => ?_, h.stamps, hset.alone, hset.chosen, hset.latest,
    fun g stage x hc hst row hrow => ?_⟩
  · by_cases hg : g = guest.gate
    · subst hg
      show ((Function.update s.gates guest.gate _) guest.gate).queue.Pairwise Guest.Before
      rw [Function.update_self]
      refine StableQueue.insert_sorted (h.sorted guest.gate) fun x hx => ?_
      -- the guest is with its call, so it is not the same arrival as `x`
      have hne : x.arrivalId ≠ guest.arrivalId := by
        intro he
        have hp := hinv.once.place_eq
          (occurrences_queue_pos.2 ⟨x, hx, he⟩) (occurrences_call_pos.2 ⟨guest, hi, rfl⟩)
        cases hp
      obtain ⟨r, hr, hid, hq, -⟩ := (hinv.queues guest.gate x hx).stamp
      rw [← hq]
      exact h.latest guest (List.mem_of_getElem? hi) r hr (by rw [hid]; exact hne)
    · show ((Function.update s.gates guest.gate _) g).queue.Pairwise Guest.Before
      rw [Function.update_of_ne hg]
      exact h.sorted g
  · rcases setGate_current (s := s) hc with ⟨hg, hcur⟩ | ⟨-, hcur⟩
    · rw [hg]
      exact h.popped guest.gate stage x hcur hst row hrow
    · exact h.popped g stage x hcur hst row hrow

/-- The pending rows of a gate are those of its queue, of its worker and of the call in flight. -/
theorem Inv.pending_cases (hinv : Inv cfg s) {row : Arrival} (hrow : row ∈ s.db.pending) :
    (∃ guest, Call.enqueue guest ∈ s.calls ∧ guest.arrivalId = row.id ∧
        guest.queuedAt = row.queuedAt) ∨
      (∃ guest ∈ (s.gates row.gate).queue, guest.arrivalId = row.id ∧
        guest.queuedAt = row.queuedAt ∧ guest.rank = effectiveRank row.traveller) ∨
      (s.gates row.gate).current ≠ none := by
  obtain ⟨hrow, hpend⟩ := mem_pending.1 hrow
  obtain ⟨p, hp⟩ := hinv.total row hrow hpend
  have hgate := hinv.place_gate hrow hp
  have hsame : ∀ guest g status, Mirrors s.db guest g status → guest.arrivalId = row.id →
      guest.queuedAt = row.queuedAt ∧ guest.rank = effectiveRank row.traveller := by
    intro guest g status hm hid
    obtain ⟨r, hr, hrid, hq, hrank⟩ := hm.stamp
    rw [s.db.row_unique hr hrow (hrid.trans hid)] at hq hrank
    exact ⟨hq.symm, hrank.symm⟩
  cases p with
  | call i =>
    obtain ⟨guest, hi, hid⟩ := occurrences_call_pos.1 hp
    have hmem := List.mem_of_getElem? hi
    exact Or.inl ⟨guest, hmem, hid, (hsame guest _ _ (hinv.calls guest hmem) hid).1⟩
  | queue g =>
    cases hgate
    obtain ⟨guest, hg, hid⟩ := occurrences_queue_pos.1 hp
    exact Or.inr (Or.inl ⟨guest, hg, hid, hsame guest _ _ (hinv.queues _ guest hg) hid⟩)
  | processing g =>
    cases hgate
    obtain ⟨stage, guest, hc, -⟩ := occurrences_processing_pos.1 hp
    exact Or.inr (Or.inr (by rw [hc]; nofun))

/-- The head goes before the rest. -/
theorem ordered_pop (hinv : Inv cfg s) (h : Ordered s) {g : GateId} (hs : s.popStep g = some s') :
    Ordered s' := by
  obtain ⟨guest, queue, hc, hq, rfl⟩ := popStep_cases hs
  have hsorted := h.sorted g
  rw [hq] at hsorted
  obtain ⟨hfirst, htail⟩ := List.pairwise_cons.1 hsorted
  refine ⟨fun g' => ?_, h.stamps, h.alone, h.chosen, h.latest,
    fun g' stage x hx hst row hrow hg hlt => ?_⟩
  · by_cases hg : g' = g
    · subst hg
      show ((Function.update s.gates g' _) g').queue.Pairwise Guest.Before
      rw [Function.update_self]
      exact htail
    · show ((Function.update s.gates g _) g').queue.Pairwise Guest.Before
      rw [Function.update_of_ne hg]
      exact h.sorted g'
  · rcases setGate_current hx with ⟨hg', hcur⟩ | ⟨-, hcur⟩
    · cases hcur
      rw [hg'] at hg
      subst hg
      rcases hinv.pending_cases hrow with ⟨y, hy, hid, hstamp⟩ | ⟨y, hy, hid, hstamp, hrank⟩ | hcur
      · -- the guest of the call in flight is the latest
        obtain ⟨r, hr, hrid, hrq, -⟩ := (hinv.queues _ guest (by rw [hq]; exact List.mem_cons_self)).stamp
        have hne : r.id ≠ y.arrivalId := by
          intro he
          rw [s.db.row_unique hr (mem_pending.1 hrow).1 (he.trans hid)] at hrq
          exact absurd hlt (by rw [hrq]; exact lt_irrefl _)
        have hlater := h.latest y hy r hr hne
        rw [hrq, hstamp] at hlater
        exact absurd hlt (lt_asymm hlater)
      · rw [hq] at hy
        rcases List.mem_cons.1 hy with rfl | hy
        · rw [← hstamp] at hlt
          exact absurd hlt (lt_irrefl _)
        · rw [← hrank]
          exact (hfirst y hy).rank_lt (by rw [hstamp]; exact hlt)
      · exact absurd hc hcur
    · exact h.popped g' stage x hcur hst row hrow hg hlt

/-- The worker goes on: the queues stay, and the table keeps ids, stamps, gates and travellers. -/
theorem ordered_setCurrent (h : Ordered s) {g : GateId} {c : Option (Stage × Guest)} {db : Db}
    {f : Arrival → Arrival} (hdb : db.rows = s.db.rows.map f)
    (hf : ∀ row ∈ s.db.rows, (f row).SameGuest row ∧
      (row.status = .processed → (f row).status = .processed))
    (hc : ∀ stage guest, c = some (stage, guest) → stage.rowStatus ≠ .processed →
      ∃ stage' guest', (s.gates g).current = some (stage', guest') ∧ stage'.rowStatus ≠ .processed ∧
        guest'.rank = guest.rank ∧ guest'.queuedAt = guest.queuedAt) :
    Ordered ({ s with db := db }.setGate g { s.gates g with current := c }) := by
  have hrows : ∀ row' ∈ db.rows, ∃ row ∈ s.db.rows, f row = row' := by
    intro row' hrow'
    rw [hdb] at hrow'
    exact List.mem_map.1 hrow'
  refine ⟨fun g' => ?_, ?_, h.alone, fun t g' now hcall row' hrow' => ?_,
    fun guest hcall row' hrow' hne => ?_, fun g' stage guest hx hst row' hrow' hg hlt => ?_⟩
  · by_cases hg : g' = g
    · subst hg
      show ((Function.update s.gates g' _) g').queue.Pairwise Guest.Before
      rw [Function.update_self]
      exact h.sorted g'
    · show ((Function.update s.gates g _) g').queue.Pairwise Guest.Before
      rw [Function.update_of_ne hg]
      exact h.sorted g'
  · show db.rows.Pairwise _
    rw [hdb, List.pairwise_map]
    refine h.stamps.imp_of_mem fun {a b} ha hb hab => ?_
    rw [(hf a ha).1.queuedAt, (hf b hb).1.queuedAt]
    exact hab
  · obtain ⟨row, hrow, rfl⟩ := hrows row' hrow'
    rw [(hf row hrow).1.queuedAt]
    exact h.chosen t g' now hcall row hrow
  · obtain ⟨row, hrow, rfl⟩ := hrows row' hrow'
    rw [(hf row hrow).1.id] at hne
    rw [(hf row hrow).1.queuedAt]
    exact h.latest guest hcall row hrow hne
  · obtain ⟨hrow', hpend'⟩ := mem_pending.1 hrow'
    obtain ⟨row, hrow, rfl⟩ := hrows row' hrow'
    obtain ⟨⟨-, ht, hgate, hq⟩, hp⟩ := hf row hrow
    have hpend : row ∈ s.db.pending := mem_pending.2 ⟨hrow, fun hst' => hpend' (hp hst')⟩
    rw [hq] at hlt
    rw [ht]
    rcases setGate_current hx with ⟨hg', hcur⟩ | ⟨-, hcur⟩
    · obtain ⟨stage', guest', hc', hst', hrank, hstamp⟩ := hc stage guest hcur hst
      rw [← hrank]
      exact h.popped g stage' guest' hc' hst' row hpend (by rw [← hgate, hg, hg'])
        (by rw [hstamp]; exact hlt)
    · exact h.popped g' stage guest hcur hst row hpend (by rw [← hgate, hg]) hlt

theorem ordered_commitProcessing (hinv : Inv cfg s) (h : Ordered s) {g : GateId}
    (hs : s.commitProcessingStep g = some s') : Ordered s' := by
  obtain ⟨guest, hc, rfl⟩ := commitProcessingStep_cases hs
  refine ordered_setCurrent h rfl (fun row hrow => ?_) (fun stage x he _ => ?_)
  · exact ⟨startIf_sameGuest _ row, hinv.startIf_processed hc hrow⟩
  · cases he
    exact ⟨.popped, guest, hc, by decide, rfl, rfl⟩

theorem ordered_commitProcessed (h : Ordered s) {g : GateId} {now : ℚ}
    (hs : s.commitProcessedStep g now = some s') : Ordered s' := by
  obtain ⟨guest, hc, rfl⟩ := commitProcessedStep_cases hs
  refine ordered_setCurrent h rfl (fun row _ => ⟨finishIf_sameGuest _ _ _ row, finishIf_processed⟩)
    (fun stage x he hst => ?_)
  cases he
  exact absurd rfl hst

theorem ordered_publish (h : Ordered s) {g : GateId} (hs : s.publishStep g = some s') :
    Ordered s' := by
  obtain ⟨guest, hc, rfl⟩ := publishStep_cases hs
  refine ordered_setCurrent (f := fun row => row) h (List.map_id' _).symm
    (fun row _ => ⟨⟨rfl, rfl, rfl, rfl⟩, fun hst => hst⟩) (fun stage x he hst => ?_)
  cases he
  exact absurd rfl hst

theorem ordered_clear (h : Ordered s) {g : GateId} (hs : s.clearStep g = some s') : Ordered s' := by
  obtain ⟨guest, hc, rfl⟩ := clearStep_cases hs
  refine ordered_setCurrent (f := fun row => row) h (List.map_id' _).symm
    (fun row _ => ⟨⟨rfl, rfl, rfl, rfl⟩, fun hst => hst⟩) (fun stage x he _ => ?_)
  cases he

/-- The rows that the query returns are strictly ordered by their stamps. -/
theorem Ordered.pending_strict (h : Ordered s) {rows : List Arrival} (hperm : rows.Perm s.db.pending)
    (hsorted : rows.Pairwise fun a b => a.queuedAt ≤ b.queuedAt) :
    rows.Pairwise fun a b => a.queuedAt < b.queuedAt := by
  have hpend : s.db.pending.Pairwise fun a b => a.queuedAt ≠ b.queuedAt :=
    (h.stamps.sublist List.filter_sublist).imp fun hab => ne_of_lt hab
  have hne : rows.Pairwise fun a b => a.queuedAt ≠ b.queuedAt :=
    (hperm.pairwise_iff fun hab => Ne.symm hab).2 hpend
  exact (List.pairwise_and_iff.2 ⟨hsorted, hne⟩).imp fun hab => lt_of_le_of_ne hab.1 hab.2

/-- The query of the restart is in the order of the times. -/
theorem ordered_restart (hinv : Inv cfg s) (h : Ordered s) {rows : List Arrival}
    (hs : s.restartStep cfg rows = some s') : Ordered s' := by
  obtain ⟨hperm, hsorted, rfl⟩ := restartStep_cases hs
  have hmem : ∀ row ∈ rows, row ∈ s.db.rows ∧ row.status ≠ .processed := fun row hrow =>
    mem_pending.1 (hperm.mem_iff.1 hrow)
  refine ⟨fun g => ?_, ?_, fun i j a b ha => ?_, fun t g now hc => absurd hc List.not_mem_nil,
    fun guest hc => absurd hc List.not_mem_nil, fun g stage guest hc => ?_⟩
  · refine rehydrate_sorted (fun row hrow => ⟨(hinv.rows row (hmem row hrow).1).1, (hmem row hrow).2⟩)
      (h.pending_strict hperm hsorted) (fun a ha b hb hst hg hlt => ?_) g
    -- a row that is being processed was popped before the earlier rows of its gate
    obtain ⟨guest, hc, hid⟩ := hinv.processing_current (hmem a ha).1 hst
    obtain ⟨r, hr, hrid, hq, hrank⟩ := (hinv.current a.gate _ guest hc).stamp
    rw [s.db.row_unique hr (hmem a ha).1 (hrid.trans hid)] at hq hrank
    rw [hrank]
    exact h.popped a.gate _ guest hc (by decide) b (hperm.mem_iff.1 hb) hg (by rw [← hq]; exact hlt)
  · show (s.db.rows.map (Arrival.requeue cfg)).Pairwise _
    rw [List.pairwise_map]
    refine h.stamps.imp fun {a b} hab => ?_
    rw [(requeue_sameGuest cfg a).queuedAt, (requeue_sameGuest cfg b).queuedAt]
    exact hab
  · cases ha
  · have hnone : (rehydrate cfg rows g).current = some (stage, guest) := hc
    rw [rehydrate_current] at hnone
    cases hnone

/-- **The order holds after every step** of arrivals that are handled one at a time. -/
theorem step_ordered (s : System) (e : Event) (s' : System) (h : Inv cfg s ∧ Ordered s)
    (hone : oneAtATime s e = true) (hs : s.step cfg e = some s') : Inv cfg s' ∧ Ordered s' := by
  refine ⟨step_inv s e s' h.1 hs, ?_⟩
  obtain ⟨hinv, h⟩ := h
  cases e with
  | arrive t =>
    cases hs
    exact ordered_arrive h t
  | choose i now => exact ordered_choose h hone hs
  | commit i => exact ordered_commit hinv h hs
  | enqueue i => exact ordered_enqueue hinv h hs
  | respond i => exact ordered_respond h hs
  | pop g => exact ordered_pop hinv h hs
  | commitProcessing g => exact ordered_commitProcessing hinv h hs
  | commitProcessed g now => exact ordered_commitProcessed h hs
  | publish g => exact ordered_publish h hs
  | clear g => exact ordered_clear h hs
  | restart rows => exact ordered_restart hinv h hs

/-- In a sorted queue the first guest is the one to pop. -/
theorem popsMinimum_of_sorted (s : System) (e : Event) (h : QueuesSorted s) : popsMinimum cfg s e := by
  cases e with
  | pop g =>
    intro s' guest hs hcur
    obtain ⟨first, queue, -, hq, rfl⟩ := popStep_cases hs
    have hsorted := h g
    rw [hq] at hsorted
    have hguest : guest = { first with status := .processing } := by
      simpa [System.setGate, Gate.currentlyProcessing] using hcur.symm
    subst hguest
    refine ⟨⟨first, by rw [hq]; exact List.mem_cons_self, rfl⟩, fun other hother => ?_⟩
    rw [hq] at hother
    rcases List.mem_cons.1 hother with rfl | hother
    · exact Or.inl rfl
    · exact Or.inr ((List.pairwise_cons.1 hsorted).1 other hother)
  | arrive t => trivial
  | choose i now => trivial
  | commit i => trivial
  | enqueue i => trivial
  | respond i => trivial
  | commitProcessing g => trivial
  | commitProcessed g now => trivial
  | publish g => trivial
  | clear g => trivial
  | restart rows => trivial

/-- **Queue order across restarts**: in every run of arrivals that are handled one at a time with
increasing stamps, of worker steps and of crashes with rehydration at any point, every queue is
strictly sorted by effective rank and stamp in every state, and every guest that is popped is the
minimum of those who wait at its gate. -/
theorem queues_sorted_across_restarts (cfg : Config) (es : List Event)
    (hone : Throughout (System.step cfg) (fun s e => oneAtATime s e = true) System.initial es) :
    Always (System.step cfg) QueuesSorted System.initial es ∧
      Throughout (System.step cfg) (popsMinimum cfg) System.initial es := by
  have hall : Always (System.step cfg) (fun s => Inv cfg s ∧ Ordered s) System.initial es :=
    always_of_throughout step_ordered ⟨initial_inv, initial_ordered⟩ hone
  have hsorted : Always (System.step cfg) QueuesSorted System.initial es :=
    hall.imp fun _ h => h.2.sorted
  exact ⟨hsorted, throughout_of_always popsMinimum_of_sorted hsorted⟩

end Steps

/-! ## A crash while a guest is being processed -/

/-- A traveller without any precedence. -/
def ann : Traveller := ⟨"ann", "Ann", "Lee", 40, .EU, .standard, false⟩

/-- A traveller who goes before her. -/
def bob : Traveller := ⟨"bob", "Bob", "Lee", 41, .EU, .standard, true⟩

/-- Ann is being processed when Bob, who comes before her, arrives; then the service crashes. -/
def crashRun : List Event :=
  [.arrive ann, .choose 0 1, .commit 0, .enqueue 0, .respond 0, .pop ⟨.EU, 1⟩,
    .commitProcessing ⟨.EU, 1⟩, .arrive bob, .choose 1 2, .commit 1, .enqueue 1,
    .restart [⟨1, ann, .processing, ⟨.EU, 1⟩, 1, none, none⟩,
      ⟨2, bob, .queued, ⟨.EU, 1⟩, 2, none, none⟩],
    .pop ⟨.EU, 1⟩]

/-- The queue is sorted in the whole run. -/
theorem crashRun_sorted :
    Throughout (System.step ⟨1, 1⟩) (fun s e => oneAtATime s e = true) System.initial crashRun ∧
      Always (System.step ⟨1, 1⟩) QueuesSorted System.initial crashRun :=
  ⟨by decide, (queues_sorted_across_restarts ⟨1, 1⟩ crashRun (by decide)).1⟩

example : (run (System.step ⟨1, 1⟩) System.initial crashRun).map
    (fun s => ((s.gates ⟨.EU, 1⟩).currentlyProcessing.map Guest.arrivalId,
      (s.gates ⟨.EU, 1⟩).queue.map Guest.arrivalId)) = some (some 2, [1]) := by
  decide

end Airport
