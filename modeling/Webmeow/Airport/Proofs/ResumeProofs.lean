import Webmeow.Airport.Proofs.OrderProofs

/-!
# Who resumes first after a crash

A rehydration puts the row that was being processed at the front of its queue when it comes to it. The
rows that the query returns later are inserted by their ranks, so they may still get in front of it.
-/

namespace Airport

open Runs StableQueue

/-- The arrival of the row is the first one in the queue of its gate. -/
def ResumesFirst (gates : Gates) (row : Arrival) : Prop :=
  (gates row.gate).queue.head?.map Guest.arrivalId = some row.id

instance (gates : Gates) (row : Arrival) : Decidable (ResumesFirst gates row) :=
  inferInstanceAs (Decidable (_ = _))

section Rehydrate

variable {cfg : Config} {g : GateId}

/-- A row of another gate leaves the queue. -/
theorem rehydrateRow_other (gates : Gates) {row : Arrival} (h : row.gate ≠ g) :
    (rehydrateRow cfg gates row g).queue = (gates g).queue := by
  unfold rehydrateRow
  split_ifs
  · rw [Function.update_of_ne (Ne.symm h)]
  · rw [Function.update_of_ne (Ne.symm h)]
  · rfl

/-- A waiting row is queued by its rank. -/
theorem rehydrateRow_queued (gates : Gates) {row : Arrival} (hgate : row.gate ∈ cfg.gateIds) (hg : row.gate = g)
    (hst : row.status = .queued) :
    (rehydrateRow cfg gates row g).queue = insert Guest.rank row.dump (gates g).queue := by
  subst hg
  unfold rehydrateRow
  rw [if_pos hgate]
  rw [if_neg (by rw [hst]; decide), Function.update_self]
  rfl

/-- An interrupted row goes to the front. -/
theorem rehydrateRow_processing (gates : Gates) {row : Arrival} (hgate : row.gate ∈ cfg.gateIds) (hg : row.gate = g)
    (hst : row.status = .processing) :
    (rehydrateRow cfg gates row g).queue = row.rehydrated :: (gates g).queue := by
  subst hg
  unfold rehydrateRow
  rw [if_pos hgate]
  rw [if_pos hst, Function.update_self]
  rfl

/-- An arrival that is not the first one does not become so again. -/
theorem foldl_head_ne {rows : List Arrival} {gates : Gates} {x : Guest} {queue : List Guest} {id : ℕ}
    (hq : (gates g).queue = x :: queue) (hx : x.arrivalId ≠ id)
    (hrows : ∀ r ∈ rows, r.gate ∈ cfg.gateIds ∧ (r.gate = g → r.status = .queued) ∧ r.id ≠ id) :
    (rows.foldl (rehydrateRow cfg) gates g).queue.head?.map Guest.arrivalId ≠ some id := by
  induction rows generalizing gates x queue with
  | nil =>
    rw [List.foldl_nil, hq]
    exact fun he => hx (Option.some.inj he)
  | cons r rows ih =>
    obtain ⟨hgate, hst, hid⟩ := hrows r List.mem_cons_self
    have hrest := fun r' hr' => hrows r' (List.mem_cons_of_mem r hr')
    rw [List.foldl_cons]
    by_cases hg : r.gate = g
    · have hnext := rehydrateRow_queued gates hgate hg (hst hg)
      rw [hq, insert_cons] at hnext
      by_cases hlt : r.dump.rank < x.rank
      · rw [if_pos hlt] at hnext
        exact ih hnext hid hrest
      · rw [if_neg hlt] at hnext
        exact ih hnext hx hrest
    · exact ih ((rehydrateRow_other gates hg).trans hq) hx hrest

/-- The first arrival stays the first one if and only if no later row of its gate has a smaller rank. -/
theorem foldl_head_iff {rows : List Arrival} {gates : Gates} {x : Guest} {queue : List Guest}
    (hq : (gates g).queue = x :: queue)
    (hrows : ∀ r ∈ rows,
      r.gate ∈ cfg.gateIds ∧ (r.gate = g → r.status = .queued) ∧ r.id ≠ x.arrivalId) :
    (rows.foldl (rehydrateRow cfg) gates g).queue.head?.map Guest.arrivalId = some x.arrivalId ↔
      ∀ r ∈ rows, r.gate = g → x.rank ≤ effectiveRank r.traveller := by
  induction rows generalizing gates queue with
  | nil =>
    rw [List.foldl_nil, hq]
    exact ⟨fun _ r hr => absurd hr List.not_mem_nil, fun _ => rfl⟩
  | cons r rows ih =>
    obtain ⟨hgate, hst, hid⟩ := hrows r List.mem_cons_self
    have hrest := fun r' hr' => hrows r' (List.mem_cons_of_mem r hr')
    rw [List.foldl_cons, List.forall_mem_cons]
    by_cases hg : r.gate = g
    · have hnext := rehydrateRow_queued gates hgate hg (hst hg)
      rw [hq, insert_cons] at hnext
      by_cases hlt : r.dump.rank < x.rank
      · -- the row gets in front
        rw [if_pos hlt] at hnext
        refine iff_of_false (foldl_head_ne hnext hid hrest) fun h => ?_
        exact absurd (h.1 hg) (not_le.2 hlt)
      · rw [if_neg hlt] at hnext
        rw [ih hnext hrest]
        exact ⟨fun h => ⟨fun _ => not_lt.1 hlt, h⟩, fun h => h.2⟩
    · rw [ih ((rehydrateRow_other gates hg).trans hq) hrest]
      exact ⟨fun h => ⟨fun he => absurd he hg, h⟩, fun h => h.2⟩

/-- The row that was being processed is the first one after the loop if and only if no row that comes
after it belongs to its gate and has a smaller rank. -/
theorem rehydrate_resumesFirst_iff (cfg : Config) {rows before after : List Arrival} {row : Arrival}
    (hsplit : rows = before ++ row :: after) (hst : row.status = .processing)
    (hok : ∀ r ∈ rows, r.gate ∈ cfg.gateIds ∧ r.status ≠ .processed)
    (hkey : (rows.map Arrival.id).Nodup)
    (hone : ∀ r ∈ rows, r.status = .processing → r.gate = row.gate → r = row) :
    ResumesFirst (rehydrate cfg rows) row ↔
      ∀ r ∈ after, r.gate = row.gate → effectiveRank row.traveller ≤ effectiveRank r.traveller := by
  have hmem : row ∈ rows := by rw [hsplit]; exact List.mem_append_right _ List.mem_cons_self
  have hafter : ∀ r ∈ after, r ∈ rows := fun r hr => by
    rw [hsplit]
    exact List.mem_append_right _ (List.mem_cons_of_mem row hr)
  have hne : ∀ r ∈ after, r.id ≠ row.id := by
    rw [hsplit, List.map_append, List.map_cons] at hkey
    have htail := (List.nodup_cons.1 (List.nodup_append.1 hkey).2.1).1
    exact fun r hr he => htail (he ▸ List.mem_map_of_mem hr)
  have hfold : rehydrate cfg rows =
      after.foldl (rehydrateRow cfg) (rehydrateRow cfg (rehydrate cfg before) row) := by
    rw [hsplit]
    unfold rehydrate
    rw [List.foldl_append, List.foldl_cons]
  unfold ResumesFirst
  rw [hfold]
  refine foldl_head_iff (x := row.rehydrated)
    (rehydrateRow_processing _ (hok row hmem).1 rfl hst) fun r hr => ⟨(hok r (hafter r hr)).1, ?_, hne r hr⟩
  intro hg
  cases hs : r.status with
  | queued => rfl
  | processing => exact absurd (congrArg Arrival.id (hone r (hafter r hr) hs hg)) (hne r hr)
  | processed => exact absurd hs (hok r (hafter r hr)).2

end Rehydrate

/-- **Who resumes first, exactly**: after every run and a crash at any point of it, an arrival that was
being processed is the first one in the queue of its gate if and only if no unprocessed arrival of the
gate that the query returns after it has a smaller effective rank. -/
theorem interrupted_resumes_first_iff (cfg : Config) (es : List Event) (s s' : System)
    (rows : List Arrival) (hrun : run (System.step cfg) System.initial es = some s)
    (hrestart : s.step cfg (.restart rows) = some s') (row : Arrival) (hrow : row ∈ s.db.rows)
    (hst : row.status = .processing) :
    ResumesFirst s'.gates row ↔
      ∀ before after, rows = before ++ row :: after → ∀ r ∈ after, r.gate = row.gate →
        effectiveRank row.traveller ≤ effectiveRank r.traveller := by
  have hinv : Inv cfg s := (always_of_invariant step_inv initial_inv).last hrun
  obtain ⟨hperm, -, rfl⟩ := restartStep_cases hrestart
  have hmem : ∀ r, r ∈ rows ↔ r ∈ s.db.rows ∧ r.status ≠ .processed := fun r => by
    rw [hperm.mem_iff, mem_pending]
  have hkey : (rows.map Arrival.id).Nodup :=
    (hperm.map Arrival.id).nodup_iff.2 (s.db.key.sublist (List.filter_sublist.map _))
  have hexact := fun before after (hsplit : rows = before ++ row :: after) =>
    rehydrate_resumesFirst_iff cfg hsplit hst
      (fun r hr => ⟨(hinv.rows r ((hmem r).1 hr).1).1, ((hmem r).1 hr).2⟩) hkey
      (fun r hr hr' hg => hinv.conserved.processing r ((hmem r).1 hr).1 row hrow hr' hst hg)
  constructor
  · intro h before after hsplit
    exact (hexact before after hsplit).1 h
  · intro h
    obtain ⟨before, after, hsplit⟩ :=
      List.append_of_mem ((hmem row).2 ⟨hrow, by rw [hst]; decide⟩)
    exact (hexact before after hsplit).2 (h before after hsplit)

/-! ## A guest with a disability arrives before the crash -/

/-- What the query returns when the service starts again after `crashRun` has got to the crash. -/
def crashRows : List Arrival :=
  [⟨1, ann, .processing, ⟨.EU, 1⟩, 1, none, none⟩, ⟨2, bob, .queued, ⟨.EU, 1⟩, 2, none, none⟩]

/-- Bob gets in front of Ann, who was being processed. -/
theorem crashRun_overtakes_interrupted :
    Throughout (System.step ⟨1, 1⟩) (fun s e => oneAtATime s e = true) System.initial
        (crashRun.take 11) ∧
      ∃ s s' row, run (System.step ⟨1, 1⟩) System.initial (crashRun.take 11) = some s ∧
        s.step ⟨1, 1⟩ (.restart crashRows) = some s' ∧ row ∈ s.db.rows ∧
        row.status = .processing ∧ ¬ ResumesFirst s'.gates row :=
  ⟨by decide, _, _, ⟨1, ann, .processing, ⟨.EU, 1⟩, 1, none, none⟩, rfl, rfl, by decide, rfl,
    by decide⟩

/-- A traveller of the same rank as Ann. -/
def cia : Traveller := ⟨"cia", "Cia", "Lee", 42, .EU, .standard, false⟩

/-- Cia, who has no priority either, arrives at the gate while Ann is being processed. -/
def patientRun : List Event :=
  crashRun.take 7 ++ [.arrive cia, .choose 1 2, .commit 1, .enqueue 1]

/-- Ann was interrupted, and Cia waits behind her. -/
def patientRows : List Arrival :=
  [⟨1, ann, .processing, ⟨.EU, 1⟩, 1, none, none⟩, ⟨2, cia, .queued, ⟨.EU, 1⟩, 2, none, none⟩]

/-- Cia stays behind Ann. -/
theorem patientRun_resumes_first :
    ∃ s s' row, run (System.step ⟨1, 1⟩) System.initial patientRun = some s ∧
      s.step ⟨1, 1⟩ (.restart patientRows) = some s' ∧ row ∈ s.db.rows ∧
      row.status = .processing ∧ (s'.gates row.gate).queue.length = 2 ∧
      ResumesFirst s'.gates row := by
  refine ⟨_, _, ⟨1, ann, .processing, ⟨.EU, 1⟩, 1, none, none⟩, rfl, rfl, by decide, rfl, by decide, ?_⟩
  refine (interrupted_resumes_first_iff ⟨1, 1⟩ patientRun _ _ patientRows rfl rfl _
    (by decide) rfl).2 fun before after hsplit r hr _ => ?_
  -- nobody in the table comes before a guest without priority and without a disability
  have hmem : r ∈ patientRows := hsplit ▸ List.mem_append_right _ (List.mem_cons_of_mem _ hr)
  have hall : ∀ q ∈ patientRows, effectiveRank ann ≤ effectiveRank q.traveller := by decide
  exact hall r hmem

end Airport
