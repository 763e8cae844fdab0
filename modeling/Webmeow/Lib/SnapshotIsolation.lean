import Webmeow.Lib.Runs
import Mathlib.Data.Finset.Basic
import Mathlib.Data.Finset.Image

/-!
# Snapshot isolation

A transaction works on the snapshot taken at its start. It commits unless a transaction that
committed since then wrote one of the rows it updates or deletes, or a key it inserts exists by then;
otherwise it is rolled back. What a program writes depends on its snapshot alone, so the moment of
its statements between the two does not matter.
-/

namespace SnapshotIsolation

/-- The transactions of an application: `P` programs over data `σ` with rows named by `K`. -/
structure Semantics (σ K P : Type*) where
  /-- The rows of the snapshot that the program updates or deletes. -/
  modified : P → σ → Finset K
  /-- The keys of the rows it inserts. -/
  inserted : P → σ → Finset K
  /-- The row exists. -/
  present : σ → K → Bool
  /-- The changes computed on the snapshot, made to the committed data. -/
  install : P → σ → σ → σ

/-- A transaction that has begun. -/
structure Txn (σ P : Type*) where
  /-- What it does. -/
  program : P
  /-- What it reads. -/
  snapshot : σ
  /-- How many transactions had committed when the snapshot was taken. -/
  start : ℕ

/-- The database with its transactions. -/
structure State (σ K P : Type*) where
  /-- What is committed. -/
  committed : σ
  /-- The rows each committed transaction wrote, in commit order. -/
  log : List (Finset K)
  /-- The transactions that have not ended. -/
  active : List (Txn σ P)

/-- What can happen. -/
inductive Event (P : Type*) where
  /-- A transaction begins. -/
  | begin (p : P)
  /-- Transaction `i` commits or is rolled back. -/
  | commit (i : ℕ)

variable {σ K P : Type*} [DecidableEq K] (sem : Semantics σ K P)

/-- Nothing has begun. -/
def State.initial (data : σ) : State σ K P := ⟨data, [], []⟩

/-- No serialization failure and no duplicate key. A row the program itself deleted before may be
inserted again. -/
def State.validates (s : State σ K P) (t : Txn σ P) : Bool :=
  ((s.log.drop t.start).all fun written =>
    decide (Disjoint (sem.modified t.program t.snapshot) written)) &&
    decide (∀ k ∈ sem.inserted t.program t.snapshot,
      sem.present s.committed k = true → k ∈ sem.modified t.program t.snapshot)

/-- One event; `none` where it cannot happen. -/
def State.step (s : State σ K P) : Event P → Option (State σ K P)
  | .begin p => some { s with active := s.active ++ [⟨p, s.committed, s.log.length⟩] }
  | .commit i =>
    match s.active[i]? with
    | none => none
    | some t =>
      if s.validates sem t then
        some {
          committed := sem.install t.program t.snapshot s.committed
          log := s.log ++ [sem.modified t.program t.snapshot ∪ sem.inserted t.program t.snapshot]
          active := s.active.eraseIdx i }
      else some { s with active := s.active.eraseIdx i }

variable {sem} {s s' : State σ K P}

/-- What a commit request does to the data: the changes are installed, or the transaction is rolled
back. -/
theorem State.step_commit_cases {i : ℕ} (h : s.step sem (.commit i) = some s') :
    ∃ t, s.active[i]? = some t ∧
      ((s.validates sem t = true ∧ s'.committed = sem.install t.program t.snapshot s.committed) ∨
        (s.validates sem t = false ∧ s'.committed = s.committed)) := by
  simp only [State.step] at h
  split at h
  · cases h
  · rename_i t ht
    refine ⟨t, ht, ?_⟩
    split_ifs at h with hv
    · cases h
      exact Or.inl ⟨hv, rfl⟩
    · cases h
      exact Or.inr ⟨Bool.eq_false_of_not_eq_true hv, rfl⟩

/-- A transaction that commits inserts no key that exists, unless it deleted the row before. -/
theorem State.validates_inserted {t : Txn σ P} {k : K} (h : s.validates sem t = true)
    (hk : k ∈ sem.inserted t.program t.snapshot) (hp : sem.present s.committed k = true) :
    k ∈ sem.modified t.program t.snapshot := by
  simp only [State.validates, Bool.and_eq_true, decide_eq_true_eq] at h
  exact h.2 k hk hp

end SnapshotIsolation
