import BikesNest.Jobs.Schedule
import BikesNest.Lib.Table
import Mathlib.Data.List.Sort

/-!
# The job repository

`background_job` and the statements that `SqlxJobRepository` runs on it.  Every
method is one statement, so each is one function from the queue to the queue.
The columns `created_at` and `updated_at` are left out: no statement reads them.

The database clock and the clock of the process are one clock here, `now`.

`FOR UPDATE SKIP LOCKED` skips the rows that another open transaction holds;
`claimInner` takes the set of skipped keys as an argument.

For each statement there is a lemma that says which rows it leaves alone.
-/

namespace BikesNest.Jobs

open Relational

/-- `background_job.state`. -/
inductive JobState where
  | pending | running | succeeded | failed
deriving DecidableEq

/-- A worker's claim identity.  `Worker::new` makes it distinct from every
earlier one, so a number stands for the text. -/
abbrev WorkerId := Nat

/-- A row of `background_job`; its `id` is the key of the table. -/
structure BackgroundJob where
  kind : String
  payload : Json
  state : JobState := .pending
  attempts : Int := 0
  maxAttempts : Int := 5
  runAt : Instant
  schedule : Option Json := none
  claimedBy : Option WorkerId := none
  leaseExpiresAt : Option Instant := none
  heartbeatAt : Option Instant := none
  lastError : Option String := none
  startedAt : Option Instant := none
  finishedAt : Option Instant := none
  idempotencyKey : Option String := none

abbrev JobQueue := Table BackgroundJob

/-- A row claimed by a worker, ready to run. -/
structure ClaimedJob where
  id : Nat
  kind : String
  payload : Json
  attempts : Int
  maxAttempts : Int
  schedule : Option Json

/-! ## The statements -/

/-- `enqueue`: the `INSERT` names five columns and leaves the others to their
defaults.  A row with the same idempotency key makes it a no-op. -/
def enqueue (q : JobQueue) (kind : String) (payload : Json) (runAt : Instant)
    (maxAttempts : Option Int) (idempotencyKey : Option String) :
    Option Nat × JobQueue :=
  if idempotencyKey.isSome && q.any fun _ r => r.idempotencyKey == idempotencyKey then
    (none, q)
  else
    (some q.next,
      q.insert
        { kind, payload, runAt, maxAttempts := maxAttempts.getD 5, idempotencyKey })

/-- `lease_ttl.as_secs() as i32`, for a lease time in milliseconds. -/
def leaseSecs (leaseTtl : Nat) : Int :=
  Int.bmod (leaseTtl / 1000 : Nat) (2 ^ 32)

/-- The lease that a claim or a heartbeat at `now` writes. -/
def leaseFrom (now : Instant) (leaseTtl : Nat) : Instant :=
  now + leaseSecs leaseTtl * second

/-- The state and time part of the claim's `WHERE` clause. -/
def claimable (now : Instant) (r : BackgroundJob) : Bool :=
  (r.state == .pending ||
      (r.state == .running && r.leaseExpiresAt.any fun lease => lease < now)) &&
    r.runAt ≤ now

/-- `kind = ANY($4)`, when a kind filter was asked for. -/
def kindMatches (kinds : Option (List String)) (r : BackgroundJob) : Bool :=
  match kinds with
  | none => true
  | some ks => ks.contains r.kind

/-- `ORDER BY run_at, id`. -/
def dueBefore (x y : Nat × BackgroundJob) : Prop :=
  x.2.runAt < y.2.runAt ∨ (x.2.runAt = y.2.runAt ∧ x.1 ≤ y.1)

instance : DecidableRel dueBefore := fun _ _ =>
  inferInstanceAs (Decidable (_ ∨ (_ ∧ _)))

/-- The `candidate` rows of the claim. -/
def candidates (q : JobQueue) (now : Instant) (batch : Nat) (locked : List Nat)
    (kinds : Option (List String)) : List (Nat × BackgroundJob) :=
  ((q.select fun i r =>
      claimable now r && kindMatches kinds r && !locked.contains i).insertionSort
    dueBefore).take batch

/-- The `SET` list of the claim. -/
def BackgroundJob.claimed (r : BackgroundJob) (now : Instant) (worker : WorkerId)
    (leaseTtl : Nat) : BackgroundJob :=
  { r with
    state := .running
    claimedBy := some worker
    leaseExpiresAt := some (leaseFrom now leaseTtl)
    heartbeatAt := some now
    startedAt := some (r.startedAt.getD now)
    attempts := r.attempts + 1 }

/-- The columns that the claim returns of an updated row. -/
def BackgroundJob.toClaimed (r : BackgroundJob) (id : Nat) : ClaimedJob where
  id := id
  kind := r.kind
  payload := r.payload
  attempts := r.attempts
  maxAttempts := r.maxAttempts
  schedule := r.schedule

/-- `claim_inner`: lease up to `batch` due rows to `worker`. -/
def claimInner (q : JobQueue) (now : Instant) (batch : Nat) (worker : WorkerId)
    (leaseTtl : Nat) (locked : List Nat) (kinds : Option (List String)) :
    List ClaimedJob × JobQueue :=
  let picked := candidates q now batch locked kinds
  (picked.map fun x => (x.2.claimed now worker leaseTtl).toClaimed x.1,
    q.update (fun i _ => (picked.map Prod.fst).contains i)
      fun r => r.claimed now worker leaseTtl)

/-- `claim`: every kind. -/
def claim (q : JobQueue) (now : Instant) (batch : Nat) (worker : WorkerId)
    (leaseTtl : Nat) (locked : List Nat) : List ClaimedJob × JobQueue :=
  claimInner q now batch worker leaseTtl locked none

/-- `heartbeat`: refresh the lease of a running row this worker holds. -/
def heartbeat (q : JobQueue) (now : Instant) (id : Nat) (worker : WorkerId)
    (leaseTtl : Nat) : JobQueue :=
  q.update (fun i r => i == id && (r.state == .running && r.claimedBy == some worker))
    fun r =>
      { r with
        heartbeatAt := some now
        leaseExpiresAt := some (leaseFrom now leaseTtl) }

/-- The `WHERE` clause of every write that follows a claim. -/
def heldBy (id : Nat) (worker : WorkerId) (i : Nat) (r : BackgroundJob) : Bool :=
  i == id && r.claimedBy == some worker

/-- `finish_success`: a next run time makes the row pending again, none makes
it succeeded. -/
def finishSuccess (q : JobQueue) (id : Nat) (worker : WorkerId)
    (nextRunAt : Option Instant) (finishedAt : Instant) : JobQueue :=
  match nextRunAt with
  | some next =>
    q.update (heldBy id worker) fun r =>
      { r with
        state := .pending, attempts := 0, runAt := next,
        claimedBy := none, leaseExpiresAt := none, heartbeatAt := none,
        startedAt := none, lastError := none, finishedAt := some finishedAt }
  | none =>
    q.update (heldBy id worker) fun r =>
      { r with
        state := .succeeded, finishedAt := some finishedAt,
        claimedBy := none, leaseExpiresAt := none, heartbeatAt := none,
        startedAt := none }

/-- `retry`: requeue a transient failure at `runAt`. -/
def retry (q : JobQueue) (id : Nat) (worker : WorkerId) (error : String)
    (runAt : Instant) : JobQueue :=
  q.update (heldBy id worker) fun r =>
    { r with
      state := .pending, runAt := runAt, lastError := some error,
      claimedBy := none, leaseExpiresAt := none, heartbeatAt := none,
      startedAt := none }

/-- `fail`: dead-letter the row. -/
def fail (q : JobQueue) (now : Instant) (id : Nat) (worker : WorkerId)
    (error : String) : JobQueue :=
  q.update (heldBy id worker) fun r =>
    { r with
      state := .failed, finishedAt := some now, lastError := some error,
      claimedBy := none, leaseExpiresAt := none, heartbeatAt := none }

/-- `gc`: delete the terminal rows that finished before `cutoff`. -/
def gc (q : JobQueue) (cutoff : Instant) : JobQueue :=
  q.delete fun _ r =>
    (r.state == .succeeded || r.state == .failed) && r.finishedAt.any fun t => t < cutoff

/-! ## What the statements leave alone -/

variable {q : JobQueue} {now : Instant} {i id batch leaseTtl : Nat} {w : WorkerId}
  {locked : List Nat} {kinds : Option (List String)} {r : BackgroundJob}

/-- A row keeps standing when another is enqueued. -/
theorem row_enqueue_of_some {kind : String} {payload : Json} {runAt : Instant}
    {maxAttempts : Option Int} {key : Option String} (h : q.row i = some r) :
    (enqueue q kind payload runAt maxAttempts key).2.row i = some r := by
  unfold enqueue
  split
  · exact h
  · exact Table.row_insert_of_some _ h

/-- A candidate is a row that the claim's `WHERE` clause selects. -/
theorem claimable_of_mem_candidates (h : (i, r) ∈ candidates q now batch locked kinds) :
    q.row i = some r ∧ claimable now r = true := by
  have hmem := List.mem_of_mem_take h
  rw [List.mem_insertionSort, Table.mem_select] at hmem
  simp only [Bool.and_eq_true] at hmem
  exact ⟨hmem.1, hmem.2.1.1⟩

/-- A claimed job is a row that the `WHERE` clause selected, as the claim left
it. -/
theorem mem_claimInner {job : ClaimedJob}
    (h : job ∈ (claimInner q now batch w leaseTtl locked kinds).1) :
    ∃ r, q.row job.id = some r ∧ claimable now r = true ∧
      job = (r.claimed now w leaseTtl).toClaimed job.id ∧
      (claimInner q now batch w leaseTtl locked kinds).2.row job.id =
        some (r.claimed now w leaseTtl) := by
  obtain ⟨⟨i, r⟩, hmem, rfl⟩ := List.mem_map.mp h
  obtain ⟨hrow, hclaim⟩ := claimable_of_mem_candidates hmem
  refine ⟨r, hrow, hclaim, rfl, ?_⟩
  have hpicked : ((candidates q now batch locked kinds).map Prod.fst).contains i = true := by
    rw [List.contains_iff_mem]
    exact List.mem_map.mpr ⟨(i, r), hmem, rfl⟩
  show (claimInner q now batch w leaseTtl locked kinds).2.row i = _
  simp only [claimInner, Table.row_update, hrow, Option.map_some, hpicked, if_true]

/-- The claim either leaves a row alone or takes a claimable one. -/
theorem row_claimInner (h : q.row i = some r) :
    (claimInner q now batch w leaseTtl locked kinds).2.row i = some r ∨
      claimable now r = true ∧
        (claimInner q now batch w leaseTtl locked kinds).2.row i =
          some (r.claimed now w leaseTtl) := by
  simp only [claimInner, Table.row_update, h, Option.map_some]
  split
  · rename_i hpicked
    rw [List.contains_iff_mem] at hpicked
    obtain ⟨⟨j, r'⟩, hmem, rfl⟩ := List.mem_map.mp hpicked
    obtain ⟨hrow, hclaim⟩ := claimable_of_mem_candidates hmem
    obtain rfl : r = r' := Option.some.inj (h.symm.trans hrow)
    exact Or.inr ⟨hclaim, rfl⟩
  · exact Or.inl rfl

/-- A running row whose lease lasts is not claimed. -/
theorem not_claimable_of_lease {lease : Instant} (hstate : r.state = .running)
    (hlease : r.leaseExpiresAt = some lease) (hnow : now ≤ lease) :
    claimable now r = false := by
  have hlt : ¬ lease < now := Int.not_lt.mpr hnow
  simp [claimable, hstate, hlease, hlt]

/-- A write under another worker's id leaves the row alone. -/
theorem row_update_heldBy_of_ne {f : BackgroundJob → BackgroundJob} {w' : WorkerId}
    (h : q.row i = some r) (hw : r.claimedBy = some w) (hne : w' ≠ w) :
    (q.update (heldBy id w') f).row i = some r := by
  have hheld : heldBy id w' i r = false := by
    simp [heldBy, hw, hne.symm]
  rw [Table.row_update, h, Option.map_some, hheld]
  rfl

/-- A garbage collection leaves the rows that are not terminal. -/
theorem row_gc_of_running {cutoff : Instant} (h : q.row i = some r)
    (hstate : r.state = .running) : (gc q cutoff).row i = some r := by
  rw [gc, Table.row_delete_eq_some]
  exact ⟨h, by simp [hstate]⟩

end BikesNest.Jobs
