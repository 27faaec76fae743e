import BikesNest.Jobs.Repo
import BikesNest.Lib.Run

/-!
# The background workers

Any number of workers poll one queue.  A worker claims a batch, runs the jobs
of the batch one after the other, and records the outcome of each.  While a
handler runs, a heartbeat task refreshes the lease of the job that runs.

`Sys` is the queue, the phase of every live worker and the clock.  `step` takes
one label: a write of one worker, an event of its handler, a crash, or the
passing of time.  Between two labels of one worker every other worker may take
steps.  A `stored` flag says whether a write reached the database; the worker
ignores the error of every write that a flag can lose.

`Move` lists what a step can do, one constructor for each branch of `step`, and
`move_of_step` is the inversion that the invariants start from.
-/

namespace BikesNest.Jobs

open Relational

/-! ## Configuration and registry -/

/-- The configuration that the worker loop reads.  The loop reads `lease_ttl`
in whole milliseconds and whole seconds only, so it is a number of
milliseconds. -/
structure JobConfig where
  batchSize : Nat := 4
  leaseTtl : Nat := 600000
  maxAttempts : Int := 5
  backoffBaseMs : Nat := 2000

/-- An always-on recurring job that the worker bootstraps at startup. -/
structure RecurringKind where
  jobKind : String
  payload : Json
  schedule : Json
  idempotencyKey : String
  maxAttempts : Int

/-- The kinds that have a handler, and the recurring kinds. -/
structure JobRegistry where
  handlers : List String
  recurring : List RecurringKind

def jobRetention : String := "retention"
def jobJobsGc : String := "jobs.gc"
def jobEmailSend : String := "email.send"

/-- `job_services`: the registry that the server builds. -/
def jobServices (config : JobConfig) : JobRegistry where
  handlers := [jobRetention, jobJobsGc, jobEmailSend]
  recurring :=
    [{ jobKind := jobRetention
       payload := .obj []
       schedule := .obj [("every_seconds", .int 86400)]
       idempotencyKey := "recurring:retention"
       maxAttempts := config.maxAttempts },
     { jobKind := jobJobsGc
       payload := .obj []
       schedule := .obj [("every_seconds", .int 86400)]
       idempotencyKey := "recurring:jobs.gc"
       maxAttempts := config.maxAttempts }]

/-- What all workers share. -/
structure Worker where
  crates : SchedulingCrates
  registry : JobRegistry
  config : JobConfig

/-- The pause between two heartbeats: `max(lease_ttl / 3, 500 ms)`. -/
def heartbeatInterval (leaseTtl : Nat) : Int :=
  (max (leaseTtl % 2 ^ 64 / 3) 500 : Nat) * millisecond

/-! ## The state -/

/-- Where a worker stands in its loop. -/
inductive Phase where
  /-- `bootstrap`, with the recurring kinds still to enqueue. -/
  | booting (now : Instant) (rest : List RecurringKind)
  /-- Between two jobs of the claimed batch, or polling when it is empty. -/
  | idle (batch : List ClaimedJob)
  /-- The handler of `job` runs; `nextBeat` is none once a heartbeat failed. -/
  | handling (job : ClaimedJob) (nextBeat : Option Instant) (batch : List ClaimedJob)
  /-- The handler returned `result` at `endedAt`; the outcome is not written yet. -/
  | recording (job : ClaimedJob) (result : Except JobError Unit) (endedAt : Instant)
      (batch : List ClaimedJob)

/-- The claimed jobs that a worker still has in hand. -/
def Phase.jobs : Phase → List ClaimedJob
  | .booting _ _ => []
  | .idle batch => batch
  | .handling job _ batch => job :: batch
  | .recording job _ _ batch => job :: batch

structure Sys where
  now : Instant
  queue : JobQueue
  workers : Table Phase

/-- An empty queue and no worker. -/
def Sys.init (now : Instant) : Sys where
  now := now
  queue := Table.empty
  workers := Table.empty

def Sys.setPhase (s : Sys) (w : WorkerId) (p : Phase) : Sys :=
  { s with workers := s.workers.update (fun v _ => v == w) fun _ => p }

def Sys.setQueue (s : Sys) (q : JobQueue) : Sys := { s with queue := q }

/-- A worker that is gone, by a crash or by a panic in its loop. -/
def Sys.drop (s : Sys) (w : WorkerId) : Sys :=
  { s with workers := s.workers.delete fun v _ => v == w }

/-- What can happen next. -/
inductive Label where
  | spawn
  | boot (w : WorkerId) (stored : Bool)
  | submit (kind : String) (payload : Json) (runAt : Instant) (maxAttempts : Option Int)
      (idempotencyKey : Option String)
  /-- `locked` are the rows `SKIP LOCKED` skips, `order` is the order in which
  `RETURNING` lists the claimed rows. -/
  | claim (w : WorkerId) (locked order : List Nat)
  | start (w : WorkerId)
  | reject (w : WorkerId) (stored : Bool)
  | heartbeat (w : WorkerId) (stored : Bool)
  | finish (w : WorkerId) (result : Except JobError Unit)
  | record (w : WorkerId) (stored : Bool) (jitter : Nat)
  | crash (w : WorkerId)
  | gc (cutoff : Instant)
  | tick (d : Nat)

/-! ## The step function -/

/-- One round of `bootstrap`. -/
def bootstrap (q : JobQueue) (rk : RecurringKind) (now : Instant) : JobQueue :=
  (enqueue q rk.jobKind rk.payload now (some rk.maxAttempts) (some rk.idempotencyKey)).2

/-- `now + Duration::milliseconds(delay as i64)`. -/
def addMillis (now : Instant) (delay : Nat) : Call Instant :=
  let next := now + Int.bmod delay (2 ^ 64) * millisecond
  if endOfTime ≤ next ∨ next < startOfTime then .panicked else .returned next

/-- The part of `run_job` after the handler returned: the one write that
records the outcome. -/
def recordOutcome (env : Worker) (q : JobQueue) (now : Instant) (w : WorkerId)
    (job : ClaimedJob) (result : Except JobError Unit) (endedAt : Instant) (jitter : Nat) :
    Call JobQueue :=
  match result with
  | .ok () =>
    match nextRunAt env.crates job.schedule endedAt with
    | .returned (.ok next) => .returned (finishSuccess q job.id w next endedAt)
    | .returned (.error e) => .returned (fail q now job.id w e.display)
    | .panicked => .panicked
  | .error (.failed e) =>
    if job.attempts < job.maxAttempts then
      match addMillis endedAt (backoffMs job.attempts env.config.backoffBaseMs jitter) with
      | .returned runAt => .returned (retry q job.id w e runAt)
      | .panicked => .panicked
    else .returned (fail q now job.id w e)
  | .error (.permanent e) => .returned (fail q now job.id w e)

/-- The write for a kind without a handler. -/
def rejectJob (q : JobQueue) (now : Instant) (w : WorkerId) (job : ClaimedJob) : JobQueue :=
  fail q now job.id w ("no handler registered for kind '" ++ job.kind ++ "'")

/-- The claimed rows in the order in which the statement returns them. -/
def returnedIn (order : List Nat) (jobs : List ClaimedJob) : List ClaimedJob :=
  order.filterMap fun i => jobs.find? fun job => job.id == i

/-- One step of the system; none when the label cannot happen. -/
def step (env : Worker) (s : Sys) : Label → Option Sys
  | .spawn =>
    some { s with workers := s.workers.insert (.booting s.now env.registry.recurring) }
  | .boot w stored =>
    match s.workers.row w with
    | some (.booting now (rk :: rest)) =>
      some ((s.setQueue (if stored then bootstrap s.queue rk now else s.queue)).setPhase w
        (.booting now rest))
    | some (.booting _ []) => some (s.setPhase w (.idle []))
    | _ => none
  | .submit kind payload runAt maxAttempts key =>
    some (s.setQueue (enqueue s.queue kind payload runAt maxAttempts key).2)
  | .claim w locked order =>
    match s.workers.row w with
    | some (.idle []) =>
      let claimed := claim s.queue s.now env.config.batchSize w env.config.leaseTtl locked
      if order.Perm (claimed.1.map ClaimedJob.id) then
        some ((s.setQueue claimed.2).setPhase w (.idle (returnedIn order claimed.1)))
      else none
    | _ => none
  | .start w =>
    match s.workers.row w with
    | some (.idle (job :: batch)) =>
      if env.registry.handlers.contains job.kind then
        some (s.setPhase w
          (.handling job (some (s.now + heartbeatInterval env.config.leaseTtl)) batch))
      else none
    | _ => none
  | .reject w stored =>
    match s.workers.row w with
    | some (.idle (job :: batch)) =>
      if env.registry.handlers.contains job.kind then none
      else
        some ((s.setQueue (if stored then rejectJob s.queue s.now w job else s.queue)).setPhase
          w (.idle batch))
    | _ => none
  | .heartbeat w stored =>
    match s.workers.row w with
    | some (.handling job (some beat) batch) =>
      if s.now < beat then none
      else if stored then
        some ((s.setQueue (heartbeat s.queue s.now job.id w env.config.leaseTtl)).setPhase w
          (.handling job (some (s.now + heartbeatInterval env.config.leaseTtl)) batch))
      else some (s.setPhase w (.handling job none batch))
    | _ => none
  | .finish w result =>
    match s.workers.row w with
    | some (.handling job _ batch) => some (s.setPhase w (.recording job result s.now batch))
    | _ => none
  | .record w stored jitter =>
    match s.workers.row w with
    | some (.recording job result endedAt batch) =>
      match recordOutcome env s.queue s.now w job result endedAt jitter with
      | .returned q =>
        some ((s.setQueue (if stored then q else s.queue)).setPhase w (.idle batch))
      | .panicked => some (s.drop w)
    | _ => none
  | .crash w => some (s.drop w)
  | .gc cutoff => some (s.setQueue (gc s.queue cutoff))
  | .tick d => some { s with now := s.now + d }

/-- A finite run of the workers. -/
abbrev Reaches (env : Worker) : Sys → List Label → Sys → Prop :=
  Runs.Run fun s l s' => step env s l = some s'

/-! ## What a step can do -/

variable {env : Worker} {s s' : Sys} {w v : WorkerId} {p p' : Phase}

/-- The moves of the system.  A move of a worker names the phase it leaves. -/
inductive Move (env : Worker) (s : Sys) : Label → Sys → Prop where
  | spawn : Move env s .spawn
      { s with workers := s.workers.insert (.booting s.now env.registry.recurring) }
  | boot {w : WorkerId} {stored : Bool} {now : Instant} {rk : RecurringKind}
      {rest : List RecurringKind} (hw : s.workers.row w = some (.booting now (rk :: rest))) :
      Move env s (.boot w stored)
        ((s.setQueue (if stored then bootstrap s.queue rk now else s.queue)).setPhase w
          (.booting now rest))
  | booted {w : WorkerId} {stored : Bool} {now : Instant} (hw : s.workers.row w = some
      (.booting now [])) :
      Move env s (.boot w stored) (s.setPhase w (.idle []))
  | submit {kind : String} {payload : Json} {runAt : Instant} {maxAttempts : Option Int}
      {key : Option String} :
      Move env s (.submit kind payload runAt maxAttempts key)
        (s.setQueue (enqueue s.queue kind payload runAt maxAttempts key).2)
  | claim {w : WorkerId} {locked order : List Nat} {batch : List ClaimedJob}
      (hw : s.workers.row w = some (.idle []))
      (hbatch : ∀ job ∈ batch, job ∈
        (claim s.queue s.now env.config.batchSize w env.config.leaseTtl locked).1) :
      Move env s (.claim w locked order)
        ((s.setQueue
          (claim s.queue s.now env.config.batchSize w env.config.leaseTtl locked).2).setPhase w
            (.idle batch))
  | start {w : WorkerId} {job : ClaimedJob} {batch : List ClaimedJob}
      (hw : s.workers.row w = some (.idle (job :: batch))) :
      Move env s (.start w)
        (s.setPhase w
          (.handling job (some (s.now + heartbeatInterval env.config.leaseTtl)) batch))
  | reject {w : WorkerId} {stored : Bool} {job : ClaimedJob} {batch : List ClaimedJob}
      (hw : s.workers.row w = some (.idle (job :: batch))) :
      Move env s (.reject w stored)
        ((s.setQueue (if stored then rejectJob s.queue s.now w job else s.queue)).setPhase w
          (.idle batch))
  | heartbeat {w : WorkerId} {job : ClaimedJob} {beat : Instant} {batch : List ClaimedJob}
      (hw : s.workers.row w = some (.handling job (some beat) batch))
      (hbeat : beat ≤ s.now) :
      Move env s (.heartbeat w true)
        ((s.setQueue (heartbeat s.queue s.now job.id w env.config.leaseTtl)).setPhase w
          (.handling job (some (s.now + heartbeatInterval env.config.leaseTtl)) batch))
  | heartbeatLost {w : WorkerId} {job : ClaimedJob} {beat : Instant} {batch : List ClaimedJob}
      (hw : s.workers.row w = some (.handling job (some beat) batch)) :
      Move env s (.heartbeat w false) (s.setPhase w (.handling job none batch))
  | finish {w : WorkerId} {result : Except JobError Unit} {job : ClaimedJob}
      {beat : Option Instant} {batch : List ClaimedJob} (hw : s.workers.row w = some
      (.handling job beat batch)) :
      Move env s (.finish w result) (s.setPhase w (.recording job result s.now batch))
  | record {w : WorkerId} {stored : Bool} {jitter : Nat} {job : ClaimedJob}
      {result : Except JobError Unit} {endedAt : Instant} {batch : List ClaimedJob}
      {q : JobQueue}
      (hw : s.workers.row w = some (.recording job result endedAt batch))
      (hq : recordOutcome env s.queue s.now w job result endedAt jitter = .returned q) :
      Move env s (.record w stored jitter)
        ((s.setQueue (if stored then q else s.queue)).setPhase w (.idle batch))
  | recordPanic {w : WorkerId} {stored : Bool} {jitter : Nat} {job : ClaimedJob}
      {result : Except JobError Unit} {endedAt : Instant} {batch : List ClaimedJob}
      (hw : s.workers.row w = some (.recording job result endedAt batch))
      (hq : recordOutcome env s.queue s.now w job result endedAt jitter = .panicked) :
      Move env s (.record w stored jitter) (s.drop w)
  | crash {w : WorkerId} : Move env s (.crash w) (s.drop w)
  | gc {cutoff : Instant} : Move env s (.gc cutoff) (s.setQueue (gc s.queue cutoff))
  | tick {d : Nat} : Move env s (.tick d) { s with now := s.now + d }

theorem mem_of_mem_returnedIn {order : List Nat} {jobs : List ClaimedJob} {job : ClaimedJob}
    (h : job ∈ returnedIn order jobs) : job ∈ jobs := by
  obtain ⟨i, _, hfind⟩ := List.mem_filterMap.mp h
  exact List.mem_of_find?_eq_some hfind

/-- Every step is one of the moves. -/
theorem move_of_step {l : Label} (h : step env s l = some s') : Move env s l s' := by
  cases l with
  | spawn =>
    cases h
    exact .spawn
  | boot w stored =>
    simp only [step] at h
    split at h
    · rename_i hw
      cases h
      exact .boot hw
    · rename_i hw
      cases h
      exact .booted hw
    · cases h
  | submit =>
    cases h
    exact .submit
  | claim w locked order =>
    simp only [step] at h
    split at h
    · rename_i hw
      split at h
      · cases h
        exact .claim hw fun _ => mem_of_mem_returnedIn
      · cases h
    · cases h
  | start w =>
    simp only [step] at h
    split at h
    · rename_i hw
      split at h
      · cases h
        exact .start hw
      · cases h
    · cases h
  | reject w stored =>
    simp only [step] at h
    split at h
    · rename_i hw
      split at h
      · cases h
      · cases h
        exact .reject hw
    · cases h
  | heartbeat w stored =>
    simp only [step] at h
    split at h
    · rename_i hw
      split at h
      · cases h
      · rename_i hlate
        split at h
        · rename_i hstored
          cases h
          rw [hstored]
          exact .heartbeat hw (Int.not_lt.mp hlate)
        · rename_i hlost
          cases h
          rw [Bool.eq_false_iff.mpr hlost]
          exact .heartbeatLost hw
    · cases h
  | finish w result =>
    simp only [step] at h
    split at h
    · rename_i hw
      cases h
      exact .finish hw
    · cases h
  | record w stored jitter =>
    simp only [step] at h
    split at h
    · rename_i hw
      split at h
      · rename_i hq
        cases h
        exact .record hw hq
      · rename_i hq
        cases h
        exact .recordPanic hw hq
    · cases h
  | crash =>
    cases h
    exact .crash
  | gc =>
    cases h
    exact .gc
  | tick =>
    cases h
    exact .tick

/-! ## The phases after a step -/

@[simp] theorem queue_setPhase : (s.setPhase w p).queue = s.queue := rfl

@[simp] theorem now_setPhase : (s.setPhase w p).now = s.now := rfl

@[simp] theorem queue_setQueue (q : JobQueue) : (s.setQueue q).queue = q := rfl

@[simp] theorem now_setQueue (q : JobQueue) : (s.setQueue q).now = s.now := rfl

@[simp] theorem workers_setQueue (q : JobQueue) : (s.setQueue q).workers = s.workers := rfl

@[simp] theorem queue_drop : (s.drop w).queue = s.queue := rfl

@[simp] theorem now_drop : (s.drop w).now = s.now := rfl

/-- A worker after a phase change is the one that changed, or unchanged. -/
theorem row_setPhase (h : (s.setPhase w p).workers.row v = some p') :
    v = w ∧ p' = p ∨ v ≠ w ∧ s.workers.row v = some p' := by
  obtain ⟨r, hr, rfl⟩ := Table.row_update_eq_some.mp h
  by_cases hv : v = w
  · exact Or.inl ⟨hv, by simp [hv]⟩
  · exact Or.inr ⟨hv, by simpa [hv] using hr⟩

/-- A worker that still stands after another is gone stood before. -/
theorem row_drop (h : (s.drop w).workers.row v = some p) : s.workers.row v = some p :=
  (Table.row_delete_eq_some.mp h).1

/-- A worker after a spawn is the new one, still booting, or an old one. -/
theorem row_spawn {now : Instant} {rks : List RecurringKind}
    (h : (s.workers.insert (.booting now rks)).row v = some p) :
    p = .booting now rks ∨ s.workers.row v = some p := by
  rcases Table.row_insert_eq_some.mp h with ⟨_, hp⟩ | hold
  · exact Or.inl hp
  · exact Or.inr hold

/-! ## What every run keeps -/

/-- A `SET` list that gives a claim back: no schedule is written. -/
structure Releases (f : BackgroundJob → BackgroundJob) : Prop where
  schedule : ∀ r, (f r).schedule = r.schedule
  claimedBy : ∀ r, (f r).claimedBy = none
  leaseExpiresAt : ∀ r, (f r).leaseExpiresAt = none

theorem finishSuccess_releases (q : JobQueue) (id : Nat) (w : WorkerId)
    (next : Option Instant) (endedAt : Instant) :
    ∃ f, finishSuccess q id w next endedAt = q.update (heldBy id w) f ∧ Releases f := by
  cases next with
  | none => exact ⟨_, rfl, fun _ => rfl, fun _ => rfl, fun _ => rfl⟩
  | some next => exact ⟨_, rfl, fun _ => rfl, fun _ => rfl, fun _ => rfl⟩

theorem fail_releases (q : JobQueue) (now : Instant) (id : Nat) (w : WorkerId)
    (error : String) :
    ∃ f, fail q now id w error = q.update (heldBy id w) f ∧ Releases f :=
  ⟨_, rfl, fun _ => rfl, fun _ => rfl, fun _ => rfl⟩

theorem rejectJob_releases (q : JobQueue) (now : Instant) (w : WorkerId) (job : ClaimedJob) :
    ∃ f, rejectJob q now w job = q.update (heldBy job.id w) f ∧ Releases f :=
  fail_releases _ _ _ _ _

theorem retry_releases (q : JobQueue) (id : Nat) (w : WorkerId) (error : String)
    (runAt : Instant) :
    ∃ f, retry q id w error runAt = q.update (heldBy id w) f ∧ Releases f :=
  ⟨_, rfl, fun _ => rfl, fun _ => rfl, fun _ => rfl⟩

/-- Whatever the outcome, the write gives the claim back. -/
theorem recordOutcome_releases {q q' : JobQueue} {now endedAt : Instant}
    {job : ClaimedJob} {result : Except JobError Unit} {jitter : Nat}
    (h : recordOutcome env q now w job result endedAt jitter = .returned q') :
    ∃ f, q' = q.update (heldBy job.id w) f ∧ Releases f := by
  unfold recordOutcome at h
  split at h
  · split at h
    · cases h
      exact finishSuccess_releases _ _ _ _ _
    · cases h
      exact fail_releases _ _ _ _ _
    · cases h
  · split at h
    · split at h
      · cases h
        exact retry_releases _ _ _ _ _
      · cases h
    · cases h
      exact fail_releases _ _ _ _ _
  · cases h
    exact fail_releases _ _ _ _ _

/-- What holds of every row: no schedule is set, a claimed row is running, and
no lease ends later than one written now would. -/
structure RowSound (now : Instant) (leaseTtl : Nat) (r : BackgroundJob) : Prop where
  schedule : r.schedule = none
  claimed : r.claimedBy.isSome → r.state = .running
  lease : ∀ t, r.leaseExpiresAt = some t → t ≤ leaseFrom now leaseTtl

/-- The invariant of the queue and its workers. -/
structure Sound (env : Worker) (s : Sys) : Prop where
  rows : s.queue.All (RowSound s.now env.config.leaseTtl)
  jobs : s.workers.All fun p => ∀ job ∈ p.jobs, job.schedule = none

section RowSound

variable {now : Instant} {leaseTtl : Nat} {q : JobQueue} {r : BackgroundJob}

theorem RowSound.claimedRow (h : RowSound now leaseTtl r) :
    RowSound now leaseTtl (r.claimed now w leaseTtl) where
  schedule := h.schedule
  claimed _ := rfl
  lease t ht := by
    cases ht
    exact le_rfl

theorem RowSound.released {f : BackgroundJob → BackgroundJob} (hf : Releases f)
    (h : RowSound now leaseTtl r) : RowSound now leaseTtl (f r) where
  schedule := (hf.schedule r).trans h.schedule
  claimed hc := by simp [hf.claimedBy r] at hc
  lease t ht := by simp [hf.leaseExpiresAt r] at ht

theorem rowSound_enqueue {kind : String} {payload : Json} {runAt : Instant}
    {maxAttempts : Option Int} {key : Option String} (h : q.All (RowSound now leaseTtl)) :
    (enqueue q kind payload runAt maxAttempts key).2.All (RowSound now leaseTtl) := by
  unfold enqueue
  split
  · exact h
  · exact h.insert ⟨rfl, fun hc => by simp at hc, fun t ht => by cases ht⟩

theorem rowSound_claim {batch : Nat} {locked : List Nat} (h : q.All (RowSound now leaseTtl)) :
    (claim q now batch w leaseTtl locked).2.All (RowSound now leaseTtl) :=
  h.update fun _ _ hr _ => hr.claimedRow

theorem rowSound_heartbeat {id : Nat} (h : q.All (RowSound now leaseTtl)) :
    (heartbeat q now id w leaseTtl).All (RowSound now leaseTtl) := by
  refine h.update fun i r hr _ => ⟨hr.schedule, hr.claimed, fun t ht => ?_⟩
  cases ht
  exact le_rfl

theorem rowSound_release {f : BackgroundJob → BackgroundJob} {id : Nat} (hf : Releases f)
    (h : q.All (RowSound now leaseTtl)) :
    (q.update (heldBy id w) f).All (RowSound now leaseTtl) :=
  h.update fun _ _ hr _ => hr.released hf

/-- Time only makes the lease bound looser. -/
theorem rowSound_tick {d : Nat} (h : q.All (RowSound now leaseTtl)) :
    q.All (RowSound (now + d) leaseTtl) := by
  refine h.mono fun r hr => ⟨hr.schedule, hr.claimed, fun t ht => ?_⟩
  have hnow : now ≤ now + d := Int.le_add_of_nonneg_right (Int.natCast_nonneg d)
  exact (hr.lease t ht).trans (Int.add_le_add_right hnow _)

end RowSound

/-- A worker whose phase change takes no job on keeps the invariant. -/
theorem jobs_setPhase {p₀ : Phase}
    (h : s.workers.All fun p => ∀ job ∈ p.jobs, job.schedule = none)
    (hw : s.workers.row w = some p₀) (hsub : p.jobs ⊆ p₀.jobs) :
    (s.setPhase w p).workers.All fun p => ∀ job ∈ p.jobs, job.schedule = none :=
  h.update fun _ _ _ _ job hjob => h w p₀ hw job (hsub hjob)

/-- One step keeps the invariant. -/
theorem sound_step {l : Label} (hs : Sound env s) (h : step env s l = some s') :
    Sound env s' := by
  cases move_of_step h with
  | spawn => exact ⟨hs.rows, hs.jobs.insert (by simp [Phase.jobs])⟩
  | @boot w stored _ _ _ hw =>
    refine ⟨?_, jobs_setPhase hs.jobs hw (List.Subset.refl _)⟩
    cases stored with
    | false => exact hs.rows
    | true => exact rowSound_enqueue hs.rows
  | booted hw => exact ⟨hs.rows, jobs_setPhase hs.jobs hw (List.Subset.refl _)⟩
  | submit => exact ⟨rowSound_enqueue hs.rows, hs.jobs⟩
  | claim hw hbatch =>
    refine ⟨rowSound_claim hs.rows, hs.jobs.update fun _ _ _ _ job hjob => ?_⟩
    obtain ⟨r, hr, _, heq, _⟩ := mem_claimInner (hbatch job hjob)
    rw [heq]
    exact (hs.rows _ r hr).schedule
  | start hw => exact ⟨hs.rows, jobs_setPhase hs.jobs hw (List.Subset.refl _)⟩
  | @reject w stored job batch hw =>
    refine ⟨?_, jobs_setPhase hs.jobs hw (List.subset_cons_self _ _)⟩
    cases stored with
    | false => exact hs.rows
    | true =>
      obtain ⟨f, hq, hf⟩ := rejectJob_releases s.queue s.now w job
      simpa [hq] using rowSound_release hf hs.rows
  | heartbeat hw =>
    exact ⟨rowSound_heartbeat hs.rows, jobs_setPhase hs.jobs hw (List.Subset.refl _)⟩
  | heartbeatLost hw => exact ⟨hs.rows, jobs_setPhase hs.jobs hw (List.Subset.refl _)⟩
  | finish hw => exact ⟨hs.rows, jobs_setPhase hs.jobs hw (List.Subset.refl _)⟩
  | @record w stored _ _ _ _ _ _ hw hq =>
    refine ⟨?_, jobs_setPhase hs.jobs hw (List.subset_cons_self _ _)⟩
    cases stored with
    | false => exact hs.rows
    | true =>
      obtain ⟨f, rfl, hf⟩ := recordOutcome_releases hq
      exact rowSound_release hf hs.rows
  | recordPanic => exact ⟨hs.rows, hs.jobs.delete⟩
  | crash => exact ⟨hs.rows, hs.jobs.delete⟩
  | gc => exact ⟨hs.rows.delete, hs.jobs⟩
  | tick => exact ⟨rowSound_tick hs.rows, hs.jobs⟩

theorem sound_init (env : Worker) (now : Instant) : Sound env (Sys.init now) :=
  ⟨Table.All.empty, Table.All.empty⟩

/-- Every state of a run from the empty queue is sound. -/
theorem sound_run {now : Instant} {ls : List Label} (h : Reaches env (Sys.init now) ls s) :
    Sound env s :=
  h.invariant (fun _ _ _ hs hstep => sound_step hs hstep) (sound_init env now)

end BikesNest.Jobs
