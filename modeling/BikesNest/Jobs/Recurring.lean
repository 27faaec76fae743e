import BikesNest.Jobs.Worker

/-!
# Recurring jobs after a success

A recurring kind has a schedule, but `bootstrap` passes `enqueue` no schedule
and the `INSERT` names no `schedule` column.  Every claimed job therefore
carries none, `nextRunAt` answers none, and a success ends the row.

`Rescheduled` says that a row of a recurring kind waits for its next run.
`rescheduled_record_iff` says when it holds after a success was recorded, over
all runs from the empty queue.
-/

namespace BikesNest.Jobs

open Relational

/-- The row under `id` is the row of `rk`, pending, and due `every_seconds`
after `finished`. -/
def Rescheduled (q : JobQueue) (rk : RecurringKind) (id : Nat) (finished : Instant) : Prop :=
  ∃ r n, q.row id = some r ∧ r.idempotencyKey = some rk.idempotencyKey ∧
    everySeconds rk.schedule = some n ∧ r.state = .pending ∧
    r.runAt = finished + n * second

/-- The worker still holds the claim it took on the row under `id`. -/
def Holds (q : JobQueue) (w : WorkerId) (id : Nat) : Prop :=
  ∃ r, q.row id = some r ∧ r.claimedBy = some w

variable {env : Worker} {s s' : Sys} {w : WorkerId} {job : ClaimedJob} {q : JobQueue}
  {endedAt : Instant} {batch : List ClaimedJob} {stored : Bool} {jitter : Nat}

/-- The queue after a success is recorded, for a job without a schedule: the
row is finished, and nothing else happens. -/
theorem queue_record_ok (hw : s.workers.row w = some (.recording job (.ok ()) endedAt batch))
    (hnone : job.schedule = none) (hstep : step env s (.record w stored jitter) = some s') :
    s'.queue =
      if stored then finishSuccess s.queue job.id w none endedAt else s.queue := by
  simp only [step, hw, recordOutcome, hnone, nextRunAt_none] at hstep
  cases hstep
  rfl

/-- A finished row that the worker held is `succeeded`. -/
theorem succeeded_of_holds (endedAt : Instant) (h : Holds q w job.id) :
    ∃ r, (finishSuccess q job.id w none endedAt).row job.id = some r ∧
      r.state = .succeeded := by
  obtain ⟨r, hr, hclaimed⟩ := h
  have hheld : heldBy job.id w job.id r = true := by simp [heldBy, hclaimed]
  simp [finishSuccess, hr, hheld]

/-- A finish under a claim that is lost leaves the row as it is. -/
theorem row_finishSuccess_of_not_holds (h : ¬ Holds q w job.id) :
    (finishSuccess q job.id w none endedAt).row job.id = q.row job.id := by
  simp only [finishSuccess, Table.row_update]
  cases hr : q.row job.id with
  | none => rfl
  | some r =>
    have hheld : heldBy job.id w job.id r = false := by
      by_contra hc
      refine h ⟨r, hr, ?_⟩
      simpa [heldBy] using hc
    simp [hheld]

/-- A row that waits for its next run is held by no worker. -/
theorem not_holds_of_rescheduled {rk : RecurringKind} {id : Nat} {t : Instant}
    (hs : Sound env s) (h : Rescheduled s.queue rk id t) : ¬ Holds s.queue w id := by
  rintro ⟨r, hr, hclaimed⟩
  obtain ⟨r', _, hr', _, _, hpending, _⟩ := h
  obtain rfl : r = r' := Option.some.inj (hr.symm.trans hr')
  have hrunning := (hs.rows id r hr).claimed (by simp [hclaimed])
  rw [hrunning] at hpending
  cases hpending

/-- After a success is recorded the row waits for its next run exactly when the
worker had lost its claim and the row was left waiting for that very time
before. -/
theorem rescheduled_record_iff {now : Instant} {ls : List Label}
    (hrun : Reaches env (Sys.init now) ls s)
    (hw : s.workers.row w = some (.recording job (.ok ()) endedAt batch))
    (hstep : step env s (.record w stored jitter) = some s') (rk : RecurringKind) :
    Rescheduled s'.queue rk job.id endedAt ↔
      ¬ Holds s.queue w job.id ∧ Rescheduled s.queue rk job.id endedAt := by
  have hs := sound_run hrun
  have hnone : job.schedule = none := hs.jobs w _ hw job (List.mem_cons_self ..)
  have hq := queue_record_ok hw hnone hstep
  by_cases hholds : Holds s.queue w job.id
  · have hbefore : ¬ Rescheduled s.queue rk job.id endedAt :=
      fun h => not_holds_of_rescheduled hs h hholds
    have hafter : ¬ Rescheduled s'.queue rk job.id endedAt := by
      cases stored with
      | false => rwa [hq]
      | true =>
        rw [if_pos rfl] at hq
        obtain ⟨r, hr, hsucceeded⟩ := succeeded_of_holds endedAt hholds
        rintro ⟨r', _, hr', _, _, hpending, _⟩
        rw [hq, hr] at hr'
        obtain rfl := Option.some.inj hr'
        rw [hsucceeded] at hpending
        cases hpending
    exact iff_of_false hafter fun h => h.1 hholds
  · have hrow : s'.queue.row job.id = s.queue.row job.id := by
      rw [hq]
      split
      · exact row_finishSuccess_of_not_holds hholds
      · rfl
    simp [Rescheduled, hrow, hholds]

/-- A deployment with the default configuration and the built-in registry. -/
def builtin : Worker where
  crates :=
    { displayJson := fun _ => "", debugStr := fun t => t, parseCron := fun _ => .error "" }
  registry := jobServices {}
  config := {}

/-- One worker bootstraps both kinds, claims them and runs the first. -/
def firstDay : List Label :=
  [.spawn, .boot 1 true, .boot 1 true, .boot 1 true, .claim 1 [] [1, 2], .start 1,
    .finish 1 (.ok ())]

/-- At the end of `firstDay` the retention row is about to be finished. -/
theorem firstDay_reaches :
    ∃ s s' job batch, Reaches builtin (Sys.init 0) firstDay s ∧
      s.workers.row 1 = some (.recording job (.ok ()) 0 batch) ∧ job.id = 1 ∧
      step builtin s (.record 1 true 0) = some s' ∧
      (s.queue.row 1).bind BackgroundJob.idempotencyKey = some "recurring:retention" ∧
      (s'.queue.row 1).map BackgroundJob.state = some .succeeded :=
  ⟨_, _, _, _, Runs.Run.of_foldlM rfl, rfl, rfl, rfl, rfl, rfl⟩

/-- The first success of the retention row does not reschedule it. -/
theorem retention_not_rescheduled :
    ¬ ∀ (ls : List Label) (s s' : Sys) (w : WorkerId) (job : ClaimedJob)
        (endedAt : Instant) (batch : List ClaimedJob) (jitter : Nat),
      ∀ rk ∈ builtin.registry.recurring, Reaches builtin (Sys.init 0) ls s →
        s.workers.row w = some (.recording job (.ok ()) endedAt batch) →
        (s.queue.row job.id).bind BackgroundJob.idempotencyKey = some rk.idempotencyKey →
        step builtin s (.record w true jitter) = some s' →
        Rescheduled s'.queue rk job.id endedAt := by
  intro hclaim
  obtain ⟨s, s', job, batch, hrun, hw, hid, hstep, hkey, hstate⟩ := firstDay_reaches
  rw [← hid] at hkey hstate
  obtain ⟨r, _, hr, _, _, hpending, _⟩ :=
    hclaim firstDay s s' 1 job 0 batch 0 _ (List.mem_cons_self ..) hrun hw hkey hstep
  rw [hr, Option.map_some, hpending] at hstate
  cases hstate

/-- The law at the end of that day, with the claim still held. -/
theorem rescheduled_record_iff_firstDay :
    ∃ s s', Reaches builtin (Sys.init 0) firstDay s ∧
      step builtin s (.record 1 true 0) = some s' ∧
      ∀ rk, Rescheduled s'.queue rk 1 0 ↔
        ¬ Holds s.queue 1 1 ∧ Rescheduled s.queue rk 1 0 := by
  obtain ⟨s, s', job, batch, hrun, hw, hid, hstep, _, _⟩ := firstDay_reaches
  exact ⟨s, s', hrun, hstep, fun rk => hid ▸ rescheduled_record_iff hrun hw hstep rk⟩

end BikesNest.Jobs
