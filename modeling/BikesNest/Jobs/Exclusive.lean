import BikesNest.Jobs.Recurring

/-!
# Two workers never run one job

A claim takes a row whose lease has run out, so the lease has to last while
the handler runs.  Only the job that runs is heartbeaten.  The other jobs of
the batch keep the lease of the claim, so the row of a job may be gone to
another worker when its turn comes, and nothing in the loop looks at the row
before the handler starts.

* `onSchedule` is the assumption on the heartbeats: they succeed, and time does
  not pass one that is due.
* `leaseCovers` is the condition on the start of a handler: the worker still
  holds the row, and the lease reaches the first heartbeat.
* `Leased` is what a running handler then has, and `allLeased_step` is the
  invariant.
-/

namespace BikesNest.Jobs

open Relational

/-- The worker runs the handler of the row under `id`. -/
def Handles (s : Sys) (w : WorkerId) (id : Nat) : Prop :=
  ∃ job beat batch, s.workers.row w = some (.handling job beat batch) ∧ job.id = id

/-- No row has its handler run by two workers. -/
def Exclusive (s : Sys) : Prop :=
  ∀ w w' id, Handles s w id → Handles s w' id → w = w'

/-- The heartbeat of the handler, if one runs, is not due before `t`. -/
def Phase.awaits (t : Instant) : Phase → Bool
  | .handling _ (some beat) _ => t ≤ beat
  | .handling _ none _ => false
  | _ => true

/-- Heartbeats succeed, and time stops at the next one. -/
def onSchedule (s : Sys) : Label → Bool
  | .heartbeat _ stored => stored
  | .tick d => s.workers.rows.all fun x => x.2.awaits (s.now + d)
  | _ => true

/-- Worker `w` holds the row, and its lease lasts until `t`. -/
def coveredUntil (q : JobQueue) (w : WorkerId) (id : Nat) (t : Instant) : Bool :=
  (q.row id).any fun r =>
    r.claimedBy == some w && r.leaseExpiresAt.any fun lease => t ≤ lease

/-- A handler starts only under a lease that the worker still holds and that
reaches the first heartbeat. -/
def leaseCovers (env : Worker) (s : Sys) : Label → Bool
  | .start w =>
    match s.workers.row w with
    | some (.idle (job :: _)) =>
      coveredUntil s.queue w job.id (s.now + heartbeatInterval env.config.leaseTtl)
    | _ => true
  | _ => true

theorem coveredUntil_iff {q : JobQueue} {w : WorkerId} {id : Nat} {t : Instant} :
    coveredUntil q w id t = true ↔
      ∃ r lease, q.row id = some r ∧ r.claimedBy = some w ∧
        r.leaseExpiresAt = some lease ∧ t ≤ lease := by
  simp only [coveredUntil, Option.any_eq_true, Bool.and_eq_true, beq_iff_eq,
    decide_eq_true_eq]
  constructor
  · rintro ⟨r, hr, hclaimed, lease, hlease, ht⟩
    exact ⟨r, lease, hr, hclaimed, hlease, ht⟩
  · rintro ⟨r, lease, hr, hclaimed, hlease, ht⟩
    exact ⟨r, hr, hclaimed, lease, hlease, ht⟩

/-- What the handler of `job` under worker `w` has: the claim, a lease up to
the next heartbeat at least, and leases long enough to go on so. -/
structure Leased (env : Worker) (q : JobQueue) (now : Instant) (w : WorkerId) (id : Nat)
    (beat : Option Instant) : Prop where
  row : ∃ t r lease, beat = some t ∧ now ≤ t ∧ q.row id = some r ∧ r.claimedBy = some w ∧
    r.leaseExpiresAt = some lease ∧ t ≤ lease
  long : ∀ now, now + heartbeatInterval env.config.leaseTtl ≤ leaseFrom now env.config.leaseTtl

/-- Every running handler is leased. -/
def AllLeased (env : Worker) (s : Sys) : Prop :=
  ∀ w job beat batch, s.workers.row w = some (.handling job beat batch) →
    Leased env s.queue s.now w job.id beat

variable {env : Worker} {s s' : Sys} {w v : WorkerId} {job : ClaimedJob} {q : JobQueue}
  {batch : List ClaimedJob} {beat : Option Instant} {p p₀ : Phase} {id : Nat} {now : Instant}

/-- A claim names one worker, so two leased handlers of one row have one. -/
theorem exclusive_of_allLeased (h : AllLeased env s) : Exclusive s := by
  rintro w w' id ⟨job, beat, batch, hw, rfl⟩ ⟨job', beat', batch', hw', hid⟩
  obtain ⟨_, r, _, _, _, hr, hclaimed, _⟩ := (h w job beat batch hw).row
  obtain ⟨_, r', _, _, _, hr', hclaimed', _⟩ := (h w' job' beat' batch' hw').row
  rw [hid, hr] at hr'
  obtain rfl := Option.some.inj hr'
  exact Option.some.inj (hclaimed.symm.trans hclaimed')

/-! ## What the writes leave to a leased handler -/

/-- A write that leaves the claimed rows of `w` alone keeps its lease. -/
theorem Leased.queue (h : Leased env s.queue now w id beat)
    (hq : ∀ i r, s.queue.row i = some r → r.claimedBy = some w →
      (∃ lease, r.leaseExpiresAt = some lease ∧ now ≤ lease) → q.row i = some r) :
    Leased env q now w id beat := by
  obtain ⟨t, r, lease, hbeat, hnow, hr, hclaimed, hlease, ht⟩ := h.row
  have hrow := hq id r hr hclaimed ⟨lease, hlease, hnow.trans ht⟩
  exact ⟨⟨t, r, lease, hbeat, hnow, hrow, hclaimed, hlease, ht⟩, h.long⟩

/-- A claim leaves the rows with a lasting lease alone. -/
theorem row_claim_of_lease {r : BackgroundJob} {n : Nat} {locked : List Nat} {lease : Instant}
    (hs : Sound env s) (hr : s.queue.row id = some r) (hclaimed : r.claimedBy = some w)
    (hlease : r.leaseExpiresAt = some lease) (hnow : s.now ≤ lease) :
    (claim s.queue s.now n v env.config.leaseTtl locked).2.row id = some r := by
  have hrunning := (hs.rows id r hr).claimed (by simp [hclaimed])
  have hnot := not_claimable_of_lease hrunning hlease hnow
  rcases row_claimInner hr with hsame | ⟨hclaimable, _⟩
  · exact hsame
  · rw [hnot] at hclaimable
    cases hclaimable

/-- A heartbeat under another worker's id leaves the row alone. -/
theorem row_heartbeat_of_ne {r : BackgroundJob} {i : Nat} {ttl : Nat}
    (hr : q.row i = some r) (hclaimed : r.claimedBy = some w) (hne : v ≠ w) :
    (heartbeat q now id v ttl).row i = some r := by
  simp [heartbeat, hr, hclaimed, hne.symm]

/-- Another worker changes its phase and the queue; the leased handlers stay
leased when the queue keeps their rows. -/
theorem allLeased_setPhase (h : AllLeased env s)
    (hq : ∀ v, v ≠ w → ∀ i r, s.queue.row i = some r → r.claimedBy = some v →
      (∃ lease, r.leaseExpiresAt = some lease ∧ s.now ≤ lease) → q.row i = some r)
    (hp : ∀ job beat batch, p = .handling job beat batch → Leased env q s.now w job.id beat) :
    AllLeased env ((s.setQueue q).setPhase w p) := by
  intro v job beat batch hv
  rcases row_setPhase hv with ⟨rfl, rfl⟩ | ⟨hne, hold⟩
  · exact hp job beat batch rfl
  · exact (h v job beat batch hold).queue (hq v hne)

/-! ## What a worker does to its own handler -/

theorem heartbeatInterval_nonneg (ttl : Nat) : 0 ≤ heartbeatInterval ttl := by
  rw [heartbeatInterval, millisecond]
  omega

/-- A lease that covers the first heartbeat makes the handler leased. -/
theorem leased_start (hs : Sound env s) (hw : s.workers.row w = some (.idle (job :: batch)))
    (hcovers : leaseCovers env s (.start w) = true) :
    Leased env s.queue s.now w job.id
      (some (s.now + heartbeatInterval env.config.leaseTtl)) := by
  simp only [leaseCovers, hw] at hcovers
  obtain ⟨r, lease, hr, hclaimed, hlease, hreach⟩ := coveredUntil_iff.mp hcovers
  have hnow := Int.le_add_of_nonneg_right (a := s.now)
    (heartbeatInterval_nonneg env.config.leaseTtl)
  refine ⟨⟨_, r, lease, rfl, hnow, hr, hclaimed, hlease, hreach⟩, fun now => ?_⟩
  -- The lease was written at `s.now` or before, so every lease is that long.
  have hlong : s.now + heartbeatInterval env.config.leaseTtl ≤
      s.now + leaseSecs env.config.leaseTtl * second :=
    hreach.trans ((hs.rows _ r hr).lease lease hlease)
  exact Int.add_le_add_left (Int.le_of_add_le_add_left hlong) now

/-- A heartbeat moves the lease and the next heartbeat on. -/
theorem leased_heartbeat (hs : Sound env s) (h : Leased env s.queue s.now w job.id beat) :
    Leased env (heartbeat s.queue s.now job.id w env.config.leaseTtl) s.now w job.id
      (some (s.now + heartbeatInterval env.config.leaseTtl)) := by
  obtain ⟨_, r, _, _, _, hr, hclaimed, _⟩ := h.row
  have hrunning := (hs.rows _ r hr).claimed (by simp [hclaimed])
  have hnow := Int.le_add_of_nonneg_right (a := s.now)
    (heartbeatInterval_nonneg env.config.leaseTtl)
  refine ⟨⟨_, { r with
    heartbeatAt := some s.now
    leaseExpiresAt := some (leaseFrom s.now env.config.leaseTtl) }, _, rfl, hnow, ?_, hclaimed,
    rfl, h.long s.now⟩, h.long⟩
  simp [heartbeat, hr, hrunning, hclaimed]

/-! ## The invariant -/

/-- A guarded step keeps every handler leased. -/
theorem allLeased_step {l : Label} (hs : Sound env s) (h : AllLeased env s)
    (hon : onSchedule s l = true) (hcovers : leaseCovers env s l = true)
    (hstep : step env s l = some s') :
    AllLeased env s' := by
  have hdrop : ∀ w, AllLeased env (s.drop w) := fun _ v job beat batch hv =>
    h v job beat batch (row_drop hv)
  cases move_of_step hstep with
  | spawn =>
    intro v job beat batch hv
    rcases row_spawn hv with hp | hold
    · cases hp
    · exact h v job beat batch hold
  | @boot w stored _ _ _ hw =>
    refine allLeased_setPhase h (fun v _ i r hr _ _ => ?_) fun _ _ _ hp => by cases hp
    cases stored with
    | false => exact hr
    | true => exact row_enqueue_of_some hr
  | booted hw =>
    exact allLeased_setPhase h (fun _ _ _ _ hr _ _ => hr) fun _ _ _ hp => by cases hp
  | submit =>
    intro v job beat batch hv
    exact (h v job beat batch hv).queue fun _ _ hr _ _ => row_enqueue_of_some hr
  | claim hw _ =>
    refine allLeased_setPhase h (fun v _ i r hr hclaimed hlease => ?_)
      fun _ _ _ hp => by cases hp
    obtain ⟨lease, hlease, hnow⟩ := hlease
    exact row_claim_of_lease hs hr hclaimed hlease hnow
  | @start w job batch hw =>
    refine allLeased_setPhase h (fun _ _ _ _ hr _ _ => hr) fun _ _ _ hp => ?_
    cases hp
    exact leased_start hs hw hcovers
  | @reject w stored job batch hw =>
    refine allLeased_setPhase h (fun v hne i r hr hclaimed _ => ?_) fun _ _ _ hp => by cases hp
    cases stored with
    | false => exact hr
    | true => exact row_update_heldBy_of_ne hr hclaimed hne.symm
  | @heartbeat w job t batch hw hdue =>
    refine allLeased_setPhase h
      (fun v hne i r hr hclaimed _ => row_heartbeat_of_ne hr hclaimed hne.symm) ?_
    intro _ _ _ hp
    cases hp
    exact leased_heartbeat hs (h w job _ batch hw)
  | heartbeatLost => cases hon
  | finish hw =>
    exact allLeased_setPhase h (fun _ _ _ _ hr _ _ => hr) fun _ _ _ hp => by cases hp
  | @record w stored _ _ _ _ _ _ hw hq =>
    refine allLeased_setPhase h (fun v hne i r hr hclaimed _ => ?_) fun _ _ _ hp => by cases hp
    cases stored with
    | false => exact hr
    | true =>
      obtain ⟨f, rfl, _⟩ := recordOutcome_releases hq
      exact row_update_heldBy_of_ne hr hclaimed hne.symm
  | recordPanic => exact hdrop _
  | crash => exact hdrop _
  | gc =>
    intro v job beat batch hv
    refine (h v job beat batch hv).queue fun i r hr hclaimed _ => row_gc_of_running hr ?_
    exact (hs.rows i r hr).claimed (by simp [hclaimed])
  | tick =>
    intro v job beat batch hv
    obtain ⟨⟨t, r, lease, rfl, _, hrest⟩, hlong⟩ := h v job beat batch hv
    have hawaits := List.all_eq_true.mp hon (v, _) (Table.mem_rows.mpr hv)
    exact ⟨⟨t, r, lease, rfl, by simpa [Phase.awaits] using hawaits, hrest⟩, hlong⟩

theorem allLeased_init (env : Worker) (now : Instant) : AllLeased env (Sys.init now) :=
  fun _ _ _ _ hw => by cases hw

/-- A run whose steps all meet `C`. -/
abbrev ReachesWhile (env : Worker) (C : Sys → Label → Bool) : Sys → List Label → Sys → Prop :=
  Runs.Run (Runs.Guarded (fun s l => C s l = true) fun s l s' => step env s l = some s')

/-- In a run whose heartbeats go on schedule and whose handlers start under a
covering lease, no row ever has its handler run by two workers. -/
theorem exclusive_run {now : Instant} {ls : List Label}
    (hrun : ReachesWhile env (fun s l => onSchedule s l && leaseCovers env s l)
      (Sys.init now) ls s) : Exclusive s := by
  have hinv : Sound env s ∧ AllLeased env s := by
    refine hrun.invariant (I := fun s => Sound env s ∧ AllLeased env s) ?_
      ⟨sound_init env now, allLeased_init env now⟩
    rintro s l s' ⟨hsound, hleased⟩ ⟨hguard, hstep⟩
    obtain ⟨hon, hcovers⟩ := Bool.and_eq_true_iff.mp hguard
    exact ⟨sound_step hsound hstep, allLeased_step hsound hleased hon hcovers hstep⟩
  exact exclusive_of_allLeased hinv.2

/-- One worker boots, claims the rows `order` and starts the first. -/
def bootAndStart (w : WorkerId) (order : List Nat) : List Label :=
  [.spawn, .boot w true, .boot w true, .boot w true, .claim w [] order, .start w]

/-- 200 seconds pass, and worker 1 heartbeats. -/
def beatOnce : List Label := [.tick 200000000, .heartbeat 1 true]

/-- Worker 1 claims two rows and spends more than their lease on the first.
Worker 2 takes the second, and then worker 1 comes to it. -/
def slowFirstJob : List Label :=
  bootAndStart 1 [1, 2] ++ beatOnce ++ beatOnce ++ beatOnce ++ [.tick 1] ++ bootAndStart 2 [2] ++
    [.finish 1 (.ok ()), .record 1 true 0, .start 1]

/-- Heartbeats on schedule alone do not keep the execution exclusive. -/
theorem not_exclusive_slowFirstJob :
    ¬ ∀ (env : Worker) (now : Instant) (ls : List Label) (s : Sys),
      0 < env.config.leaseTtl → ReachesWhile env onSchedule (Sys.init now) ls s →
        Exclusive s := by
  intro hclaim
  have hrun : ∃ s, ReachesWhile builtin onSchedule (Sys.init 0) slowFirstJob s ∧
      Handles s 1 2 ∧ Handles s 2 2 :=
    ⟨_, Runs.Run.guarded_of_foldlM rfl, ⟨_, _, _, rfl, rfl⟩, ⟨_, _, _, rfl, rfl⟩⟩
  obtain ⟨s, hrun, h₁, h₂⟩ := hrun
  have heq := hclaim builtin 0 slowFirstJob s (by decide) hrun 1 2 2 h₁ h₂
  cases heq

/-- Two workers boot.  Worker 1 claims the row 1 while the row 2 is locked, and later worker
2 claims the row 2; both heartbeat on their own schedule until their handlers end. -/
def beatsTogether : List Label :=
  [.spawn, .boot 1 true, .boot 1 true, .boot 1 true, .spawn, .boot 2 true, .boot 2 true,
    .boot 2 true, .claim 1 [2] [1], .start 1, .tick 100000000, .claim 2 [1] [2], .start 2,
    .tick 100000000, .heartbeat 1 true, .tick 100000000, .heartbeat 2 true,
    .tick 100000000, .heartbeat 1 true, .tick 100000000, .heartbeat 2 true,
    .tick 100000000, .heartbeat 1 true]

theorem exclusive_run_beats :
    ∃ s, ReachesWhile builtin (fun s l => onSchedule s l && leaseCovers builtin s l)
        (Sys.init 0) beatsTogether s ∧
      Handles s 1 1 ∧ Handles s 2 2 ∧ Exclusive s := by
  have hrun : ∃ s, ReachesWhile builtin (fun s l => onSchedule s l && leaseCovers builtin s l)
      (Sys.init 0) beatsTogether s ∧ Handles s 1 1 ∧ Handles s 2 2 :=
    ⟨_, Runs.Run.guarded_of_foldlM rfl, ⟨_, _, _, rfl, rfl⟩, ⟨_, _, _, rfl, rfl⟩⟩
  obtain ⟨s, hrun, h₁, h₂⟩ := hrun
  exact ⟨s, hrun, h₁, h₂, exclusive_run hrun⟩

end BikesNest.Jobs
