import BikesNest.Jobs.Fence
import Mathlib.Order.Interval.Finset.Nat
import Mathlib.Data.Int.Interval

/-!
# The attempt budget

A claim counts an attempt, and the worker compares the count with the budget
after the handler has returned.  The claim itself does not look at the budget:
when the last attempt ends with a dead worker, the row is claimed once more.

* `Spends` is what a step can do to the attempts of a row.
* `Current` says that the worker compares the numbers of its row, and not those
  of an earlier claim.
* `Tallied` says that no attempt is handed out twice, so the handler starts of a
  row are at most its attempts.
* `sparesSpent` is the condition on a claim, and `keepsLast` the one on the end of a
  worker.  `Budgeted` is what both keep: the attempts and the handler starts stay within
  the budget, and a row without budget is over or in the hands of a worker, whose error
  dead-letters it.
-/

namespace BikesNest.Jobs

open Relational

/-! ## Runs with a count of the handler starts -/

/-- The job whose handler the step starts. -/
def Label.starts (s : Sys) : Label → Option ClaimedJob
  | .start w => (s.workers.row w).bind fun p => p.jobs.head?
  | _ => none

/-- A step of the workers, with the jobs whose handler was started, the last one
first. -/
def countedStep (env : Worker) (x : Sys × List ClaimedJob) (l : Label) :
    Option (Sys × List ClaimedJob) :=
  (step env x.1 l).map fun s' => (s', (l.starts x.1).toList ++ x.2)

/-- How often the handler of the row under `i` was started. -/
def executions (handled : List ClaimedJob) (i : Nat) : Nat :=
  handled.countP fun job => job.id == i

/-- The row runs its last attempt. -/
def spent (r : BackgroundJob) : Bool :=
  1 ≤ r.maxAttempts && (r.state == .running && r.maxAttempts ≤ r.attempts)

/-- The rows that a step claims. -/
def Label.takes (env : Worker) (s : Sys) : Label → List Nat
  | .claim w locked _ => claimedRows env s w locked
  | _ => []

/-- No claim takes over a row that runs its last attempt. -/
def sparesSpent (env : Worker) (s : Sys) (l : Label) : Bool :=
  (l.takes env s).all fun i => !(s.queue.row i).any spent

/-- The jobs that a step takes out of the hands of a worker without a write of their
outcome: those of a worker that dies, and the one whose write is lost. -/
def Label.drops (env : Worker) (s : Sys) : Label → List (WorkerId × ClaimedJob)
  | .crash w => ((s.workers.row w).elim [] Phase.jobs).map fun job => (w, job)
  | .reject w false => (((s.workers.row w).bind fun p => p.jobs.head?).map fun job =>
      (w, job)).toList
  | .record w stored jitter =>
    match s.workers.row w with
    | some (.recording job result endedAt batch) =>
      match recordOutcome env s.queue s.now w job result endedAt jitter with
      | .panicked => (job :: batch).map fun job => (w, job)
      | .returned _ => if stored then [] else [(w, job)]
    | _ => []
  | _ => []

/-- No worker dies or loses the write of its outcome while it has the last attempt of a
row in hand. -/
def keepsLast (env : Worker) (s : Sys) (l : Label) : Bool :=
  (l.drops env s).all fun x =>
    !(s.queue.row x.2.id).any fun r => spent r && r.claimedBy == some x.1

/-- The worker that claimed the row is there and still has its job. -/
def InHand (s : Sys) (i : Nat) (r : BackgroundJob) : Prop :=
  ∃ w p job, s.workers.row w = some p ∧ job ∈ p.jobs ∧ job.id = i ∧ r.claimedBy = some w

/-- What the budget of a row promises: attempts and handler starts stay within it.  Once
it is used up the row has succeeded, is dead-lettered, or its last attempt is in the
hands of a worker; when that attempt ends in an error, the row is dead-lettered. -/
structure Budgeted (env : Worker) (s : Sys) (handled : List ClaimedJob) : Prop where
  attempts : ∀ i r, s.queue.row i = some r → 1 ≤ r.maxAttempts → r.attempts ≤ r.maxAttempts
  executions : ∀ i r, s.queue.row i = some r → 1 ≤ r.maxAttempts →
    (executions handled i : Int) ≤ r.maxAttempts
  ended : ∀ i r, s.queue.row i = some r → 1 ≤ r.maxAttempts → r.attempts = r.maxAttempts →
    r.state = .succeeded ∨ r.state = .failed ∨ r.state = .running ∧ InHand s i r
  deadLettered : ∀ w job e endedAt batch r jitter,
    s.workers.row w = some (.recording job (.error e) endedAt batch) →
      s.queue.row job.id = some r → r.claimedBy = some w → 1 ≤ r.maxAttempts →
        r.attempts = r.maxAttempts → ∃ s' r', step env s (.record w true jitter) = some s' ∧
          s'.queue.row job.id = some r' ∧ r'.state = .failed

variable {env : Worker} {s s' : Sys} {w v : WorkerId} {job : ClaimedJob} {q q' : JobQueue}
  {l : Label} {p p' : Phase} {i id : Nat} {r r' : BackgroundJob} {handled : List ClaimedJob}

/-! ## The numbers in hand -/

/-- A worker that holds a row has its attempts and its budget in hand. -/
def Current (s : Sys) : Prop :=
  ∀ w p job r, s.workers.row w = some p → job ∈ p.jobs → s.queue.row job.id = some r →
    r.claimedBy = some w → job = r.toClaimed job.id

theorem current_init (now : Instant) : Current (Sys.init now) := by
  intro w p job r hw
  cases hw

theorem current_step (h : Current s) (hstep : step env s l = some s') : Current s' := by
  intro v p' job r' hv hjob hr' hclaimed
  by_cases hclaim : ∃ w locked order, l = .claim w locked order
  · obtain ⟨w, locked, order, rfl⟩ := hclaim
    have hc := claims_of_step hstep
    rcases hc.jobs v p' job hv hjob with ⟨_, _, r, hr, hjob⟩ | ⟨hne, hold⟩
    · rw [hr] at hr'
      cases hr'
      exact hjob
    · rcases hc.row job.id r' hr' with ⟨_, r, _, _, rfl⟩ | ⟨_, hr⟩
      · exact absurd (Option.some.inj hclaimed).symm hne
      · exact h v p' job r' hold hjob hr hclaimed
  · have hc := carried_of_step hstep fun w locked order heq => hclaim ⟨w, locked, order, heq⟩
    obtain ⟨p, hp, hjob⟩ := hc.jobs v p' job hv hjob
    obtain ⟨r, hr, hholder, hsame⟩ := hc.rows _ r' hr' (by simp [hclaimed])
    have hcurrent := h v p job r hp hjob hr (hholder.trans hclaimed)
    exact hcurrent.trans hsame

/-! ## What a step does to the attempts -/

/-- What can have happened to a row: it is new, it kept its attempts, or the step
claimed it.  Only a row with budget left becomes pending. -/
inductive Spends (env : Worker) (s : Sys) (l : Label) (i : Nat) (r' : BackgroundJob) : Prop where
  | fresh (hnew : s.queue.next ≤ i) (hattempts : r'.attempts = 0)
  | kept (r : BackgroundJob) (hr : s.queue.row i = some r)
      (hattempts : r'.attempts = r.attempts) (hmax : r'.maxAttempts = r.maxAttempts)
      (hstate : r'.state = .pending → r.state = .pending ∨ r.attempts < r.maxAttempts)
  | claimed (r : BackgroundJob) (hr : s.queue.row i = some r) (htaken : i ∈ l.takes env s)
      (hclaimable : claimable s.now r = true) (hattempts : r'.attempts = r.attempts + 1)
      (hmax : r'.maxAttempts = r.maxAttempts) (hstate : r'.state = .running)

/-- A `SET` list that spends nothing, ends the attempt, and leads back to pending only if
`b`. -/
structure Frugal (b : Prop) (f : BackgroundJob → BackgroundJob) : Prop where
  attempts : ∀ r, (f r).attempts = r.attempts
  maxAttempts : ∀ r, (f r).maxAttempts = r.maxAttempts
  state : ∀ r, (f r).state = .pending → b
  stopped : ∀ r, (f r).state ≠ .running

theorem fail_frugal {b : Prop} {now : Instant} {error : String} :
    ∃ f, fail q now id w error = q.update (heldBy id w) f ∧ Frugal b f :=
  ⟨_, rfl, fun _ => rfl, fun _ => rfl, fun _ h => (by cases h), fun _ => (by simp)⟩

/-- The outcome of a job without a schedule. -/
theorem recordOutcome_frugal {now endedAt : Instant} {result : Except JobError Unit}
    {jitter : Nat} (hnone : job.schedule = none)
    (h : recordOutcome env q now w job result endedAt jitter = .returned q') :
    ∃ f, q' = q.update (heldBy job.id w) f ∧ Frugal (job.attempts < job.maxAttempts) f := by
  unfold recordOutcome at h
  split at h
  · rw [hnone, nextRunAt_none] at h
    cases h
    exact ⟨_, rfl, fun _ => rfl, fun _ => rfl, fun _ h => (by cases h), fun _ => (by simp)⟩
  · split at h
    · rename_i hbudget
      split at h
      · cases h
        exact ⟨_, rfl, fun _ => rfl, fun _ => rfl, fun _ _ => hbudget, fun _ => (by simp)⟩
      · cases h
    · cases h
      exact fail_frugal
  · cases h
    exact fail_frugal

/-- The step leaves the row as it was. -/
theorem Spends.same (hr : s.queue.row i = some r') : Spends env s l i r' :=
  .kept r' hr rfl rfl Or.inl

/-- An outcome write of a worker that has the numbers of its row in hand. -/
theorem Spends.of_frugal {f : BackgroundJob → BackgroundJob} (hc : Current s)
    (hw : s.workers.row w = some p) (hjob : job ∈ p.jobs)
    (hf : Frugal (job.attempts < job.maxAttempts) f)
    (hr' : (s.queue.update (heldBy job.id w) f).row i = some r') : Spends env s l i r' := by
  obtain ⟨r, hr, rfl⟩ := Table.row_update_eq_some.mp hr'
  split
  · rename_i hheld
    simp only [heldBy, Bool.and_eq_true, beq_iff_eq] at hheld
    obtain ⟨rfl, hclaimed⟩ := hheld
    refine .kept r hr (hf.attempts r) (hf.maxAttempts r) fun hpending => Or.inr ?_
    have hbudget := hf.state r hpending
    rw [hc w p job r hw hjob hr hclaimed] at hbudget
    exact hbudget
  · exact .same hr

theorem spends_of_enqueue {kind : String} {payload : Json} {runAt : Instant}
    {maxAttempts : Option Int} {key : Option String}
    (hr' : (enqueue s.queue kind payload runAt maxAttempts key).2.row i = some r') :
    Spends env s l i r' := by
  unfold enqueue at hr'
  split at hr'
  · exact .same hr'
  · rcases Table.row_insert_eq_some.mp hr' with ⟨rfl, rfl⟩ | hold
    · exact .fresh le_rfl rfl
    · exact .same hold

/-- What a step does to the attempts of a row that stands after it. -/
theorem spends_of_step (hs : Sound env s) (hc : Current s) (hstep : step env s l = some s')
    (hr' : s'.queue.row i = some r') : Spends env s l i r' := by
  have hmove := move_of_step hstep
  cases hmove with
  | @boot w stored _ _ _ hw =>
    cases stored with
    | false => exact .same hr'
    | true => exact spends_of_enqueue hr'
  | submit => exact spends_of_enqueue hr'
  | claim hw _ =>
    rcases (claims_of_step hstep).row i r' hr' with ⟨htaken, r, hr, hclaimable, rfl⟩ | ⟨_, hr⟩
    · exact .claimed r hr htaken hclaimable rfl rfl rfl
    · exact .same hr
  | @reject w stored job batch hw =>
    cases stored with
    | false => exact .same hr'
    | true =>
      obtain ⟨f, hq, hf⟩ : ∃ f, rejectJob s.queue s.now w job =
          s.queue.update (heldBy job.id w) f ∧ Frugal (job.attempts < job.maxAttempts) f :=
        fail_frugal
      have hrejected : (rejectJob s.queue s.now w job).row i = some r' := hr'
      rw [hq] at hrejected
      exact .of_frugal hc hw (List.mem_cons_self ..) hf hrejected
  | heartbeat hw =>
    obtain ⟨r, hr, rfl⟩ := Table.row_update_eq_some.mp hr'
    split
    · exact .kept r hr rfl rfl Or.inl
    · exact .same hr
  | @record w stored _ job _ _ _ _ hw hq =>
    cases stored with
    | false => exact .same hr'
    | true =>
      have hnone := hs.jobs w _ hw job (List.mem_cons_self ..)
      obtain ⟨f, rfl, hf⟩ := recordOutcome_frugal hnone hq
      exact .of_frugal hc hw (List.mem_cons_self ..) hf hr'
  | gc => exact .same (Table.row_delete_eq_some.mp hr').1
  | _ => exact .same hr'

/-! ## The budget of a row -/

/-- A row keeps to its budget, and has some left while it is pending. -/
structure WithinBudget (r : BackgroundJob) : Prop where
  nonneg : 0 ≤ r.attempts
  attempts : 1 ≤ r.maxAttempts → r.attempts ≤ r.maxAttempts
  pending : 1 ≤ r.maxAttempts → r.state = .pending → r.attempts < r.maxAttempts

/-- A claim that spares the rows without budget keeps every row within it. -/
theorem withinBudget_step (h : s.queue.All WithinBudget)
    (hspares : sparesSpent env s l = true) (hr' : Spends env s l i r') : WithinBudget r' := by
  cases hr' with
  | fresh _ hattempts =>
    refine ⟨?_, fun hmax => ?_, fun hmax _ => ?_⟩
    · omega
    · omega
    · omega
  | kept r hr hattempts hmax hstate =>
    have hrow := h i r hr
    have hnonneg := hrow.nonneg
    refine ⟨by omega, fun hone => ?_, fun hone hpending => ?_⟩
    · have hle := hrow.attempts (by omega)
      omega
    · have hlt : r.attempts < r.maxAttempts := by
        rcases hstate hpending with hbefore | hbudget
        · exact hrow.pending (by omega) hbefore
        · exact hbudget
      omega
  | claimed r hr htaken hclaimable hattempts hmax hstate =>
    have hrow := h i r hr
    have hnonneg := hrow.nonneg
    have hleft : 1 ≤ r.maxAttempts → r.attempts < r.maxAttempts := by
      intro hone
      by_contra hfull
      -- A claimable row is pending, with budget left, or it runs its last attempt.
      have hrunning : r.state = .running := by
        by_contra hne
        have hpending : r.state = .pending := by
          simp [claimable, hne] at hclaimable
          exact hclaimable.1
        exact hfull (hrow.pending hone hpending)
      have hspent : spent r = true := by
        simp only [spent, hrunning, Bool.and_eq_true, decide_eq_true_eq]
        exact ⟨hone, rfl, by omega⟩
      have hspared := List.all_eq_true.mp hspares i htaken
      simp [hr, hspent] at hspared
    refine ⟨by omega, fun hone => ?_, fun _ hpending => ?_⟩
    · have hlt := hleft (by omega)
      omega
    · rw [hstate] at hpending
      cases hpending

/-! ## The attempts in hand -/

/-- The claimed jobs whose handler the worker has still to start. -/
def Phase.waiting : Phase → List ClaimedJob
  | .booting _ _ => []
  | .idle batch | .handling _ _ batch | .recording _ _ _ batch => batch

/-- One attempt of one row. -/
def attemptOf (job : ClaimedJob) : Nat × Int := (job.id, job.attempts)

/-- The claim of the job is behind its row. -/
structure Spent (q : JobQueue) (job : ClaimedJob) : Prop where
  positive : 1 ≤ job.attempts
  known : job.id < q.next
  counted : ∀ r, q.row job.id = some r → job.attempts ≤ r.attempts

/-- Every attempt is in the hands of one worker, or its handler was started, and
never twice. -/
structure Tallied (s : Sys) (handled : List ClaimedJob) : Prop where
  started : ∀ job ∈ handled, Spent s.queue job
  once : (handled.map attemptOf).Nodup
  waiting : ∀ w p, s.workers.row w = some p → ∀ job ∈ p.waiting, Spent s.queue job
  unstarted : ∀ w p, s.workers.row w = some p → ∀ job ∈ p.waiting,
    attemptOf job ∉ handled.map attemptOf
  distinct : ∀ w p, s.workers.row w = some p → (p.waiting.map attemptOf).Nodup
  apart : ∀ w p v p', s.workers.row w = some p → s.workers.row v = some p' → w ≠ v →
    ∀ job ∈ p.waiting, attemptOf job ∉ p'.waiting.map attemptOf

theorem tallied_init (now : Instant) : Tallied (Sys.init now) [] := by
  constructor
  · intro job hmem
    cases hmem
  · exact List.nodup_nil
  · intro w p hw
    cases hw
  · intro w p hw
    cases hw
  · intro w p hw
    cases hw
  · intro w p v p' hw
    cases hw

/-- The keys of a queue are given out in order. -/
theorem next_enqueue_le (q : JobQueue) (kind : String) (payload : Json) (runAt : Instant)
    (maxAttempts : Option Int) (key : Option String) :
    q.next ≤ (enqueue q kind payload runAt maxAttempts key).2.next := by
  unfold enqueue
  split
  · exact le_rfl
  · exact Nat.le_succ _

/-- A step takes no key back. -/
theorem next_le_of_step (hstep : step env s l = some s') : s.queue.next ≤ s'.queue.next := by
  cases move_of_step hstep with
  | @boot w stored =>
    cases stored with
    | false => exact le_rfl
    | true => exact next_enqueue_le ..
  | submit => exact next_enqueue_le ..
  | @reject w stored =>
    cases stored with
    | false => exact le_rfl
    | true => exact le_rfl
  | @record w stored _ _ _ _ _ _ _ hq =>
    cases stored with
    | false => exact le_rfl
    | true =>
      obtain ⟨f, rfl, _⟩ := recordOutcome_releases hq
      exact le_rfl
  | _ => exact le_rfl

/-- What is spent stays spent. -/
theorem Spent.step (h : Spent s.queue job) (hs : Sound env s) (hc : Current s)
    (hstep : step env s l = some s') : Spent s'.queue job where
  positive := h.positive
  known := h.known.trans_le (next_le_of_step hstep)
  counted r' hr' := by
    cases spends_of_step hs hc hstep hr' with
    | fresh hnew => exact absurd h.known (Nat.not_lt.mpr hnew)
    | kept r hr hattempts =>
      rw [hattempts]
      exact h.counted r hr
    | claimed r hr _ _ hattempts =>
      have hle := h.counted r hr
      rw [hattempts]
      omega

/-- A step that neither claims nor starts gives no worker a job to wait. -/
theorem waiting_of_step (hstep : step env s l = some s')
    (hclaim : ∀ w locked order, l ≠ .claim w locked order) (hstart : ∀ w, l ≠ .start w)
    (hv : s'.workers.row v = some p') :
    p'.waiting = [] ∨ ∃ p, s.workers.row v = some p ∧ p'.waiting.Sublist p.waiting := by
  have hsame : ∀ {w p p' x q}, s.workers.row w = some p →
      ((s.setQueue q).setPhase w x).workers.row v = some p' → x.waiting.Sublist p.waiting →
        p'.waiting = [] ∨ ∃ p, s.workers.row v = some p ∧ p'.waiting.Sublist p.waiting := by
    intro w p p' x q hw hv hsub
    rcases row_setPhase hv with ⟨rfl, rfl⟩ | ⟨_, hold⟩
    · exact Or.inr ⟨p, hw, hsub⟩
    · exact Or.inr ⟨p', hold, .refl _⟩
  cases move_of_step hstep with
  | spawn =>
    rcases row_spawn hv with rfl | hold
    · exact Or.inl rfl
    · exact Or.inr ⟨p', hold, .refl _⟩
  | boot hw => exact hsame hw hv (.refl _)
  | booted hw => exact hsame (q := s.queue) hw hv (.refl _)
  | claim => exact absurd rfl (hclaim _ _ _)
  | start => exact absurd rfl (hstart _)
  | reject hw => exact hsame hw hv (List.sublist_cons_self _ _)
  | heartbeat hw => exact hsame hw hv (.refl _)
  | heartbeatLost hw => exact hsame (q := s.queue) hw hv (.refl _)
  | finish hw => exact hsame (q := s.queue) hw hv (.refl _)
  | record hw => exact hsame hw hv (.refl _)
  | recordPanic => exact Or.inr ⟨p', row_drop hv, .refl _⟩
  | crash => exact Or.inr ⟨p', row_drop hv, .refl _⟩
  | submit => exact Or.inr ⟨p', hv, .refl _⟩
  | gc => exact Or.inr ⟨p', hv, .refl _⟩
  | tick => exact Or.inr ⟨p', hv, .refl _⟩

/-- A step that neither claims nor starts. -/
theorem Tallied.carried (h : Tallied s handled) (hs : Sound env s) (hc : Current s)
    (hstep : step env s l = some s') (hclaim : ∀ w locked order, l ≠ .claim w locked order)
    (hstart : ∀ w, l ≠ .start w) : Tallied s' handled := by
  have hwaits : ∀ {v p'}, s'.workers.row v = some p' →
      p'.waiting = [] ∨ ∃ p, s.workers.row v = some p ∧ p'.waiting.Sublist p.waiting :=
    fun hv => waiting_of_step hstep hclaim hstart hv
  refine ⟨fun job hmem => (h.started job hmem).step hs hc hstep, h.once,
    fun w p' hw job hmem => ?_, fun w p' hw job hmem => ?_, fun w p' hw => ?_,
    fun w p' v x' hw hv hne job hmem => ?_⟩
  · rcases hwaits hw with hnil | ⟨p, hp, hsub⟩
    · rw [hnil] at hmem
      cases hmem
    · exact (h.waiting w p hp job (hsub.subset hmem)).step hs hc hstep
  · rcases hwaits hw with hnil | ⟨p, hp, hsub⟩
    · rw [hnil] at hmem
      cases hmem
    · exact h.unstarted w p hp job (hsub.subset hmem)
  · rcases hwaits hw with hnil | ⟨p, hp, hsub⟩
    · rw [hnil]
      exact List.nodup_nil
    · exact (hsub.map attemptOf).nodup (h.distinct w p hp)
  · rcases hwaits hw with hnil | ⟨p, hp, hsub⟩
    · rw [hnil] at hmem
      cases hmem
    · rcases hwaits hv with hnil | ⟨x, hx, hsubx⟩
      · rw [hnil]
        exact List.not_mem_nil
      · intro hother
        exact h.apart w p v x hp hx hne job (hsub.subset hmem) ((hsubx.map attemptOf).subset hother)

/-- A worker starts the handler of the first job that waits. -/
theorem Tallied.start (h : Tallied s handled) {batch : List ClaimedJob} {beat : Option Instant}
    (hw : s.workers.row w = some (.idle (job :: batch))) :
    Tallied (s.setPhase w (.handling job beat batch)) (job :: handled) := by
  have hdistinct := h.distinct w _ hw
  simp only [Phase.waiting, List.map_cons, List.nodup_cons] at hdistinct
  have hold : ∀ {v p'}, (s.setPhase w (.handling job beat batch)).workers.row v = some p' →
      ∃ p, s.workers.row v = some p ∧ p'.waiting.Sublist p.waiting ∧
        attemptOf job ∉ p'.waiting.map attemptOf := by
    intro v p' hv
    rcases row_setPhase hv with ⟨rfl, rfl⟩ | ⟨hne, hv⟩
    · exact ⟨_, hw, List.sublist_cons_self _ _, hdistinct.1⟩
    · exact ⟨p', hv, .refl _, h.apart w _ v p' hw hv hne.symm job (List.mem_cons_self ..)⟩
  refine ⟨fun job' hmem => ?_, ?_, fun v p' hv job' hmem => ?_, fun v p' hv job' hmem => ?_,
    fun v p' hv => ?_, fun v p' u x' hv hu hne job' hmem => ?_⟩
  · rcases List.mem_cons.mp hmem with rfl | hmem
    · exact h.waiting w _ hw _ (List.mem_cons_self ..)
    · exact h.started job' hmem
  · rw [List.map_cons, List.nodup_cons]
    exact ⟨h.unstarted w _ hw job (List.mem_cons_self ..), h.once⟩
  · obtain ⟨p, hp, hsub, _⟩ := hold hv
    exact h.waiting v p hp job' (hsub.subset hmem)
  · obtain ⟨p, hp, hsub, hnew⟩ := hold hv
    rw [List.map_cons, List.mem_cons, not_or]
    refine ⟨fun heq => ?_, h.unstarted v p hp job' (hsub.subset hmem)⟩
    rw [← heq] at hnew
    exact hnew (List.mem_map_of_mem hmem)
  · obtain ⟨p, hp, hsub, _⟩ := hold hv
    exact (hsub.map attemptOf).nodup (h.distinct v p hp)
  · obtain ⟨p, hp, hsub, _⟩ := hold hv
    obtain ⟨x, hx, hsubx, _⟩ := hold hu
    intro hother
    exact h.apart v p u x hp hx hne job' (hsub.subset hmem) ((hsubx.map attemptOf).subset hother)

/-- No row is a candidate twice. -/
theorem nodup_candidates (q : JobQueue) (now : Instant) (batch : Nat) (locked : List Nat)
    (kinds : Option (List String)) :
    ((candidates q now batch locked kinds).map Prod.fst).Nodup := by
  have hselect : (q.select fun i r =>
      claimable now r && kindMatches kinds r && !locked.contains i).Sublist q.rows :=
    List.filter_sublist
  have hsorted : (((q.select fun i r => claimable now r && kindMatches kinds r &&
      !locked.contains i).insertionSort dueBefore).map Prod.fst).Nodup :=
    ((List.perm_insertionSort dueBefore _).map Prod.fst).nodup_iff.mpr
      ((hselect.map Prod.fst).nodup q.nodup_keys)
  exact ((List.take_sublist _ _).map Prod.fst).nodup hsorted

/-- The claimed jobs come back in some order, each of them once. -/
theorem ids_returnedIn (jobs : List ClaimedJob) :
    ∀ order : List Nat, ((returnedIn order jobs).map ClaimedJob.id).Sublist order
  | [] => .refl _
  | i :: order => by
    have ih := ids_returnedIn jobs order
    unfold returnedIn at ih ⊢
    rw [List.filterMap_cons]
    split
    · exact ih.trans (List.sublist_cons_self _ _)
    · rename_i job hfind
      have hid := List.find?_some hfind
      rw [beq_iff_eq] at hid
      rw [List.map_cons, hid]
      exact ih.cons_cons i

theorem nodup_returnedIn {order : List Nat} {jobs : List ClaimedJob} (h : order.Nodup) :
    ((returnedIn order jobs).map attemptOf).Nodup := by
  have hids := (ids_returnedIn jobs order).nodup h
  refine List.Nodup.of_map Prod.fst ?_
  rw [List.map_map]
  exact hids

/-- The jobs that a claim hands out are attempts that nobody has had. -/
theorem Tallied.claims {locked order : List Nat} (h : Tallied s handled) (hs : Sound env s)
    (hc : Current s) (hnonneg : s.queue.All fun r => 0 ≤ r.attempts)
    (hstep : step env s (.claim w locked order) = some s') : Tallied s' handled := by
  have hclaims := claims_of_step hstep
  obtain ⟨horder, hqueue, hworkers⟩ : (order.Perm ((claim s.queue s.now env.config.batchSize w
      env.config.leaseTtl locked).1.map ClaimedJob.id)) ∧
      s'.queue = (claim s.queue s.now env.config.batchSize w env.config.leaseTtl locked).2 ∧
      ∀ v p', s'.workers.row v = some p' → v = w ∧ p' = .idle (returnedIn order
        (claim s.queue s.now env.config.batchSize w env.config.leaseTtl locked).1) ∨
          v ≠ w ∧ s.workers.row v = some p' := by
    simp only [step] at hstep
    split at hstep
    · split at hstep
      · rename_i horder
        cases hstep
        exact ⟨horder, rfl, fun v p' hv => row_setPhase hv⟩
      · cases hstep
    · cases hstep
  have hnew : ∀ {p'}, s'.workers.row w = some p' → ∀ job ∈ p'.waiting,
      Spent s'.queue job ∧ ∀ job', Spent s.queue job' → attemptOf job ≠ attemptOf job' := by
    intro p' hw job hmem
    rcases hworkers w p' hw with ⟨_, rfl⟩ | ⟨hne, _⟩
    · obtain ⟨r, hr, _, hjob, hrow⟩ := mem_claimInner (mem_of_mem_returnedIn hmem)
      have hattempts : job.attempts = r.attempts + 1 := by rw [hjob]; rfl
      have hrow' : s'.queue.row job.id = some (r.claimed s.now w env.config.leaseTtl) := by
        rw [hqueue]
        exact hrow
      refine ⟨⟨?_, Table.lt_next hrow', fun r' hr' => ?_⟩, fun job' hspent heq => ?_⟩
      · have hzero := hnonneg _ r hr
        omega
      · rw [hrow'] at hr'
        cases hr'
        exact hattempts.le
      · obtain ⟨hid, hsame⟩ := Prod.mk.injEq .. ▸ heq
        have hle := hspent.counted r (hid ▸ hr)
        omega
    · exact absurd rfl hne
  have hnodup : ∀ {p'}, s'.workers.row w = some p' → (p'.waiting.map attemptOf).Nodup := by
    intro p' hw
    rcases hworkers w p' hw with ⟨_, rfl⟩ | ⟨hne, _⟩
    · refine nodup_returnedIn (horder.nodup_iff.mpr ?_)
      simp only [claim, claimInner, List.map_map]
      exact nodup_candidates ..
    · exact absurd rfl hne
  have hold : ∀ {v p'}, s'.workers.row v = some p' → v ≠ w → s.workers.row v = some p' := by
    intro v p' hv hne
    rcases hworkers v p' hv with ⟨heq, _⟩ | ⟨_, hold⟩
    · exact absurd heq hne
    · exact hold
  refine ⟨fun job hmem => (h.started job hmem).step hs hc hstep, h.once,
    fun v p' hv job hmem => ?_, fun v p' hv job hmem => ?_, fun v p' hv => ?_,
    fun v p' u x' hv hu hne job hmem => ?_⟩
  · by_cases hvw : v = w
    · subst hvw
      exact (hnew hv job hmem).1
    · exact (h.waiting v p' (hold hv hvw) job hmem).step hs hc hstep
  · by_cases hvw : v = w
    · subst hvw
      intro hstarted
      obtain ⟨job', hmem', heq⟩ := List.mem_map.mp hstarted
      exact (hnew hv job hmem).2 job' (h.started job' hmem') heq.symm
    · exact h.unstarted v p' (hold hv hvw) job hmem
  · by_cases hvw : v = w
    · subst hvw
      exact hnodup hv
    · exact h.distinct v p' (hold hv hvw)
  · intro hother
    obtain ⟨job', hmem', heq⟩ := List.mem_map.mp hother
    by_cases hvw : v = w
    · subst hvw
      exact (hnew hv job hmem).2 job' (h.waiting u x' (hold hu hne.symm) job' hmem') heq.symm
    · by_cases huw : u = w
      · subst huw
        exact (hnew hu job' hmem').2 job (h.waiting v p' (hold hv hvw) job hmem) heq
      · exact h.apart v p' u x' (hold hv hvw) (hold hu huw) hne job hmem hother

/-- The handler starts of a row are different attempts of it. -/
theorem Tallied.executions_le (h : Tallied s handled) (hr : s.queue.row i = some r)
    (hnonneg : 0 ≤ r.attempts) : (executions handled i : Int) ≤ r.attempts := by
  let started := (handled.filter fun job => job.id == i).map ClaimedJob.attempts
  have hid : ∀ job ∈ handled.filter (fun job => job.id == i), job ∈ handled ∧ job.id = i := by
    intro job hmem
    simpa using hmem
  have hnodup : started.Nodup := by
    refine List.Nodup.map_on (fun job hjob job' hjob' heq => ?_) (h.once.of_map.filter _)
    refine List.inj_on_of_nodup_map h.once (hid job hjob).1 (hid job' hjob').1 ?_
    unfold attemptOf
    rw [(hid job hjob).2, (hid job' hjob').2, heq]
  have hrange : started.toFinset ⊆ Finset.Icc 1 r.attempts := by
    intro n hn
    obtain ⟨job, hjob, rfl⟩ := List.mem_map.mp (List.mem_toFinset.mp hn)
    have hspent := h.started job (hid job hjob).1
    have hle := hspent.counted r ((hid job hjob).2 ▸ hr)
    exact Finset.mem_Icc.mpr ⟨hspent.positive, hle⟩
  have hcard := Finset.card_le_card hrange
  rw [List.toFinset_card_of_nodup hnodup, Int.card_Icc, List.length_map] at hcard
  have hcount : executions handled i = (handled.filter fun job => job.id == i).length :=
    List.countP_eq_length_filter
  omega

/-! ## The last attempt in hand -/

/-- Every row that runs its last attempt is in the hands of its worker. -/
def LastInHand (s : Sys) : Prop :=
  ∀ i r, s.queue.row i = some r → spent r = true → InHand s i r

theorem lastInHand_init (now : Instant) : LastInHand (Sys.init now) := by
  intro i r hr
  cases hr

theorem spent_iff : spent r = true ↔
    1 ≤ r.maxAttempts ∧ r.state = .running ∧ r.maxAttempts ≤ r.attempts := by
  simp [spent]

/-- A phase change that keeps the job keeps it in hand. -/
theorem InHand.setPhase (h : InHand s i r) (hw : s.workers.row w = some p)
    (hclaimed : r'.claimedBy = r.claimedBy)
    (hkeeps : ∀ job ∈ p.jobs, job.id = i → r.claimedBy = some w → job ∈ p'.jobs) :
    InHand ((s.setQueue q).setPhase w p') i r' := by
  obtain ⟨v, p₀, job, hv, hjob, hid, hholder⟩ := h
  by_cases hvw : v = w
  · subst hvw
    obtain rfl := Option.some.inj (hw.symm.trans hv)
    refine ⟨v, p', job, ?_, hkeeps job hjob hid hholder, hid, hclaimed.trans hholder⟩
    simp [Sys.setPhase, Table.row_update, hw]
  · refine ⟨v, p₀, job, ?_, hjob, hid, hclaimed.trans hholder⟩
    simp [Sys.setPhase, Table.row_update, hv, hvw]

/-- The job stays in hand when another worker goes. -/
theorem InHand.drop (h : InHand s i r)
    (hspared : ∀ p job, s.workers.row w = some p → job ∈ p.jobs → job.id = i →
      r.claimedBy ≠ some w) : InHand (s.drop w) i r := by
  obtain ⟨v, p, job, hv, hjob, hid, hholder⟩ := h
  have hvw : v ≠ w := by
    rintro rfl
    exact hspared p job hv hjob hid hholder
  exact ⟨v, p, job, Table.row_delete_eq_some.mpr ⟨hv, by simpa using hvw⟩, hjob, hid, hholder⟩

/-- A row that runs its last attempt after an enqueue did so before. -/
theorem row_of_enqueue_spent {kind : String} {payload : Json} {runAt : Instant}
    {maxAttempts : Option Int} {key : Option String}
    (hr : (enqueue q kind payload runAt maxAttempts key).2.row i = some r)
    (hspent : spent r = true) : q.row i = some r := by
  unfold enqueue at hr
  split at hr
  · exact hr
  · rcases Table.row_insert_eq_some.mp hr with ⟨_, rfl⟩ | hold
    · cases (spent_iff.mp hspent).2.1
    · exact hold

/-- An outcome write leaves alone a row that still runs its last attempt. -/
theorem row_of_outcome_spent {b : Prop} {f : BackgroundJob → BackgroundJob} (hf : Frugal b f)
    (hr : (q.update (heldBy id w) f).row i = some r) (hspent : spent r = true) :
    q.row i = some r ∧ ¬(i = id ∧ r.claimedBy = some w) := by
  obtain ⟨r₀, hr₀, rfl⟩ := Table.row_update_eq_some.mp hr
  split at hspent
  · exact absurd (spent_iff.mp hspent).2.1 (hf.stopped r₀)
  · rename_i hother
    rw [if_neg hother]
    exact ⟨hr₀, by simpa [heldBy] using hother⟩

/-- A heartbeat moves nothing but the lease. -/
theorem row_of_heartbeat {now : Instant} {leaseTtl : Nat}
    (hr' : (heartbeat q now id w leaseTtl).row i = some r') :
    ∃ r, q.row i = some r ∧ r'.claimedBy = r.claimedBy ∧ spent r' = spent r := by
  obtain ⟨r, hr, rfl⟩ := Table.row_update_eq_some.mp hr'
  split
  · exact ⟨r, hr, rfl, rfl⟩
  · exact ⟨r, hr, rfl, rfl⟩

/-- What a claim takes comes into the hands of the worker. -/
theorem job_of_claimed {locked order : List Nat}
    (hstep : step env s (.claim w locked order) = some s') (hi : i ∈ claimedRows env s w locked) :
    ∃ p job, s'.workers.row w = some p ∧ job ∈ p.jobs ∧ job.id = i := by
  simp only [step] at hstep
  split at hstep
  · rename_i hw
    split at hstep
    · rename_i horder
      cases hstep
      have hlisted : i ∈ order := horder.mem_iff.mpr hi
      obtain ⟨job, hjob, hid⟩ := List.mem_map.mp hi
      have hsome : ((claim s.queue s.now env.config.batchSize w env.config.leaseTtl
          locked).1.find? fun job => job.id == i).isSome = true :=
        List.find?_isSome.mpr ⟨job, hjob, by simpa using hid⟩
      obtain ⟨job', hfind⟩ := Option.isSome_iff_exists.mp hsome
      have hreturned : job' ∈ returnedIn order (claim s.queue s.now env.config.batchSize w
          env.config.leaseTtl locked).1 := List.mem_filterMap.mpr ⟨i, hlisted, hfind⟩
      refine ⟨.idle (returnedIn order (claim s.queue s.now env.config.batchSize w
        env.config.leaseTtl locked).1), job', ?_, hreturned, ?_⟩
      · simp [Sys.setPhase, Table.row_update, hw]
      · simpa using List.find?_some hfind
    · cases hstep
  · cases hstep

/-- A step that loses no last attempt keeps every one in hand. -/
theorem lastInHand_step (hs : Sound env s) (h : LastInHand s) (hkeeps : keepsLast env s l = true)
    (hstep : step env s l = some s') : LastInHand s' := by
  have hspares : ∀ v job, (v, job) ∈ l.drops env s → ∀ r, s.queue.row job.id = some r →
      spent r = true → r.claimedBy ≠ some v := by
    intro v job hmem r hr hspent hclaimed
    have hspared := List.all_eq_true.mp hkeeps _ hmem
    simp [hr, hspent, hclaimed] at hspared
  intro i r' hr' hspent
  cases move_of_step hstep with
  | spawn =>
    obtain ⟨v, p, job, hv, hrest⟩ := h i r' hr' hspent
    exact ⟨v, p, job, Table.row_insert_of_some _ hv, hrest⟩
  | @boot w stored _ _ _ hw =>
    have hr : s.queue.row i = some r' := by
      cases stored with
      | false => exact hr'
      | true => exact row_of_enqueue_spent hr' hspent
    exact (h i r' hr hspent).setPhase hw rfl fun job hjob => by cases hjob
  | booted hw =>
    exact (h i r' hr' hspent).setPhase (q := s.queue) hw rfl fun job hjob => by cases hjob
  | submit => exact h i r' (row_of_enqueue_spent hr' hspent) hspent
  | @claim w locked order batch hw hbatch =>
    rcases (claims_of_step hstep).row i r' hr' with ⟨htaken, r, hr, _, rfl⟩ | ⟨_, hr⟩
    · obtain ⟨p, job, hp, hjob, hid⟩ := job_of_claimed hstep htaken
      exact ⟨w, p, job, hp, hjob, hid, rfl⟩
    · exact (h i r' hr hspent).setPhase hw rfl fun job hjob => by cases hjob
  | start hw =>
    exact (h i r' hr' hspent).setPhase (q := s.queue) hw rfl fun job hjob _ _ => hjob
  | @reject w stored job batch hw =>
    have hlost : s.queue.row i = some r' ∧ ¬(i = job.id ∧ r'.claimedBy = some w) := by
      cases stored with
      | false =>
        refine ⟨hr', fun ⟨hid, hclaimed⟩ => ?_⟩
        refine hspares w job ?_ r' (hid ▸ hr') hspent hclaimed
        simp [Label.drops, hw, Phase.jobs]
      | true =>
        obtain ⟨f, hq, hf⟩ : ∃ f, rejectJob s.queue s.now w job =
            s.queue.update (heldBy job.id w) f ∧ Frugal (job.attempts < job.maxAttempts) f :=
          fail_frugal
        have hrejected : (rejectJob s.queue s.now w job).row i = some r' := hr'
        rw [hq] at hrejected
        exact row_of_outcome_spent hf hrejected hspent
    refine (h i r' hlost.1 hspent).setPhase hw rfl fun job' hjob' hid hclaimed => ?_
    rcases List.mem_cons.mp hjob' with rfl | hrest
    · exact absurd ⟨hid.symm, hclaimed⟩ hlost.2
    · exact hrest
  | heartbeat hw =>
    obtain ⟨r, hr, hclaimed, hsame⟩ := row_of_heartbeat hr'
    exact (h i r hr (hsame ▸ hspent)).setPhase hw hclaimed fun job hjob _ _ => hjob
  | heartbeatLost hw =>
    exact (h i r' hr' hspent).setPhase (q := s.queue) hw rfl fun job hjob _ _ => hjob
  | finish hw =>
    exact (h i r' hr' hspent).setPhase (q := s.queue) hw rfl fun job hjob _ _ => hjob
  | @record w stored jitter job result endedAt batch q hw hq =>
    have hlost : s.queue.row i = some r' ∧ ¬(i = job.id ∧ r'.claimedBy = some w) := by
      cases stored with
      | false =>
        refine ⟨hr', fun ⟨hid, hclaimed⟩ => ?_⟩
        refine hspares w job ?_ r' (hid ▸ hr') hspent hclaimed
        simp [Label.drops, hw, hq]
      | true =>
        have hnone := hs.jobs w _ hw job (List.mem_cons_self ..)
        obtain ⟨f, rfl, hf⟩ := recordOutcome_frugal hnone hq
        exact row_of_outcome_spent hf hr' hspent
    refine (h i r' hlost.1 hspent).setPhase hw rfl fun job' hjob' hid hclaimed => ?_
    rcases List.mem_cons.mp hjob' with rfl | hrest
    · exact absurd ⟨hid.symm, hclaimed⟩ hlost.2
    · exact hrest
  | @recordPanic w stored jitter job result endedAt batch hw hq =>
    refine (h i r' hr' hspent).drop fun p job' hp hjob' hid => ?_
    obtain rfl := Option.some.inj (hw.symm.trans hp)
    refine hspares w job' ?_ r' (hid ▸ hr') hspent
    simpa [Label.drops, hw, hq, Phase.jobs] using hjob'
  | @crash w =>
    refine (h i r' hr' hspent).drop fun p job' hp hjob' hid => ?_
    refine hspares w job' ?_ r' (hid ▸ hr') hspent
    simpa [Label.drops, hp] using hjob'
  | gc => exact h i r' (Table.row_delete_eq_some.mp hr').1 hspent
  | tick => exact h i r' hr' hspent

/-! ## The law -/

/-- A run whose steps meet the condition, with its handler starts. -/
abbrev CountedRun (env : Worker) :
    Sys × List ClaimedJob → List Label → Sys × List ClaimedJob → Prop :=
  Runs.Run (Runs.Guarded (fun x l => (sparesSpent env x.1 l && keepsLast env x.1 l) = true)
    fun x l x' => countedStep env x l = some x')

/-- What every such run keeps. -/
structure Frugally (env : Worker) (x : Sys × List ClaimedJob) : Prop where
  sound : Sound env x.1
  current : Current x.1
  budgets : x.1.queue.All WithinBudget
  lastInHand : LastInHand x.1
  tallied : Tallied x.1 x.2

theorem frugally_step {x x' : Sys × List ClaimedJob} (h : Frugally env x)
    (hspares : sparesSpent env x.1 l = true) (hkeeps : keepsLast env x.1 l = true)
    (hstep : countedStep env x l = some x') : Frugally env x' := by
  obtain ⟨s', hs', rfl⟩ := Option.map_eq_some_iff.mp hstep
  refine ⟨sound_step h.sound hs', current_step h.current hs', fun i r' hr' => ?_,
    lastInHand_step h.sound h.lastInHand hkeeps hs', ?_⟩
  · exact withinBudget_step h.budgets hspares (spends_of_step h.sound h.current hs' hr')
  · by_cases hclaim : ∃ w locked order, l = .claim w locked order
    · obtain ⟨w, locked, order, rfl⟩ := hclaim
      exact h.tallied.claims h.sound h.current (h.budgets.mono fun r hr => hr.nonneg) hs'
    · by_cases hstart : ∃ w, l = .start w
      · obtain ⟨w, rfl⟩ := hstart
        cases move_of_step hs' with
        | @start w job batch hw =>
          have hjob : (Label.start w).starts x.1 = some job := by
            simp [Label.starts, hw, Phase.jobs]
          rw [hjob]
          exact h.tallied.start hw
      · have hnone : l.starts x.1 = none := by
          cases l with
          | start w => exact absurd ⟨w, rfl⟩ hstart
          | _ => rfl
        rw [hnone]
        exact h.tallied.carried h.sound h.current hs'
          (fun w locked order heq => hclaim ⟨w, locked, order, heq⟩)
          fun w heq => hstart ⟨w, heq⟩

theorem frugally_run {now : Instant} {ls : List Label} {x : Sys × List ClaimedJob}
    (hrun : CountedRun env (Sys.init now, []) ls x) : Frugally env x :=
  hrun.invariant (fun _ _ _ h ⟨hguard, hstep⟩ =>
      frugally_step h (Bool.and_eq_true_iff.mp hguard).1 (Bool.and_eq_true_iff.mp hguard).2 hstep)
    ⟨sound_init env now, current_init now, Table.All.empty, lastInHand_init now,
      tallied_init now⟩

/-- The worker that records an error of a last attempt dead-letters the row. -/
theorem record_deadLetters {e : JobError} {endedAt : Instant} {batch : List ClaimedJob}
    (hc : Current s) (hw : s.workers.row w = some (.recording job (.error e) endedAt batch))
    (hr : s.queue.row job.id = some r) (hclaimed : r.claimedBy = some w)
    (hspent : r.attempts = r.maxAttempts) (jitter : Nat) :
    ∃ s' r', step env s (.record w true jitter) = some s' ∧
      s'.queue.row job.id = some r' ∧ r'.state = .failed := by
  have hjob := hc w _ job r hw (List.mem_cons_self ..) hr hclaimed
  have hbudget : ¬ job.attempts < job.maxAttempts := by
    rw [hjob]
    exact Int.not_lt.mpr hspent.ge
  obtain ⟨error, hfail⟩ : ∃ error, recordOutcome env s.queue s.now w job (.error e) endedAt
      jitter = .returned (fail s.queue s.now job.id w error) := by
    cases e with
    | failed error => exact ⟨error, if_neg hbudget⟩
    | permanent error => exact ⟨error, rfl⟩
  have hheld : heldBy job.id w job.id r = true := by simp [heldBy, hclaimed]
  have hrow : (fail s.queue s.now job.id w error).row job.id = some
      { r with
        state := .failed, finishedAt := some s.now, lastError := some error,
        claimedBy := none, leaseExpiresAt := none, heartbeatAt := none } := by
    rw [fail, Table.row_update, hr, Option.map_some, if_pos hheld]
  refine ⟨(s.setQueue (fail s.queue s.now job.id w error)).setPhase w (.idle batch), _, ?_, hrow,
    rfl⟩
  simp only [step, hw, hfail, if_true]

/-- In every run in which no claim takes over a last attempt and no worker is lost with
one, the attempts and the handler starts of a row stay within its budget, and with the
last attempt the row is over: the worker that has it in hand dead-letters it when it
fails. -/
theorem attempts_bounded {now : Instant} {ls : List Label} {x : Sys × List ClaimedJob}
    (hrun : CountedRun env (Sys.init now, []) ls x) : Budgeted env x.1 x.2 := by
  have h := frugally_run hrun
  constructor
  · intro i r hr hmax
    exact (h.budgets i r hr).attempts hmax
  · intro i r hr hmax
    have hle := (h.budgets i r hr).attempts hmax
    exact (h.tallied.executions_le hr (h.budgets i r hr).nonneg).trans hle
  · intro i r hr hmax hspent
    cases hstate : r.state with
    | pending =>
      have hlt := (h.budgets i r hr).pending hmax hstate
      omega
    | running =>
      exact .inr (.inr ⟨rfl, h.lastInHand i r hr (spent_iff.mpr ⟨hmax, hstate, hspent.ge⟩)⟩)
    | succeeded => exact .inl rfl
    | failed => exact .inr (.inl rfl)
  · intro w job e endedAt batch r jitter hw hr hclaimed _ hspent
    exact record_deadLetters h.current hw hr hclaimed hspent jitter

/-- An `email.send` row with one attempt, which worker 1 claims and starts. -/
def oneAttempt : List Label :=
  .submit jobEmailSend (.obj []) 0 (some 1) none :: bootAndStart 1 [1, 2, 3]

/-- The handler kills worker 1, the lease runs out, and worker 2 claims the row and
starts the handler again. -/
def killedTwice : List Label :=
  oneAttempt ++ [.crash 1, .tick 601000000] ++ bootAndStart 2 [1, 2, 3]

/-- The handler of a job with a budget of one attempt is started twice. -/
theorem not_budgeted_killedTwice :
    ∃ x, Runs.Run (fun x l x' => countedStep builtin x l = some x') (Sys.init 0, [])
        killedTwice x ∧ executions x.2 1 = 2 ∧ ¬ Budgeted builtin x.1 x.2 := by
  have hrun : ∃ x r, Runs.Run (fun x l x' => countedStep builtin x l = some x')
        (Sys.init 0, []) killedTwice x ∧ x.1.queue.row 1 = some r ∧ r.maxAttempts = 1 ∧
      r.attempts = 2 ∧ executions x.2 1 = 2 :=
    ⟨_, _, Runs.Run.of_foldlM rfl, rfl, rfl, rfl, rfl⟩
  obtain ⟨x, r, hrun, hr, hmax, hattempts, htwice⟩ := hrun
  refine ⟨x, hrun, htwice, fun h => ?_⟩
  have hle := h.attempts 1 r hr (by omega)
  omega

/-- The handler of a job with two attempts kills worker 1, and on the last attempt it fails
in the hands of worker 2. -/
def killedThenFailed : List Label :=
  .submit jobEmailSend (.obj []) 0 (some 2) none :: bootAndStart 1 [1, 2, 3] ++
    [.crash 1, .tick 601000000] ++ bootAndStart 2 [1, 2, 3] ++
    [.finish 2 (.error (.failed "smtp")), .record 2 true 0]

theorem attempts_bounded_failed :
    ∃ x, CountedRun builtin (Sys.init 0, []) killedThenFailed x ∧
      ((x.1.queue.row 1).map fun r => (r.state, r.attempts)) = some (.failed, 2) ∧
      executions x.2 1 = 2 ∧ Budgeted builtin x.1 x.2 := by
  have hrun : ∃ x, CountedRun builtin (Sys.init 0, []) killedThenFailed x ∧
      ((x.1.queue.row 1).map fun r => (r.state, r.attempts)) = some (.failed, 2) ∧
      executions x.2 1 = 2 :=
    ⟨_, Runs.Run.guarded_of_foldlM rfl, rfl, rfl⟩
  obtain ⟨x, hrun, hrow, hstarted⟩ := hrun
  exact ⟨x, hrun, hrow, hstarted, attempts_bounded hrun⟩

end BikesNest.Jobs
