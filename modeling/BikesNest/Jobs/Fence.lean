import BikesNest.Jobs.Exclusive

/-!
# The fence of the outcome writes

Every write that follows a claim is scoped to `claimed_by`, the id of the
worker.  The id does not name the claim, so a worker that held two claims of one
row could write the outcome of the first over the second.

* `Ledger` is a record of the run that no worker sees: it numbers the claim
  statements, and lists the claims whose outcome was recorded.
* `Carried` is what every step except a claim does to the claims: no row gets a
  holder, and no worker gets a job.
* `Fenced` is the invariant.  It holds because a worker claims again only with
  empty hands, so all its jobs come from the statement it ran last.
-/

namespace BikesNest.Jobs

open Relational

/-! ## The ledger of a run -/

instance (q : JobQueue) (w : WorkerId) (id : Nat) : Decidable (Holds q w id) :=
  decidable_of_iff ((q.row id).any fun r => r.claimedBy == some w)
    (by simp [Holds, Option.any_eq_true])

/-- What has been claimed and recorded so far.  A claim is a pair: the number of
the statement, and the row it took. -/
structure Ledger where
  /-- The number of the next claim statement. -/
  calls : Nat
  /-- The claim statement that each worker ran last. -/
  call : WorkerId → Nat
  /-- The statement that claimed each row last. -/
  latest : Nat → Option Nat
  /-- The claims whose outcome was recorded, the last one first. -/
  recorded : List (Nat × Nat)

/-- Nothing is claimed. -/
def Ledger.init : Ledger where
  calls := 0
  call _ := 0
  latest _ := none
  recorded := []

/-- The worker that writes an outcome, and the job it writes the outcome of. -/
def Label.outcome (s : Sys) : Label → Option (WorkerId × ClaimedJob)
  | .reject w true | .record w true _ =>
    (s.workers.row w).bind fun p => p.jobs.head?.map fun job => (w, job)
  | _ => none

/-- The rows that a claim takes. -/
def claimedRows (env : Worker) (s : Sys) (w : WorkerId) (locked : List Nat) : List Nat :=
  (claim s.queue s.now env.config.batchSize w env.config.leaseTtl locked).1.map ClaimedJob.id

/-- The ledger after a step: an outcome is recorded when the write takes the row
from the worker that held it. -/
def Ledger.observe (env : Worker) (g : Ledger) (s : Sys) (l : Label) (s' : Sys) : Ledger :=
  match l with
  | .claim w locked _ =>
    { g with
      calls := g.calls + 1
      call := fun v => if v = w then g.calls else g.call v
      latest := fun i =>
        if i ∈ claimedRows env s w locked then some g.calls else g.latest i }
  | l =>
    match l.outcome s with
    | some (w, job) =>
      if Holds s.queue w job.id ∧ ¬ Holds s'.queue w job.id then
        { g with recorded := (g.call w, job.id) :: g.recorded }
      else g
    | none => g

/-- A step of the workers and of the ledger. -/
def observedStep (env : Worker) (x : Sys × Ledger) (l : Label) : Option (Sys × Ledger) :=
  (step env x.1 l).map fun s' => (s', x.2.observe env x.1 l s')

/-- A finite run of the workers, with its ledger. -/
abbrev ObservedRun (env : Worker) : Sys × Ledger → List Label → Sys × Ledger → Prop :=
  Runs.Run fun x l x' => observedStep env x l = some x'

variable {env : Worker} {s s' : Sys} {w v : WorkerId} {job : ClaimedJob} {q q' : JobQueue}
  {g : Ledger} {l : Label} {p p' : Phase} {i id : Nat} {r : BackgroundJob}

/-! ## What a step does to the claims -/

/-- A claimed row of `q'` has the same holder, and the same columns to hand to
it, in `q`. -/
def Keeps (q q' : JobQueue) : Prop :=
  ∀ i r', q'.row i = some r' → r'.claimedBy ≠ none →
    ∃ r, q.row i = some r ∧ r.claimedBy = r'.claimedBy ∧ r.toClaimed i = r'.toClaimed i

theorem Keeps.refl (q : JobQueue) : Keeps q q :=
  fun _ r hr _ => ⟨r, hr, rfl, rfl⟩

theorem Keeps.of_update {c : Nat → BackgroundJob → Bool} {f : BackgroundJob → BackgroundJob}
    (hf : ∀ i r, c i r = true → (f r).claimedBy ≠ none →
      r.claimedBy = (f r).claimedBy ∧ r.toClaimed i = (f r).toClaimed i) :
    Keeps q (q.update c f) := by
  intro i r' hr' hclaimed
  obtain ⟨r, hr, rfl⟩ := Table.row_update_eq_some.mp hr'
  split at hclaimed
  · rename_i hc
    rw [if_pos hc]
    have hsame := hf i r hc hclaimed
    exact ⟨r, hr, hsame.1, hsame.2⟩
  · rename_i hc
    rw [if_neg hc]
    exact ⟨r, hr, rfl, rfl⟩

theorem keeps_enqueue {kind : String} {payload : Json} {runAt : Instant}
    {maxAttempts : Option Int} {key : Option String} :
    Keeps q (enqueue q kind payload runAt maxAttempts key).2 := by
  unfold enqueue
  split
  · exact Keeps.refl q
  · intro i r' hr' hclaimed
    rcases Table.row_insert_eq_some.mp hr' with ⟨_, rfl⟩ | hold
    · exact absurd rfl hclaimed
    · exact ⟨r', hold, rfl, rfl⟩

theorem keeps_heartbeat {now : Instant} {leaseTtl : Nat} : Keeps q (heartbeat q now id w leaseTtl) :=
  Keeps.of_update fun _ _ _ _ => ⟨rfl, rfl⟩

theorem keeps_release {f : BackgroundJob → BackgroundJob} (hf : Releases f) : Keeps q (q.update (heldBy id w) f) :=
  Keeps.of_update fun _ r _ hclaimed => absurd (hf.claimedBy r) hclaimed

theorem keeps_gc {cutoff : Instant} : Keeps q (gc q cutoff) :=
  fun _ r' hr' _ => ⟨r', (Table.row_delete_eq_some.mp hr').1, rfl, rfl⟩

/-- No row gets a holder and no worker gets a job. -/
structure Carried (s s' : Sys) : Prop where
  rows : Keeps s.queue s'.queue
  jobs : ∀ w p' job, s'.workers.row w = some p' → job ∈ p'.jobs →
    ∃ p, s.workers.row w = some p ∧ job ∈ p.jobs

/-- A worker whose phase change takes no job on carries its jobs. -/
theorem Carried.setPhase (hq : Keeps s.queue q) (hw : s.workers.row w = some p)
    (hsub : p'.jobs ⊆ p.jobs) : Carried s ((s.setQueue q).setPhase w p') where
  rows := hq
  jobs v p'' job hv hjob := by
    rcases row_setPhase hv with ⟨rfl, rfl⟩ | ⟨_, hold⟩
    · exact ⟨p, hw, hsub hjob⟩
    · exact ⟨p'', hold, hjob⟩

/-- Every step except a claim carries the claims on. -/
theorem carried_of_step (hstep : step env s l = some s')
    (hl : ∀ w locked order, l ≠ .claim w locked order) : Carried s s' := by
  have hsame : ∀ {w p p'}, s.workers.row w = some p → p'.jobs ⊆ p.jobs →
      Carried s (s.setPhase w p') := fun hw hsub => .setPhase (.refl _) hw hsub
  have hdrop : ∀ w, Carried s (s.drop w) := fun w =>
    ⟨.refl _, fun v p' job hv hjob => ⟨p', row_drop hv, hjob⟩⟩
  have hqueue : ∀ {q}, Keeps s.queue q → Carried s (s.setQueue q) := fun hq =>
    ⟨hq, fun v p' job hv hjob => ⟨p', hv, hjob⟩⟩
  cases move_of_step hstep with
  | spawn =>
    refine ⟨.refl _, fun v p' job hv hjob => ?_⟩
    rcases row_spawn hv with rfl | hold
    · cases hjob
    · exact ⟨p', hold, hjob⟩
  | @boot w stored _ _ _ hw =>
    refine .setPhase ?_ hw (List.Subset.refl _)
    cases stored with
    | false => exact .refl _
    | true => exact keeps_enqueue
  | booted hw => exact hsame hw (List.Subset.refl _)
  | submit => exact hqueue keeps_enqueue
  | claim => exact absurd rfl (hl _ _ _)
  | start hw => exact hsame hw (List.Subset.refl _)
  | @reject w stored job batch hw =>
    refine .setPhase ?_ hw (List.subset_cons_self _ _)
    cases stored with
    | false => exact .refl _
    | true =>
      obtain ⟨f, hq, hf⟩ := rejectJob_releases s.queue s.now w job
      rw [if_pos rfl, hq]
      exact keeps_release hf
  | heartbeat hw => exact .setPhase keeps_heartbeat hw (List.Subset.refl _)
  | heartbeatLost hw => exact hsame hw (List.Subset.refl _)
  | finish hw => exact hsame hw (List.Subset.refl _)
  | @record w stored _ _ _ _ _ _ hw hq =>
    refine .setPhase ?_ hw (List.subset_cons_self _ _)
    cases stored with
    | false => exact .refl _
    | true =>
      obtain ⟨f, rfl, hf⟩ := recordOutcome_releases hq
      exact keeps_release hf
  | recordPanic => exact hdrop _
  | crash => exact hdrop _
  | gc => exact hqueue keeps_gc
  | tick => exact ⟨.refl _, fun v p' job hv hjob => ⟨p', hv, hjob⟩⟩

theorem claimedRows_eq (env : Worker) (s : Sys) (w : WorkerId) (locked : List Nat) :
    claimedRows env s w locked =
      (candidates s.queue s.now env.config.batchSize locked none).map Prod.fst := by
  simp [claimedRows, claim, claimInner, BackgroundJob.toClaimed, Function.comp_def]

/-- A claim takes each row or leaves it, and the worker had empty hands. -/
structure Claims (env : Worker) (s : Sys) (w : WorkerId) (locked : List Nat) (s' : Sys) :
    Prop where
  idle : s.workers.row w = some (.idle [])
  row : ∀ i r', s'.queue.row i = some r' →
    (i ∈ claimedRows env s w locked ∧
      ∃ r, s.queue.row i = some r ∧ claimable s.now r = true ∧
        r' = r.claimed s.now w env.config.leaseTtl) ∨
    (i ∉ claimedRows env s w locked ∧ s.queue.row i = some r')
  jobs : ∀ v p' job, s'.workers.row v = some p' → job ∈ p'.jobs →
    (v = w ∧ job.id ∈ claimedRows env s w locked ∧
      ∃ r', s'.queue.row job.id = some r' ∧ job = r'.toClaimed job.id) ∨
    (v ≠ w ∧ s.workers.row v = some p')

theorem claims_of_step {locked order : List Nat}
    (hstep : step env s (.claim w locked order) = some s') : Claims env s w locked s' := by
  simp only [step] at hstep
  split at hstep
  · rename_i hw
    split at hstep
    · cases hstep
      refine ⟨hw, fun i r' hr' => ?_, fun v p' job hv hjob => ?_⟩
      · obtain ⟨r, hr, rfl⟩ := Table.row_update_eq_some.mp hr'
        rw [claimedRows_eq]
        split
        · rename_i hpicked
          rw [List.contains_iff_mem] at hpicked
          refine Or.inl ⟨hpicked, ?_⟩
          obtain ⟨⟨j, x⟩, hmem, rfl⟩ := List.mem_map.mp hpicked
          obtain ⟨hrow, hclaimable⟩ := claimable_of_mem_candidates hmem
          obtain rfl : r = x := Option.some.inj (hr.symm.trans hrow)
          exact ⟨r, hr, hclaimable, rfl⟩
        · rename_i hpicked
          rw [List.contains_iff_mem] at hpicked
          exact Or.inr ⟨hpicked, hr⟩
      · rcases row_setPhase hv with ⟨rfl, rfl⟩ | ⟨hne, hold⟩
        · have hmem := mem_of_mem_returnedIn hjob
          obtain ⟨r, _, _, hjob, hrow⟩ := mem_claimInner hmem
          exact Or.inl ⟨rfl, List.mem_map_of_mem hmem, _, hrow, hjob⟩
        · exact Or.inr ⟨hne, hold⟩
    · cases hstep
  · cases hstep

/-! ## The invariant -/

/-- The claim that a worker holds is the last one of its row, and a row that is
held has no recorded outcome under its last claim. -/
structure Fenced (s : Sys) (g : Ledger) : Prop where
  latest : ∀ w p job r, s.workers.row w = some p → job ∈ p.jobs →
    s.queue.row job.id = some r → r.claimedBy = some w → g.latest job.id = some (g.call w)
  unrecorded : ∀ i r n, s.queue.row i = some r → r.claimedBy ≠ none →
    g.latest i = some n → (n, i) ∉ g.recorded
  issued : ∀ i n, g.latest i = some n → n < g.calls
  past : ∀ n i, (n, i) ∈ g.recorded → n < g.calls
  once : g.recorded.Nodup

theorem fenced_init (now : Instant) : Fenced (Sys.init now) Ledger.init := by
  constructor
  · intro w p job r hw
    cases hw
  · intro i r n hr
    cases hr
  · intro i n hlatest
    cases hlatest
  · intro n i hrecorded
    cases hrecorded
  · exact List.nodup_nil

/-- The statements that carry the claims keep the invariant, as long as the
ledger stays. -/
theorem Fenced.carried (h : Fenced s g) (hc : Carried s s') : Fenced s' g := by
  refine ⟨fun w p' job r' hw hjob hr' hclaimed => ?_, fun i r' n hr' hclaimed hlatest => ?_,
    h.issued, h.past, h.once⟩
  · obtain ⟨p, hp, hjob⟩ := hc.jobs w p' job hw hjob
    obtain ⟨r, hr, hholder, _⟩ := hc.rows _ r' hr' (by simp [hclaimed])
    exact h.latest w p job r hp hjob hr (hholder.trans hclaimed)
  · obtain ⟨r, hr, hholder, _⟩ := hc.rows i r' hr' hclaimed
    exact h.unrecorded i r n hr (hholder ▸ hclaimed) hlatest

/-- A claim gets a number of its own, so nothing was recorded under it. -/
theorem Fenced.claim {locked order : List Nat} (h : Fenced s g)
    (hc : Claims env s w locked s') :
    Fenced s' (g.observe env s (.claim w locked order) s') := by
  refine ⟨fun v p' job r' hv hjob hr' hclaimed => ?_,
    fun i r' n hr' hclaimed hlatest => ?_, fun i n hlatest => ?_,
    fun n i hrecorded => (h.past n i hrecorded).trans (Nat.lt_succ_self _), h.once⟩
  · show (if job.id ∈ claimedRows env s w locked then some g.calls else g.latest job.id) =
      some (if v = w then g.calls else g.call v)
    rcases hc.jobs v p' job hv hjob with ⟨rfl, htaken, _⟩ | ⟨hne, hold⟩
    · rw [if_pos htaken, if_pos rfl]
    · rcases hc.row job.id r' hr' with ⟨_, r, _, _, rfl⟩ | ⟨hleft, hr⟩
      · -- The row is the claiming worker's now.
        exact absurd (Option.some.inj hclaimed).symm hne
      · rw [if_neg hleft, if_neg hne]
        exact h.latest v p' job r' hold hjob hr hclaimed
  · change (if i ∈ claimedRows env s w locked then some g.calls else g.latest i) = some n
      at hlatest
    rcases hc.row i r' hr' with ⟨htaken, _⟩ | ⟨hleft, hr⟩
    · rw [if_pos htaken] at hlatest
      cases hlatest
      intro hrecorded
      exact (h.past _ _ hrecorded).false
    · rw [if_neg hleft] at hlatest
      exact h.unrecorded i r' n hr hclaimed hlatest
  · change (if i ∈ claimedRows env s w locked then some g.calls else g.latest i) = some n
      at hlatest
    split at hlatest
    · cases hlatest
      exact Nat.lt_succ_self _
    · exact (h.issued i n hlatest).trans (Nat.lt_succ_self _)

/-- The row that loses its holder gets its outcome recorded under its last
claim. -/
theorem Fenced.record (h : Fenced s g) (hc : Carried s s') (hw : s.workers.row w = some p)
    (hjob : job ∈ p.jobs) (hholds : Holds s.queue w job.id)
    (hlost : ∀ v, ¬ Holds s'.queue v job.id) :
    Fenced s' { g with recorded := (g.call w, job.id) :: g.recorded } := by
  have hcarried := h.carried hc
  obtain ⟨r, hr, hclaimed⟩ := hholds
  have hlatest := h.latest w p job r hw hjob hr hclaimed
  have hnew : (g.call w, job.id) ∉ g.recorded :=
    h.unrecorded job.id r (g.call w) hr (by simp [hclaimed]) hlatest
  refine ⟨hcarried.latest, fun i r' n hr' hclaimed' hn => ?_, h.issued,
    fun n i hrecorded => ?_, List.nodup_cons.mpr ⟨hnew, h.once⟩⟩
  · intro hrecorded
    rcases List.mem_cons.mp hrecorded with heq | hold
    · cases heq
      obtain ⟨v, hv⟩ := Option.ne_none_iff_exists'.mp hclaimed'
      exact hlost v ⟨r', hr', hv⟩
    · exact hcarried.unrecorded i r' n hr' hclaimed' hn hold
  · rcases List.mem_cons.mp hrecorded with heq | hold
    · cases heq
      exact h.issued _ _ hlatest
    · exact h.past n i hold

/-! ## The outcome writes -/

/-- An outcome write is scoped to the row and its holder, and lets the row
go. -/
theorem outcome_write (hstep : step env s l = some s') (hl : l.outcome s = some (w, job)) :
    (∃ p, s.workers.row w = some p ∧ job ∈ p.jobs) ∧
      (s'.queue = s.queue ∨
        ∃ f, Releases f ∧ s'.queue = s.queue.update (heldBy job.id w) f) := by
  cases l with
  | reject v stored =>
    cases stored with
    | false => cases hl
    | true =>
      simp only [step] at hstep
      split at hstep
      · rename_i job' batch hw
        split at hstep
        · cases hstep
        · cases hstep
          simp only [Label.outcome, hw, Option.bind_some, Phase.jobs, List.head?_cons,
            Option.map_some, Option.some.injEq, Prod.mk.injEq] at hl
          obtain ⟨rfl, rfl⟩ := hl
          obtain ⟨f, hq, hf⟩ := rejectJob_releases s.queue s.now v job'
          exact ⟨⟨_, hw, List.mem_cons_self ..⟩, Or.inr ⟨f, hf, hq⟩⟩
      · cases hstep
  | record v stored jitter =>
    cases stored with
    | false => cases hl
    | true =>
      simp only [step] at hstep
      split at hstep
      · rename_i job' result endedAt batch hw
        simp only [Label.outcome, hw, Option.bind_some, Phase.jobs, List.head?_cons,
          Option.map_some, Option.some.injEq, Prod.mk.injEq] at hl
        obtain ⟨rfl, rfl⟩ := hl
        refine ⟨⟨_, hw, List.mem_cons_self ..⟩, ?_⟩
        split at hstep
        · rename_i q hq
          cases hstep
          obtain ⟨f, rfl, hf⟩ := recordOutcome_releases hq
          exact Or.inr ⟨f, hf, rfl⟩
        · cases hstep
          exact Or.inl rfl
      · cases hstep
  | _ => cases hl

/-- A write scoped to a row that the worker does not hold changes nothing. -/
theorem update_of_not_holds {f : BackgroundJob → BackgroundJob} (h : ¬ Holds q w id) :
    q.update (heldBy id w) f = q := by
  have hrow : ∀ i, (q.update (heldBy id w) f).row i = q.row i := by
    intro i
    rw [Table.row_update]
    cases hr : q.row i with
    | none => rfl
    | some r =>
      have hheld : heldBy id w i r = false := by
        rw [Bool.eq_false_iff]
        intro hheld
        simp only [heldBy, Bool.and_eq_true, beq_iff_eq] at hheld
        exact h ⟨r, hheld.1 ▸ hr, hheld.2⟩
      simp [hheld]
  unfold Table.update at hrow ⊢
  congr
  exact funext hrow

/-- A write scoped to a row that the worker holds leaves the row without a
holder, and the other rows alone. -/
theorem update_of_holds {f : BackgroundJob → BackgroundJob} (hf : Releases f)
    (h : Holds q w id) :
    (∀ v, ¬ Holds (q.update (heldBy id w) f) v id) ∧
      ∀ i, i ≠ id → (q.update (heldBy id w) f).row i = q.row i := by
  obtain ⟨r, hr, hclaimed⟩ := h
  constructor
  · rintro v ⟨r', hr', hholder⟩
    have hheld : heldBy id w id r = true := by simp [heldBy, hclaimed]
    rw [Table.row_update, hr, Option.map_some, hheld, if_pos rfl] at hr'
    cases hr'
    rw [hf.claimedBy] at hholder
    cases hholder
  · intro i hne
    have hheld : ∀ r, heldBy id w i r = false := by
      intro r
      simp [heldBy, hne]
    simp [hheld]

/-- The ledger after a step that claims nothing. -/
theorem observe_of_not_claim (hl : ∀ w locked order, l ≠ .claim w locked order) :
    g.observe env s l s' =
      match l.outcome s with
      | some (w, job) =>
        if Holds s.queue w job.id ∧ ¬ Holds s'.queue w job.id then
          { g with recorded := (g.call w, job.id) :: g.recorded }
        else g
      | none => g := by
  cases l with
  | claim w locked order => exact absurd rfl (hl _ _ _)
  | _ => rfl

/-- One step keeps the invariant. -/
theorem fenced_step (h : Fenced s g) (hstep : step env s l = some s') :
    Fenced s' (g.observe env s l s') := by
  by_cases hclaim : ∃ w locked order, l = .claim w locked order
  · obtain ⟨w, locked, order, rfl⟩ := hclaim
    exact h.claim (claims_of_step hstep)
  · have hl : ∀ w locked order, l ≠ .claim w locked order := fun w locked order heq =>
      hclaim ⟨w, locked, order, heq⟩
    have hc := carried_of_step hstep hl
    rw [observe_of_not_claim hl]
    cases hout : l.outcome s with
    | none => exact h.carried hc
    | some x =>
      dsimp only
      split
      · rename_i hholds
        obtain ⟨⟨p, hp, hjob⟩, hq⟩ := outcome_write hstep hout
        refine h.record hc hp hjob hholds.1 ?_
        rcases hq with hsame | ⟨f, hf, hq⟩
        · exact absurd (hsame ▸ hholds.1) hholds.2
        · rw [hq]
          exact (update_of_holds hf hholds.1).1
      · exact h.carried hc

/-- Every state of a run from the empty queue is fenced. -/
theorem fenced_run {now : Instant} {ls : List Label} {x : Sys × Ledger}
    (hrun : ObservedRun env (Sys.init now, Ledger.init) ls x) : Fenced x.1 x.2 := by
  refine hrun.invariant (I := fun x => Fenced x.1 x.2) ?_ (fenced_init now)
  intro x l x' hx hstep
  obtain ⟨s', hs', rfl⟩ := Option.map_eq_some_iff.mp hstep
  exact fenced_step hx hs'

/-! ## The law -/

/-- A write of the outcome of `job` by `w` that is its own: it changes the queue
only under the last claim of the row, which is the claim that the worker has the
job from and has no outcome yet, and then the outcome is recorded under that
claim.  It changes no other row. -/
structure OwnOutcome (env : Worker) (s : Sys) (g : Ledger) (l : Label) (s' : Sys)
    (w : WorkerId) (job : ClaimedJob) : Prop where
  own : s'.queue ≠ s.queue →
    g.latest job.id = some (g.call w) ∧ (g.call w, job.id) ∉ g.recorded ∧
      (g.observe env s l s').recorded = (g.call w, job.id) :: g.recorded
  others : ∀ i, i ≠ job.id → s'.queue.row i = s.queue.row i

/-- In every run no outcome is written over the claim of another worker or over
another claim of the same worker, and no claim gets two outcomes. -/
theorem outcomes_fenced {now : Instant} {ls : List Label}
    (hrun : ObservedRun env (Sys.init now, Ledger.init) ls (s, g)) :
    g.recorded.Nodup ∧
      ∀ l s' w job, step env s l = some s' → l.outcome s = some (w, job) →
        OwnOutcome env s g l s' w job := by
  have h := fenced_run hrun
  refine ⟨h.once, fun l s' w job hstep hout => ?_⟩
  obtain ⟨⟨p, hp, hjob⟩, hq⟩ := outcome_write hstep hout
  by_cases hholds : Holds s.queue w job.id
  · obtain ⟨r, hr, hclaimed⟩ := id hholds
    have hlatest := h.latest w p job r hp hjob hr hclaimed
    rcases hq with hsame | ⟨f, hf, hq⟩
    · exact ⟨fun hne => absurd hsame hne, fun i _ => by rw [hsame]⟩
    · have hlost := update_of_holds hf hholds
      rw [← hq] at hlost
      refine ⟨fun _ => ⟨hlatest, ?_, ?_⟩, hlost.2⟩
      · exact h.unrecorded job.id r (g.call w) hr (by simp [hclaimed]) hlatest
      · have hl : ∀ v locked order, l ≠ .claim v locked order := by
          intro v locked order heq
          rw [heq] at hout
          cases hout
        rw [observe_of_not_claim hl, hout]
        dsimp only
        rw [if_pos ⟨hholds, hlost.1 w⟩]
  · have hsame : s'.queue = s.queue := by
      rcases hq with hsame | ⟨f, _, hq⟩
      · exact hsame
      · rw [hq, update_of_not_holds hholds]
    exact ⟨fun hne => absurd hsame hne, fun i _ => by rw [hsame]⟩

/-- Worker 1 comes to its second job after worker 2 has claimed it, and writes
its outcome while worker 2 runs it: the write changes nothing. -/
theorem outcomes_fenced_slowFirstJob :
    ∃ s g s', ObservedRun builtin (Sys.init 0, Ledger.init)
        (slowFirstJob ++ [.finish 1 (.ok ())]) (s, g) ∧
      step builtin s (.record 1 true 0) = some s' ∧
      g.latest 2 ≠ some (g.call 1) ∧ s'.queue = s.queue := by
  have hrun : ∃ s g s' job, ObservedRun builtin (Sys.init 0, Ledger.init)
        (slowFirstJob ++ [.finish 1 (.ok ())]) (s, g) ∧
      step builtin s (.record 1 true 0) = some s' ∧
      Label.outcome s (.record 1 true 0) = some (1, job) ∧ job.id = 2 ∧
      g.latest 2 = some 1 ∧ g.call 1 = 0 :=
    ⟨_, _, _, _, Runs.Run.of_foldlM rfl, rfl, rfl, rfl, rfl, rfl⟩
  obtain ⟨s, g, s', job, hrun, hstep, hout, hid, hlatest, hcall⟩ := hrun
  have hne : g.latest 2 ≠ some (g.call 1) := by
    rw [hlatest, hcall]
    decide
  refine ⟨s, g, s', hrun, hstep, hne, ?_⟩
  by_contra hchanged
  have hown := ((outcomes_fenced hrun).2 _ s' 1 job hstep hout).own hchanged
  exact hne (hid ▸ hown.1)

end BikesNest.Jobs
