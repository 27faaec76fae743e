import BikesNest.Jobs.Repo

/-!
# The rows of the job queue

Any workers run the statements of `SqlxJobRepository` in any order, with any arguments.
`Effect` says once what a statement does to a row: it leaves it, leases it or releases it.
From that follow the invariant `Orderly` and what a run does to one row.
-/

namespace BikesNest.Jobs

open Relational

/-! ## Statements -/

/-- A statement of the repository, with the clock and the rows that other transactions
hold where it reads them. -/
inductive JobStatement where
  | enqueue (kind : String) (payload : Json) (runAt : Instant) (maxAttempts : Option Int)
      (idempotencyKey : Option String)
  | claim (now : Instant) (batch : Nat) (worker : WorkerId) (leaseTtl : Nat) (locked : List Nat)
      (kinds : Option (List String))
  | heartbeat (now : Instant) (id : Nat) (worker : WorkerId) (leaseTtl : Nat)
  | finishSuccess (id : Nat) (worker : WorkerId) (nextRunAt : Option Instant)
      (finishedAt : Instant)
  | retry (id : Nat) (worker : WorkerId) (error : String) (runAt : Instant)
  | fail (now : Instant) (id : Nat) (worker : WorkerId) (error : String)
  | gc (cutoff : Instant)

/-- The queue after a statement. -/
def execute (q : JobQueue) : JobStatement → JobQueue
  | .enqueue kind payload runAt maxAttempts idempotencyKey =>
    (Jobs.enqueue q kind payload runAt maxAttempts idempotencyKey).2
  | .claim now batch worker leaseTtl locked kinds =>
    (claimInner q now batch worker leaseTtl locked kinds).2
  | .heartbeat now id worker leaseTtl => Jobs.heartbeat q now id worker leaseTtl
  | .finishSuccess id worker nextRunAt finishedAt =>
    Jobs.finishSuccess q id worker nextRunAt finishedAt
  | .retry id worker error runAt => Jobs.retry q id worker error runAt
  | .fail now id worker error => Jobs.fail q now id worker error
  | .gc cutoff => Jobs.gc q cutoff

/-- The queue after the statements. -/
def queueAfter (q : JobQueue) (ls : List JobStatement) : JobQueue := ls.foldl execute q

/-! ## What a statement does to a row -/

/-- `succeeded` or `failed`. -/
def BackgroundJob.isTerminal (r : BackgroundJob) : Bool :=
  r.state == .succeeded || r.state == .failed

/-- A running row has an owner and a lease, and no other row has either. -/
structure LeaseMatches (r : BackgroundJob) : Prop where
  running : r.state = .running → r.claimedBy.isSome = true ∧ r.leaseExpiresAt.isSome = true
  idle : r.state ≠ .running → r.claimedBy = none ∧ r.leaseExpiresAt = none

/-- A statement leaves a row, leases one that is not terminal, or releases one that is
claimed. -/
inductive Effect (r x : BackgroundJob) : Prop where
  | same (h : x = r)
  | leased (hfrom : r.isTerminal = false) (hkey : x.idempotencyKey = r.idempotencyKey)
      (hstate : x.state = .running) (hclaimed : x.claimedBy.isSome = true)
      (hlease : x.leaseExpiresAt.isSome = true)
  | released (hfrom : r.claimedBy.isSome = true) (hkey : x.idempotencyKey = r.idempotencyKey)
      (hstate : x.state ≠ .running) (hclaimed : x.claimedBy = none)
      (hlease : x.leaseExpiresAt = none)

namespace Effect

variable {r x : BackgroundJob}

theorem key (h : Effect r x) : x.idempotencyKey = r.idempotencyKey := by
  cases h with
  | same h => rw [h]
  | leased _ hkey => exact hkey
  | released _ hkey => exact hkey

theorem leaseMatches (h : Effect r x) (hr : LeaseMatches r) : LeaseMatches x := by
  cases h with
  | same h =>
    rw [h]
    exact hr
  | leased _ _ hstate hclaimed hlease =>
    exact ⟨fun _ => ⟨hclaimed, hlease⟩, fun hidle => absurd hstate hidle⟩
  | released _ _ hstate hclaimed hlease =>
    exact ⟨fun hrunning => absurd hrunning hstate, fun _ => ⟨hclaimed, hlease⟩⟩

/-- A terminal row has no owner, so no statement finds it. -/
theorem terminal (h : Effect r x) (hr : LeaseMatches r) (hterminal : r.isTerminal = true) :
    x = r := by
  cases h with
  | same h => exact h
  | leased hfrom =>
    rw [hterminal] at hfrom
    cases hfrom
  | released hfrom =>
    have hidle : r.state ≠ .running := by
      intro hrunning
      simp [BackgroundJob.isTerminal, hrunning] at hterminal
    rw [(hr.idle hidle).1] at hfrom
    cases hfrom

end Effect

variable {q : JobQueue} {i : Nat} {r x : BackgroundJob} {l : JobStatement}

/-- A statement that gives a claim back, and leaves the row when another worker has it. -/
theorem effect_heldBy {id : Nat} {w : WorkerId} {f : BackgroundJob → BackgroundJob}
    (h : q.row i = some r) (hkey : (f r).idempotencyKey = r.idempotencyKey)
    (hstate : (f r).state ≠ .running) (hclaimed : (f r).claimedBy = none)
    (hlease : (f r).leaseExpiresAt = none) :
    ∃ x, (q.update (heldBy id w) f).row i = some x ∧ Effect r x := by
  refine ⟨_, Table.row_update_of_some _ f h, ?_⟩
  split
  · rename_i hheld
    refine .released ?_ hkey hstate hclaimed hlease
    simp only [heldBy, Bool.and_eq_true, beq_iff_eq] at hheld
    rw [hheld.2]
    rfl
  · exact .same rfl

/-- A row stays, or is a terminal one that a collection deletes. -/
theorem row_execute (l : JobStatement) (h : q.row i = some r) :
    (∃ x, (execute q l).row i = some x ∧ Effect r x) ∨
      ∃ cutoff t, l = .gc cutoff ∧ r.isTerminal = true ∧ r.finishedAt = some t ∧ t < cutoff ∧
        (execute q l).row i = none := by
  cases l with
  | enqueue kind payload runAt maxAttempts key =>
    exact .inl ⟨r, row_enqueue_of_some h, .same rfl⟩
  | claim now batch w leaseTtl locked kinds =>
    left
    rcases row_claimInner h with hsame | ⟨hclaimable, htaken⟩
    · exact ⟨r, hsame, .same rfl⟩
    · refine ⟨_, htaken, .leased ?_ rfl rfl rfl rfl⟩
      simp only [claimable, Bool.and_eq_true, Bool.or_eq_true, beq_iff_eq] at hclaimable
      rcases hclaimable.1 with hpending | ⟨hrunning, _⟩
      · simp [BackgroundJob.isTerminal, hpending]
      · simp [BackgroundJob.isTerminal, hrunning]
  | heartbeat now id w leaseTtl =>
    refine .inl ⟨_, Table.row_update_of_some _ _ h, ?_⟩
    split
    · rename_i hheld
      simp only [Bool.and_eq_true, beq_iff_eq] at hheld
      obtain ⟨_, hrunning, hclaimed⟩ := hheld
      exact .leased (by simp [BackgroundJob.isTerminal, hrunning]) rfl hrunning
        (by simp [hclaimed]) rfl
    · exact .same rfl
  | finishSuccess id w nextRunAt finishedAt =>
    left
    cases nextRunAt with
    | some next => exact effect_heldBy h rfl (fun h => by cases h) rfl rfl
    | none => exact effect_heldBy h rfl (fun h => by cases h) rfl rfl
  | retry id w error runAt => exact .inl (effect_heldBy h rfl (fun h => by cases h) rfl rfl)
  | fail now id w error => exact .inl (effect_heldBy h rfl (fun h => by cases h) rfl rfl)
  | gc cutoff =>
    cases hdeleted : ((r.state == .succeeded || r.state == .failed) &&
        r.finishedAt.any fun t => t < cutoff) with
    | false => exact .inl ⟨r, Table.row_delete_eq_some.mpr ⟨h, hdeleted⟩, .same rfl⟩
    | true =>
      obtain ⟨hterminal, hold⟩ := (Bool.and_eq_true ..).mp hdeleted
      obtain ⟨t, ht, hlt⟩ := (Option.any_eq_true ..).mp hold
      refine .inr ⟨cutoff, t, rfl, hterminal, ht, by simpa using hlt, ?_⟩
      cases hrow : (execute q (.gc cutoff)).row i with
      | none => rfl
      | some x =>
        obtain ⟨hx, hkept⟩ := Table.row_delete_eq_some.mp hrow
        rw [h] at hx
        obtain rfl := Option.some.inj hx
        rw [hdeleted] at hkept
        cases hkept

/-- A new row is pending and unclaimed, and its key is new. -/
theorem row_execute_new (h : q.row i = none) (hx : (execute q l).row i = some x) :
    i = q.next ∧ LeaseMatches x ∧ ∀ j y key, q.row j = some y → x.idempotencyKey = some key →
      y.idempotencyKey ≠ some key := by
  have hupdate : ∀ {p : Nat → BackgroundJob → Bool} {f : BackgroundJob → BackgroundJob},
      (q.update p f).row i ≠ some x := by
    intro p f hrow
    obtain ⟨y, hy, _⟩ := Table.row_update_eq_some.mp hrow
    rw [h] at hy
    cases hy
  cases l with
  | enqueue kind payload runAt maxAttempts idempotencyKey =>
    simp only [execute, Jobs.enqueue] at hx
    split at hx
    · rw [h] at hx
      cases hx
    · rename_i hfree
      rcases Table.row_insert_eq_some.mp hx with ⟨hi, rfl⟩ | hold
      · refine ⟨hi, ⟨nofun, fun _ => ⟨rfl, rfl⟩⟩, fun j y key hy hkey hsame => hfree ?_⟩
        have hgiven : idempotencyKey = some key := hkey
        rw [hgiven, Option.isSome_some, Bool.true_and]
        exact Table.any_iff.mpr ⟨j, y, hy, by simp [hsame]⟩
      · rw [h] at hold
        cases hold
  | claim now batch w leaseTtl locked kinds => exact absurd hx hupdate
  | heartbeat now id w leaseTtl => exact absurd hx hupdate
  | finishSuccess id w nextRunAt finishedAt =>
    cases nextRunAt with
    | some next => exact absurd hx hupdate
    | none => exact absurd hx hupdate
  | retry id w error runAt => exact absurd hx hupdate
  | fail now id w error => exact absurd hx hupdate
  | gc cutoff =>
    have hrow := (Table.row_delete_eq_some.mp hx).1
    rw [h] at hrow
    cases hrow

/-! ## The invariant -/

/-- Every row matches its lease, and no key stands on two rows. -/
structure Orderly (q : JobQueue) : Prop where
  rows : ∀ {i r}, q.row i = some r → LeaseMatches r
  keys : ∀ {i j r r' key}, q.row i = some r → q.row j = some r' → r.idempotencyKey = some key →
    r'.idempotencyKey = some key → i = j

theorem orderly_empty : Orderly (Table.empty : JobQueue) where
  rows h := by cases h
  keys h := by cases h

/-- A row after a statement is new or has a row before it. -/
theorem row_execute_cases (hx : (execute q l).row i = some x) :
    q.row i = none ∨ ∃ r, q.row i = some r ∧ Effect r x := by
  cases hr : q.row i with
  | none => exact .inl rfl
  | some r =>
    rcases row_execute l hr with ⟨y, hy, heffect⟩ | ⟨_, _, _, _, _, _, hgone⟩
    · rw [hx] at hy
      obtain rfl := Option.some.inj hy
      exact .inr ⟨r, rfl, heffect⟩
    · rw [hx] at hgone
      cases hgone

theorem Orderly.execute (h : Orderly q) (l : JobStatement) : Orderly (execute q l) := by
  refine ⟨fun {i x} hx => ?_, fun {i j x y key} hx hy hkey hkey' => ?_⟩
  · rcases row_execute_cases hx with hnew | ⟨r, hr, heffect⟩
    · exact (row_execute_new hnew hx).2.1
    · exact heffect.leaseMatches (h.rows hr)
  · rcases row_execute_cases hx with hnew | ⟨r, hr, heffect⟩
    · obtain ⟨hi, _, hfresh⟩ := row_execute_new hnew hx
      rcases row_execute_cases hy with hnew' | ⟨r', hr', heffect'⟩
      · rw [hi, (row_execute_new hnew' hy).1]
      · exact absurd (heffect'.key ▸ hkey') (hfresh j r' key hr' hkey)
    · rcases row_execute_cases hy with hnew' | ⟨r', hr', heffect'⟩
      · obtain ⟨_, _, hfresh⟩ := row_execute_new hnew' hy
        exact absurd (heffect.key ▸ hkey) (hfresh i r key hr hkey')
      · exact h.keys hr hr' (heffect.key ▸ hkey) (heffect'.key ▸ hkey')

theorem Orderly.after (h : Orderly q) (ls : List JobStatement) : Orderly (queueAfter q ls) := by
  induction ls generalizing q with
  | nil => exact h
  | cons l ls ih => exact ih (h.execute l)

/-! ## One row in a run -/

theorem next_execute_le (q : JobQueue) (l : JobStatement) : q.next ≤ (execute q l).next := by
  cases l with
  | enqueue kind payload runAt maxAttempts key =>
    simp only [execute, Jobs.enqueue]
    split
    · exact le_rfl
    · exact Nat.le_succ _
  | finishSuccess id w nextRunAt finishedAt => cases nextRunAt <;> exact le_rfl
  | claim | heartbeat | retry | fail | gc => exact le_rfl

/-- A key that is gone is not used again. -/
theorem gone_after (ls : List JobStatement) (hi : i < q.next) (h : q.row i = none) :
    (queueAfter q ls).row i = none := by
  induction ls generalizing q with
  | nil => exact h
  | cons l ls ih =>
    refine ih (Nat.lt_of_lt_of_le hi (next_execute_le q l)) ?_
    cases hx : (execute q l).row i with
    | none => rfl
    | some x =>
      have hnext := (row_execute_new h hx).1
      omega

/-- A terminal row stays as it is until a collection deletes it. -/
theorem terminal_after (hq : Orderly q) (h : q.row i = some r) (hterminal : r.isTerminal = true)
    (ls : List JobStatement) :
    (queueAfter q ls).row i = some r ∨
      (queueAfter q ls).row i = none ∧
        ∃ cutoff t, .gc cutoff ∈ ls ∧ r.finishedAt = some t ∧ t < cutoff := by
  induction ls generalizing q with
  | nil => exact .inl h
  | cons l ls ih =>
    rcases row_execute l h with ⟨x, hx, heffect⟩ | ⟨cutoff, t, rfl, _, ht, hlt, hgone⟩
    · rw [heffect.terminal (hq.rows h) hterminal] at hx
      refine (ih (hq.execute l) hx).imp_right fun ⟨hnone, cutoff, t, hmem, hold⟩ => ?_
      exact ⟨hnone, cutoff, t, List.mem_cons_of_mem l hmem, hold⟩
    · have hlater : i < (execute q (.gc cutoff)).next :=
        Nat.lt_of_lt_of_le (Table.lt_next h) (next_execute_le q _)
      exact .inr ⟨gone_after ls hlater hgone, cutoff, t, List.mem_cons_self, ht, hlt⟩

/-- A row is there until it has been terminal. -/
theorem present_after (h : q.row i = some r) (ls : List JobStatement) :
    (∃ x, (queueAfter q ls).row i = some x) ∨
      ∃ ls₁ ls₂ x, ls = ls₁ ++ ls₂ ∧ (queueAfter q ls₁).row i = some x ∧ x.isTerminal = true := by
  induction ls generalizing q r with
  | nil => exact .inl ⟨r, h⟩
  | cons l ls ih =>
    rcases row_execute l h with ⟨x, hx, _⟩ | ⟨_, _, _, hterminal, _⟩
    · refine (ih hx).imp_right fun ⟨ls₁, ls₂, y, hsplit, hy, hterminal⟩ => ?_
      exact ⟨l :: ls₁, ls₂, y, by rw [hsplit, List.cons_append], hy, hterminal⟩
    · exact .inr ⟨[], l :: ls, r, rfl, h, hterminal⟩

/-- A claim takes no terminal row. -/
theorem claim_ne_terminal {now : Instant} {batch leaseTtl : Nat} {w : WorkerId} {locked : List Nat}
    {kinds : Option (List String)} {job : ClaimedJob}
    (hjob : job ∈ (claimInner q now batch w leaseTtl locked kinds).1)
    (h : ∀ r, q.row i = some r → r.isTerminal = true) : job.id ≠ i := by
  rintro rfl
  obtain ⟨r, hr, hclaimable, _⟩ := mem_claimInner hjob
  have hterminal := h r hr
  simp only [claimable, Bool.and_eq_true, Bool.or_eq_true, beq_iff_eq] at hclaimable
  rcases hclaimable.1 with hpending | ⟨hrunning, _⟩
  · simp [BackgroundJob.isTerminal, hpending] at hterminal
  · simp [BackgroundJob.isTerminal, hrunning] at hterminal

theorem row_of_enqueued {kind : String} {payload : Json} {runAt : Instant}
    {maxAttempts : Option Int} {key : Option String} {id : Nat}
    (h : (enqueue q kind payload runAt maxAttempts key).1 = some id) :
    ∃ r, (enqueue q kind payload runAt maxAttempts key).2.row id = some r := by
  unfold enqueue at h ⊢
  split at h
  · cases h
  · rename_i hfree
    rw [if_neg hfree]
    cases h
    exact ⟨_, Table.row_insert_next ..⟩

/-! ## The law -/

/-- After any statements of any workers in any order: a row is running exactly when it has an
owner and a lease; a terminal row stays as it is until a collection deletes it, and no claim
takes it; a key stands on one row; and an enqueued job is there until it has been
terminal. -/
theorem job_rows (ls : List JobStatement) :
    (∀ i r, (queueAfter Table.empty ls).row i = some r →
      (r.state = .running ↔ r.claimedBy.isSome = true ∧ r.leaseExpiresAt.isSome = true)) ∧
    (∀ i r, (queueAfter Table.empty ls).row i = some r → r.isTerminal = true → ∀ ls',
      ((queueAfter (queueAfter Table.empty ls) ls').row i = some r ∨
        (queueAfter (queueAfter Table.empty ls) ls').row i = none ∧
          ∃ cutoff t, .gc cutoff ∈ ls' ∧ r.finishedAt = some t ∧ t < cutoff) ∧
      ∀ now batch w leaseTtl locked kinds,
        ∀ job ∈ (claimInner (queueAfter (queueAfter Table.empty ls) ls') now batch w leaseTtl locked
          kinds).1, job.id ≠ i) ∧
    (∀ i j r r' key, (queueAfter Table.empty ls).row i = some r →
      (queueAfter Table.empty ls).row j = some r' → r.idempotencyKey = some key →
      r'.idempotencyKey = some key → i = j) ∧
    ∀ kind payload runAt maxAttempts key id,
      (enqueue (queueAfter Table.empty ls) kind payload runAt maxAttempts key).1 = some id → ∀ ls',
      (∃ r, (queueAfter (execute (queueAfter Table.empty ls)
          (.enqueue kind payload runAt maxAttempts key)) ls').row id = some r) ∨
        ∃ ls₁ ls₂ r, ls' = ls₁ ++ ls₂ ∧ (queueAfter (execute (queueAfter Table.empty ls)
          (.enqueue kind payload runAt maxAttempts key)) ls₁).row id = some r ∧
          r.isTerminal = true := by
  have hq := orderly_empty.after ls
  refine ⟨fun i r hr => ?_, fun i r hr hterminal ls' => ?_, fun _ _ _ _ _ => hq.keys,
    fun kind payload runAt maxAttempts key id hid ls' => ?_⟩
  · refine ⟨(hq.rows hr).running, fun hleased => ?_⟩
    by_contra hidle
    rw [((hq.rows hr).idle hidle).1] at hleased
    cases hleased.1
  · have hafter := terminal_after hq hr hterminal ls'
    refine ⟨hafter, fun now batch w leaseTtl locked kinds job hjob =>
      claim_ne_terminal hjob fun x hx => ?_⟩
    rcases hafter with hsame | ⟨hnone, _⟩
    · rw [hsame] at hx
      rw [← Option.some.inj hx]
      exact hterminal
    · rw [hnone] at hx
      cases hx
  · obtain ⟨r, hr⟩ := row_of_enqueued hid
    exact present_after hr ls'

end BikesNest.Jobs
