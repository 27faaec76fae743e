import BikesNest.Auth.Sessions
import BikesNest.Lib.Run
import BikesNest.Privacy.RetentionJob

/-!
# Inactivity over a run

Sign-ins, uses of sessions and runs of the retention job.  The only record of a
use is `last_seen_at` of the session, and it goes with the row: the purge of the
same job deletes the sessions that are past their end or idle for too long, and an
account without sessions counts as last seen on the day it was created.

* `History` is the database with the uses that were accepted and those that were
  written to a row.
* `Retained` is the invariant: a written use that the purge spares still stands
  in a row.
* `onRecord` is the condition on a run of the job, and `spares_active_along` the
  result.  `spares_active_iff` says that no weaker condition would do.
-/

namespace BikesNest.Privacy

open Domain Store Relational Auth

/-! ## The history of a run -/

/-- A use that was written to a session of the account that ends at
`expiresAt`. -/
structure WrittenUse where
  userId : UserId
  expiresAt : Instant
  seenAt : Instant

/-- The database, the accepted uses with the time of each, and the written uses. -/
structure History where
  db : Db
  accepted : List (UserId × Instant) := []
  written : List WrittenUse := []

/-- An order in which the database may answer the rows of a query. -/
structure RowOrder where
  arrange : List UserId → List UserId
  perm : ∀ ids, (arrange ids).Perm ids

/-- What a run fixes. -/
structure Deployment where
  deps : Deps
  job : RetentionJob

/-- A step of a run. -/
inductive ActivityOp where
  | wait (duration : Nat)
  | signIn (u : UserId) (ports : Ports)
  | use (raw : Token)
  | retention (storage : ObjectStorage) (order : RowOrder)

/-- The rows that `resolve` writes. -/
def refreshed (deps : Deps) (db : Db) (raw : Token) : List WrittenUse :=
  (db.sessions.select fun _ r =>
    r.tokenHash == deps.sha256Hex raw.bytes && isStale db.now r).map fun x =>
      ⟨x.2.userId, x.2.expiresAt, db.now⟩

/-- A session of the account was accepted. -/
def acceptedUse (result : Except AuthError (Option Session)) (now : Instant) :
    List (UserId × Instant) :=
  match result with
  | .ok (some session) => [(session.userId, now)]
  | _ => []

/-- A sign-in that answers `Ok` has written the first use of a session. -/
def firstUse (result : Except AuthError LoginOutcome) (now : Instant) : List WrittenUse :=
  match result with
  | .ok outcome => [⟨outcome.user.id, now + absoluteCap, now⟩]
  | .error _ => []

/-- The steps of an account that signs in. -/
def signInAs (deps : Deps) (ports : Ports) (u : UserId) : Service Db AuthError LoginOutcome := do
  let found ← read fun db => findById deps.cases db u
  match found with
  | none => Service.throw .invalidCredentials
  | some user => signIn deps ports user

/-- One step of a run. -/
def History.exec (env : Deployment) (s : History) : ActivityOp → History
  | .wait duration => { s with db := { s.db with now := s.db.now + duration } }
  | .signIn u ports =>
    let outcome := (signInAs env.deps ports u).run s.db
    { s with db := outcome.2, written := firstUse outcome.1 s.db.now ++ s.written }
  | .use raw =>
    let outcome := (resolve env.deps raw s.db.now).run s.db
    { db := outcome.2, accepted := acceptedUse outcome.1 s.db.now ++ s.accepted
      written := refreshed env.deps s.db raw ++ s.written }
  | .retention storage order =>
    { s with db := ((env.job.run env.deps.cases storage order.arrange s.db.now).run s.db).2 }

/-- The cut-off of the inactive-account step. -/
def RetentionJob.cutoff (job : RetentionJob) (now : Instant) : Instant :=
  now - job.config.inactiveAccountAnonymizeAfterDays * day

/-- A run of the job anonymizes only accounts none of whose sessions was accepted
since the cut-off. -/
def SparesActive (env : Deployment) (s : History) : ActivityOp → Prop
  | .retention storage order =>
    ∀ u t, isAlive s.db u = true →
      stateOf (s.exec env (.retention storage order)).db u = some .deleted →
      (u, t) ∈ s.accepted → t < env.job.cutoff s.db.now
  | _ => True

/-- The account would be anonymized if it had no session. -/
def isExposed (job : RetentionJob) (db : Db) (u : UserId) : Bool :=
  (db.users.row u).any fun r =>
    r.accountState != .deleted && !isAdmin db u && r.createdAt < job.cutoff db.now

/-- The use stands in a row that the purge spares, and is not before the
cut-off. -/
def WrittenUse.counts (w : WrittenUse) (job : RetentionJob) (now : Instant) : Bool :=
  now ≤ w.expiresAt && now - job.policy.sessionIdle ≤ w.seenAt && job.cutoff now ≤ w.seenAt

/-- Every exposed account with a session accepted since the cut-off has a written
use that counts. -/
def onRecord (env : Deployment) (s : History) : ActivityOp → Bool
  | .retention _ _ =>
    env.job.config.inactiveAccountAnonymizeAfterDays == 0 ||
      s.accepted.all fun x =>
        x.2 < env.job.cutoff s.db.now || !isExposed env.job s.db x.1 ||
          s.written.any fun w => w.userId == x.1 && w.counts env.job s.db.now
  | _ => true

variable {env : Deployment} {s : History} {db db' : Db} {u : UserId}

/-! ## What the steps write -/

/-- The first session row of a sign-in. -/
structure IsFirstUse (db : Db) (u : UserId) (x : Session) : Prop where
  user : x.userId = u
  expires : x.expiresAt = db.now + absoluteCap
  seen : x.lastSeenAt = db.now

/-- A sign-in writes one session, or none when it fails. -/
theorem signIn_run (deps : Deps) (ports : Ports) (user : LoadedUser)
    (hrow : (db.users.row user.id).isSome = true) :
    (∃ e, (signIn deps ports user).run db = (.error e, db)) ∨
      ∃ x event, IsFirstUse db user.id x ∧ (signIn deps ports user).run db =
        (.ok ⟨ports.generate 0, ports.generate 1, fromUser user⟩,
          audited { db with sessions := db.sessions.insert x } event) := by
  rw [signIn, Service.run_bind, Service.run_require]
  cases user.accountState.canLogIn with
  | false => exact .inl ⟨.invalidCredentials, rfl⟩
  | true =>
    rw [if_pos rfl]
    dsimp only
    rw [Service.run_bind, Auth.repo, Service.run_request]
    cases hcreate : createSession deps db user.id (ports.generate 0) (ports.generate 1) with
    | error e => exact .inl ⟨e, rfl⟩
    | ok created =>
      obtain ⟨-, rfl⟩ := createSession_eq_ok hcreate
      refine .inr ⟨_, _, ?_, Service.run_bind_of_ok (audit_run _ rfl hrow)⟩
      exact ⟨rfl, rfl, rfl⟩

theorem signInAs_run (deps : Deps) (ports : Ports) (u : UserId) (db : Db) :
    (∃ e, (signInAs deps ports u).run db = (.error e, db)) ∨
      ∃ outcome x event, outcome.user.id = u ∧ IsFirstUse db u x ∧
        (signInAs deps ports u).run db =
          (.ok outcome, audited { db with sessions := db.sessions.insert x } event) := by
  unfold signInAs Auth.read Auth.repo
  rw [Service.run_bind, Service.run_request]
  simp only [findById]
  cases hrow : db.users.row u with
  | none => exact .inl ⟨_, rfl⟩
  | some row =>
    simp only [loadUser]
    cases UserEmail.parse deps.cases row.email with
    | error e => exact .inl ⟨_, rfl⟩
    | ok email =>
      simp only [Except.map]
      rcases signIn_run deps ports ⟨u, email, row.displayName, row.accountState,
        row.emailVerifiedAt, _, row.locale⟩ (by rw [hrow]; rfl) with ⟨e, hrun⟩ | ⟨x, event, hx, hrun⟩
      · exact .inl ⟨e, hrun⟩
      · exact .inr ⟨_, x, event, rfl, hx, hrun⟩

/-! ## The last time an account was seen -/

theorem le_lastSeen {k : Nat} {x : Session} (hx : db.sessions.row k = some x)
    (createdAt : Instant) : x.lastSeenAt ≤ lastSeen db x.userId createdAt := by
  have hmem : x.lastSeenAt ∈
      (db.sessions.select fun _ s => s.userId == x.userId).map fun x => x.2.lastSeenAt :=
    List.mem_map.mpr ⟨(k, x), Table.mem_select.mpr ⟨hx, beq_self_eq_true _⟩, rfl⟩
  unfold lastSeen
  cases hmax : ((db.sessions.select fun _ s => s.userId == x.userId).map
      fun x => x.2.lastSeenAt).max? with
  | none =>
    rw [List.max?_eq_none_iff] at hmax
    rw [hmax] at hmem
    cases hmem
  | some m => exact (List.max?_le_iff hmax).mp le_rfl _ hmem

/-- An account was last seen when one of its sessions was, or when it was
created. -/
theorem lastSeen_cases (db : Db) (u : UserId) (createdAt : Instant) :
    lastSeen db u createdAt = createdAt ∨
      ∃ k x, db.sessions.row k = some x ∧ x.userId = u ∧
        lastSeen db u createdAt = x.lastSeenAt := by
  unfold lastSeen
  cases hmax : ((db.sessions.select fun _ s => s.userId == u).map
      fun x => x.2.lastSeenAt).max? with
  | none => exact .inl rfl
  | some m =>
    obtain ⟨⟨k, x⟩, hmem, hseen⟩ := List.mem_map.mp (List.max?_mem hmax)
    obtain ⟨hx, huser⟩ := Table.mem_select.mp hmem
    exact .inr ⟨k, x, hx, by simpa using huser, hseen.symm⟩

/-! ## The invariant -/

/-- Accounts are created before the time it is, and before their sessions are
seen. -/
structure Dated (db : Db) : Prop where
  users : ∀ v r, db.users.row v = some r → r.createdAt ≤ db.now
  sessions : ∀ k x r, db.sessions.row k = some x → db.users.row x.userId = some r →
    r.createdAt ≤ x.lastSeenAt

/-- The use stands in a row, or a later one does. -/
def WrittenUse.StandsIn (w : WrittenUse) (db : Db) : Prop :=
  ∃ k x, db.sessions.row k = some x ∧ x.userId = w.userId ∧ x.expiresAt = w.expiresAt ∧
    w.seenAt ≤ x.lastSeenAt

/-- The use that a row stands for. -/
def lastUse (x : Session) : WrittenUse := ⟨x.userId, x.expiresAt, x.lastSeenAt⟩

/-- The purge of sessions spares the use. -/
def WrittenUse.Fresh (w : WrittenUse) (policy : RetentionPolicy) (now : Instant) : Prop :=
  now ≤ w.expiresAt ∧ now - policy.sessionIdle ≤ w.seenAt

/-- A written use of an account that the purge spares still stands in a row, and
every row stands for a written use. -/
structure Retained (policy : RetentionPolicy) (s : History) : Prop where
  dated : Dated s.db
  written : ∀ w ∈ s.written, isAlive s.db w.userId = true → w.Fresh policy s.db.now →
    w.StandsIn s.db
  rows : ∀ k x, s.db.sessions.row k = some x → lastUse x ∈ s.written

/-- The history that starts with the rows of a database. -/
def History.start (db : Db) : History where
  db := db
  written := db.sessions.rows.map fun x => lastUse x.2

variable {policy : RetentionPolicy}

theorem Retained.start (h : Dated db) : Retained policy (History.start db) := by
  refine ⟨h, fun w hw _ _ => ?_, fun k x hx => ?_⟩
  · obtain ⟨⟨k, x⟩, hmem, rfl⟩ := List.mem_map.mp hw
    exact ⟨k, x, Table.mem_rows.mp hmem, rfl, rfl, le_rfl⟩
  · exact List.mem_map.mpr ⟨(k, x), Table.mem_rows.mpr hx, rfl⟩

/-- Time passes. -/
theorem Retained.wait (h : Retained policy s) (duration : Nat) :
    Retained policy { s with db := { s.db with now := s.db.now + duration } } := by
  have hlater : s.db.now ≤ s.db.now + duration :=
    Int.le_add_of_nonneg_right (Int.natCast_nonneg duration)
  refine ⟨⟨fun v r hr => (h.dated.users v r hr).trans hlater, h.dated.sessions⟩,
    fun w hw halive hfresh => ?_, h.rows⟩
  exact h.written w hw halive
    ⟨hlater.trans hfresh.1, (Int.sub_le_sub_right hlater policy.sessionIdle).trans hfresh.2⟩

/-- A sign-in adds a row. -/
theorem Retained.signIn (h : Retained policy s) {x : Session} (hx : IsFirstUse s.db u x)
    (event : NewAuditEvent) :
    Retained policy
      { s with
        db := audited { s.db with sessions := s.db.sessions.insert x } event
        written := ⟨u, s.db.now + absoluteCap, s.db.now⟩ :: s.written } := by
  refine ⟨⟨h.dated.users, fun k y r hy hr => ?_⟩, fun w hw halive hfresh => ?_, fun k y hy => ?_⟩
  · rcases Table.row_insert_eq_some.mp hy with ⟨-, rfl⟩ | hold
    · rw [hx.seen]
      exact h.dated.users _ r hr
    · exact h.dated.sessions k y r hold hr
  · rcases List.mem_cons.mp hw with rfl | hold
    · exact ⟨s.db.sessions.next, x, Table.row_insert_next .., hx.user, hx.expires, hx.seen.ge⟩
    · obtain ⟨k, y, hy, hstands⟩ := h.written w hold halive hfresh
      exact ⟨k, y, Table.row_insert_of_some _ hy, hstands⟩
  · rcases Table.row_insert_eq_some.mp hy with ⟨-, rfl⟩ | hold
    · rw [lastUse, hx.user, hx.expires, hx.seen]
      exact List.mem_cons_self ..
    · exact List.mem_cons_of_mem _ (h.rows k y hold)

/-- A row after a use: it is as before, or stands for a use that was written. -/
theorem row_touched (deps : Deps) (raw : Token) {k : Nat} {y : Session}
    (hy : db.sessions.row k = some y) :
    ∃ x, (touched deps db raw db.now).sessions.row k = some x ∧ x.userId = y.userId ∧
      x.expiresAt = y.expiresAt ∧ y.lastSeenAt ≤ x.lastSeenAt ∧
      (x = y ∨ lastUse x ∈ refreshed deps db raw) := by
  by_cases hwrites : (y.tokenHash == deps.sha256Hex raw.bytes && isStale db.now y) = true
  · refine ⟨{ y with lastSeenAt := db.now },
      Table.row_update_eq_some.mpr ⟨y, hy, (if_pos hwrites).symm⟩, rfl, rfl, ?_, .inr ?_⟩
    · simp only [isStale, Bool.and_eq_true, decide_eq_true_eq] at hwrites
      exact hwrites.2.2.le.trans (Int.sub_le_self _ (by decide))
    · exact List.mem_map.mpr ⟨(k, y), Table.mem_select.mpr ⟨hy, hwrites⟩, rfl⟩
  · exact ⟨y, Table.row_update_eq_some.mpr ⟨y, hy, (if_neg hwrites).symm⟩, rfl, rfl, le_rfl,
      .inl rfl⟩

/-- A use moves the stale rows on. -/
theorem Retained.use (h : Retained policy s) (deps : Deps) (raw : Token)
    (accepted : List (UserId × Instant)) :
    Retained policy
      { db := touched deps s.db raw s.db.now, accepted
        written := refreshed deps s.db raw ++ s.written } := by
  have hrow : ∀ k x, (touched deps s.db raw s.db.now).sessions.row k = some x →
      ∃ y, s.db.sessions.row k = some y ∧ x.userId = y.userId ∧ y.lastSeenAt ≤ x.lastSeenAt ∧
        (x = y ∨ lastUse x ∈ refreshed deps s.db raw) := by
    intro k x hx
    obtain ⟨y, hy, -⟩ := Table.row_update_eq_some.mp hx
    obtain ⟨x', hx', huser, -, hseen, huse⟩ := row_touched deps raw hy
    obtain rfl : x = x' := Option.some.inj (hx.symm.trans hx')
    exact ⟨y, hy, huser, hseen, huse⟩
  refine ⟨⟨h.dated.users, fun k x r hx hr => ?_⟩, fun w hw halive hfresh => ?_, fun k x hx => ?_⟩
  · obtain ⟨y, hy, huser, hseen, -⟩ := hrow k x hx
    rw [huser] at hr
    exact (h.dated.sessions k y r hy hr).trans hseen
  · rcases List.mem_append.mp hw with hnew | hold
    · obtain ⟨⟨k, y⟩, hmem, rfl⟩ := List.mem_map.mp hnew
      obtain ⟨hy, hwrites⟩ := Table.mem_select.mp hmem
      exact ⟨k, { y with lastSeenAt := s.db.now },
        Table.row_update_eq_some.mpr ⟨y, hy, (if_pos hwrites).symm⟩, rfl, rfl, le_rfl⟩
    · obtain ⟨k, y, hy, huser, hexpires, hseen⟩ := h.written w hold halive hfresh
      obtain ⟨x, hx, huser', hexpires', hseen', -⟩ := row_touched deps raw hy
      exact ⟨k, x, hx, huser'.trans huser, hexpires'.trans hexpires, hseen.trans hseen'⟩
  · obtain ⟨y, hy, -, -, rfl | hnew⟩ := hrow k x hx
    · exact List.mem_append_right _ (h.rows k x hy)
    · exact List.mem_append_left _ hnew

/-- The rows that the default steps of a run leave. -/
theorem row_defaultSteps {job : RetentionJob} {storage : ObjectStorage} {now : Instant} {k : Nat}
    {x : Session} :
    ((job.defaultSteps storage now).run db).2.sessions.row k = some x ↔
      db.sessions.row k = some x ∧ isExpired job.policy now x = false := by
  have hsessions : ((job.defaultSteps storage now).run db).2.sessions =
      db.sessions.delete fun _ r => isExpired job.policy now r :=
    congrArg (fun a => a.2.2.1) (defaultSteps_activity job storage now db)
  rw [hsessions, Table.row_delete_eq_some]

theorem isExpired_eq_false {now : Instant} {x : Session} :
    isExpired policy now x = false ↔ (lastUse x).Fresh policy now := by
  simp only [isExpired, Bool.or_eq_false_iff, decide_eq_false_iff_not, not_lt]
  rfl

/-- A run of the job keeps the invariant, whether or not it comes to its end. -/
theorem Retained.retention {job : RetentionJob} {cases : Text.CaseMap}
    (h : Retained job.policy s) (storage : ObjectStorage) (arrange : List UserId → List UserId) :
    Retained job.policy
      { s with db := ((job.run cases storage arrange s.db.now).run s.db).2 } := by
  have hactivity := defaultSteps_activity job storage s.db.now s.db
  have husers : ((job.defaultSteps storage s.db.now).run s.db).2.users = s.db.users :=
    congrArg Prod.fst hactivity
  have hnow : ((job.defaultSteps storage s.db.now).run s.db).2.now = s.db.now :=
    congrArg (fun a => a.2.2.2) hactivity
  have hculled := run_culled cases job storage arrange s.db.now s.db
  refine ⟨⟨fun v r hr => ?_, fun k x r hx hr => ?_⟩, fun w hw halive hfresh => ?_, fun k x hx => ?_⟩
  · obtain ⟨r', hr', hcreated⟩ := hculled.created v r hr
    rw [husers] at hr'
    rw [hcreated]
    show r'.createdAt ≤ ((job.run cases storage arrange s.db.now).run s.db).2.now
    rw [hculled.now, hnow]
    exact h.dated.users v r' hr'
  · obtain ⟨r', hr', hcreated⟩ := hculled.created x.userId r hr
    rw [husers] at hr'
    rw [hcreated]
    exact h.dated.sessions k x r' (row_defaultSteps.mp (hculled.before k x hx)).1 hr'
  · have hthere : isAlive s.db w.userId = true := by
      rw [isAlive, ← husers]
      exact hculled.alive w.userId halive
    have hfresh' : w.Fresh job.policy s.db.now := by
      rw [← hnow, ← hculled.now]
      exact hfresh
    obtain ⟨k, x, hx, huser, hexpires, hseen⟩ := h.written w hw hthere hfresh'
    refine ⟨k, x, hculled.after k x (row_defaultSteps.mpr ⟨hx, ?_⟩) ?_, huser, hexpires, hseen⟩
    · exact isExpired_eq_false.mpr ⟨hfresh'.1.trans hexpires.ge, hfresh'.2.trans hseen⟩
    · rw [huser]
      exact halive
  · exact h.rows k x (row_defaultSteps.mp (hculled.before k x hx)).1

theorem Retained.exec (h : Retained env.job.policy s) (op : ActivityOp) :
    Retained env.job.policy (s.exec env op) := by
  cases op with
  | wait duration => exact h.wait duration
  | signIn u ports =>
    rw [History.exec]
    rcases signInAs_run env.deps ports u s.db with ⟨e, hrun⟩ | ⟨outcome, x, event, hid, hx, hrun⟩
    · rw [hrun]
      exact h
    · rw [hrun]
      simp only [firstUse, hid]
      exact h.signIn hx event
  | use raw =>
    rw [History.exec]
    simp only [resolve_run]
    exact h.use env.deps raw _
  | retention storage order => exact h.retention storage order.arrange

/-! ## Who is a candidate -/

/-- The query of a run selects the exposed accounts that were not seen since the
cut-off in any session that the purge spares. -/
theorem mem_candidates {job : RetentionJob} {storage : ObjectStorage} :
    u ∈ inactiveCandidates ((job.defaultSteps storage db.now).run db).2 (job.cutoff db.now) ↔
      ∃ r, db.users.row u = some r ∧ r.accountState ≠ .deleted ∧ isAdmin db u = false ∧
        lastSeen ((job.defaultSteps storage db.now).run db).2 u r.createdAt < job.cutoff db.now := by
  have hactivity := defaultSteps_activity job storage db.now db
  have husers : ((job.defaultSteps storage db.now).run db).2.users = db.users :=
    congrArg Prod.fst hactivity
  have hroles : ((job.defaultSteps storage db.now).run db).2.userRoles = db.userRoles :=
    congrArg (fun a => a.2.1) hactivity
  have hadmin : isAdmin ((job.defaultSteps storage db.now).run db).2 u = isAdmin db u := by
    rw [isAdmin, hroles]
    rfl
  rw [inactiveCandidates, List.mem_map]
  constructor
  · rintro ⟨⟨v, r⟩, hmem, rfl⟩
    obtain ⟨hr, hcandidate⟩ := Table.mem_select.mp hmem
    simp only [Bool.and_eq_true, bne_iff_ne, Bool.not_eq_true', decide_eq_true_eq,
      hadmin] at hcandidate
    rw [husers] at hr
    exact ⟨r, hr, hcandidate.1.1, hcandidate.1.2, hcandidate.2⟩
  · rintro ⟨r, hr, hstate, hadmin', hseen⟩
    refine ⟨(u, r), Table.mem_select.mpr ⟨by rw [husers, hr], ?_⟩, rfl⟩
    simp only [Bool.and_eq_true, bne_iff_ne, Bool.not_eq_true', decide_eq_true_eq, hadmin]
    exact ⟨⟨hstate, hadmin'⟩, hseen⟩

theorem isExposed_iff {job : RetentionJob} :
    isExposed job db u = true ↔ ∃ r, db.users.row u = some r ∧ r.accountState ≠ .deleted ∧
      isAdmin db u = false ∧ r.createdAt < job.cutoff db.now := by
  simp only [isExposed, Option.any_eq_true, Bool.and_eq_true, bne_iff_ne, Bool.not_eq_true',
    decide_eq_true_eq, and_assoc]

/-- An account is selected exactly when it is exposed and no written use of it
counts. -/
theorem candidate_iff {job : RetentionJob} (h : Retained job.policy s) (storage : ObjectStorage)
    (u : UserId) :
    u ∈ inactiveCandidates ((job.defaultSteps storage s.db.now).run s.db).2
        (job.cutoff s.db.now) ↔
      isExposed job s.db u = true ∧
        ∀ w ∈ s.written, w.userId = u → w.counts job s.db.now = false := by
  rw [mem_candidates, isExposed_iff]
  constructor
  · rintro ⟨r, hr, hstate, hadmin, hseen⟩
    have halive : isAlive s.db u = true := by
      rw [isAlive, hr]
      simpa using hstate
    refine ⟨⟨r, hr, hstate, hadmin, ?_⟩, fun w hw huser => ?_⟩
    · rcases lastSeen_cases ((job.defaultSteps storage s.db.now).run s.db).2 u r.createdAt with
        heq | ⟨k, x, hx, huser, heq⟩
      · rwa [heq] at hseen
      · rw [heq] at hseen
        have hrow : s.db.users.row x.userId = some r := by rw [huser, hr]
        exact (h.dated.sessions k x r (row_defaultSteps.mp hx).1 hrow).trans_lt hseen
    · by_contra hcounts
      simp only [WrittenUse.counts, Bool.not_eq_false, Bool.and_eq_true,
        decide_eq_true_eq] at hcounts
      obtain ⟨⟨hexpires, hidle⟩, hcutoff⟩ := hcounts
      obtain ⟨k, x, hx, huser', hends, hlater⟩ :=
        h.written w hw (by rwa [huser]) ⟨hexpires, hidle⟩
      have hspared : isExpired job.policy s.db.now x = false :=
        isExpired_eq_false.mpr ⟨hexpires.trans hends.ge, hidle.trans hlater⟩
      have hleft : ((job.defaultSteps storage s.db.now).run s.db).2.sessions.row k = some x :=
        row_defaultSteps.mpr ⟨hx, hspared⟩
      have hmax := le_lastSeen hleft r.createdAt
      rw [huser', huser] at hmax
      exact absurd hseen (not_lt.mpr (hcutoff.trans (hlater.trans hmax)))
  · rintro ⟨⟨r, hr, hstate, hadmin, hcreated⟩, hnone⟩
    refine ⟨r, hr, hstate, hadmin, ?_⟩
    rcases lastSeen_cases ((job.defaultSteps storage s.db.now).run s.db).2 u r.createdAt with
      heq | ⟨k, x, hx, huser, heq⟩
    · rwa [heq]
    · rw [heq]
      obtain ⟨hrow, hspared⟩ := row_defaultSteps.mp hx
      have hfresh := isExpired_eq_false.mp hspared
      have hcounts := hnone (lastUse x) (h.rows k x hrow) huser
      simp only [WrittenUse.counts, Bool.and_eq_false_iff, decide_eq_false_iff_not] at hcounts
      rcases hcounts with (hexpires | hidle) | hcutoff
      · exact absurd hfresh.1 hexpires
      · exact absurd hfresh.2 hidle
      · exact not_le.mp hcutoff

/-! ## Who is anonymized in a run -/

/-- A run of the job whose active accounts are on record anonymizes none of
them. -/
theorem spares_active (h : Retained env.job.policy s) (op : ActivityOp)
    (hrecord : onRecord env s op = true) : SparesActive env s op := by
  cases op with
  | wait | signIn | use => trivial
  | retention storage order =>
    intro u t halive hdeleted haccepted
    obtain ⟨hdays, hmem⟩ := run_anonymizes halive hdeleted
    obtain ⟨hexposed, hnone⟩ := (candidate_iff h storage u).mp ((order.perm _).mem_iff.mp hmem)
    rw [onRecord, Bool.or_eq_true, beq_iff_eq] at hrecord
    have hall := hrecord.resolve_left hdays.ne'
    have hcase := List.all_eq_true.mp hall (u, t) haccepted
    simp only [hexposed, Bool.not_true, Bool.or_false, Bool.or_eq_true, decide_eq_true_eq,
      List.any_eq_true, Bool.and_eq_true, beq_iff_eq] at hcase
    rcases hcase with hold | ⟨w, hw, huser, hcounts⟩
    · exact hold
    · rw [hnone w hw huser] at hcounts
      cases hcounts

/-- The condition is exact: a run that comes to its end spares the active accounts
only if they are on record. -/
theorem spares_active_iff (h : Retained env.job.policy s) {storage : ObjectStorage}
    {order : RowOrder} {counts : List (String × Nat)}
    (hrun : ((env.job.run env.deps.cases storage order.arrange s.db.now).run s.db).1 =
      .ok counts) :
    SparesActive env s (.retention storage order) ↔
      onRecord env s (.retention storage order) = true := by
  refine ⟨fun hspares => ?_, spares_active h _⟩
  by_contra hnot
  rw [onRecord, Bool.or_eq_true, not_or, beq_iff_eq, List.all_eq_true] at hnot
  obtain ⟨hdays, hall⟩ := hnot
  push Not at hall
  obtain ⟨⟨u, t⟩, haccepted, hcase⟩ := hall
  simp only [ne_eq, Bool.not_eq_true, Bool.or_eq_false_iff, decide_eq_false_iff_not,
    Bool.not_eq_false', List.any_eq_false, Bool.and_eq_true, beq_iff_eq, not_and] at hcase
  obtain ⟨⟨hrecent, hexposed⟩, hnone⟩ := hcase
  obtain ⟨r, hr, hstate, -⟩ := isExposed_iff.mp hexposed
  have hmem := (order.perm _).mem_iff.mpr ((candidate_iff h storage u).mpr ⟨hexposed, hnone⟩)
  have hdeleted := run_anonymizes_all (Prod.ext hrun rfl) (Nat.pos_of_ne_zero hdays) hmem
    (by rw [hr]; rfl)
  exact hrecent (hspares u t (by rw [isAlive, hr]; simpa using hstate) hdeleted haccepted)

/-- In a history from dated rows whose runs of the job all find the active
accounts on record, no run anonymizes an account with a session that was accepted
since the cut-off. -/
theorem spares_active_along (env : Deployment) (db : Db) (ops : List ActivityOp)
    (hdated : Dated db)
    (h : Runs.Along (History.exec env) (fun s op => onRecord env s op = true) (History.start db)
      ops) :
    Runs.Along (History.exec env) (SparesActive env) (History.start db) ops :=
  Runs.Along.mono (fun _ op hs => Retained.exec hs op) (fun _ op hs => spares_active hs op)
    (Retained.start hdated) h

/-! ## A rider who signs in and out of sight -/

/-- A deployment that anonymizes after so many days. -/
def anonymizingAfter (days : Nat) : Deployment where
  deps := sampleDeps
  job := { config := ⟨days⟩ }

/-- A store without uploads. -/
def noObjects : ObjectStorage where
  pages := 1
  list _ := .ok ⟨[], none⟩
  containsKey _ := .ok false
  delete _ := .ok ()

/-- The database answers the rows as they are stored. -/
def asStored : RowOrder where
  arrange := id
  perm _ := .rfl

/-- So many days in microseconds. -/
def days (n : Nat) : Nat := n * 86400000000

/-- The rider signs in on the day of the registration and comes back on day 25. -/
def riderComesBack : List ActivityOp :=
  [.signIn 1 (samplePorts zeroToken), .wait (days 25), .use zeroToken]

theorem dated_oneRider : Dated oneRider := by
  refine ⟨fun v r hr => ?_, fun k x r hx _ => ?_⟩
  · have hall : (oneRider.users.rows.all fun x => x.2.createdAt ≤ oneRider.now) = true := by
      decide +kernel
    simpa using List.all_eq_true.mp hall (v, r) (Table.mem_rows.mpr hr)
  · have hnone : (oneRider.sessions.any fun _ _ => true) = false := by decide +kernel
    have hfalse := Table.any_eq_false_iff.mp hnone k x hx
    cases hfalse

/-- On day 50 the rider was seen 25 days ago, and on day 150 not for 40 days. -/
theorem spares_active_along_rider :
    Runs.Along (History.exec (anonymizingAfter 40)) (SparesActive (anonymizingAfter 40))
      (History.start oneRider)
      (riderComesBack ++ [.wait (days 25), .retention noObjects asStored, .wait (days 100),
        .retention noObjects asStored]) := by
  refine spares_active_along _ _ _ dated_oneRider ?_
  refine ⟨rfl, rfl, rfl, rfl, ?_, rfl, ?_, trivial⟩
  · decide +kernel
  · decide +kernel

/-- On day 100 the session of day 25 is purged, and the rider is anonymized
although 90 days have not passed. -/
theorem not_spares_active_rider :
    ¬ Runs.Along (History.exec (anonymizingAfter 90)) (SparesActive (anonymizingAfter 90))
      (History.start oneRider)
      (riderComesBack ++ [.wait (days 75), .retention noObjects asStored]) := by
  intro h
  have hspares := h.2.2.2.2.1
  have hold := hspares 1 (25 * day) (by decide +kernel) (by decide +kernel) (by decide +kernel)
  exact absurd hold (by decide +kernel)

end BikesNest.Privacy
