import BikesNest.Privacy.Uploads

/-!
# The retention job

`RetentionJob.run`: seven purges, the inactive-account step of the module before,
the purge of the shells of deleted accounts, and one audit event.  The first step
that fails ends the run.

The object store is a port: `ObjectStorage` holds its answers during one run.

`activity` is what tells whether an account is active: the accounts, the roles and
the sessions.  The default steps purge the expired sessions and leave the rest of
it (`defaultSteps_activity`), the later steps only take away (`run_culled`), and a
run anonymizes nobody but the candidates (`run_anonymizes`).
-/

namespace BikesNest.Privacy

open Domain Store Relational Auth
open Moderation (PhotoKind)

/-! ## The object store -/

inductive StorageError where
  | unavailable
  | notFound
  | unexpected (message : String)
deriving DecidableEq

/-- `storage_err`. -/
def storageErr : StorageError → PrivacyError
  | .unavailable => .unavailable
  | _ => .internal

/-- The answers of the store during one run: to `list` on `uploads/` after each key, of which
the run reads `pages` at most, and about each key. -/
structure ObjectStorage where
  pages : Nat
  list : Option String → Except StorageError ListPage
  containsKey : String → Except StorageError Bool
  delete : String → Except StorageError Unit

/-- One call of the store. -/
def stored {α : Type} (answer : Except StorageError α) : Service Db PrivacyError α :=
  match answer with
  | .ok a => pure a
  | .error e => Service.throw (storageErr e)

/-! ## The purges -/

structure RetentionJob where
  policy : RetentionPolicy := {}
  config : RetentionConfig
  deletedAccountPurgeAfterDays : Nat := 0

/-- `purge_expired_password_reset_tokens`. -/
def purgeExpiredPasswordResetTokens (db : Db) (now : Instant) : Nat × Db :=
  (db.passwordResetTokens.affected fun _ r => r.expiresAt < now,
    { db with passwordResetTokens := db.passwordResetTokens.delete fun _ r => r.expiresAt < now })

/-- `purge_expired_email_verification_tokens`. -/
def purgeExpiredEmailVerificationTokens (db : Db) (now : Instant) : Nat × Db :=
  (db.emailVerificationTokens.affected fun _ r => r.expiresAt < now,
    { db with
      emailVerificationTokens := db.emailVerificationTokens.delete fun _ r => r.expiresAt < now })

/-- The `WHERE` clause of `purge_expired_sessions`. -/
def isExpired (policy : RetentionPolicy) (now : Instant) (r : Session) : Bool :=
  r.expiresAt < now || r.lastSeenAt < now - policy.sessionIdle

/-- `purge_expired_sessions`. -/
def purgeExpiredSessions (policy : RetentionPolicy) (db : Db) (now : Instant) : Nat × Db :=
  (db.sessions.affected fun _ r => isExpired policy now r,
    { db with sessions := db.sessions.delete fun _ r => isExpired policy now r })

/-- `purge_expired_parked_here`. -/
def purgeExpiredParkedHere (db : Db) (now : Instant) : Nat × Db :=
  let expired (_ : Nat) (r : Verification) : Bool :=
    r.kind == .parkedHere && r.expiresAt.any (· < now)
  (db.verification.affected expired, { db with verification := db.verification.delete expired })

/-- `purge_expired_exports`. -/
def purgeExpiredExports (db : Db) (now : Instant) : Nat × Db :=
  (db.personalDataExport.affected fun _ r => r.expiresAt < now,
    { db with personalDataExport := db.personalDataExport.delete fun _ r => r.expiresAt < now })

/-- One purge of rows. -/
def purge (f : Db → Nat × Db) : Service Db PrivacyError Nat := repo fun db => .ok (f db)

/-- The rows, and the answers of the object store. -/
def ObjectStorage.stores (storage : ObjectStorage) : Stores Db where
  query := Service.query .unavailable
  purge := purge
  containsKey key := stored (storage.containsKey key)
  delete key := stored (storage.delete key)

/-! ## The shells of deleted accounts -/

/-- `ON DELETE SET NULL`. -/
def release (gone : UserId → Bool) (column : Option UserId) : Option UserId :=
  column.filter fun u => !gone u

/-- `DELETE FROM users`, with the action of each foreign key on the rows that
refer to an account that is gone. -/
def deleteUsers (db : Db) (p : UserId → User → Bool) : Db :=
  let gone (u : UserId) : Bool := (db.users.row u).any (p u)
  { db with
    users := db.users.delete p
    authenticationIdentities := db.authenticationIdentities.delete fun _ r => gone r.userId
    sessions := db.sessions.delete fun _ r => gone r.userId
    emailVerificationTokens := db.emailVerificationTokens.delete fun _ r => gone r.userId
    passwordResetTokens := db.passwordResetTokens.delete fun _ r => gone r.userId
    userRoles := (db.userRoles.delete fun _ r => gone r.userId).update (fun _ _ => true) fun r =>
      { r with grantedBy := release gone r.grantedBy }
    auditEvents := db.auditEvents.update (fun _ _ => true) fun r =>
      { r with actorUserId := release gone r.actorUserId }
    parkingLocation := db.parkingLocation.update (fun _ _ => true) fun rec =>
      { rec with
        row := { rec.row with creatorId := release gone rec.row.creatorId }
        revisions := rec.revisions.map fun rev =>
          { rev with editorId := release gone rev.editorId } }
    parkingProposal := db.parkingProposal.update (fun _ _ => true) fun r =>
      { r with proposerId := release gone r.proposerId, resolvedBy := release gone r.resolvedBy }
    review := db.review.update (fun _ _ => true) fun r =>
      { r with authorId := release gone r.authorId }
    verification := db.verification.update (fun _ _ => true) fun r =>
      { r with userId := release gone r.userId }
    favorite := db.favorite.delete fun _ r => gone r.userId
    parkingPhoto := db.parkingPhoto.update (fun _ _ => true) fun r =>
      { r with uploaderId := release gone r.uploaderId, reviewedBy := release gone r.reviewedBy }
    reviewPhoto := db.reviewPhoto.update (fun _ _ => true) fun r =>
      { r with uploaderId := release gone r.uploaderId, reviewedBy := release gone r.reviewedBy }
    report := db.report.update (fun _ _ => true) fun r =>
      { r with
        reporterId := release gone r.reporterId, claimedBy := release gone r.claimedBy
        resolvedBy := release gone r.resolvedBy }
    privacyRequest := db.privacyRequest.update (fun _ _ => true) fun r =>
      { r with userId := release gone r.userId, fulfilledBy := release gone r.fulfilledBy }
    personalDataExport := db.personalDataExport.delete fun _ r => gone r.userId
    consentRecord := db.consentRecord.delete fun _ r => gone r.userId }

/-- The `WHERE` clause of `purge_deleted_accounts`. -/
def isShell (cutoff : Instant) (_ : UserId) (r : User) : Bool :=
  r.accountState == .deleted && r.deletedAt.any (· < cutoff)

/-- `purge_deleted_accounts`. -/
def purgeDeletedAccounts (db : Db) (cutoff : Instant) : Nat × Db :=
  (db.users.affected (isShell cutoff), deleteUsers db (isShell cutoff))

/-! ## The job -/

/-- The seven steps that always run. -/
def RetentionJob.defaultSteps (job : RetentionJob) (storage : ObjectStorage) (now : Instant) :
    Service Db PrivacyError (List (String × Nat)) := do
  let resets ← purge fun db => purgeExpiredPasswordResetTokens db now
  let verifications ← purge fun db => purgeExpiredEmailVerificationTokens db now
  let sessions ← purge fun db => purgeExpiredSessions job.policy db now
  let parkedHere ← purge fun db => purgeExpiredParkedHere db now
  let exports ← purge fun db => purgeExpiredExports db now
  let (uploads, _) ← storage.stores.purgeOrphanUploads (fun after => stored (storage.list after))
    job.policy now storage.pages
  let photos ← storage.stores.reconcilePendingPhotos now
  return [("password_reset_tokens", resets), ("email_verification_tokens", verifications),
    ("sessions", sessions), ("parked_here", parkedHere), ("exports", exports),
    ("orphan_uploads", uploads), ("pending_photos", photos)]

/-- The last config-gated step. -/
def RetentionJob.deletedAccountsStep (job : RetentionJob) (now : Instant) :
    Service Db PrivacyError (Option Nat) :=
  if 0 < job.deletedAccountPurgeAfterDays then do
    let count ← purge fun db =>
      purgeDeletedAccounts db (now - job.deletedAccountPurgeAfterDays * day)
    return some count
  else pure none

/-- The audit event of a run. -/
def purgedEvent (counts : List (String × Nat)) : NewAuditEvent where
  actor := none
  action := "retention.purged"
  targetType := "system"
  targetId := "retention"
  metadata := .obj [("steps", .obj (counts.map fun x => (x.1, .int x.2)))]

/-- `RetentionJob::run`. -/
def RetentionJob.run (job : RetentionJob) (cases : Text.CaseMap) (storage : ObjectStorage)
    (arrange : List UserId → List UserId) (now : Instant) :
    Service Db PrivacyError (List (String × Nat)) := do
  let steps ← job.defaultSteps storage now
  let inactive ← inactiveAccountsStep cases arrange job.config now
  let deleted ← job.deletedAccountsStep now
  let counts := steps ++ inactive.toList.map (fun n => ("inactive_accounts", n)) ++
    deleted.toList.map fun n => ("deleted_accounts", n)
  audit .internal (purgedEvent counts)
  return counts

/-! ## What the default steps leave -/

variable {cases : Text.CaseMap} {db db' : Db} {u : UserId}

/-- What tells whether an account is active, and the time. -/
def activity (db : Db) : Table User × Table UserRole × Table Session × Instant :=
  (db.users, db.userRoles, db.sessions, db.now)

theorem run_purge (f : Db → Nat × Db) (db : Db) :
    (purge f).run db = (.ok (f db).1, (f db).2) := rfl

/-- A purge that writes within `R`. -/
theorem purge_within {R : Db → Db → Prop} {f : Db → Nat × Db} (h : ∀ db, R db (f db).2) :
    Service.Within R (purge f) :=
  fun db => h db

/-! ## The erasures of the job -/

section Erasures

variable {R : Db → Db → Prop} {arrange : List UserId → List UserId} {config : RetentionConfig}
  {job : RetentionJob} {now : Instant}

theorem inactiveAccountsStep_respects (hrefl : ∀ db, R db db)
    (hscrub : ∀ db u now, R db (scrubbed db u now)) :
    (inactiveAccountsStep cases arrange config now).Respects R := by
  have hall : ∀ ids, (anonymizeAll cases ids).Respects R := by
    intro ids
    induction ids with
    | nil => exact .pure 0
    | cons u ids ih =>
      refine .bind (.request hrefl fun db _ db' h => ?_) fun _ => .bind ih fun _ => .pure _
      rw [(anonymize_eq_ok h).1]
      exact hscrub db u _
  unfold inactiveAccountsStep
  split
  · exact .bind (.bind (.query _ _ hrefl) hall) fun _ => .pure _
  · exact .pure none

theorem inactiveAccountsStep_strict : (inactiveAccountsStep cases arrange config now).Strict := by
  have hall : ∀ ids, (anonymizeAll cases ids).Strict := by
    intro ids
    induction ids with
    | nil => exact .pure 0
    | cons u ids ih => exact .bind (.request _ _) fun _ => .bind ih fun _ => .pure _
  unfold inactiveAccountsStep
  split
  · exact .bind (.bind (.query _ _) hall) fun _ => .pure _
  · exact .pure none

theorem deletedAccountsStep_respects (hrefl : ∀ db, R db db)
    (hdelete : ∀ db p, R db (deleteUsers db p)) : (job.deletedAccountsStep now).Respects R := by
  unfold RetentionJob.deletedAccountsStep purge repo
  split
  · refine .bind (.request hrefl fun db _ db' h => ?_) fun _ => .pure _
    cases h
    exact hdelete db _
  · exact .pure none

theorem deletedAccountsStep_strict : (job.deletedAccountsStep now).Strict := by
  unfold RetentionJob.deletedAccountsStep purge repo
  split
  · exact .bind (.request _ _) fun _ => .pure _
  · exact .pure none

end Erasures

/-- The steps on the uploads leave the accounts, whatever the object store answers. -/
theorem stored_activity {α : Type} (answer : Except StorageError α) :
    (stored answer).Respects (Service.Frame activity) := by
  cases answer with
  | ok a => exact .pure a
  | error e => exact .throw _

theorem query_activity {α : Type} (f : Db → α) :
    (Service.query PrivacyError.unavailable f).Respects (Service.Frame activity) :=
  .query _ _ fun _ => rfl

theorem deletePhoto_activity (kind : PhotoKind) (id : Nat) :
    (purge fun db => deletePhoto kind db id).Respects (Service.Frame activity) := by
  unfold purge repo
  refine .request (fun _ => rfl) fun db count db' h => ?_
  cases h
  cases kind <;> rfl

theorem purgeOrphanUploads_activity (storage : ObjectStorage) (policy : RetentionPolicy)
    (now : Instant) : Service.Within (Service.Frame activity)
      (storage.stores.purgeOrphanUploads (fun after => stored (storage.list after)) policy now
        storage.pages) :=
  (Stores.purgePages_respects query_activity (fun _ => stored_activity _)
    (fun _ => stored_activity _) storage.pages none).runLosing none

theorem reconcilePendingPhotos_activity (storage : ObjectStorage) (now : Instant) :
    Service.Within (Service.Frame activity) (storage.stores.reconcilePendingPhotos now) :=
  (Stores.reconcilePendingPhotos_respects query_activity (fun _ => stored_activity _)
    deletePhoto_activity now).runLosing none

/-- Whether or not the default steps come to their end, the expired sessions are
gone and no account has changed. -/
theorem defaultSteps_activity (job : RetentionJob) (storage : ObjectStorage) (now : Instant)
    (db : Db) :
    activity ((job.defaultSteps storage now).run db).2 =
      (db.users, db.userRoles, db.sessions.delete fun _ r => isExpired job.policy now r,
        db.now) := by
  rw [RetentionJob.defaultSteps, Service.run_bind_of_ok (run_purge ..),
    Service.run_bind_of_ok (run_purge ..), Service.run_bind_of_ok (run_purge ..)]
  refine Eq.trans (Service.Within.bind (R := Service.Frame activity) ?_ (fun _ => ?_) _) rfl
  · exact purge_within fun _ => rfl
  · refine .bind (purge_within fun _ => rfl) fun _ => ?_
    exact .bind (purgeOrphanUploads_activity storage _ now) fun _ =>
      .bind (reconcilePendingPhotos_activity storage now) fun _ => .pure _

/-! ## What the later steps take away -/

/-- The account is there and not deleted. -/
def isAlive (db : Db) (u : UserId) : Bool :=
  (db.users.row u).any fun r => r.accountState != .deleted

/-- Accounts are only deleted, and sessions go with their account only. -/
structure Culled (db db' : Db) : Prop where
  now : db'.now = db.now
  created : ∀ v r', db'.users.row v = some r' →
    ∃ r, db.users.row v = some r ∧ r'.createdAt = r.createdAt
  alive : ∀ v, isAlive db' v = true → isAlive db v = true
  before : ∀ k x, db'.sessions.row k = some x → db.sessions.row k = some x
  after : ∀ k x, db.sessions.row k = some x → isAlive db' x.userId = true →
    db'.sessions.row k = some x

/-- A step that writes neither accounts nor sessions. -/
theorem Culled.of_eq (hnow : db'.now = db.now) (husers : db'.users = db.users)
    (hsessions : db'.sessions = db.sessions) : Culled db db' := by
  refine ⟨hnow, fun v r' hr' => ⟨r', ?_, rfl⟩, fun v hv => ?_, fun k x hx => ?_, fun k x hx _ => ?_⟩
  · rw [← husers, hr']
  · rwa [isAlive, ← husers]
  · rw [← hsessions, hx]
  · rw [hsessions, hx]

instance : IsPreorder Db Culled where
  refl _ := .of_eq rfl rfl rfl
  trans _ _ _ h h' := by
    refine ⟨h'.now.trans h.now, fun v r'' hr'' => ?_, fun v hv => h.alive v (h'.alive v hv),
      fun k x hx => h.before k x (h'.before k x hx), fun k x hx hv => ?_⟩
    · obtain ⟨r', hr', hcreated'⟩ := h'.created v r'' hr''
      obtain ⟨r, hr, hcreated⟩ := h.created v r' hr'
      exact ⟨r, hr, hcreated'.trans hcreated⟩
    · exact h'.after k x (h.after k x hx (h'.alive x.userId hv)) hv

theorem isAlive_scrubbed {v : UserId} {now : Instant} :
    isAlive (scrubbed db u now) v = true ↔ v ≠ u ∧ isAlive db v = true := by
  rw [isAlive, isAlive, scrubbed, Table.row_update, Option.any_map]
  by_cases hv : v = u
  · simp [hv, User.scrubbed]
  · simp [hv]

theorem scrubbed_culled (db : Db) (u : UserId) (now : Instant) :
    Culled db (scrubbed db u now) := by
  refine ⟨rfl, fun v r' hr' => ?_, fun v hv => (isAlive_scrubbed.mp hv).2, fun k x hx => ?_,
    fun k x hx hv => ?_⟩
  · obtain ⟨r, hr, rfl⟩ := Table.row_update_eq_some.mp hr'
    refine ⟨r, hr, ?_⟩
    split <;> rfl
  · exact (Table.row_delete_eq_some.mp hx).1
  · exact Table.row_delete_eq_some.mpr ⟨hx, by simpa using (isAlive_scrubbed.mp hv).1⟩

theorem inactiveAccountsStep_culled (arrange : List UserId → List UserId)
    (config : RetentionConfig) (now : Instant) :
    Service.Within Culled (inactiveAccountsStep cases arrange config now) :=
  (inactiveAccountsStep_respects (refl_of Culled) scrubbed_culled).runLosing none

theorem deleteUsers_culled (db : Db) (p : UserId → User → Bool) : Culled db (deleteUsers db p) := by
  refine ⟨rfl, fun v r' hr' => ⟨r', (Table.row_delete_eq_some.mp hr').1, rfl⟩, fun v hv => ?_,
    fun k x hx => (Table.row_delete_eq_some.mp hx).1, fun k x hx hv => ?_⟩
  · obtain ⟨r, hr, halive⟩ := (Option.any_eq_true ..).mp hv
    exact (Option.any_eq_true ..).mpr ⟨r, (Table.row_delete_eq_some.mp hr).1, halive⟩
  · obtain ⟨r, hr, -⟩ := (Option.any_eq_true ..).mp hv
    obtain ⟨hrow, hp⟩ := Table.row_delete_eq_some.mp hr
    refine Table.row_delete_eq_some.mpr ⟨hx, ?_⟩
    show (db.users.row x.userId).any (p x.userId) = false
    rw [hrow, Option.any_some, hp]

theorem deletedAccountsStep_culled (job : RetentionJob) (now : Instant) :
    Service.Within Culled (job.deletedAccountsStep now) :=
  (deletedAccountsStep_respects (refl_of Culled) deleteUsers_culled).runLosing none

theorem audit_culled (event : NewAuditEvent) :
    Service.Within Culled (audit PrivacyError.internal event) :=
  audit_within (fun _ _ => .of_eq rfl rfl rfl) _ event

variable (cases) in
/-- After the default steps a run only deletes accounts, and their sessions with
them. -/
theorem run_culled (job : RetentionJob) (storage : ObjectStorage)
    (arrange : List UserId → List UserId) (now : Instant) (db : Db) :
    Culled ((job.defaultSteps storage now).run db).2 ((job.run cases storage arrange now).run db).2 :=
  Service.Within.run_bind (fun _ => .bind (inactiveAccountsStep_culled arrange _ now) fun _ =>
    .bind (deletedAccountsStep_culled job now) fun _ => .bind (audit_culled _) fun _ => .pure _) db

/-! ## Who is anonymized -/

variable (cases) in
/-- The loop leaves everybody else. -/
theorem anonymizeAll_others {ids : List UserId} (hu : u ∉ ids) :
    Service.Within (Service.Frame fun db => db.users.row u) (anonymizeAll cases ids) := by
  induction ids with
  | nil => exact .pure 0
  | cons v rest ih =>
    obtain ⟨hne, hrest⟩ := not_or.mp (List.mem_cons.not.mp hu)
    refine .bind (.request fun db report db' h => ?_) fun _ => .bind (ih hrest) fun _ => .pure _
    rw [(anonymize_eq_ok h).1]
    show ((db.users.row u).map fun r => if u == v then User.scrubbed r v db.now else r) = _
    simp [hne]

/-- No later step deletes an account that is not deleted. -/
theorem deletedAccountsStep_stable (job : RetentionJob) (now : Instant) :
    Service.Within (Service.Stable fun db => stateOf db u ≠ some .deleted)
      (job.deletedAccountsStep now) := by
  unfold RetentionJob.deletedAccountsStep
  split
  · refine .bind (purge_within fun db halive hdeleted => halive ?_) fun _ => .pure _
    obtain ⟨r, hr, hstate⟩ := Option.map_eq_some_iff.mp hdeleted
    rw [stateOf, (Table.row_delete_eq_some.mp hr).1, Option.map_some, hstate]
  · exact .pure none

theorem stateOf_ne_deleted (h : isAlive db u = true) : stateOf db u ≠ some .deleted := by
  obtain ⟨r, hr, hstate⟩ := (Option.any_eq_true ..).mp h
  rw [stateOf, hr]
  simpa using hstate

/-- A run anonymizes candidates only, and the query sees the sessions that the
default steps have left. -/
theorem run_anonymizes {job : RetentionJob} {storage : ObjectStorage}
    {arrange : List UserId → List UserId} {now : Instant} (hu : isAlive db u = true)
    (hdeleted : stateOf ((job.run cases storage arrange now).run db).2 u = some .deleted) :
    0 < job.config.inactiveAccountAnonymizeAfterDays ∧
      u ∈ arrange (inactiveCandidates ((job.defaultSteps storage now).run db).2
        (now - job.config.inactiveAccountAnonymizeAfterDays * day)) := by
  by_contra hnot
  refine absurd hdeleted ?_
  have hpurged : stateOf ((job.defaultSteps storage now).run db).2 u ≠ some .deleted := by
    have hactivity := defaultSteps_activity job storage now db
    rw [stateOf, show ((job.defaultSteps storage now).run db).2.users = db.users from
      congrArg Prod.fst hactivity]
    exact stateOf_ne_deleted hu
  rw [RetentionJob.run, Service.run_bind]
  generalize (job.defaultSteps storage now).run db = mid at hpurged hnot
  obtain ⟨steps | steps, mid⟩ := mid
  · exact hpurged
  refine Service.Within.run_bind (R := Service.Stable fun db => stateOf db u ≠ some .deleted)
    (fun _ => ?_) mid ?_
  · exact .bind (deletedAccountsStep_stable job now) fun _ =>
      .bind (audit_within (fun _ _ => id) _ _) fun _ => .pure _
  · unfold inactiveAccountsStep
    split
    · rename_i hdays
      have hother : u ∉ arrange (inactiveCandidates mid
          (now - job.config.inactiveAccountAnonymizeAfterDays * day)) :=
        fun hmem => hnot ⟨hdays, hmem⟩
      refine Service.Within.run_bind (R := Service.Stable fun db => stateOf db u ≠ some .deleted)
        (fun _ => .pure _) mid ?_
      rw [anonymizeInactiveAccounts, Service.run_bind_of_ok (Service.run_query ..)]
      have hrow := anonymizeAll_others cases hother mid
      exact fun h => hpurged ((congrArg (Option.map User.accountState) hrow).symm.trans h)
    · exact hpurged

/-- The account was erased at the time it is. -/
def ErasedNow (now : Instant) (u : UserId) (db : Db) : Prop :=
  db.now = now ∧ ∃ r, db.users.row u = some r ∧ r.accountState = .deleted ∧
    r.deletedAt = some now

theorem scrubbed_erasedNow {now : Instant} {v : UserId} (h : ErasedNow now u db) :
    ErasedNow now u (scrubbed db v db.now) := by
  obtain ⟨hnow, r, hr, hstate, hat⟩ := h
  refine ⟨hnow, ?_⟩
  simp only [scrubbed, Table.row_update, hr, Option.map_some, Option.some.injEq, exists_eq_left']
  split
  · exact ⟨rfl, congrArg some hnow⟩
  · exact ⟨hstate, hat⟩

variable (cases) in
/-- What the loop has erased stays erased. -/
theorem anonymizeAll_stable {now : Instant} (ids : List UserId) :
    Service.Within (Service.Stable (ErasedNow now u)) (anonymizeAll cases ids) := by
  induction ids with
  | nil => exact .pure 0
  | cons v rest ih =>
    refine .bind (.request fun db report db' h herased => ?_) fun _ => .bind ih fun _ => .pure _
    rw [(anonymize_eq_ok h).1]
    exact scrubbed_erasedNow herased

/-- A loop that comes to its end has erased every account of the list. -/
theorem anonymizeAll_erases {ids : List UserId} {count : Nat}
    (h : (anonymizeAll cases ids).run db = (.ok count, db')) (hu : u ∈ ids)
    (hrow : (db.users.row u).isSome = true) : ErasedNow db.now u db' := by
  induction ids generalizing db count with
  | nil => cases hu
  | cons v rest ih =>
    obtain ⟨report, mid, hanonymize, hrest⟩ := Service.run_bind_ok h
    obtain ⟨n, last, hloop, hlast⟩ := Service.run_bind_ok hrest
    cases hlast
    rw [(anonymize_eq_ok (Service.run_request_ok.mp hanonymize)).1] at hloop
    rcases List.mem_cons.mp hu with rfl | hmem
    · have herased : ErasedNow db.now u (scrubbed db u db.now) := by
        obtain ⟨r, hr⟩ := Option.isSome_iff_exists.mp hrow
        refine ⟨rfl, User.scrubbed r u db.now, ?_, rfl, rfl⟩
        exact Table.row_update_eq_some.mpr ⟨r, hr, by simp⟩
      have hkept := anonymizeAll_stable cases rest (scrubbed db u db.now) herased
      rwa [hloop] at hkept
    · have hthere : ((scrubbed db v db.now).users.row u).isSome = true := by
        rwa [scrubbed, Table.row_update, Option.isSome_map]
      have herased := ih hloop hmem hthere
      exact herased

/-- The shells that are purged are older. -/
theorem deletedAccountsStep_erasedNow (job : RetentionJob) (now : Instant) :
    Service.Within (Service.Stable (ErasedNow now u)) (job.deletedAccountsStep now) := by
  unfold RetentionJob.deletedAccountsStep
  split
  · refine .bind (purge_within fun db h => ?_) fun _ => .pure _
    obtain ⟨hnow, r, hr, hstate, hat⟩ := h
    refine ⟨hnow, r, Table.row_delete_eq_some.mpr ⟨hr, ?_⟩, hstate, hat⟩
    have hage : now - job.deletedAccountPurgeAfterDays * day ≤ now :=
      Int.sub_le_self _ (Int.mul_nonneg (Int.natCast_nonneg _) (by decide))
    simp [isShell, hat, hage]
  · exact .pure none

/-- A run that comes to its end anonymizes every candidate. -/
theorem run_anonymizes_all {job : RetentionJob} {storage : ObjectStorage}
    {arrange : List UserId → List UserId} {counts : List (String × Nat)}
    (h : (job.run cases storage arrange db.now).run db = (.ok counts, db'))
    (hdays : 0 < job.config.inactiveAccountAnonymizeAfterDays)
    (hu : u ∈ arrange (inactiveCandidates ((job.defaultSteps storage db.now).run db).2
      (db.now - job.config.inactiveAccountAnonymizeAfterDays * day)))
    (hrow : (db.users.row u).isSome = true) : stateOf db' u = some .deleted := by
  have hactivity := defaultSteps_activity job storage db.now db
  obtain ⟨steps, mid, hsteps, h⟩ := Service.run_bind_ok h
  obtain ⟨inactive, erased, hinactive, h⟩ := Service.run_bind_ok h
  obtain ⟨deleted, purged, hdeleted, h⟩ := Service.run_bind_ok h
  obtain ⟨_, last, haudit, hlast⟩ := Service.run_bind_ok h
  cases hlast
  rw [hsteps] at hu hactivity
  rw [inactiveAccountsStep, if_pos hdays] at hinactive
  obtain ⟨count, _, hinactive, hlast⟩ := Service.run_bind_ok hinactive
  cases hlast
  obtain ⟨candidates, _, hquery, hloop⟩ := Service.run_bind_ok hinactive
  obtain ⟨rfl, rfl⟩ := Service.run_query_ok.mp hquery
  have herased := anonymizeAll_erases hloop hu (by
    rwa [show mid.users = db.users from congrArg Prod.fst hactivity])
  rw [show mid.now = db.now from congrArg (fun a => a.2.2.2) hactivity] at herased
  have hpurged := deletedAccountsStep_erasedNow job db.now erased herased
  rw [hdeleted] at hpurged
  have hend : ErasedNow db.now u db' := by
    rw [← show _ = db' from congrArg Prod.snd haudit]
    exact audit_within (R := Service.Stable (ErasedNow db.now u)) (fun _ _ => id) _ _ purged hpurged
  obtain ⟨-, r, hr, hstate, -⟩ := hend
  rw [stateOf, hr, Option.map_some, hstate]

end BikesNest.Privacy
