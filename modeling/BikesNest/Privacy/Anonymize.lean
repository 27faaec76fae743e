import BikesNest.Store.Schema

/-!
# Anonymize in place

`anonymize` is one transaction: the last-admin guard, the update of the `users`
row, and one statement for each column that names the account.  `scrubbed` is
the database after the statements, in the order in which they run, and
`anonymizationReport` counts the rows that each affects.

The update of the `users` row writes `anonymizedEmail` under the unique index on
`lower(email)`, so it fails when another account holds that address.
-/

namespace BikesNest.Privacy

open Domain Community Store Relational

inductive PrivacyError where
  | notAuthorized
  | notFound
  | lastAdmin
  | reauthRequired
  | invalidToken
  | expired
  | alreadyDownloaded
  | invalidKind
  | invalidField (hint : String)
  | conflict
  | unavailable
  | internal
deriving DecidableEq

structure AnonymizationReport where
  identities : Nat
  roles : Nat
  rolesGrantedByAnonymized : Nat
  sessions : Nat
  emailVerificationTokens : Nat
  passwordResetTokens : Nat
  favorites : Nat
  parkedHere : Nat
  exports : Nat
  consentRecords : Nat
  reviewsAnonymized : Nat
  verificationsAnonymized : Nat
  proposalsAnonymized : Nat
  reportsAnonymized : Nat
  locationsAnonymized : Nat
  revisionsAnonymized : Nat
  parkingPhotosAnonymized : Nat
  reviewPhotosAnonymized : Nat
  auditEventsAnonymized : Nat
  auditTargetsAnonymized : Nat
  privacyRequestsAnonymized : Nat

/-! ## The guards -/

/-- The keys and rows with the role ADMIN. -/
def adminRows (db : Db) : List (Nat × UserRole) :=
  db.userRoles.select fun _ r => r.role == .admin

/-- `last_admin_locked`. -/
def lastAdminLocked (db : Db) (u : UserId) : Bool :=
  let admins := (adminRows db).map fun x => x.2.userId
  admins.contains u && admins.length == 1

/-- `is_last_admin`: the pre-check of the service. -/
def isLastAdmin (db : Db) (u : UserId) : Bool :=
  (db.userRoles.any fun _ r => r.role == .admin && r.userId == u) &&
    db.userRoles.affected (fun _ r => r.role == .admin && r.userId != u) == 0

/-! ## The statements -/

/-- A reference to `u` becomes `NULL`. -/
def forget (u : UserId) (column : Option UserId) : Option UserId :=
  if column == some u then none else column

/-- The `SET` list of the `users` update. -/
def User.scrubbed (r : User) (u : UserId) (now : Instant) : User :=
  { r with
    email := anonymizedEmail u, displayName := none, emailVerifiedAt := none
    suspendedAt := none, deletedAt := some now, accountState := .deleted }

/-- Either column of a proposal names `u`. -/
def ParkingProposal.names (u : UserId) (r : ParkingProposal) : Bool :=
  r.proposerId == some u || r.resolvedBy == some u

/-- A column of a report names `u`. -/
def Report.names (u : UserId) (r : Report) : Bool :=
  r.reporterId == some u || r.claimedBy == some u || r.resolvedBy == some u

/-- Either column of a privacy request names `u`. -/
def PrivacyRequest.names (u : UserId) (r : PrivacyRequest) : Bool :=
  r.userId == some u || r.fulfilledBy == some u

/-- `UPDATE parking_location` and `UPDATE parking_revision` on one record. -/
def LocationRecord.scrubbed (u : UserId) (rec : LocationRecord) : LocationRecord :=
  { rec with
    row := { rec.row with creatorId := forget u rec.row.creatorId }
    revisions := rec.revisions.map fun rev => { rev with editorId := forget u rev.editorId } }

/-- The two updates of `audit_events`: the actor, and the target that holds the
address `oldEmail`. -/
def AuditEvent.scrubbed (u : UserId) (oldEmail : Option String) (r : AuditEvent) : AuditEvent :=
  { r with
    actorUserId := forget u r.actorUserId
    targetId :=
      if r.targetType == "user" && oldEmail == some r.targetId then anonymizedEmail u
      else r.targetId }

/-- The database after the statements of `anonymize`. -/
def scrubbed (db : Db) (u : UserId) (now : Instant) : Db :=
  let oldEmail := (db.users.row u).map User.email
  { db with
    users := db.users.update (fun i _ => i == u) fun r => User.scrubbed r u now
    authenticationIdentities := db.authenticationIdentities.delete fun _ r => r.userId == u
    userRoles := (db.userRoles.delete fun _ r => r.userId == u).update
      (fun _ r => r.grantedBy == some u) fun r => { r with grantedBy := none }
    sessions := db.sessions.delete fun _ r => r.userId == u
    emailVerificationTokens := db.emailVerificationTokens.delete fun _ r => r.userId == u
    passwordResetTokens := db.passwordResetTokens.delete fun _ r => r.userId == u
    favorite := db.favorite.delete fun _ r => r.userId == u
    verification :=
      (db.verification.delete fun _ r => r.userId == some u && r.kind == .parkedHere).update
        (fun _ r => r.userId == some u && r.kind != .parkedHere)
        fun r => { r with userId := none }
    personalDataExport := db.personalDataExport.delete fun _ r => r.userId == u
    consentRecord := db.consentRecord.delete fun _ r => r.userId == u
    review := db.review.update (fun _ r => r.authorId == some u) fun r =>
      { r with authorId := none }
    parkingProposal := db.parkingProposal.update (fun _ r => ParkingProposal.names u r) fun r =>
      { r with proposerId := none, resolvedBy := none }
    report := db.report.update (fun _ r => Report.names u r) fun r =>
      { r with reporterId := none, claimedBy := none, resolvedBy := none }
    parkingLocation := db.parkingLocation.update (fun _ _ => true) (LocationRecord.scrubbed u)
    parkingPhoto := db.parkingPhoto.update (fun _ r => r.uploaderId == some u) fun r =>
      { r with uploaderId := none }
    reviewPhoto := db.reviewPhoto.update (fun _ r => r.uploaderId == some u) fun r =>
      { r with uploaderId := none }
    auditEvents := db.auditEvents.update (fun _ _ => true) (AuditEvent.scrubbed u oldEmail)
    privacyRequest := db.privacyRequest.update (fun _ r => PrivacyRequest.names u r) fun r =>
      { r with userId := none, fulfilledBy := none } }

/-- How many rows each statement affects. -/
def anonymizationReport (db : Db) (u : UserId) : AnonymizationReport :=
  let oldEmail := (db.users.row u).map User.email
  { identities := db.authenticationIdentities.affected fun _ r => r.userId == u
    roles := db.userRoles.affected fun _ r => r.userId == u
    rolesGrantedByAnonymized :=
      db.userRoles.affected fun _ r => r.userId != u && r.grantedBy == some u
    sessions := db.sessions.affected fun _ r => r.userId == u
    emailVerificationTokens := db.emailVerificationTokens.affected fun _ r => r.userId == u
    passwordResetTokens := db.passwordResetTokens.affected fun _ r => r.userId == u
    favorites := db.favorite.affected fun _ r => r.userId == u
    parkedHere :=
      db.verification.affected fun _ r => r.userId == some u && r.kind == .parkedHere
    exports := db.personalDataExport.affected fun _ r => r.userId == u
    consentRecords := db.consentRecord.affected fun _ r => r.userId == u
    reviewsAnonymized := db.review.affected fun _ r => r.authorId == some u
    verificationsAnonymized :=
      db.verification.affected fun _ r => r.userId == some u && r.kind != .parkedHere
    proposalsAnonymized := db.parkingProposal.affected fun _ r => ParkingProposal.names u r
    reportsAnonymized := db.report.affected fun _ r => Report.names u r
    locationsAnonymized := db.parkingLocation.affected fun _ r => r.row.creatorId == some u
    revisionsAnonymized := (db.parkingLocation.rows.map fun x =>
      x.2.revisions.countP fun rev => rev.editorId == some u).sum
    parkingPhotosAnonymized := db.parkingPhoto.affected fun _ r => r.uploaderId == some u
    reviewPhotosAnonymized := db.reviewPhoto.affected fun _ r => r.uploaderId == some u
    auditEventsAnonymized := db.auditEvents.affected fun _ r => r.actorUserId == some u
    auditTargetsAnonymized :=
      db.auditEvents.affected fun _ r => r.targetType == "user" && oldEmail == some r.targetId
    privacyRequestsAnonymized := db.privacyRequest.affected fun _ r => PrivacyRequest.names u r }

/-- `anonymize`. -/
def anonymize (cases : Text.CaseMap) (db : Db) (u : UserId) (now : Instant) :
    Except PrivacyError (AnonymizationReport × Db) :=
  if lastAdminLocked db u then .error .lastAdmin
  else if (db.users.row u).isSome && emailTaken cases db.users u (anonymizedEmail u) then
    .error .conflict
  else .ok (anonymizationReport db u, scrubbed db u now)

/-! ## What the guards say -/

variable {cases : Text.CaseMap} {db db' : Db} {u : UserId} {now : Instant}

/-- A transaction that commits ran every statement. -/
theorem anonymize_eq_ok {report : AnonymizationReport}
    (h : anonymize cases db u now = .ok (report, db')) :
    db' = scrubbed db u now ∧ lastAdminLocked db u = false ∧
      ((db.users.row u).isSome = true →
        emailTaken cases db.users u (anonymizedEmail u) = false) := by
  unfold anonymize at h
  split at h
  · cases h
  · rename_i hadmin
    split at h
    · cases h
    · rename_i htaken
      cases h
      refine ⟨rfl, by simpa using hadmin, fun hsome => ?_⟩
      simpa [hsome] using htaken

@[simp] theorem forget_self (u : UserId) : forget u (some u) = none := by simp [forget]

theorem forget_ne_some (u : UserId) (column : Option UserId) : forget u column ≠ some u := by
  unfold forget
  split
  · simp
  · rename_i h
    simpa using h

theorem forget_eq_some {u v : UserId} {column : Option UserId} (hne : v ≠ u) :
    forget u column = some v ↔ column = some v := by
  unfold forget
  split
  · rename_i h
    simp only [beq_iff_eq] at h
    simp [h, hne.symm]
  · rfl

end BikesNest.Privacy
