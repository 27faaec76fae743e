import BikesNest.Community.Location
import BikesNest.Domain.Email
import BikesNest.Jobs.Repo
import BikesNest.Lib.Threads

/-!
# The database

One row type for each table and the record `Db` of all tables.  A column that
no modelled function looks at is left out, also where a statement sets it, as
`updated_at` of `parking_location`, `report`, `privacy_request` and
`background_job`.

`Db.now` is the clock of the database, and of the process, at the time of a
statement.  `Db.outbox` is no table: it lists the messages that the
`EmailQueue` port accepted, oldest first, and the proofs about mailed tokens
read it.
-/

namespace BikesNest.Store

open Domain Community Relational

/-! ## Accounts -/

/-- A row of `users`. -/
structure User where
  email : String
  displayName : Option String
  accountState : AccountState
  emailVerifiedAt : Option Instant := none
  suspendedAt : Option Instant := none
  deletedAt : Option Instant := none
  locale : LocaleCode
  createdAt : Instant
  updatedAt : Instant := createdAt

/-- A row of `authentication_identities`. -/
structure AuthenticationIdentity where
  userId : UserId
  provider : AuthenticationProvider
  providerSubject : String
  credentialHash : Option String

/-- A row of `sessions`. -/
structure Session where
  tokenHash : String
  userId : UserId
  csrfToken : String
  createdAt : Instant
  lastSeenAt : Instant
  expiresAt : Instant
  revokedAt : Option Instant := none

/-- A row of `email_verification_tokens`. -/
structure EmailVerificationToken where
  tokenHash : String
  userId : UserId
  email : String
  createdAt : Instant
  expiresAt : Instant
  usedAt : Option Instant := none

/-- A row of `password_reset_tokens`. -/
structure PasswordResetToken where
  tokenHash : String
  userId : UserId
  createdAt : Instant
  expiresAt : Instant
  usedAt : Option Instant := none

/-- A row of `user_roles`. -/
structure UserRole where
  userId : UserId
  role : Role
  grantedBy : Option UserId
  grantedAt : Instant

/-- A row of `audit_events`. -/
structure AuditEvent where
  actorUserId : Option UserId
  action : String
  targetType : String
  targetId : String
  result : String
  metadata : Json
  createdAt : Instant

/-! ## Contributions -/

inductive ProposalStatus where
  | pending | approved | rejected | superseded
deriving DecidableEq

inductive ProposalKind where
  | moveLocation | changeExistence
deriving DecidableEq

def ProposalKind.asCode : ProposalKind → String
  | .moveLocation => "move_location"
  | .changeExistence => "change_existence"

/-- A row of `parking_proposal`. -/
structure ParkingProposal where
  locationId : Nat
  proposerId : Option UserId
  baseVersion : Int
  kind : ProposalKind
  proposed : Json
  status : ProposalStatus := .pending
  resolvedBy : Option UserId := none
  resolvedAt : Option Instant := none
  createdAt : Instant

/-- `review.moderation_state`. -/
inductive ReviewState where
  | active | hidden
deriving DecidableEq

/-- A row of `review`. -/
structure Review where
  locationId : Nat
  authorId : Option UserId
  rating : Nat
  body : String
  moderationState : ReviewState := .active
  createdAt : Instant
  updatedAt : Instant

/-- A row of `review_revision`. -/
structure ReviewRevision where
  reviewId : Nat
  rating : Nat
  body : String
  editedAt : Instant

inductive VerificationKind where
  | existence | attribute | parkedHere
deriving DecidableEq

def VerificationKind.asCode : VerificationKind → String
  | .existence => "existence"
  | .attribute => "attribute"
  | .parkedHere => "parked_here"

/-- A row of `verification`. -/
structure Verification where
  locationId : Nat
  userId : Option UserId
  kind : VerificationKind
  result : String
  attributeCode : Option String
  createdAt : Instant
  expiresAt : Option Instant

/-- A row of `favorite`. -/
structure Favorite where
  userId : UserId
  locationId : Nat
  createdAt : Instant

inductive PhotoModerationState where
  | pendingReview | approved | rejected | hidden
deriving DecidableEq

/-- A row of `parking_photo`, whose parent is a location, or of `review_photo`,
whose parent is a review. -/
structure Photo where
  parentId : Nat
  uploaderId : Option UserId
  storageKey : String
  thumbnailKey : Option String
  /-- A column of `parking_photo` only, which holds what the processor encodes. -/
  contentType : String := "image/jpeg"
  position : Int := 0
  moderationState : PhotoModerationState := .pendingReview
  rejectionReason : Option String := none
  reviewedBy : Option UserId := none
  reviewedAt : Option Instant := none
  createdAt : Instant

/-! ## Moderation and privacy -/

inductive ReportTargetType where
  | parking | parkingPhoto | review | reviewPhoto
deriving DecidableEq

def ReportTargetType.asCode : ReportTargetType → String
  | .parking => "parking"
  | .parkingPhoto => "parking_photo"
  | .review => "review"
  | .reviewPhoto => "review_photo"

inductive ReportState where
  | opened | underReview | resolved | dismissed
deriving DecidableEq

/-- A row of `report`. -/
structure Report where
  reporterId : Option UserId
  targetType : ReportTargetType
  targetId : Nat
  reason : String
  description : Option String
  state : ReportState := .opened
  claimedBy : Option UserId := none
  resolvedBy : Option UserId := none
  resolutionNote : Option String := none
  createdAt : Instant

inductive PrivacyRequestKind where
  | access | rectification | deletion | export | restriction | objection | consentWithdrawal
deriving DecidableEq

inductive PrivacyRequestState where
  | opened | inProgress | completed | declined
deriving DecidableEq

/-- A row of `privacy_request`. -/
structure PrivacyRequest where
  userId : Option UserId
  kind : PrivacyRequestKind
  state : PrivacyRequestState := .opened
  details : Json
  fulfilledBy : Option UserId := none
  fulfilledAt : Option Instant := none
  createdAt : Instant

inductive ExportState where
  | ready | downloaded | expired
deriving DecidableEq

/-- A row of `personal_data_export`. -/
structure PersonalDataExport where
  userId : UserId
  state : ExportState := .ready
  tokenHash : String
  payload : Json
  createdAt : Instant
  expiresAt : Instant
  downloadedAt : Option Instant := none

/-- A row of `consent_record`. -/
structure ConsentRecord where
  userId : UserId
  scope : String
  granted : Bool

/-! ## The database -/

structure Db where
  now : Instant
  users : Table User
  authenticationIdentities : Table AuthenticationIdentity
  sessions : Table Session
  emailVerificationTokens : Table EmailVerificationToken
  passwordResetTokens : Table PasswordResetToken
  userRoles : Table UserRole
  auditEvents : Table AuditEvent
  parkingLocation : Table LocationRecord
  parkingProposal : Table ParkingProposal
  review : Table Review
  reviewRevision : Table ReviewRevision
  verification : Table Verification
  favorite : Table Favorite
  parkingPhoto : Table Photo
  reviewPhoto : Table Photo
  report : Table Report
  privacyRequest : Table PrivacyRequest
  personalDataExport : Table PersonalDataExport
  consentRecord : Table ConsentRecord
  backgroundJob : Jobs.JobQueue
  outbox : List EmailMessage

/-- The database right after the migrations. -/
def Db.empty (now : Instant) : Db where
  now := now
  users := .empty
  authenticationIdentities := .empty
  sessions := .empty
  emailVerificationTokens := .empty
  passwordResetTokens := .empty
  userRoles := .empty
  auditEvents := .empty
  parkingLocation := .empty
  parkingProposal := .empty
  review := .empty
  reviewRevision := .empty
  verification := .empty
  favorite := .empty
  parkingPhoto := .empty
  reviewPhoto := .empty
  report := .empty
  privacyRequest := .empty
  personalDataExport := .empty
  consentRecord := .empty
  backgroundJob := .empty
  outbox := []

/-- Another account holds an address that is equal under the unique index on
`lower(email)`. -/
def emailTaken (cases : Text.CaseMap) (users : Table User) (u : UserId) (email : String) : Bool :=
  users.any fun i r => i != u && cases.lower r.email == cases.lower email

/-! ## The audit log -/

/-- An event that a service hands to the audit log. -/
structure NewAuditEvent where
  actor : Option UserId
  action : String
  targetType : String
  targetId : String
  result : String := "success"
  metadata : Json := .obj []

/-- `SqlxAuditLog::record`.  The insert fails when the actor names no row of
`users`. -/
def Db.recordAudit (db : Db) (event : NewAuditEvent) : Option Db :=
  if event.actor.all fun u => (db.users.row u).isSome then
    some { db with
      auditEvents := db.auditEvents.insert
        { actorUserId := event.actor, action := event.action, targetType := event.targetType
          targetId := event.targetId, result := event.result, metadata := event.metadata
          createdAt := db.now } }
  else none

/-- One call of the audit log; the caller maps its error to `internal`. -/
def audit {ε : Type} (internal : ε) (event : NewAuditEvent) : Service Db ε Unit :=
  .request internal fun db =>
    match db.recordAudit event with
    | some db' => .ok ((), db')
    | none => .error internal

/-- An audit event is one more row of the log. -/
theorem recordAudit_eq_some {db db' : Db} {event : NewAuditEvent}
    (h : db.recordAudit event = some db') :
    ∃ r, r.actorUserId = event.actor ∧
      db' = { db with auditEvents := db.auditEvents.insert r } := by
  unfold Db.recordAudit at h
  split at h
  · cases h
    exact ⟨_, rfl, rfl⟩
  · cases h

/-- The call of the audit log that commits has recorded the event. -/
theorem recordAudit_of_ok {ε : Type} {internal : ε} {event : NewAuditEvent} {db db' : Db} {a : Unit}
    (h : (match db.recordAudit event with
      | some db' => .ok ((), db')
      | none => .error internal) = Except.ok (a, db')) : db.recordAudit event = some db' := by
  split at h
  · rename_i hrecord
    cases h
    exact hrecord
  · cases h

/-- A call of the audit log stays within what recording an event does. -/
theorem audit_respects {ε : Type} {R : Db → Db → Prop} (hrefl : ∀ db, R db db)
    {event : NewAuditEvent} (h : ∀ db db', db.recordAudit event = some db' → R db db')
    (internal : ε) : (audit internal event : Service Db ε Unit).Respects R :=
  .request hrefl fun db _ db' hok => h db db' (recordAudit_of_ok hok)

/-- A call of the audit log writes its table only. -/
theorem audit_within {ε : Type} {R : Db → Db → Prop} [IsPreorder Db R]
    (hR : ∀ db events, R db { db with auditEvents := events }) (internal : ε)
    (event : NewAuditEvent) : Service.Within R (audit internal event) := by
  refine Service.Within.request fun db _ db' h => ?_
  obtain ⟨_, _, rfl⟩ := recordAudit_eq_some (recordAudit_of_ok h)
  exact hR db _

end BikesNest.Store
