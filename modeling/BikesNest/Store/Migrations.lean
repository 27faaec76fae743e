import BikesNest.Lib.ForeignKeys
import BikesNest.Store.Schema

/-!
# The migrations

The foreign keys and the `NOT NULL` columns that hold them, as the migrations
have left them: `migrations` lists the statements that touch them, in order, and
`schema` is what the replay makes.  A migration that is not listed touches none.

`catalog` adds how the rows of `Store.Schema` hold the columns and the trigger of
migration 0019, and `Db.contents` lists the rows of a database table by table.  The
child rows of a location come with its id.
-/

namespace BikesNest.Store

open Domain Community Relational

/-! ## Tables and columns -/

/-- The tables that a foreign key starts from or goes to. -/
inductive TableName where
  | users | securityFeature | parkingLocation | parkingSecurity | openingHours | parkingPhoto
  | authenticationIdentities | sessions | emailVerificationTokens | passwordResetTokens
  | userRoles | auditEvents | parkingRevision | parkingProposal | review | reviewRevision
  | verification | favorite | report | reviewPhoto | privacyRequest | personalDataExport
  | consentRecord
deriving DecidableEq

def TableName.all : List TableName :=
  [.users, .securityFeature, .parkingLocation, .parkingSecurity, .openingHours, .parkingPhoto,
    .authenticationIdentities, .sessions, .emailVerificationTokens, .passwordResetTokens,
    .userRoles, .auditEvents, .parkingRevision, .parkingProposal, .review, .reviewRevision,
    .verification, .favorite, .report, .reviewPhoto, .privacyRequest, .personalDataExport,
    .consentRecord]

theorem TableName.mem_all (t : TableName) : t ∈ TableName.all := by
  cases t <;> decide

def TableName.asStr : TableName → String
  | .users => "users"
  | .securityFeature => "security_feature"
  | .parkingLocation => "parking_location"
  | .parkingSecurity => "parking_security"
  | .openingHours => "opening_hours"
  | .parkingPhoto => "parking_photo"
  | .authenticationIdentities => "authentication_identities"
  | .sessions => "sessions"
  | .emailVerificationTokens => "email_verification_tokens"
  | .passwordResetTokens => "password_reset_tokens"
  | .userRoles => "user_roles"
  | .auditEvents => "audit_events"
  | .parkingRevision => "parking_revision"
  | .parkingProposal => "parking_proposal"
  | .review => "review"
  | .reviewRevision => "review_revision"
  | .verification => "verification"
  | .favorite => "favorite"
  | .report => "report"
  | .reviewPhoto => "review_photo"
  | .privacyRequest => "privacy_request"
  | .personalDataExport => "personal_data_export"
  | .consentRecord => "consent_record"

/-- The columns that a foreign key starts from. -/
inductive KeyColumn where
  | locationId | featureCode | userId | grantedBy | actorUserId | creatorId | editorId
  | proposerId | resolvedBy | authorId | reviewId | uploaderId | reviewedBy | reporterId
  | claimedBy | fulfilledBy
deriving DecidableEq

def KeyColumn.asStr : KeyColumn → String
  | .locationId => "location_id"
  | .featureCode => "feature_code"
  | .userId => "user_id"
  | .grantedBy => "granted_by"
  | .actorUserId => "actor_user_id"
  | .creatorId => "creator_id"
  | .editorId => "editor_id"
  | .proposerId => "proposer_id"
  | .resolvedBy => "resolved_by"
  | .authorId => "author_id"
  | .reviewId => "review_id"
  | .uploaderId => "uploader_id"
  | .reviewedBy => "reviewed_by"
  | .reporterId => "reporter_id"
  | .claimedBy => "claimed_by"
  | .fulfilledBy => "fulfilled_by"

/-- The name that a foreign key gets when it is written without one. -/
def constraintName (t : TableName) (c : KeyColumn) : String :=
  t.asStr ++ "_" ++ c.asStr ++ "_fkey"

/-! ## The statements -/

/-- `BIGINT NOT NULL REFERENCES … ON DELETE CASCADE`. -/
def owned (column : KeyColumn) (references : TableName) : ColumnDef TableName KeyColumn where
  column := column
  notNull := true
  references := references
  onDelete := .cascade

/-- `BIGINT REFERENCES users(id) ON DELETE SET NULL`. -/
def attributed (column : KeyColumn) : ColumnDef TableName KeyColumn where
  column := column
  references := .users
  onDelete := .setNull

/-- The three statements of migration 0012 for a column: the foreign key that came
with the column goes, `NULL` is allowed, and a foreign key that sets it comes. -/
def backstop (t : TableName) (c : KeyColumn) (name : String) : List (Ddl TableName KeyColumn) :=
  [.dropConstraint t name,
    .dropNotNull t c,
    .addForeignKey
      { name := name, table := t, column := c, references := .users, onDelete := .setNull }]

/-- The statements of the migrations, in order. -/
def migrations : List (Ddl TableName KeyColumn) :=
  -- 0001_init
  [.createTable .users [],
  -- 0002_parking
    .createTable .securityFeature [],
    .createTable .parkingLocation [],
    .createTable .parkingSecurity
      [owned .locationId .parkingLocation,
        { column := .featureCode, notNull := true, references := .securityFeature }],
    .createTable .openingHours [owned .locationId .parkingLocation],
  -- 0003_photos
    .createTable .parkingPhoto [owned .locationId .parkingLocation],
  -- 0004_security_codes
    .dropConstraint .parkingSecurity "parking_security_feature_code_fkey",
    .dropTable .securityFeature,
  -- 0005_accounts
    .createTable .authenticationIdentities [owned .userId .users],
    .createTable .sessions [owned .userId .users],
    .createTable .emailVerificationTokens [owned .userId .users],
    .createTable .passwordResetTokens [owned .userId .users],
    .createTable .userRoles [owned .userId .users, attributed .grantedBy],
  -- 0006_audit_events
    .createTable .auditEvents [attributed .actorUserId],
  -- 0007_contributions
    .addColumn .parkingLocation (attributed .creatorId),
    .createTable .parkingRevision [owned .locationId .parkingLocation, attributed .editorId],
    .createTable .parkingProposal
      [owned .locationId .parkingLocation, owned .proposerId .users, attributed .resolvedBy],
  -- 0008_community
    .createTable .review [owned .locationId .parkingLocation, owned .authorId .users],
    .createTable .reviewRevision [owned .reviewId .review],
    .createTable .verification [owned .locationId .parkingLocation, owned .userId .users],
    .createTable .favorite [owned .userId .users, owned .locationId .parkingLocation],
  -- 0009_photos
    .addColumn .parkingPhoto (attributed .uploaderId),
    .addColumn .parkingPhoto (attributed .reviewedBy),
  -- 0010_moderation
    .createTable .report
      [owned .reporterId .users, attributed .claimedBy, attributed .resolvedBy],
  -- 0011_review_photos
    .createTable .reviewPhoto
      [owned .reviewId .review, attributed .uploaderId, attributed .reviewedBy],
  -- 0012_privacy
    .createTable .privacyRequest [attributed .userId, attributed .fulfilledBy],
    .createTable .personalDataExport [owned .userId .users],
    .createTable .consentRecord [owned .userId .users]] ++
  backstop .review .authorId "review_author_id_fkey" ++
  backstop .verification .userId "verification_user_id_fkey" ++
  backstop .parkingProposal .proposerId "parking_proposal_proposer_id_fkey" ++
  backstop .report .reporterId "report_reporter_id_fkey"

/-- No statement of the migrations fails. -/
theorem migrations_run : (Schema.migrate constraintName migrations).isSome = true := by
  decide +kernel

/-- The schema that the migrations make. -/
def schema : Schema TableName KeyColumn :=
  (Schema.migrate constraintName migrations).get migrations_run

/-! ## The rows -/

/-- The rows of a table: the id, or the id of the location for the rows that hang
on one, and the other columns. -/
abbrev TableName.Row : TableName → Type
  | .users => Nat × User
  | .securityFeature => Empty
  | .parkingLocation => Nat × ParkingLocation
  | .parkingSecurity => Nat × SecurityRow
  | .openingHours => Nat × HourRow
  | .parkingPhoto => Nat × Photo
  | .authenticationIdentities => Nat × AuthenticationIdentity
  | .sessions => Nat × Session
  | .emailVerificationTokens => Nat × EmailVerificationToken
  | .passwordResetTokens => Nat × PasswordResetToken
  | .userRoles => Nat × UserRole
  | .auditEvents => Nat × AuditEvent
  | .parkingRevision => Nat × ParkingRevision
  | .parkingProposal => Nat × ParkingProposal
  | .review => Nat × Review
  | .reviewRevision => Nat × ReviewRevision
  | .verification => Nat × Verification
  | .favorite => Nat × Favorite
  | .report => Nat × Report
  | .reviewPhoto => Nat × Photo
  | .privacyRequest => Nat × PrivacyRequest
  | .personalDataExport => Nat × PersonalDataExport
  | .consentRecord => Nat × ConsentRecord

/-- The rows of the child tables of a location, with its id. -/
def childRows {α : Type} (db : Db) (children : LocationRecord → List α) : List (Nat × α) :=
  db.parkingLocation.rows.flatMap fun x => (children x.2).map fun r => (x.1, r)

/-- The rows of a database. -/
def Db.contents (db : Db) : Contents TableName.Row
  | .users => db.users.rows
  | .securityFeature => []
  | .parkingLocation => db.parkingLocation.rows.map fun x => (x.1, x.2.row)
  | .parkingSecurity => childRows db LocationRecord.security
  | .openingHours => childRows db LocationRecord.hours
  | .parkingPhoto => db.parkingPhoto.rows
  | .authenticationIdentities => db.authenticationIdentities.rows
  | .sessions => db.sessions.rows
  | .emailVerificationTokens => db.emailVerificationTokens.rows
  | .passwordResetTokens => db.passwordResetTokens.rows
  | .userRoles => db.userRoles.rows
  | .auditEvents => db.auditEvents.rows
  | .parkingRevision => childRows db LocationRecord.revisions
  | .parkingProposal => db.parkingProposal.rows
  | .review => db.review.rows
  | .reviewRevision => db.reviewRevision.rows
  | .verification => db.verification.rows
  | .favorite => db.favorite.rows
  | .report => db.report.rows
  | .reviewPhoto => db.reviewPhoto.rows
  | .privacyRequest => db.privacyRequest.rows
  | .personalDataExport => db.personalDataExport.rows
  | .consentRecord => db.consentRecord.rows

/-- What a foreign key refers to a row by. -/
def key : (t : TableName) → t.Row → Option Nat
  | .users, r => some r.1
  | .parkingLocation, r => some r.1
  | .review, r => some r.1
  | _, _ => none

/-- The value of a foreign key column. -/
def reference : (t : TableName) → KeyColumn → t.Row → Option Nat
  | .parkingLocation, .creatorId => fun r => r.2.creatorId
  | .parkingSecurity, .locationId => fun r => some r.1
  | .openingHours, .locationId => fun r => some r.1
  | .parkingPhoto, .locationId => fun r => some r.2.parentId
  | .parkingPhoto, .uploaderId => fun r => r.2.uploaderId
  | .parkingPhoto, .reviewedBy => fun r => r.2.reviewedBy
  | .authenticationIdentities, .userId => fun r => some r.2.userId
  | .sessions, .userId => fun r => some r.2.userId
  | .emailVerificationTokens, .userId => fun r => some r.2.userId
  | .passwordResetTokens, .userId => fun r => some r.2.userId
  | .userRoles, .userId => fun r => some r.2.userId
  | .userRoles, .grantedBy => fun r => r.2.grantedBy
  | .auditEvents, .actorUserId => fun r => r.2.actorUserId
  | .parkingRevision, .locationId => fun r => some r.1
  | .parkingRevision, .editorId => fun r => r.2.editorId
  | .parkingProposal, .locationId => fun r => some r.2.locationId
  | .parkingProposal, .proposerId => fun r => r.2.proposerId
  | .parkingProposal, .resolvedBy => fun r => r.2.resolvedBy
  | .review, .locationId => fun r => some r.2.locationId
  | .review, .authorId => fun r => r.2.authorId
  | .reviewRevision, .reviewId => fun r => some r.2.reviewId
  | .verification, .locationId => fun r => some r.2.locationId
  | .verification, .userId => fun r => r.2.userId
  | .favorite, .userId => fun r => some r.2.userId
  | .favorite, .locationId => fun r => some r.2.locationId
  | .report, .reporterId => fun r => r.2.reporterId
  | .report, .claimedBy => fun r => r.2.claimedBy
  | .report, .resolvedBy => fun r => r.2.resolvedBy
  | .reviewPhoto, .reviewId => fun r => some r.2.parentId
  | .reviewPhoto, .uploaderId => fun r => r.2.uploaderId
  | .reviewPhoto, .reviewedBy => fun r => r.2.reviewedBy
  | .privacyRequest, .userId => fun r => r.2.userId
  | .privacyRequest, .fulfilledBy => fun r => r.2.fulfilledBy
  | .personalDataExport, .userId => fun r => some r.2.userId
  | .consentRecord, .userId => fun r => some r.2.userId
  | _, _ => fun _ => none

/-- `SET column = x` on a foreign key column that may be `NULL`.  A column that is
`NOT NULL` has no place for it and stays. -/
def setColumn : (t : TableName) → KeyColumn → Option Nat → t.Row → t.Row
  | .parkingLocation, .creatorId => fun x r => (r.1, { r.2 with creatorId := x })
  | .parkingPhoto, .uploaderId => fun x r => (r.1, { r.2 with uploaderId := x })
  | .parkingPhoto, .reviewedBy => fun x r => (r.1, { r.2 with reviewedBy := x })
  | .userRoles, .grantedBy => fun x r => (r.1, { r.2 with grantedBy := x })
  | .auditEvents, .actorUserId => fun x r => (r.1, { r.2 with actorUserId := x })
  | .parkingRevision, .editorId => fun x r => (r.1, { r.2 with editorId := x })
  | .parkingProposal, .proposerId => fun x r => (r.1, { r.2 with proposerId := x })
  | .parkingProposal, .resolvedBy => fun x r => (r.1, { r.2 with resolvedBy := x })
  | .review, .authorId => fun x r => (r.1, { r.2 with authorId := x })
  | .verification, .userId => fun x r => (r.1, { r.2 with userId := x })
  | .report, .reporterId => fun x r => (r.1, { r.2 with reporterId := x })
  | .report, .claimedBy => fun x r => (r.1, { r.2 with claimedBy := x })
  | .report, .resolvedBy => fun x r => (r.1, { r.2 with resolvedBy := x })
  | .reviewPhoto, .uploaderId => fun x r => (r.1, { r.2 with uploaderId := x })
  | .reviewPhoto, .reviewedBy => fun x r => (r.1, { r.2 with reviewedBy := x })
  | .privacyRequest, .userId => fun x r => (r.1, { r.2 with userId := x })
  | .privacyRequest, .fulfilledBy => fun x r => (r.1, { r.2 with fulfilledBy := x })
  | _, _ => fun _ r => r

/-- `SET column = NULL`. -/
def clear (t : TableName) (c : KeyColumn) (r : t.Row) : t.Row := setColumn t c none r

/-! ## The audit trigger -/

/-- `audit_events_immutable`, with the value of `app.audit_purge` and the message it
raises.  A deletion has no new row. -/
def auditEventsImmutable (setting : Option String) (old : Nat × AuditEvent) :
    Option (Nat × AuditEvent) → Option String
  | none =>
    if setting.getD "" = "on" then none
    else some "audit_events is append-only: DELETE requires purge_audit_events_before()"
  | some new =>
    if setting.getD "" = "on" then none
    else if new.1 ≠ old.1 ∨ new.2.action ≠ old.2.action ∨ new.2.targetType ≠ old.2.targetType ∨
        new.2.targetId ≠ old.2.targetId ∨ new.2.result ≠ old.2.result ∨
        new.2.metadata.isSame old.2.metadata = false ∨ new.2.createdAt ≠ old.2.createdAt ∨
        new.2.actorUserId.isSome then
      some "audit_events is append-only: only actor_user_id may be nulled (erasure)"
    else none

/-- Only `audit_events` has a trigger. -/
def beforeUpdate (setting : Option String) : (t : TableName) → t.Row → t.Row → Option String
  | .auditEvents, old, new => auditEventsImmutable setting old (some new)
  | _, _, _ => none

def beforeDelete (setting : Option String) : (t : TableName) → t.Row → Option String
  | .auditEvents, old => auditEventsImmutable setting old none
  | _, _ => none

/-- The catalog of the database, for a session with this value of `app.audit_purge`. -/
def catalog (setting : Option String) : Catalog KeyColumn TableName.Row where
  schema := schema
  key := key
  reference := reference
  clear := clear
  beforeUpdate := beforeUpdate setting
  beforeDelete := beforeDelete setting

/-- Whatever the setting, the actor of an event may be forgotten. -/
theorem auditEventsImmutable_clear (setting : Option String) (r : Nat × AuditEvent) :
    auditEventsImmutable setting r (some (r.1, { r.2 with actorUserId := none })) = none := by
  simp [auditEventsImmutable, Json.isSame_self]

/-! ## The foreign keys of `users` -/

/-- What the deletion of an account does to the rows of each table. -/
def accountActions : TableName → List (KeyColumn × OnDelete)
  | .authenticationIdentities => [(.userId, .cascade)]
  | .sessions => [(.userId, .cascade)]
  | .emailVerificationTokens => [(.userId, .cascade)]
  | .passwordResetTokens => [(.userId, .cascade)]
  | .userRoles => [(.userId, .cascade), (.grantedBy, .setNull)]
  | .favorite => [(.userId, .cascade)]
  | .personalDataExport => [(.userId, .cascade)]
  | .consentRecord => [(.userId, .cascade)]
  | .auditEvents => [(.actorUserId, .setNull)]
  | .parkingLocation => [(.creatorId, .setNull)]
  | .parkingRevision => [(.editorId, .setNull)]
  | .parkingProposal => [(.resolvedBy, .setNull), (.proposerId, .setNull)]
  | .review => [(.authorId, .setNull)]
  | .verification => [(.userId, .setNull)]
  | .parkingPhoto => [(.uploaderId, .setNull), (.reviewedBy, .setNull)]
  | .reviewPhoto => [(.uploaderId, .setNull), (.reviewedBy, .setNull)]
  | .report => [(.claimedBy, .setNull), (.resolvedBy, .setNull), (.reporterId, .setNull)]
  | .privacyRequest => [(.userId, .setNull), (.fulfilledBy, .setNull)]
  | .users | .securityFeature | .parkingSecurity | .openingHours | .reviewRevision => []

theorem actionsOn_users (t : TableName) : schema.actionsOn .users t = accountActions t := by
  have hall : ∀ t ∈ TableName.all, schema.actionsOn .users t = accountActions t := by
    decide +kernel
  exact hall t (TableName.mem_all t)

/-- Before migration 0012 an account would have taken its reviews with it. -/
example : (Schema.migrate constraintName (migrations.take 28)).map
    (fun s => s.actionsOn .users .review) = some [(.authorId, .cascade)] := by
  decide +kernel

theorem length_referencing_users : (schema.referencing .users).length = 25 := by
  decide +kernel

/-- The tables of the cascades are referred to by none, and the columns that are set
to `NULL` allow it. -/
theorem yields_referencing_users : ∀ k ∈ schema.referencing .users, schema.yields k = true := by
  decide +kernel

/-- The one foreign key of the audit log sets the actor. -/
theorem audit_referencing_users :
    ∀ k ∈ schema.referencing .users, k.table = .auditEvents →
      k.column = .actorUserId ∧ k.onDelete = .setNull := by
  decide +kernel

theorem beforeUpdate_clear {t : TableName} {c : KeyColumn}
    (h : t = .auditEvents → c = .actorUserId) (setting : Option String) (r : t.Row) :
    beforeUpdate setting t r (clear t c r) = none := by
  cases t
  case auditEvents =>
    rw [h rfl]
    exact auditEventsImmutable_clear setting r
  all_goals rfl

theorem beforeDelete_of_ne {t : TableName} (h : t ≠ .auditEvents) (setting : Option String)
    (r : t.Row) : beforeDelete setting t r = none := by
  cases t
  case auditEvents => exact absurd rfl h
  all_goals rfl

/-- No foreign key of `users` stops the deletion of an account, whatever refers to
it. -/
theorem catalog_yields (setting : Option String) :
    ∀ k ∈ (catalog setting).schema.referencing .users, (catalog setting).Yields k := by
  intro k hk
  refine ⟨yields_referencing_users k hk, fun _ r => ?_, fun hcascade r => ?_⟩
  · exact beforeUpdate_clear (fun htable => (audit_referencing_users k hk htable).1) setting r
  · apply beforeDelete_of_ne
    intro htable
    have hnull := (audit_referencing_users k hk htable).2
    rw [hcascade] at hnull
    cases hnull

end BikesNest.Store
