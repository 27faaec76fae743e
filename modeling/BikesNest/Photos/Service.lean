import BikesNest.Auth.Accounts
import BikesNest.Moderation.Service
import BikesNest.Privacy.RetentionJob

/-!
# The photo service

`PhotoService` works on two stores: the database, and the objects under their keys.
`Media` is both.  An upload writes the two objects first and then the row; a
rejection writes the row first and then deletes the objects.

What the bytes of an image are is left out: `processed` says whether the processor
accepts them.  So are the columns of a photo that no modelled statement reads.
-/

namespace BikesNest.Photos

open Domain Store Relational
open Moderation (PhotoKind updatePhoto updateOne updateOne_error)
open Privacy (photos StorageError)

/-- The database and the object store, with the time of the last write under each
key. -/
structure Media where
  db : Db
  objects : String → Option Instant

inductive PhotoError where
  | notVerified
  | rateLimited
  | tooLarge
  | unsupportedFormat
  | undecodable
  | tooManyPixels
  | notFound
  | notPending
  | unauthorized
  | invalidField (hint : String)
  | storage (e : StorageError)
  | conflict
  | unavailable
  | internal
deriving DecidableEq

/-! ## The object store -/

namespace Media

def now (m : Media) : Instant := m.db.now

/-- `put`. -/
def put (m : Media) (key : String) : Media :=
  { m with objects := Function.update m.objects key (some m.now) }

/-- `delete`.  A missing object is not an error. -/
def delete (m : Media) (key : String) : Media :=
  { m with objects := Function.update m.objects key none }

theorem objects_put (m : Media) (key key' : String) :
    (m.put key).objects key' = if key' = key then some m.now else m.objects key' := by
  simp [put, Function.update_apply]

theorem objects_delete (m : Media) (key key' : String) :
    (m.delete key).objects key' = if key' = key then none else m.objects key' := by
  simp [delete, Function.update_apply]

end Media

/-- A call of the object store whose error the service looks at. -/
def putObject (key : String) : Service Media PhotoError (Except StorageError Unit) :=
  .call (·.put key) (fun _ => pure (.ok ())) (pure (.error .unavailable))

/-- `let _ = storage.delete(key)`. -/
def deleteQuietly (key : String) : Service Media PhotoError Unit :=
  .call (·.delete key) (fun _ => pure ()) (pure ())

/-- One transaction of the database. -/
def repo {α : Type} (f : Db → Except PhotoError (α × Db)) : Service Media PhotoError α :=
  .request .unavailable fun m =>
    match f m.db with
    | .ok (a, db) => .ok (a, { m with db })
    | .error e => .error e

/-- One query of the database. -/
def query {α : Type} (f : Db → α) : Service Media PhotoError α :=
  .query .unavailable fun m => f m.db

/-- The audit log. -/
def audit (event : NewAuditEvent) : Service Media PhotoError Unit :=
  repo fun db =>
    match db.recordAudit event with
    | some db' => .ok ((), db')
    | none => .error .internal

/-! ## The photo repository -/

/-- `PhotoKind::table`. -/
def tableOf : PhotoKind → String
  | .parking => "parking_photo"
  | .review => "review_photo"

/-- `PhotoTarget`: a location or a review. -/
structure PhotoTarget where
  kind : PhotoKind
  parentId : Nat

/-- The row that a photo hangs off. -/
def hasParent (db : Db) (target : PhotoTarget) : Bool :=
  match target.kind with
  | .parking => (db.parkingLocation.row target.parentId).isSome
  | .review => (db.review.row target.parentId).isSome

/-- `INSERT` into the table that `kind` names. -/
def insertPhoto (db : Db) (kind : PhotoKind) (r : Photo) : Db :=
  match kind with
  | .parking => { db with parkingPhoto := db.parkingPhoto.insert r }
  | .review => { db with reviewPhoto := db.reviewPhoto.insert r }

/-- `insert_pending`. -/
def insertPending (db : Db) (target : PhotoTarget) (uploader : UserId)
    (storageKey thumbnailKey : String) : Except PhotoError (Nat × Db) :=
  if !hasParent db target then .error (.invalidField (tableOf target.kind ++ "_parent_fkey"))
  else if (db.users.row uploader).isNone then
    .error (.invalidField (tableOf target.kind ++ "_uploader_id_fkey"))
  else
    .ok ((photos db target.kind).next, insertPhoto db target.kind
      { parentId := target.parentId, uploaderId := some uploader, storageKey
        thumbnailKey := some thumbnailKey, createdAt := db.now })

/-- `max_position`. -/
def maxPosition (db : Db) (target : PhotoTarget) : Int :=
  ((photos db target.kind).select fun _ r => r.parentId == target.parentId).foldl
    (fun top x => max top x.2.position) 0

/-- The database with another photo table. -/
def withPhotos (db : Db) (kind : PhotoKind) (table : Table Photo) : Db :=
  match kind with
  | .parking => { db with parkingPhoto := table }
  | .review => { db with reviewPhoto := table }

theorem updatePhoto_eq (db : Db) (kind : PhotoKind) (id : Nat) (q : Photo → Bool)
    (f : Photo → Photo) :
    updatePhoto db kind id q f = (updateOne (photos db kind) id q f).map (withPhotos db kind) := by
  cases kind <;> rfl

theorem photos_withPhotos (kind : PhotoKind) (table : Table Photo) :
    photos (withPhotos db kind table) kind = table := by
  cases kind <;> rfl

/-- The photo after an `UPDATE`, and the other photos of both tables. -/
theorem updatePhoto_ok {db db' : Db} {id : Nat} {kind : PhotoKind} {q : Photo → Bool} {f : Photo → Photo}
    (h : updatePhoto db kind id q f = .ok db') :
    db'.now = db.now ∧
      (∃ r, (photos db kind).row id = some r ∧ q r = true ∧ (photos db' kind).row id = some (f r)) ∧
      ∀ kind' i, ¬ (kind' = kind ∧ i = id) →
        (photos db' kind').row i = (photos db kind').row i := by
  rw [updatePhoto_eq] at h
  cases hupdate : updateOne (photos db kind) id q f with
  | error e =>
    rw [hupdate] at h
    cases h
  | ok table =>
    rw [hupdate] at h
    cases h
    obtain ⟨⟨r, hr, hq, hr'⟩, hothers⟩ := Moderation.updateOne_ok hupdate
    have htable : photos (withPhotos db kind table) kind = table := photos_withPhotos kind table
    rw [← htable] at hr'
    refine ⟨by cases kind <;> rfl, ⟨r, hr, hq, hr'⟩, fun kind' i hne => ?_⟩
    by_cases hkind : kind' = kind
    · subst hkind
      rw [photos_withPhotos]
      exact hothers i fun hi => hne ⟨rfl, hi⟩
    · cases kind <;> cases kind' <;> first | rfl | exact absurd rfl hkind

/-- The row of a photo that an `UPDATE` refuses. -/
theorem updatePhoto_error {db : Db} {id : Nat} {kind : PhotoKind} {q : Photo → Bool} {f : Photo → Photo}
    {e : Moderation.ModerationError} (h : updatePhoto db kind id q f = .error e) :
    e = .invalidState ∧ ((photos db kind).row id).any q = false := by
  rw [updatePhoto_eq] at h
  cases hupdate : updateOne (photos db kind) id q f with
  | error e' =>
    rw [hupdate] at h
    cases h
    exact updateOne_error hupdate
  | ok table =>
    rw [hupdate] at h
    cases h

/-- `UPDATE … WHERE id = $1 AND moderation_state = 'PENDING_REVIEW'`, with the foreign
key on the reviewer. -/
def decidePending (db : Db) (kind : PhotoKind) (id : Nat) (moderator : UserId)
    (f : Photo → Photo) : Except PhotoError Db :=
  match updatePhoto db kind id (fun r => r.moderationState == .pendingReview) f with
  | .error _ => .error .notPending
  | .ok db' =>
    if (db.users.row moderator).isNone then
      .error (.invalidField (tableOf kind ++ "_reviewed_by_fkey"))
    else .ok db'

theorem decidePending_ok {db db' : Db} {id : Nat} {kind : PhotoKind} {moderator : UserId} {f : Photo → Photo}
    (h : decidePending db kind id moderator f = .ok db') :
    ∃ mid, updatePhoto db kind id (fun r => r.moderationState == .pendingReview) f = .ok mid ∧
      (db.users.row moderator).isSome = true ∧ mid = db' := by
  unfold decidePending at h
  split at h
  · cases h
  · next mid hupdate =>
    split at h
    · cases h
    · next huser =>
      cases h
      exact ⟨_, hupdate, Option.isSome_iff_ne_none.mpr fun hnone => huser (by rw [hnone]; rfl), rfl⟩

/-- `approve`. -/
def approveRow (db : Db) (kind : PhotoKind) (id : Nat) (moderator : UserId) (position : Int) :
    Except PhotoError (Unit × Db) := do
  let db' ← decidePending db kind id moderator fun r =>
    { r with
      moderationState := .approved, position
      reviewedBy := some moderator, reviewedAt := some db.now }
  return ((), db')

/-- `reject`, with the keys of the row. -/
def rejectRow (db : Db) (kind : PhotoKind) (id : Nat) (moderator : UserId) (reason : String) :
    Except PhotoError ((String × Option String) × Db) := do
  let db' ← decidePending db kind id moderator fun r =>
    { r with
      moderationState := .rejected, rejectionReason := some reason
      reviewedBy := some moderator, reviewedAt := some db.now }
  match (photos db kind).row id with
  | none => .error .notPending
  | some r => return ((r.storageKey, r.thumbnailKey), db')

/-! ## Uploads -/

/-- `PHOTO_UPLOAD_USER_LIMIT`. -/
def photoUploadUserLimit : Nat := 10

/-- `PHOTO_UPLOAD_IP_LIMIT`. -/
def photoUploadIpLimit : Nat := 20

/-- `MAX_ALT_LEN`. -/
def maxAltLen : Nat := 500

/-- `normalize_alt`. -/
def normalizeAlt : Option String → Except PhotoError (Option String)
  | none => .ok none
  | some raw =>
    let trimmed := Text.trim raw
    if trimmed.isEmpty then .ok none
    else if maxAltLen < trimmed.length then .error (.invalidField "caption too long")
    else .ok (some trimmed)

/-- A byte as two hexadecimal digits. -/
def hexByte (b : UInt8) : List Char :=
  [Nat.digitChar (b.toNat / 16), Nat.digitChar (b.toNat % 16)]

/-- `mint_upload_id`, from the bytes that the generator answers. -/
def mintUploadId (raw : Auth.Token) : String :=
  String.ofList ((raw.bytes.take 16).flatMap hexByte)

/-- `uploads/{upload_id}/full.jpg`. -/
def fullKey (uploadId : String) : String := "uploads/" ++ uploadId ++ "/full.jpg"

/-- `uploads/{upload_id}/thumb.jpg`. -/
def thumbKey (uploadId : String) : String := "uploads/" ++ uploadId ++ "/thumb.jpg"

/-- What a request to upload carries, with the answers of the rate limiter, the image
processor and the generator. -/
structure Upload where
  user : AuthenticatedUser
  allow : String → Nat → Int → Bool
  ip : String
  target : PhotoTarget
  size : Nat
  maxBytes : Nat
  processed : Except PhotoError Unit
  alt : Option String
  raw : Auth.Token

namespace Upload

variable (x : Upload)

def uploadId : String := mintUploadId x.raw

/-- The audit event of an upload. -/
def event (id : Nat) : NewAuditEvent where
  actor := some x.user.id
  action := "photo.uploaded"
  targetType := tableOf x.target.kind
  targetId := toString id
  metadata := .obj [("parent_id", .int x.target.parentId)]

/-- The row is there. -/
def recorded (id : Nat) : Service Media PhotoError (Nat × PhotoKind) := do
  audit (x.event id)
  return (id, x.target.kind)

/-- The compensation for a row that was not written. -/
def undone (e : PhotoError) : Service Media PhotoError (Nat × PhotoKind) := do
  deleteQuietly (thumbKey x.uploadId)
  deleteQuietly (fullKey x.uploadId)
  Service.throw e

/-- Both objects are written: the row follows. -/
def writeRow : Service Media PhotoError (Nat × PhotoKind) := do
  let inserted ← Service.attempt (repo fun db =>
    insertPending db x.target x.user.id (fullKey x.uploadId) (thumbKey x.uploadId))
  match inserted with
  | .ok id => x.recorded id
  | .error e => x.undone e

/-- The full image is written: the thumbnail follows. -/
def writeThumb : Service Media PhotoError (Nat × PhotoKind) := do
  let written ← putObject (thumbKey x.uploadId)
  match written with
  | .ok () => x.writeRow
  | .error e =>
    deleteQuietly (fullKey x.uploadId)
    Service.throw (.storage e)

/-- The request is checked: the full image is written. -/
def write : Service Media PhotoError (Nat × PhotoKind) := do
  let written ← putObject (fullKey x.uploadId)
  match written with
  | .ok () => x.writeThumb
  | .error e => Service.throw (.storage e)

end Upload

/-- `upload_photo`. -/
def uploadPhoto (x : Upload) : Service Media PhotoError (Nat × PhotoKind) := do
  Service.require x.user.isVerified .notVerified
  Service.require (x.allow ("photo:upload:user:" ++ toString x.user.id) photoUploadUserLimit day)
    .rateLimited
  Service.require (x.allow ("photo:upload:ip:" ++ x.ip) photoUploadIpLimit day) .rateLimited
  Service.require (x.size ≤ x.maxBytes) .tooLarge
  match normalizeAlt x.alt, x.processed with
  | .error e, _ => Service.throw e
  | .ok _, .error e => Service.throw e
  | .ok _, .ok () => x.write

/-! ## Moderation -/

/-- `approve_photo`. -/
def approvePhoto (moderator : AuthenticatedUser) (kind : PhotoKind) (id : Nat) :
    Service Media PhotoError Unit := do
  Service.require (Moderation.isModerator moderator) .unauthorized
  let found ← query fun db => (photos db kind).row id
  match found with
  | none => Service.throw .notFound
  | some photo =>
    match photo.moderationState with
    | .approved => pure ()
    | .rejected | .hidden => Service.throw .notPending
    | .pendingReview =>
      let top ← query fun db => maxPosition db ⟨kind, photo.parentId⟩
      let position := top + 1
      repo fun db => approveRow db kind id moderator.id position
      audit
        { actor := some moderator.id, action := "photo.approved", targetType := tableOf kind
          targetId := toString id, metadata := .obj [("position", .int position)] }

/-- The rejection of a photo is written: its objects are deleted. -/
def rejected (moderator : UserId) (kind : PhotoKind) (id : Nat) (reason : String)
    (keys : String × Option String) : Service Media PhotoError Unit := do
  deleteQuietly keys.1
  match keys.2 with
  | some thumb => deleteQuietly thumb
  | none => pure ()
  audit
    { actor := some moderator, action := "photo.rejected", targetType := tableOf kind
      targetId := toString id, metadata := .obj [("reason", .str reason)] }

/-- `reject_photo`. -/
def rejectPhoto (moderator : AuthenticatedUser) (kind : PhotoKind) (id : Nat) (reason : String) :
    Service Media PhotoError Unit := do
  Service.require (Moderation.isModerator moderator) .unauthorized
  let reason := Text.trim reason
  Service.require (!reason.isEmpty) (.invalidField "reason is required")
  let found ← query fun db => (photos db kind).row id
  match found with
  | none => Service.throw .notFound
  | some photo =>
    match photo.moderationState with
    | .rejected => pure ()
    | .approved | .hidden => Service.throw .notPending
    | .pendingReview =>
      let keys ← repo fun db => rejectRow db kind id moderator.id reason
      rejected moderator.id kind id reason keys

end BikesNest.Photos
