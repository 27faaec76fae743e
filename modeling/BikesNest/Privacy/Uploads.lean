import BikesNest.Moderation.Repo
import BikesNest.Privacy.Retention

/-!
# The steps of the retention job that look after the uploads

`purge_orphan_uploads` deletes the objects that are old and that no photo references, and
`reconcile_pending_photos` the pending photos whose object is gone.  Both work on the rows
and on the object store, and are written here over any `Stores` that make their calls: the
job has the answers of the object store as a port, and the photo service shares a live one.
-/

namespace BikesNest.Privacy

open Domain Store Relational
open Moderation (PhotoKind)

structure ObjectInfo where
  key : String
  lastModified : Instant

/-- One page of `list`, and the key after which the next one starts. -/
structure ListPage where
  objects : List ObjectInfo
  next : Option String

/-- The calls that the steps make: queries and deletions of rows, and those of the object
store. -/
structure Stores (σ : Type) where
  query {α : Type} (f : Db → α) : Service σ PrivacyError α
  purge (f : Db → Nat × Db) : Service σ PrivacyError Nat
  containsKey (key : String) : Service σ PrivacyError Bool
  delete (key : String) : Service σ PrivacyError Unit

/-- `RetentionPolicy`: the two terms that the purges read. -/
structure RetentionPolicy where
  sessionIdle : Int := 30 * day
  uploadOrphanTtl : Int := 24 * hour

/-- The photo table holds the key, as a full image or a thumbnail. -/
def holdsKey (photos : Table Photo) (key : String) : Bool :=
  photos.any fun _ r => r.storageKey == key || r.thumbnailKey == some key

/-- The candidates that a photo row still holds. -/
def referencedKeys (db : Db) (candidates : List String) : List String :=
  candidates.filter fun key => holdsKey db.parkingPhoto key || holdsKey db.reviewPhoto key

/-- The photo table that `kind` names. -/
def photos (db : Db) : PhotoKind → Table Photo
  | .parking => db.parkingPhoto
  | .review => db.reviewPhoto

/-- `DELETE … WHERE id = $1` on a photo table. -/
def deletePhoto (kind : PhotoKind) (db : Db) (id : Nat) : Nat × Db :=
  let addressed (i : Nat) (_ : Photo) : Bool := i == id
  ((photos db kind).affected addressed,
    match kind with
    | .parking => { db with parkingPhoto := db.parkingPhoto.delete addressed }
    | .review => { db with reviewPhoto := db.reviewPhoto.delete addressed })

/-- The pending photos of one table that are older than the grace period. -/
def pendingPhotos (kind : PhotoKind) (db : Db) (cutoff : Instant) : List (Nat × String) :=
  ((photos db kind).select fun _ r =>
    r.moderationState == .pendingReview && r.createdAt < cutoff).map fun x => (x.1, x.2.storageKey)

/-- `PENDING_RECONCILE_GRACE`. -/
def pendingReconcileGrace : Int := hour

namespace Stores

variable {σ : Type} (stores : Stores σ)

/-! ## The sweep of the object store -/

/-- Delete the objects one after the other. -/
def deleteObjects : List String → Service σ PrivacyError Nat
  | [] => pure 0
  | key :: keys => do
    stores.delete key
    let count ← deleteObjects keys
    return count + 1

/-- `referenced`.  An empty batch asks nothing. -/
def referenced (candidates : List String) : Service σ PrivacyError (List String) :=
  if candidates.isEmpty then pure [] else stores.query fun db => referencedKeys db candidates

/-- `purge_unreferenced`. -/
def purgeUnreferenced (candidates : List String) : Service σ PrivacyError Nat := do
  let kept ← stores.referenced candidates
  stores.deleteObjects (candidates.filter fun key => !kept.contains key)

/-- The loop of `purge_orphan_uploads` from `after` on, for at most `pages` pages: how many
objects it deletes, and whether it comes to the end of the listing. -/
def purgePages (list : Option String → Service σ PrivacyError ListPage) (cutoff : Instant) :
    Nat → Option String → Service σ PrivacyError (Nat × Bool)
  | 0, _ => pure (0, false)
  | pages + 1, after => do
    let page ← list after
    let purged ← stores.purgeUnreferenced
      ((page.objects.filter fun o => o.lastModified < cutoff).map ObjectInfo.key)
    match page.next with
    | some next =>
      let (count, ended) ← purgePages list cutoff pages (some next)
      return (purged + count, ended)
    | none => return (purged, true)

/-- `purge_orphan_uploads`. -/
def purgeOrphanUploads (list : Option String → Service σ PrivacyError ListPage)
    (policy : RetentionPolicy) (now : Instant) (pages : Nat) :
    Service σ PrivacyError (Nat × Bool) :=
  stores.purgePages list (now - policy.uploadOrphanTtl) pages none

/-! ## The reconciliation of pending photos -/

/-- A pending photo whose object is there stays. -/
def reconcilePhoto (kind : PhotoKind) (id : Nat) (found : Bool) : Service σ PrivacyError Nat :=
  if found then pure 0 else stores.purge fun db => deletePhoto kind db id

/-- The loop over the pending photos of one table. -/
def reconcilePhotos (kind : PhotoKind) : List (Nat × String) → Service σ PrivacyError Nat
  | [] => pure 0
  | (id, key) :: rest => do
    let found ← stores.containsKey key
    let deleted ← stores.reconcilePhoto kind id found
    let count ← reconcilePhotos kind rest
    return deleted + count

/-- `reconcile_pending_photos`. -/
def reconcilePendingPhotos (now : Instant) : Service σ PrivacyError Nat := do
  let cutoff := now - pendingReconcileGrace
  let parking ← stores.query fun db => pendingPhotos .parking db cutoff
  let deleted ← stores.reconcilePhotos .parking parking
  let review ← stores.query fun db => pendingPhotos .review db cutoff
  let more ← stores.reconcilePhotos .review review
  return deleted + more

/-! ## What the calls keep -/

section Respects

variable {stores : Stores σ} {R : σ → σ → Prop}
  (hquery : ∀ {α : Type} (f : Db → α), (stores.query f).Respects R)

include hquery

/-- A sweep makes the calls of its stores and of its listing. -/
theorem purgePages_respects {list : Option String → Service σ PrivacyError ListPage}
    (hlist : ∀ after, (list after).Respects R) (hdelete : ∀ key, (stores.delete key).Respects R)
    {cutoff : Instant} (pages : Nat) (after : Option String) :
    (stores.purgePages list cutoff pages after).Respects R := by
  have hobjects : ∀ keys, (stores.deleteObjects keys).Respects R := by
    intro keys
    induction keys with
    | nil => exact .pure _
    | cons key keys ih => exact .bind (hdelete key) fun _ => .bind ih fun _ => .pure _
  have hpurge : ∀ candidates, (stores.purgeUnreferenced candidates).Respects R := by
    intro candidates
    refine .bind ?_ fun _ => hobjects _
    unfold referenced
    split
    · exact .pure _
    · exact hquery _
  induction pages generalizing after with
  | zero => exact .pure _
  | succ pages ih =>
    refine .bind (hlist after) fun page => .bind (hpurge _) fun _ => ?_
    cases page.next with
    | none => exact .pure _
    | some next => exact .bind (ih (some next)) fun _ => .pure _

/-- So does a reconciliation. -/
theorem reconcilePendingPhotos_respects
    (hcontains : ∀ key, (stores.containsKey key).Respects R)
    (hpurge : ∀ kind id, (stores.purge fun db => deletePhoto kind db id).Respects R)
    (now : Instant) : (stores.reconcilePendingPhotos now).Respects R := by
  have hphotos : ∀ kind rows, (stores.reconcilePhotos kind rows).Respects R := by
    intro kind rows
    induction rows with
    | nil => exact .pure _
    | cons row rows ih =>
      refine .bind (hcontains _) fun found => .bind ?_ fun _ => .bind ih fun _ => .pure _
      cases found with
      | true => exact .pure _
      | false => exact hpurge kind row.1
  unfold reconcilePendingPhotos
  exact .bind (hquery _) fun _ => .bind (hphotos _ _) fun _ => .bind (hquery _) fun _ =>
    .bind (hphotos _ _) fun _ => .pure _

end Respects

end Stores

end BikesNest.Privacy
