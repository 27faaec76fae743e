import BikesNest.Lib.Knowledge
import BikesNest.Moderation.Failure
import BikesNest.Photos.Service
import Mathlib.Data.Set.BooleanAlgebra
import Mathlib.Order.CompletePartialOrder

/-!
# Operations on photos and their objects

The photo operations next to `upload_photo` as services on both stores: the decisions of
a moderator, and the two steps of the retention job that read the object store, which
here is the live one.

`licence` says which calls an operation may make next to the others: a `Steady` call, or
the deletion of an object under a dead key.  An operation learns which keys are aged, and
which are dead, from what its calls find.  Every operation but an upload is careful to keep
to it.
-/

namespace BikesNest.Photos

open Domain Store Relational
open Moderation (PhotoKind ContentAction ModerationError updatePhoto updateOne)
open Privacy (photos ObjectInfo ListPage PrivacyError RetentionPolicy holdsKey referencedKeys
  deletePhoto)

/-! ## The listing of the object store -/

/-- Port: the page that `list` answers about the objects, after a key. -/
abbrev Lister := (String → Option Instant) → Option String → ListPage

/-- A time as the S3 client has it. -/
structure S3DateTime where
  secs : Int
  subsecondNanos : Nat

def S3DateTime.ofInstant (t : Instant) : S3DateTime := ⟨t / second, (t % second).toNat * 1000⟩

/-- An entry of a listing. -/
structure S3Object where
  key : Option String
  lastModified : Option S3DateTime

structure ListObjectsRequest where
  keyPrefix : String
  maxKeys : Nat
  startAfter : Option String

structure ListObjectsOutput where
  contents : List S3Object
  isTruncated : Option Bool

/-- Port: what `ListObjectsV2` answers about a bucket with the objects. -/
abbrev ListObjectsV2 := (String → Option Instant) → ListObjectsRequest → ListObjectsOutput

/-- `UPLOAD_PREFIX`. -/
def uploadPrefix : String := "uploads/"

/-- `LIST_PAGE_KEYS`. -/
def listPageKeys : Nat := 1000

/-- `DateTime::from_timestamp(secs, 0)`, within the years that a `DateTime` can hold. -/
def fromTimestamp (secs : Int) : Option Instant :=
  if -8334601228800 ≤ secs ∧ secs ≤ 8210266876799 then some (secs * second) else none

/-- An object with a key.  `clock key` is what `Utc::now` answers for one without a time. -/
def objectInfo (clock : String → Instant) (o : S3Object) : Option ObjectInfo :=
  o.key.map fun key =>
    ⟨key, (o.lastModified.bind fun t => fromTimestamp t.secs).getD (clock key)⟩

/-- `S3ObjectStorage::list`. -/
def s3List (listObjects : ListObjectsV2) (clock : String → Instant) (keyPrefix : String) :
    Lister := fun objects after =>
  let out := listObjects objects ⟨keyPrefix, listPageKeys, after⟩
  let found := out.contents.filterMap (objectInfo clock)
  ⟨found, if out.isTruncated.getD false then found.getLast?.map ObjectInfo.key else none⟩

/-- The second in which an instant falls. -/
def wholeSecond (t : Instant) : Instant := t / second * second

theorem wholeSecond_le (t : Instant) : wholeSecond t ≤ t :=
  Int.ediv_mul_le t (show second ≠ 0 by decide)

theorem wholeSecond_mono {t t' : Instant} (h : t ≤ t') : wholeSecond t ≤ wholeSecond t' :=
  Int.mul_le_mul_of_nonneg_right (Int.ediv_le_ediv (by decide) h) (by decide)

theorem fromTimestamp_eq {t : Instant} (h : (fromTimestamp (t / second)).isSome = true) :
    fromTimestamp (t / second) = some (wholeSecond t) := by
  unfold fromTimestamp at h ⊢
  split
  · rfl
  · rename_i hout
    rw [if_neg hout] at h
    cases h

/-- What `ListObjectsV2` lists is there, with the time of its last write, which a `DateTime`
can hold. -/
def ListsPresent (listObjects : ListObjectsV2) : Prop :=
  ∀ objects req, ∀ o ∈ (listObjects objects req).contents, ∀ key, o.key = some key →
    ∃ t, objects key = some t ∧ o.lastModified = some (.ofInstant t) ∧
      (fromTimestamp (t / second)).isSome = true

/-- What is listed is there, and is reported in the second of its last write. -/
def ReportsSeconds (list : Lister) : Prop :=
  ∀ objects after, ∀ o ∈ (list objects after).objects,
    ∃ t, objects o.key = some t ∧ o.lastModified = wholeSecond t

theorem reportsSeconds_s3List {listObjects : ListObjectsV2} {clock : String → Instant}
    {keyPrefix : String} (h : ListsPresent listObjects) :
    ReportsSeconds (s3List listObjects clock keyPrefix) := by
  intro objects after o ho
  obtain ⟨entry, hentry, hinfo⟩ := List.mem_filterMap.mp ho
  obtain ⟨key, hkey, rfl⟩ := Option.map_eq_some_iff.mp hinfo
  obtain ⟨t, ht, hmodified, hdated⟩ := h objects _ entry hentry key hkey
  refine ⟨t, ht, ?_⟩
  show (entry.lastModified.bind fun t => fromTimestamp t.secs).getD (clock key) = wholeSecond t
  rw [hmodified, Option.bind_some]
  show (fromTimestamp (t / second)).getD (clock key) = wholeSecond t
  rw [fromTimestamp_eq hdated, Option.getD_some]

/-! ## The steps of the retention job -/

/-- The rows and the live objects. -/
def mediaStores : Privacy.Stores Media where
  query f := .query .unavailable fun m => f m.db
  purge f := .request .unavailable fun m => .ok ((f m.db).1, { m with db := (f m.db).2 })
  containsKey key := .query .unavailable fun m => (m.objects key).isSome
  delete key := .execute .unavailable (·.delete key)

/-- `purge_orphan_uploads`. -/
def purgeOrphanUploads (policy : RetentionPolicy) (list : Lister) (now : Instant) (pages : Nat) :
    Service Media PrivacyError (Nat × Bool) :=
  mediaStores.purgeOrphanUploads (fun after => .query .unavailable fun m => list m.objects after)
    policy now pages

/-! ## The operations -/

/-- An operation with what it is called with. -/
inductive PhotoOp where
  | upload (x : Upload)
  | approve (moderator : AuthenticatedUser) (kind : PhotoKind) (id : Nat)
  | reject (moderator : AuthenticatedUser) (kind : PhotoKind) (id : Nat) (reason : String)
  | hide (moderator : AuthenticatedUser) (kind : PhotoKind) (id : Nat)
  | restore (moderator : AuthenticatedUser) (kind : PhotoKind) (id : Nat)
  | sweep (now : Instant) (pages : Nat)
  | reconcile (now : Instant)
  | wait (d : Nat)

/-- A use case of the moderation service, which leaves the objects. -/
def moderate (moderator : AuthenticatedUser) (action : ContentAction) :
    Service Media ModerationError Unit :=
  (action.service (fun _ => false) moderator).zoom Media.db fun m db => { m with db }

/-- What an operation does.  Nobody looks at its result. -/
def PhotoOp.script (policy : RetentionPolicy) (list : Lister) : PhotoOp → Service Media Unit Unit
  | .upload x => (uploadPhoto x).void
  | .approve moderator kind id => (approvePhoto moderator kind id).void
  | .reject moderator kind id reason => (rejectPhoto moderator kind id reason).void
  | .hide moderator kind id => (moderate moderator (.hidePhoto kind id)).void
  | .restore moderator kind id => (moderate moderator (.restorePhoto kind id)).void
  | .sweep now pages => (purgeOrphanUploads policy list now pages).void
  | .reconcile now => (mediaStores.reconcilePendingPhotos now).void
  | .wait d => Service.execute () fun m => { m with db := { m.db with now := m.now + d } }

/-- The time that a sweep has read off the clock. -/
def PhotoOp.clock : PhotoOp → Option Instant
  | .sweep now _ => some now
  | _ => none

/-! ## Steady calls -/

/-- The keys of the objects of a photo. -/
def keysOf (r : Photo) : List String := r.storageKey :: r.thumbnailKey.toList

/-- `PENDING_REVIEW`, `APPROVED` or `HIDDEN`. -/
def isLive (r : Photo) : Bool := r.moderationState != .rejected

/-- The photos stay or go; their keys stay, and none is brought back. -/
structure SteadyRows (db db' : Db) : Prop where
  now : db.now ≤ db'.now
  rows : ∀ {kind i r'}, (photos db' kind).row i = some r' →
    ∃ r, (photos db kind).row i = some r ∧ keysOf r' = keysOf r ∧
      (isLive r' = true → isLive r = true)

/-- The objects stay too. -/
structure Steady (m m' : Media) : Prop where
  objects : m'.objects = m.objects
  db : SteadyRows m.db m'.db

variable {db db' : Db} {m m' : Media} {moderator : AuthenticatedUser} {kind : PhotoKind} {id : Nat}

/-- A call that leaves the photos. -/
theorem SteadyRows.of_eq (hnow : db.now ≤ db'.now)
    (hphotos : ∀ kind, photos db' kind = photos db kind) : SteadyRows db db' := by
  refine ⟨hnow, fun {kind i r'} hr => ?_⟩
  rw [hphotos] at hr
  exact ⟨r', hr, rfl, id⟩

theorem SteadyRows.refl (db : Db) : SteadyRows db db := .of_eq le_rfl fun _ => rfl

theorem Steady.refl (m : Media) : Steady m m := ⟨rfl, .refl m.db⟩

/-- An update of a photo that keeps its keys. -/
theorem updatePhoto_steady {q : Photo → Bool} {f : Photo → Photo}
    (hkeys : ∀ r, keysOf (f r) = keysOf r)
    (hlive : ∀ r, q r = true → isLive (f r) = true → isLive r = true)
    (h : updatePhoto db kind id q f = .ok db') : SteadyRows db db' := by
  obtain ⟨hnow, ⟨r, hr, hq, hr'⟩, hothers⟩ := updatePhoto_ok h
  refine ⟨hnow.ge, fun {kind' i r''} hrow => ?_⟩
  by_cases hsame : kind' = kind ∧ i = id
  · obtain ⟨rfl, rfl⟩ := hsame
    obtain rfl := Option.some.inj (hr'.symm.trans hrow)
    exact ⟨r, hr, hkeys r, hlive r hq⟩
  · rw [hothers kind' i hsame] at hrow
    exact ⟨r'', hrow, rfl, fun h => h⟩

/-- A decision on a pending photo keeps its keys. -/
theorem decidePending_steady {f : Photo → Photo} (hkeys : ∀ r, keysOf (f r) = keysOf r)
    (h : decidePending db kind id moderator.id f = .ok db') : SteadyRows db db' := by
  obtain ⟨mid, hupdate, _, rfl⟩ := decidePending_ok h
  refine updatePhoto_steady hkeys (fun r hpending _ => ?_) hupdate
  show (r.moderationState != .rejected) = true
  rw [eq_of_beq hpending]
  rfl

theorem approveRow_steady {position : Int} {u : Unit}
    (h : approveRow db kind id moderator.id position = .ok (u, db')) : SteadyRows db db' := by
  obtain ⟨mid, hdecide, hlast⟩ := Moderation.bind_eq_ok h
  cases hlast
  exact decidePending_steady (by exact fun _ => rfl) hdecide

/-- The row of a photo that is rejected. -/
theorem rejectRow_ok {reason : String} {keys : String × Option String}
    (h : rejectRow db kind id moderator.id reason = .ok (keys, db')) :
    SteadyRows db db' ∧ ∃ r, (photos db' kind).row id = some r ∧ isLive r = false ∧
      keysOf r = keys.1 :: keys.2.toList := by
  obtain ⟨mid, hdecide, hlast⟩ := Moderation.bind_eq_ok h
  cases hrow : (photos db kind).row id with
  | none =>
    rw [hrow] at hlast
    cases hlast
  | some r =>
    rw [hrow] at hlast
    cases hlast
    refine ⟨decidePending_steady (by exact fun _ => rfl) hdecide, ?_⟩
    obtain ⟨_, hupdate, _, rfl⟩ := decidePending_ok hdecide
    obtain ⟨_, ⟨r', hr', _, hwritten⟩, _⟩ := updatePhoto_ok hupdate
    obtain rfl := Option.some.inj (hrow.symm.trans hr')
    exact ⟨_, hwritten, rfl, rfl⟩

/-- Photos that are hidden or restored keep their keys. -/
theorem flipPhoto_steady {source target : PhotoModerationState} {u : Unit}
    (hsource : source ≠ .rejected)
    (h : Moderation.flipPhoto db kind id source target moderator.id = .ok (u, db')) :
    SteadyRows db db' := by
  obtain ⟨mid, hupdate, hlast⟩ := Moderation.bind_eq_ok h
  split at hlast
  · cases hlast
  · cases hlast
    refine updatePhoto_steady (by exact fun _ => rfl) (fun r hstate _ => ?_) hupdate
    show (r.moderationState != .rejected) = true
    rw [eq_of_beq hstate]
    exact bne_iff_ne.mpr hsource

theorem recordAudit_steady {event : NewAuditEvent} (h : db.recordAudit event = some db') :
    SteadyRows db db' := by
  obtain ⟨_, _, rfl⟩ := recordAudit_eq_some h
  exact .of_eq le_rfl fun kind => by cases kind <;> rfl

theorem deletePhoto_steady : SteadyRows db (deletePhoto kind db id).2 := by
  refine ⟨by cases kind <;> exact le_rfl, fun {kind' i r} hrow => ?_⟩
  have hold : (photos db kind').row i = some r := by
    cases kind with
    | parking =>
      cases kind' with
      | parking => exact (Table.row_delete_eq_some.mp hrow).1
      | review => exact hrow
    | review =>
      cases kind' with
      | parking => exact hrow
      | review => exact (Table.row_delete_eq_some.mp hrow).1
  exact ⟨r, hold, rfl, fun h => h⟩

/-- A transaction of the database leaves the objects. -/
theorem repo_steady {α : Type} {f : Db → Except PhotoError (α × Db)}
    (h : ∀ db a db', f db = .ok (a, db') → SteadyRows db db') : (repo f).Respects Steady := by
  refine .request Steady.refl fun m a m' hf => ?_
  split at hf
  · rename_i hdb
    cases hf
    exact ⟨rfl, h m.db _ _ hdb⟩
  · cases hf

theorem query_steady {α : Type} (f : Db → α) : (query f).Respects Steady :=
  .query _ _ Steady.refl

theorem audit_steady (event : NewAuditEvent) : (audit event).Respects Steady := by
  refine repo_steady fun db _ db' h => ?_
  exact recordAudit_steady (recordAudit_of_ok h)

/-- An approval reads, writes its row and is audited. -/
theorem approvePhoto_respects {R : Media → Media → Prop}
    (hquery : ∀ {α : Type} (f : Db → α), (query f).Respects R)
    (hrow : ∀ position, (repo fun db => approveRow db kind id moderator.id position).Respects R)
    (haudit : ∀ event, (audit event).Respects R) :
    (approvePhoto moderator kind id).Respects R := by
  unfold approvePhoto
  refine .bind (.require _ _) fun _ => .bind (hquery _) fun found => ?_
  cases found with
  | none => exact .throw _
  | some photo =>
    dsimp only
    cases photo.moderationState with
    | approved => exact .pure _
    | rejected => exact .throw _
    | hidden => exact .throw _
    | pendingReview => exact .bind (hquery _) fun top => .bind (hrow _) fun _ => haudit _

/-- An approval makes steady calls only. -/
theorem approvePhoto_steady : (approvePhoto moderator kind id).Respects Steady :=
  approvePhoto_respects query_steady
    (fun _ => repo_steady fun _ _ _ h => approveRow_steady h) audit_steady

/-- So do hiding and restoring. -/
theorem moderate_steady {action : ContentAction} {f : Db → Except ModerationError (Unit × Db)}
    {event : NewAuditEvent}
    (haction : action.changes (fun _ => false) moderator = Moderation.changed moderator f event)
    (hf : ∀ db u db', f db = .ok (u, db') → SteadyRows db db') :
    (moderate moderator action).Respects Steady := by
  have hdb : (action.service (fun _ => false) moderator).Respects SteadyRows := by
    unfold ContentAction.service
    rw [haction]
    refine .bind (.bind (.require _ _) fun _ => .bind (.request SteadyRows.refl ?_) fun _ =>
      .pure _) fun event => .request SteadyRows.refl fun db u db' h => ?_
    · exact fun db u db' h => hf db u db' h
    · exact recordAudit_steady (recordAudit_of_ok h)
  exact hdb.zoom fun m db' h => ⟨rfl, h⟩

/-- So does the reconciliation. -/
theorem reconcilePendingPhotos_steady (now : Instant) :
    (mediaStores.reconcilePendingPhotos now).Respects Steady := by
  refine Privacy.Stores.reconcilePendingPhotos_respects (fun f => .query _ _ Steady.refl)
    (fun key => .query _ _ Steady.refl) (fun kind id => ?_) now
  dsimp only [mediaStores]
  refine .request Steady.refl fun m count m' h => ?_
  cases h
  exact ⟨rfl, deletePhoto_steady⟩

/-! ## Careful operations -/

/-- A photo row holds the key. -/
def isReferenced (db : Db) (key : String) : Bool :=
  holdsKey db.parkingPhoto key || holdsKey db.reviewPhoto key

/-- The keys that no upload will reference any more, and those of them that no row needs. -/
abbrev Knowledge := Set String × Set String

/-- A call is steady, or deletes the object under a dead key.  An object whose second is older
than the term has an aged key; an aged key that no row holds is dead, and so are the keys of a
rejected photo.  `clock` has been read before the call. -/
def licence (ttl : Int) (clock : Option Instant) : Licence Media Knowledge where
  allows k m m' := Steady m m' ∨ ∃ key ∈ k.2, m' = m.delete key
  learns m m' k :=
    (∀ now ∈ clock, now ≤ m.now) ∧
    (∀ key written, m.objects key = some written → wholeSecond written + ttl < m.now →
      key ∈ k.1) ∧
    (∀ key ∈ k.1, isReferenced m.db key = false → key ∈ k.2) ∧
    ∀ kind i r, (photos m'.db kind).row i = some r → isLive r = false →
      ∀ key ∈ keysOf r, key ∈ k.2
  mono hk h := h.imp_right fun ⟨key, hkey, hm⟩ => ⟨key, hk.2 hkey, hm⟩

section Careful

variable {policy : RetentionPolicy} {list : Lister} {ttl : Int} {clock : Option Instant}
  {k : Knowledge}

/-- An operation of steady calls needs no knowledge. -/
theorem careful_of_steady {ε α : Type} {m : Service Media ε α} (hm : m.Respects Steady) :
    m.Careful (licence ttl clock) (fun _ _ => True) k :=
  .of_respects hm (fun _ _ _ h => .inl h) fun _ _ => trivial

/-- A call may leave everything as it is. -/
theorem licence_refl (m : Media) : (licence ttl clock).allows k m m := .inl (.refl m)

/-- An object under a dead key may go, and the key stays dead. -/
theorem deleteQuietly_careful {key : String} {Q : Unit → Knowledge → Prop} (hkey : key ∈ k.2)
    (hQ : ∀ k', k ≤ k' → Q () k') :
    (deleteQuietly key).Careful (licence ttl clock) Q k :=
  ⟨fun _ => .inr ⟨key, hkey, rfl⟩, fun _ k' hk _ => hQ k' hk, hQ k le_rfl⟩

/-- The keys of a photo that is rejected are dead. -/
theorem rejected_careful {reason : String} {keys : String × Option String}
    (hkeys : ∀ key ∈ keys.1 :: keys.2.toList, key ∈ k.2) :
    (rejected moderator.id kind id reason keys).Careful (licence ttl clock)
      (fun _ _ => True) k := by
  obtain ⟨full, thumb⟩ := keys
  refine .bind (deleteQuietly_careful (hkeys full List.mem_cons_self) fun k' hk => ?_)
  cases thumb with
  | none => exact careful_of_steady (audit_steady _)
  | some thumb =>
    have hthumb : thumb ∈ k.2 := hkeys thumb (List.mem_cons_of_mem _ List.mem_cons_self)
    exact .bind (deleteQuietly_careful (hk.2 hthumb) fun _ _ => careful_of_steady (audit_steady _))

/-- A rejection deletes the objects of the photo that it has rejected. -/
theorem rejectPhoto_careful {reason : String} :
    (rejectPhoto moderator kind id reason).Careful (licence ttl clock) (fun _ _ => True) k := by
  unfold rejectPhoto
  generalize Text.trim reason = reason
  refine .bind (.require _ _ fun _ => .bind (.require _ _ fun _ => .bind (.query ?_ ?_)))
  · exact fun m => licence_refl m
  intro m k₁ _ _
  dsimp only
  cases (photos m.db kind).row id with
  | none => exact .throw _
  | some photo =>
    dsimp only
    cases photo.moderationState with
    | rejected => exact .pure trivial
    | approved => exact .throw _
    | hidden => exact .throw _
    | pendingReview =>
      refine .bind (.request licence_refl ?_ ?_)
      · intro m keys m' h
        split at h
        · rename_i hreject
          cases h
          exact .inl ⟨rfl, (rejectRow_ok hreject).1⟩
        · cases h
      · intro m keys m' k₂ h _ hlearns
        split at h
        · rename_i hreject
          cases h
          obtain ⟨_, r, hr, hrejected, hkeys⟩ := rejectRow_ok hreject
          apply rejected_careful
          rw [← hkeys]
          exact hlearns.2.2.2 kind id r hr hrejected
        · cases h

theorem deleteObjects_careful (keys : List String) (hkeys : ∀ key ∈ keys, key ∈ k.2) :
    (mediaStores.deleteObjects keys).Careful (licence ttl clock) (fun _ _ => True) k := by
  induction keys generalizing k with
  | nil => exact .pure trivial
  | cons key keys ih =>
    refine .bind (.execute (fun m => ?_) fun k' hk => ?_)
    · exact .inr ⟨key, hkeys key List.mem_cons_self, rfl⟩
    · have hrest : ∀ key' ∈ keys, key' ∈ k'.2 :=
        fun key' hkey' => hk.2 (hkeys key' (List.mem_cons_of_mem _ hkey'))
      exact .bind ((ih hrest).imp fun _ _ _ => .pure trivial)

/-- Aged candidates that no row references are dead. -/
theorem purgeUnreferenced_careful (candidates : List String)
    (hcandidates : ∀ key ∈ candidates, key ∈ k.1) :
    (mediaStores.purgeUnreferenced candidates).Careful (licence ttl clock) (fun _ _ => True) k := by
  unfold Privacy.Stores.purgeUnreferenced Privacy.Stores.referenced
  split
  · rename_i hempty
    obtain rfl := List.isEmpty_iff.mp hempty
    exact .pure trivial
  · refine .bind (.query licence_refl fun m k' hk hlearns => ?_)
    refine deleteObjects_careful _ fun key hkey => ?_
    obtain ⟨hmem, hkept⟩ := List.mem_filter.mp hkey
    refine hlearns.2.2.1 key (hk.1 (hcandidates key hmem)) ?_
    rw [Bool.eq_false_iff]
    intro href
    have hin : key ∈ referencedKeys m.db candidates := List.mem_filter.mpr ⟨hmem, href⟩
    simp [hin] at hkept

/-- The sweep deletes what an old page lists and no row references. -/
theorem purgePages_careful (hlist : ReportsSeconds list) {now : Instant} (pages : Nat)
    (after : Option String) :
    (mediaStores.purgePages (fun after => .query .unavailable fun m => list m.objects after)
      (now - ttl) pages after).Careful (licence ttl (some now))
      (fun _ _ => True) k := by
  induction pages generalizing after k with
  | zero => exact .pure trivial
  | succ pages ih =>
    refine .bind (.query licence_refl fun m k' _ hlearns => .bind ?_)
    have haged : ∀ key ∈ ((list m.objects after).objects.filter fun o =>
        o.lastModified < now - ttl).map ObjectInfo.key, key ∈ k'.1 := by
      intro key hkey
      obtain ⟨o, ho, rfl⟩ := List.mem_map.mp hkey
      obtain ⟨hmem, hold⟩ := List.mem_filter.mp ho
      have hclock : now ≤ m.now := hlearns.1 now rfl
      have hbefore : o.lastModified < now - ttl := of_decide_eq_true hold
      obtain ⟨written, hwritten, hreported⟩ := hlist _ _ o hmem
      refine hlearns.2.1 o.key written hwritten ?_
      rw [← hreported]
      exact lt_of_lt_of_le (Int.add_lt_of_lt_sub_right hbefore) hclock
    refine (purgeUnreferenced_careful _ haged).imp fun purged k'' _ => ?_
    cases (list m.objects after).next with
    | none => exact .pure trivial
    | some next => exact .bind ((ih (some next)).imp fun _ _ _ => .pure trivial)

/-- Every operation but an upload is careful, whatever it knows. -/
theorem script_careful (hlist : ReportsSeconds list) (op : PhotoOp) (hop : ∀ x, op ≠ .upload x) :
    (op.script policy list).Careful (licence policy.uploadOrphanTtl op.clock)
      (fun _ _ => True) k := by
  cases op with
  | upload x => exact absurd rfl (hop x)
  | approve moderator kind id => exact .void (careful_of_steady approvePhoto_steady)
  | reject moderator kind id reason => exact .void rejectPhoto_careful
  | hide moderator kind id =>
    refine .void (careful_of_steady (moderate_steady (by exact rfl) fun db u db' h => ?_))
    exact flipPhoto_steady (by decide) h
  | restore moderator kind id =>
    refine .void (careful_of_steady (moderate_steady (by exact rfl) fun db u db' h => ?_))
    exact flipPhoto_steady (by decide) h
  | sweep now pages => exact .void (purgePages_careful hlist pages none)
  | reconcile now => exact .void (careful_of_steady (reconcilePendingPhotos_steady now))
  | wait d =>
    refine .execute (fun m => .inl ⟨rfl, .of_eq ?_ fun kind => ?_⟩) fun _ _ => trivial
    · exact Int.le_add_of_nonneg_right (Int.natCast_nonneg d)
    · cases kind <;> rfl

end Careful

end BikesNest.Photos
