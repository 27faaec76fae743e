import BikesNest.Lib.Paging
import BikesNest.Photos.Service
import Mathlib.Data.Prod.Lex

/-!
# The moderation queue

`pendingUnion` is the union of two tables whose ids overlap, and the cursor of
`list_pending` is `created_at` with the id.  The database may answer photos that
agree in both in any order; `ListPending` is what it may answer.

`listPending_visits_iff` says that a reader misses a photo when a photo of each
table has the same id and the same `created_at`, and only then.  The columns
`alt`, `width` and `height` of the rows are left out.
-/

namespace BikesNest.Photos

open Domain Store Relational
open Moderation (PhotoKind)

/-- `PendingPhoto`. -/
structure PendingPhoto where
  id : Nat
  kind : PhotoKind
  parentId : Nat
  parentName : String
  storageKey : String
  thumbnailKey : Option String
  uploaderId : Option UserId
  createdAt : Instant
deriving DecidableEq

/-- The row of the queue for a photo of either table. -/
def queueRow (id : Nat) (ph : Photo) (kind : PhotoKind) (location : Nat)
    (rec : Community.LocationRecord) : PendingPhoto where
  id := id
  kind := kind
  parentId := location
  parentName := rec.row.name
  storageKey := ph.storageKey
  thumbnailKey := ph.thumbnailKey
  uploaderId := ph.uploaderId
  createdAt := ph.createdAt

/-- The rows of `parking_photo` in the union. -/
def pendingParkingPhotos (db : Db) : List PendingPhoto :=
  (db.parkingPhoto.select fun _ ph => ph.moderationState == .pendingReview).filterMap fun x =>
    (db.parkingLocation.row x.2.parentId).map (queueRow x.1 x.2 .parking x.2.parentId)

/-- The rows of `review_photo`. -/
def pendingReviewPhotos (db : Db) : List PendingPhoto :=
  (db.reviewPhoto.select fun _ ph => ph.moderationState == .pendingReview).filterMap fun x =>
    (db.review.row x.2.parentId).bind fun r =>
      (db.parkingLocation.row r.locationId).map (queueRow x.1 x.2 .review r.locationId)

/-- The union. -/
def pendingUnion (db : Db) : List PendingPhoto :=
  pendingParkingPhotos db ++ pendingReviewPhotos db

/-- `ORDER BY created_at, id`, and the cursor. -/
def oldestFirst (p : PendingPhoto) : Instant ×ₗ Nat := toLex (p.createdAt, p.id)

/-- `list_pending` may answer this page. -/
def ListPending (db : Db) (after : Option (Instant ×ₗ Nat)) (limit : Int)
    (page : List PendingPhoto) : Prop :=
  Paging.IsPage oldestFirst oldestFirst (pendingUnion db) (Paging.clamp 200 limit) after page

/-- Whatever the limit and the answers, a reader who starts without a cursor sees
every pending photo once, the oldest first. -/
def VisitsPending (db : Db) : Prop :=
  ∀ (limit : Int) (answer : Option (Instant ×ₗ Nat) → List PendingPhoto),
    (∀ after, ListPending db after limit (answer after)) →
      ∃ seen, Paging.Walk oldestFirst (Paging.clamp 200 limit) answer none seen ∧
        seen.Perm (pendingUnion db) ∧
        seen.Pairwise fun p q =>
          p.createdAt < q.createdAt ∨ (p.createdAt = q.createdAt ∧ p.id ≤ q.id)

theorem visitsPending_iff_nodup (db : Db) :
    VisitsPending db ↔ ((pendingUnion db).map oldestFirst).Nodup := by
  have hplace : ∀ p q : PendingPhoto, oldestFirst p ≤ oldestFirst q ↔
      (p.createdAt < q.createdAt ∨ (p.createdAt = q.createdAt ∧ p.id ≤ q.id)) :=
    fun p q => Prod.Lex.toLex_le_toLex
  have hexhaustive : (∀ limit : Int, Paging.Exhaustive oldestFirst oldestFirst
        (pendingUnion db) (Paging.clamp 200 limit)) ↔
      Paging.Aligned oldestFirst oldestFirst (pendingUnion db) :=
    Paging.exhaustive_iff (fun _ _ h => h) 200
  simp only [Paging.Exhaustive, hplace] at hexhaustive
  rw [VisitsPending]
  refine hexhaustive.trans ⟨fun h => h.nodup, fun h => ⟨h, fun _ _ _ _ => le_of_lt⟩⟩

/-- Two photos of one table are apart. -/
theorem nodup_ids (db : Db) :
    ((pendingParkingPhotos db).map PendingPhoto.id).Nodup ∧
      ((pendingReviewPhotos db).map PendingPhoto.id).Nodup := by
  constructor
  · refine Table.nodup_filterMap_select _ _ fun x y h => ?_
    obtain ⟨rec, -, rfl⟩ := Option.map_eq_some_iff.mp h
    rfl
  · refine Table.nodup_filterMap_select _ _ fun x y h => ?_
    obtain ⟨r, -, h⟩ := Option.bind_eq_some_iff.mp h
    obtain ⟨rec, -, rfl⟩ := Option.map_eq_some_iff.mp h
    rfl

theorem kind_of_mem {db : Db} {p : PendingPhoto} :
    (p ∈ pendingParkingPhotos db → p.kind = .parking) ∧
      (p ∈ pendingReviewPhotos db → p.kind = .review) := by
  constructor
  · intro hp
    obtain ⟨x, -, h⟩ := List.mem_filterMap.mp hp
    obtain ⟨rec, -, rfl⟩ := Option.map_eq_some_iff.mp h
    rfl
  · intro hp
    obtain ⟨x, -, h⟩ := List.mem_filterMap.mp hp
    obtain ⟨r, -, h⟩ := Option.bind_eq_some_iff.mp h
    obtain ⟨rec, -, rfl⟩ := Option.map_eq_some_iff.mp h
    rfl

theorem nodup_places {l : List PendingPhoto} (h : (l.map PendingPhoto.id).Nodup) :
    (l.map oldestFirst).Nodup := by
  refine List.Nodup.of_map (fun k : Instant ×ₗ Nat => (ofLex k).2) ?_
  rwa [List.map_map]

/-- The reader sees every pending photo exactly when no photo of a location has
both the id and the `created_at` of a photo of a review. -/
theorem listPending_visits_iff (db : Db) :
    VisitsPending db ↔
      ∀ p ∈ pendingUnion db, ∀ q ∈ pendingUnion db, p.kind = .parking → q.kind = .review →
        p.id = q.id → p.createdAt ≠ q.createdAt := by
  rw [visitsPending_iff_nodup, pendingUnion, List.map_append, List.nodup_append]
  constructor
  · rintro ⟨-, -, hapart⟩ p hp q hq hparking hreview hid hat
    have hp' : p ∈ pendingParkingPhotos db := by
      refine (List.mem_append.mp hp).resolve_right fun h => ?_
      rw [kind_of_mem.2 h] at hparking
      cases hparking
    have hq' : q ∈ pendingReviewPhotos db := by
      refine (List.mem_append.mp hq).resolve_left fun h => ?_
      rw [kind_of_mem.1 h] at hreview
      cases hreview
    refine hapart _ (List.mem_map_of_mem hp') _ (List.mem_map_of_mem hq') ?_
    rw [oldestFirst, oldestFirst, hid, hat]
  · intro h
    refine ⟨nodup_places (nodup_ids db).1, nodup_places (nodup_ids db).2, ?_⟩
    intro _ hparking _ hreview heq
    obtain ⟨p, hp, rfl⟩ := List.mem_map.mp hparking
    obtain ⟨q, hq, rfl⟩ := List.mem_map.mp hreview
    have hplace : (p.createdAt, p.id) = (q.createdAt, q.id) := toLex.injective heq
    obtain ⟨hat, hid⟩ := Prod.mk.inj hplace
    exact h p (List.mem_append_left _ hp) q (List.mem_append_right _ hq) (kind_of_mem.1 hp)
      (kind_of_mem.2 hq) hid hat

/-- A photo of a location and a photo of a review of it, uploaded at the same
time into two new tables. -/
def twinPhotos : Db :=
  { Db.empty 0 with
    parkingLocation := Table.empty.insert
      { row :=
          { name := "Rack"
            address := "Street 1"
            description := none
            parkingType := "rack"
            costKind := "free"
            priceCents := none
            priceCurrency := none
            priceUnit := none
            point := ⟨0, 0, GeoPoint.zero_lat, GeoPoint.zero_lon⟩
            timezone := "UTC"
            hoursUnknown := true
            moderationState := .active
            createdAt := 0 } }
    review := Table.empty.insert
      { locationId := 1, authorId := some 1, rating := 5, body := "good"
        createdAt := 0, updatedAt := 0 }
    parkingPhoto := Table.empty.insert
      { parentId := 1, uploaderId := some 1, storageKey := "uploads/a/full.jpg"
        thumbnailKey := some "uploads/a/thumb.jpg", createdAt := 10 }
    reviewPhoto := Table.empty.insert
      { parentId := 1, uploaderId := some 1, storageKey := "uploads/b/full.jpg"
        thumbnailKey := some "uploads/b/thumb.jpg", createdAt := 10 } }

theorem listPending_misses : ¬ VisitsPending twinPhotos := by
  rw [visitsPending_iff_nodup]
  decide +kernel

end BikesNest.Photos
