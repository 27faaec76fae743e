import BikesNest.Community.ContributionHistory
import Mathlib.Data.List.ReduceOption

/-!
# The activity of an account

`activityFor` counts the contributions of accounts for the admin list, in one
statement over seven tables.  The feed of the contribution history comes from
eight sources of its own.

`contributions_eq` is the count of one account, source by source, and
`length_events` the length of its feed.  `contributions_agree_iff` says when the
two are the same number: the feed has favorites, and of the photos only those
that are pending.
-/

namespace BikesNest.Community

open Domain Store Relational

/-! ## The statement -/

/-- `UserActivity`. -/
structure UserActivity where
  lastActiveAt : Option Instant
  contributions : Nat
deriving DecidableEq

section Activity

variable {ρ : Type} (db : Db) (ids : List UserId) (user : UserId)

/-- The owners of the rows of a table. -/
def ownersOf (t : Table ρ) (owner : ρ → Option UserId) : List (Option UserId) :=
  t.rows.map fun x => owner x.2

/-- The editors of the revisions of the kind `edit`. -/
def editors : List (Option UserId) :=
  db.parkingLocation.rows.flatMap fun x =>
    (x.2.revisions.filter fun rev => rev.changeKind == .edit).map ParkingRevision.editorId

/-- `SELECT owner, count(*) … WHERE owner = ANY($1) GROUP BY owner`. -/
def countByOwner (owners : List (Option UserId)) : List (UserId × Nat) :=
  (owners.reduceOption.filter ids.contains).dedup.map fun u => (u, owners.count (some u))

/-- The seven counts that `ACTIVITY_SQL` puts one after the other. -/
def contributionParts : List (List (UserId × Nat)) :=
  [ownersOf db.parkingLocation fun rec => rec.row.creatorId, editors db,
    ownersOf db.parkingProposal ParkingProposal.proposerId, ownersOf db.review Review.authorId,
    ownersOf db.verification Verification.userId, ownersOf db.parkingPhoto Photo.uploaderId,
    ownersOf db.reviewPhoto Photo.uploaderId].map (countByOwner ids)

/-- The sum of a user's counts, in the order of the parts. -/
def sumOf (parts : List (UserId × Nat)) : Nat :=
  ((parts.filter fun p => p.1 == user).map Prod.snd).sum

/-- `max(last_seen_at)` of the sessions of a user. -/
def lastSeen : Option Instant :=
  ((db.sessions.select fun _ s => s.userId == user).map fun x => x.2.lastSeenAt).max?

/-- The rows of `ACTIVITY_SQL`, one for each id. -/
def activityRows : List (UserId × UserActivity) :=
  ids.map fun u =>
    (u, { lastActiveAt := lastSeen db u
          contributions := sumOf u (contributionParts db ids).flatten })

/-- `activity_for`; the rows of one user are all the same. -/
def activityFor : Option UserActivity := (activityRows db ids).lookup user

end Activity

/-! ## The rows behind the two numbers -/

/-- The foreign keys of the tables that the feed joins with a location. -/
structure HistoryReferences (db : Db) : Prop where
  proposal : db.parkingProposal.All fun p => (db.parkingLocation.row p.locationId).isSome
  review : ReviewsPlaced db
  verification : db.verification.All fun v => (db.parkingLocation.row v.locationId).isSome
  favorite : db.favorite.All fun f => (db.parkingLocation.row f.locationId).isSome
  parkingPhoto : db.parkingPhoto.All fun ph => (db.parkingLocation.row ph.parentId).isSome
  reviewPhoto : db.reviewPhoto.All fun ph => (db.review.row ph.parentId).isSome

/-- The favorites of a user. -/
def favoritesOf (db : Db) (user : UserId) : List (Nat × Favorite) :=
  db.favorite.select fun _ f => f.userId == user

/-- The photos of a user in a table that are no longer pending. -/
def settledPhotos (t : Table Photo) (user : UserId) : List (Nat × Photo) :=
  t.select fun _ ph => ph.uploaderId == some user && ph.moderationState != .pendingReview

section Counts

variable {ρ : Type} {db : Db} {revisionId : Nat → Int → Nat} {ids : List UserId} {user : UserId}

/-! ## The figure -/

theorem sumOf_append (l l' : List (UserId × Nat)) :
    sumOf user (l ++ l') = sumOf user l + sumOf user l' := by
  rw [sumOf, List.filter_append, List.map_append, List.sum_append, sumOf, sumOf]

theorem sumOf_flatten (parts : List (List (UserId × Nat))) :
    sumOf user parts.flatten = (parts.map (sumOf user)).sum := by
  induction parts with
  | nil => rfl
  | cons l parts ih => rw [List.flatten_cons, sumOf_append, ih, List.map_cons, List.sum_cons]

/-- One entry for each of several users: the sum of a user's entries is their one
entry. -/
theorem sumOf_map {users : List UserId} (hnodup : users.Nodup) (f : UserId → Nat) :
    sumOf user (users.map fun u => (u, f u)) = if user ∈ users then f user else 0 := by
  induction users with
  | nil => rfl
  | cons u users ih =>
    rw [List.nodup_cons] at hnodup
    rw [List.map_cons, ← List.singleton_append, sumOf_append, ih hnodup.2]
    by_cases hu : u = user
    · subst hu
      simp [sumOf, hnodup.1]
    · have hne : user ≠ u := fun heq => hu heq.symm
      simp [sumOf, hu, hne]

/-- The group of a user has the number of the user's rows, and there is none when the
user has no row. -/
theorem sumOf_countByOwner (hmem : user ∈ ids) (owners : List (Option UserId)) :
    sumOf user (countByOwner ids owners) = owners.count (some user) := by
  unfold countByOwner
  rw [sumOf_map (List.nodup_dedup _)]
  split
  · rfl
  · next hnone =>
    symm
    rw [List.count_eq_zero]
    intro howner
    apply hnone
    rw [List.mem_dedup, List.mem_filter, List.reduceOption_mem_iff]
    exact ⟨howner, List.contains_iff_mem.mpr hmem⟩

theorem count_ownersOf (t : Table ρ) (owner : ρ → Option UserId) :
    (ownersOf t owner).count (some user) =
      (t.select fun _ r => owner r == some user).length := by
  rw [ownersOf, List.count, List.countP_map, List.countP_eq_length_filter]
  rfl

variable (revisionId) in
theorem count_editors :
    (editors db).count (some user) = (edited db revisionId user).length := by
  unfold editors edited
  rw [List.count_flatMap, List.length_flatMap]
  congr 1
  refine List.map_congr_left fun x _ => ?_
  rw [List.length_map, Function.comp_apply, List.count, List.countP_map,
    List.countP_filter, List.countP_eq_length_filter]
  rfl

theorem lookup_map {γ : Type} (f : UserId → γ) (hmem : user ∈ ids) :
    (ids.map fun u => (u, f u)).lookup user = some (f user) := by
  induction ids with
  | nil => cases hmem
  | cons u ids ih =>
    rw [List.map_cons, List.lookup_cons]
    by_cases hu : user = u
    · subst hu
      simp
    · rw [beq_false_of_ne hu]
      exact ih ((List.mem_cons.mp hmem).resolve_left hu)

variable (revisionId) in
/-- The figure of an account, source by source. -/
theorem contributions_eq (hmem : user ∈ ids) :
    activityFor db ids user = some {
      lastActiveAt := lastSeen db user
      contributions :=
        (db.parkingLocation.select fun _ rec => rec.row.creatorId == some user).length +
          (edited db revisionId user).length +
          (db.parkingProposal.select fun _ p => p.proposerId == some user).length +
          (db.review.select fun _ r => r.authorId == some user).length +
          (db.verification.select fun _ v => v.userId == some user).length +
          (db.parkingPhoto.select fun _ ph => ph.uploaderId == some user).length +
          (db.reviewPhoto.select fun _ ph => ph.uploaderId == some user).length } := by
  have hsum : sumOf user (contributionParts db ids).flatten =
      (db.parkingLocation.select fun _ rec => rec.row.creatorId == some user).length +
        (edited db revisionId user).length +
        (db.parkingProposal.select fun _ p => p.proposerId == some user).length +
        (db.review.select fun _ r => r.authorId == some user).length +
        (db.verification.select fun _ v => v.userId == some user).length +
        (db.parkingPhoto.select fun _ ph => ph.uploaderId == some user).length +
        (db.reviewPhoto.select fun _ ph => ph.uploaderId == some user).length := by
    rw [sumOf_flatten, contributionParts, List.map_map]
    simp only [List.map_cons, List.map_nil, Function.comp_apply, sumOf_countByOwner hmem,
      count_ownersOf, count_editors revisionId, List.sum_cons, List.sum_nil]
    omega
  rw [← hsum]
  exact lookup_map (fun u => _) hmem

/-! ## The feed -/

/-- A source whose rows have their locations has one event for each row. -/
theorem length_joined {t : Table ρ} {mine : ρ → Bool} {location : ρ → Option Nat}
    {event : Nat → ρ → String → ContributionItem}
    (h : t.All fun r => ∃ l, location r = some l ∧ (db.parkingLocation.row l).isSome) :
    (joined db t mine location event).length = (t.select fun _ r => mine r).length := by
  rw [joined, List.length_filterMap_eq_countP, List.countP_eq_length]
  intro x hx
  obtain ⟨l, hl, hplace⟩ := h x.1 x.2 (Table.mem_select.mp hx).1
  rw [hl, Option.bind_some, Option.isSome_map]
  exact hplace

/-- The photos of a user are pending or settled. -/
theorem length_photos (t : Table Photo) (user : UserId) :
    (t.select fun _ ph => ph.uploaderId == some user).length =
      (t.select fun _ ph => isPendingOf user ph).length + (settledPhotos t user).length := by
  have hsplit := List.length_eq_length_filter_add (fun x : Nat × Photo =>
    x.2.moderationState == .pendingReview) (l := t.select fun _ ph => ph.uploaderId == some user)
  rw [hsplit]
  unfold settledPhotos Table.select isPendingOf
  simp only [List.filter_filter, bne, Bool.and_comm]

/-- The length of the feed, source by source. -/
theorem length_events (hrefs : HistoryReferences db) :
    (events db revisionId user).length =
      (db.parkingLocation.select fun _ rec => rec.row.creatorId == some user).length +
        (edited db revisionId user).length +
        (db.parkingProposal.select fun _ p => p.proposerId == some user).length +
        (db.review.select fun _ r => r.authorId == some user).length +
        (db.verification.select fun _ v => v.userId == some user).length +
        (favoritesOf db user).length +
        (db.parkingPhoto.select fun _ ph => isPendingOf user ph).length +
        (db.reviewPhoto.select fun _ ph => isPendingOf user ph).length := by
  have hadded : (added db user).length =
      (db.parkingLocation.select fun _ rec => rec.row.creatorId == some user).length := by
    rw [added, List.length_filterMap_eq_countP, List.countP_eq_length]
    exact fun _ _ => rfl
  have hreviewPhoto : db.reviewPhoto.All fun ph =>
      ∃ l, (db.review.row ph.parentId).map Review.locationId = some l ∧
        (db.parkingLocation.row l).isSome := by
    intro i ph hph
    obtain ⟨r, hr⟩ := Option.isSome_iff_exists.mp (hrefs.reviewPhoto i ph hph)
    exact ⟨r.locationId, by rw [hr]; rfl, hrefs.review _ r hr⟩
  unfold events sources
  simp only [List.flatMap_cons, List.flatMap_nil, List.length_append, List.length_nil]
  rw [hadded, proposed, length_joined (hrefs.proposal.mono fun _ h => ⟨_, rfl, h⟩), reviewed,
    length_joined (hrefs.review.mono fun _ h => ⟨_, rfl, h⟩), verified,
    length_joined (hrefs.verification.mono fun _ h => ⟨_, rfl, h⟩), favorited,
    length_joined (hrefs.favorite.mono fun _ h => ⟨_, rfl, h⟩), pendingParking,
    length_joined (hrefs.parkingPhoto.mono fun _ h => ⟨_, rfl, h⟩), pendingReview,
    length_joined hreviewPhoto, favoritesOf]
  omega

/-! ## The two numbers -/

/-- The figure of an account is the number of items in its feed exactly when it has as
many favorites as photos that are no longer pending. -/
theorem contributions_agree_iff (hkeys : HistoryKeys db revisionId)
    (hrefs : HistoryReferences db) (hmem : user ∈ ids) {limit : Int}
    {seen : List ContributionItem}
    (hwalk : Paging.Walk newestEvent (Paging.clamp 200 limit)
      (fun cursor => history db revisionId user
        (cursor.map fun at' => ofLex (OrderDual.ofDual at')) limit) none seen) :
    (activityFor db ids user).map UserActivity.contributions = some seen.length ↔
      (favoritesOf db user).length =
        (settledPhotos db.parkingPhoto user).length +
          (settledPhotos db.reviewPhoto user).length := by
  obtain ⟨seen', hwalk', hperm, _⟩ := history_walk hkeys user limit
  obtain rfl := hwalk.unique hwalk'
  have hparking := length_photos db.parkingPhoto user
  have hreview := length_photos db.reviewPhoto user
  rw [hperm.length_eq, length_events hrefs, contributions_eq revisionId hmem, Option.map_some,
    Option.some_inj]
  dsimp only
  omega

end Counts

/-! ## One favorite, and one approved photo -/

/-- The busy contributor with a photo of the location that is approved. -/
def photographer : Db :=
  { busyContributor with
    parkingPhoto := Table.empty.insert {
      parentId := 1
      uploaderId := some 1
      storageKey := "parking/1.jpg"
      thumbnailKey := none
      moderationState := .approved
      createdAt := 0 } }

theorem historyReferences_photographer : HistoryReferences photographer where
  proposal := .empty
  review := Table.All.empty.insert rfl
  verification := .empty
  favorite := Table.All.empty.insert rfl
  parkingPhoto := Table.All.empty.insert rfl
  reviewPhoto := .empty

theorem historyReferences_busyContributor : HistoryReferences busyContributor :=
  { historyReferences_photographer with parkingPhoto := .empty }

theorem contributions_agree_photographer :
    ∃ seen, Paging.Walk newestEvent (Paging.clamp 200 1)
        (fun cursor => history photographer (fun l v => Encodable.encode (l, v)) 1
          (cursor.map fun at' => ofLex (OrderDual.ofDual at')) 1) none seen ∧
      (activityFor photographer [1] 1).map UserActivity.contributions = some seen.length := by
  have hkeys : HistoryKeys photographer fun l v => Encodable.encode (l, v) :=
    { historyKeys_busyContributor with }
  obtain ⟨seen, hwalk, _⟩ := history_walk hkeys 1 1
  refine ⟨seen, hwalk, ?_⟩
  exact (contributions_agree_iff hkeys historyReferences_photographer (List.mem_singleton_self 1)
    hwalk).mpr (by decide +kernel)

/-- The favorite is in the feed, and nobody counts it. -/
theorem contributions_miss_favorite :
    HistoryKeys busyContributor (fun l v => Encodable.encode (l, v)) ∧
      HistoryReferences busyContributor ∧
      ∃ seen, Paging.Walk newestEvent (Paging.clamp 200 1)
          (fun cursor => history busyContributor (fun l v => Encodable.encode (l, v)) 1
            (cursor.map fun at' => ofLex (OrderDual.ofDual at')) 1) none seen ∧
        seen.length = 3 ∧
        (activityFor busyContributor [1] 1).map UserActivity.contributions = some 2 := by
  refine ⟨historyKeys_busyContributor, historyReferences_busyContributor, ?_⟩
  obtain ⟨seen, hwalk, hperm, _⟩ := history_walk historyKeys_busyContributor 1 1
  refine ⟨seen, hwalk, ?_, by decide +kernel⟩
  rw [hperm.length_eq]
  decide +kernel

end BikesNest.Community
