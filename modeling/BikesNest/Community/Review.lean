import BikesNest.Store.Schema

/-!
# The review repository

`upsertReview` is one transaction of three statements: the upsert of the row,
the revision that keeps the published text, and the recomputation of the rating
aggregate of the location from its active reviews.

`RatingInv` is what the recomputation is for: on every location, the stored
count and average are those of its active reviews.
-/

namespace BikesNest.Community

open Domain Store Relational

/-- A five-star rating. -/
structure StarRating where
  value : Nat
  range : 1 ≤ value ∧ value ≤ 5

/-- The ratings of the active reviews of a location. -/
def activeRatings (review : Table Review) (locationId : Nat) : List Nat :=
  (review.select fun _ r =>
    r.locationId == locationId && r.moderationState == .active).map fun x => x.2.rating

/-- `AVG(rating)::numeric(3,2)` in hundredths: half a hundredth rounds up, and
no rows have no average. -/
def averageHundredths (ratings : List Nat) : Option Nat :=
  if ratings = [] then none
  else some ((200 * ratings.sum + ratings.length) / (2 * ratings.length))

/-- Write the aggregate of the given ratings. -/
def ParkingLocation.withRatings (r : ParkingLocation) (ratings : List Nat) : ParkingLocation :=
  { r with
    ratingAvg := averageHundredths ratings
    ratingCount := ratings.length }

/-- The same on the record of the location. -/
def LocationRecord.withRatings (rec : LocationRecord) (ratings : List Nat) : LocationRecord :=
  { rec with row := rec.row.withRatings ratings }

/-- The third statement: the aggregate of one location from its active
reviews. -/
def recomputeRating (db : Db) (locationId : Nat) : Db :=
  { db with
    parkingLocation := db.parkingLocation.update (fun l _ => l == locationId) fun rec =>
      rec.withRatings (activeRatings db.review locationId) }

/-- The review of an author on a location. -/
def ownReview (review : Table Review) (locationId : Nat) (author : UserId) :
    Option (Nat × Review) :=
  (review.select fun _ r => r.locationId == locationId && r.authorId == some author).head?

/-- The first statement: `INSERT … ON CONFLICT (location_id, author_id) DO
UPDATE`.  It answers the id of the row and whether the row existed.  The
`moderation_state` of an existing row stays. -/
def upsertRow (db : Db) (locationId : Nat) (author : UserId) (rating : StarRating)
    (body : String) : Nat × Bool × Table Review :=
  match ownReview db.review locationId author with
  | some (id, _) =>
    (id, true, db.review.update (fun i _ => i == id) fun r =>
      { r with rating := rating.value, body := body, updatedAt := db.now })
  | none =>
    (db.review.next, false, db.review.insert
      { locationId, authorId := some author, rating := rating.value, body
        createdAt := db.now, updatedAt := db.now })

/-- `upsert_review`.  The checks are the `CHECK` on the length of the body and
the foreign keys on the location and on the author. -/
def upsertReview (db : Db) (locationId : Nat) (author : UserId) (rating : StarRating)
    (body : String) : Except ContributionError (Bool × Db) :=
  if body.length < 1 ∨ 2000 < body.length then .error (.invalidField "review_body_check")
  else if (db.parkingLocation.row locationId).isNone then
    .error (.invalidField "review_location_id_fkey")
  else if (db.users.row author).isNone then .error (.invalidField "review_author_id_fkey")
  else
    let row := upsertRow db locationId author rating body
    .ok (row.2.1, recomputeRating
      { db with
        review := row.2.2
        reviewRevision := db.reviewRevision.insert
          { reviewId := row.1, rating := rating.value, body, editedAt := db.now } }
      locationId)

/-! ## The rating aggregate -/

/-- On every location the stored aggregate is that of its active reviews. -/
def RatingInv (db : Db) : Prop :=
  ∀ l rec, db.parkingLocation.row l = some rec →
    rec.row.ratingCount = (activeRatings db.review l).length ∧
      rec.row.ratingAvg = averageHundredths (activeRatings db.review l)

/-- Every review stands on a location. -/
def ReviewsPlaced (db : Db) : Prop :=
  db.review.All fun r => (db.parkingLocation.row r.locationId).isSome

variable {db db' : Db} {locationId : Nat}

/-- The aggregate of a location depends on its record and its active ratings
only. -/
theorem ratingInv_of_eq (h : RatingInv db)
    (hratings : ∀ l, activeRatings db'.review l = activeRatings db.review l)
    (hrow : ∀ l rec', db'.parkingLocation.row l = some rec' →
      ∃ rec, db.parkingLocation.row l = some rec ∧
        rec'.row.ratingCount = rec.row.ratingCount ∧
        rec'.row.ratingAvg = rec.row.ratingAvg) : RatingInv db' := by
  intro l rec' hrec'
  obtain ⟨rec, hrec, hcount, havg⟩ := hrow l rec' hrec'
  rw [hcount, havg, hratings]
  exact h l rec hrec

/-- A recomputation repairs its own location; the invariant of every other
location is what it was. -/
theorem ratingInv_recomputeRating
    (h : ∀ l rec, l ≠ locationId → db.parkingLocation.row l = some rec →
      rec.row.ratingCount = (activeRatings db.review l).length ∧
        rec.row.ratingAvg = averageHundredths (activeRatings db.review l)) :
    RatingInv (recomputeRating db locationId) := by
  intro l rec hrec
  obtain ⟨old, hold, rfl⟩ := Table.row_update_eq_some.mp hrec
  by_cases hl : l = locationId
  · subst hl
    simp [recomputeRating, LocationRecord.withRatings, ParkingLocation.withRatings]
  · simpa [recomputeRating, hl] using h l old hl hold

/-- An update that keeps what the aggregate reads keeps the active ratings. -/
theorem activeRatings_update {t : Table Review} {p : Nat → Review → Bool} {f : Review → Review}
    (h : ∀ r, (f r).locationId = r.locationId ∧
      (f r).moderationState = r.moderationState ∧ (f r).rating = r.rating) (l : Nat) :
    activeRatings (t.update p f) l = activeRatings t l := by
  rw [activeRatings, Table.select_update, List.map_map, activeRatings]
  · apply List.map_congr_left
    intro x _
    simp only [Function.comp_apply]
    split
    · exact (h x.2).2.2
    · rfl
  · intro i r _ _
    rw [(h r).1, (h r).2.1]

theorem ownReview_eq_some {t : Table Review} {author id : Nat} {r : Review}
    (h : ownReview t locationId author = some (id, r)) :
    t.row id = some r ∧ r.locationId = locationId := by
  have hmem := List.mem_of_head? h
  rw [Table.mem_select] at hmem
  simp only [Bool.and_eq_true, beq_iff_eq] at hmem
  exact ⟨hmem.1, hmem.2.1⟩

/-- The upsert leaves the active ratings of the other locations alone. -/
theorem activeRatings_upsertRow {author : UserId} {rating : StarRating} {body : String}
    {l : Nat} (hl : l ≠ locationId) :
    activeRatings (upsertRow db locationId author rating body).2.2 l =
      activeRatings db.review l := by
  unfold upsertRow
  split
  · rename_i id r hown
    obtain ⟨hr, hloc⟩ := ownReview_eq_some hown
    show activeRatings (db.review.update _ _) l = _
    rw [activeRatings, Table.select_update, List.map_map, activeRatings]
    · apply List.map_congr_left
      rintro ⟨i, x⟩ hmem
      rw [Table.mem_select] at hmem
      simp only [Bool.and_eq_true, beq_iff_eq] at hmem
      have hi : i ≠ id := by
        rintro rfl
        obtain rfl := Option.some.inj (hr.symm.trans hmem.1)
        exact hl (hmem.2.1.symm.trans hloc)
      simp [hi]
    · intro _ _ _ _
      rfl
  · simp [activeRatings, Table.select, Table.rows_insert, hl.symm]

/-- The rows after the upsert are the old ones, with their locations, and one
row on the given location. -/
theorem row_upsertRow {author : UserId} {rating : StarRating} {body : String} {i : Nat}
    {r : Review} (h : (upsertRow db locationId author rating body).2.2.row i = some r) :
    r.locationId = locationId ∨ ∃ r₀, db.review.row i = some r₀ ∧ r.locationId = r₀.locationId := by
  unfold upsertRow at h
  split at h
  · obtain ⟨r₀, hr₀, rfl⟩ := Table.row_update_eq_some.mp h
    refine Or.inr ⟨r₀, hr₀, ?_⟩
    split <;> rfl
  · rcases Table.row_insert_eq_some.mp h with ⟨_, rfl⟩ | hold
    · exact Or.inl rfl
    · exact Or.inr ⟨r, hold, rfl⟩

variable {author : UserId} {rating : StarRating} {body : String} {wasUpdate : Bool}

/-- What a stored review does to the reviews and to the locations. -/
theorem upsertReview_eq_ok
    (h : upsertReview db locationId author rating body = .ok (wasUpdate, db')) :
    (db.parkingLocation.row locationId).isSome ∧
      ∃ mid, db' = recomputeRating mid locationId ∧
        mid.review = (upsertRow db locationId author rating body).2.2 ∧
        mid.parkingLocation = db.parkingLocation := by
  unfold upsertReview at h
  split at h
  · cases h
  split at h
  · cases h
  rename_i hlocation
  split at h
  · cases h
  cases h
  exact ⟨Option.isSome_iff_ne_none.mpr (by simpa using hlocation), _, rfl, rfl, rfl⟩

/-- A review that is stored leaves the aggregate of every location right. -/
theorem ratingInv_upsertReview (hinv : RatingInv db)
    (h : upsertReview db locationId author rating body = .ok (wasUpdate, db')) :
    RatingInv db' := by
  obtain ⟨_, mid, rfl, hreview, hlocations⟩ := upsertReview_eq_ok h
  refine ratingInv_recomputeRating fun l rec hl hrec => ?_
  rw [hreview, activeRatings_upsertRow hl]
  exact hinv l rec (hlocations ▸ hrec)

/-- A review is stored on a location only. -/
theorem reviewsPlaced_upsertReview (hplaced : ReviewsPlaced db)
    (h : upsertReview db locationId author rating body = .ok (wasUpdate, db')) :
    ReviewsPlaced db' := by
  obtain ⟨hlocation, mid, rfl, hreview, hlocations⟩ := upsertReview_eq_ok h
  have hkeep : ∀ l, (db.parkingLocation.row l).isSome →
      ((recomputeRating mid locationId).parkingLocation.row l).isSome := by
    intro l hl
    simpa [recomputeRating, hlocations] using hl
  intro i r hr
  have hrow : (upsertRow db locationId author rating body).2.2.row i = some r := hreview ▸ hr
  rcases row_upsertRow hrow with hnew | ⟨r₀, hr₀, hold⟩
  · rw [hnew]
    exact hkeep _ hlocation
  · rw [hold]
    exact hkeep _ (hplaced i r₀ hr₀)

end BikesNest.Community
