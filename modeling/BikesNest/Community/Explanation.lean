import BikesNest.Community.Confidence
import BikesNest.Community.ReviewList
import BikesNest.Search.Details
import Mathlib.Data.List.ReduceOption

/-!
# The explanation on the details page

`communityDetails` shows the newest reviews of a location, at most fifty, and says
why the location is recommended.  `recommendationReasons` gives the reasons for
a row of search results; on this page the row is made by `summaryOf`, from the
location and the reviews on the page.

`summaryOf_rating` says which rating the row gets, and
`communityDetails_explains_iff` that it is the one of all active reviews exactly
when the page holds them all.
-/

namespace BikesNest.Community

open Domain Store Search Transactions

/-! ## Floating point -/

/-- `f64` for finite numbers: what the rounding does, and the two ways in which
numbers are written out. -/
structure FloatOps where
  round : Rat → Rat
  /-- `{:.n}`. -/
  fixed : Nat → Rat → String
  /-- `{}`. -/
  display : Rat → String
  round_mono : Monotone round
  round_natCast : ∀ n : Nat, n ≤ 2 ^ 53 → round n = n

/-! ## Reasons -/

structure Reason where
  factor : String
  labelKey : String
  detail : String
deriving DecidableEq

section Reasons

variable (F : FloatOps) (item : ParkingSummary)

def distanceLabel (m : Rat) : String :=
  if m < 1000 then F.fixed 0 m ++ " m" else F.fixed 1 (F.round (m / 1000)) ++ " km"

/-- With a radius of zero the quotient is infinite or no number. -/
def distanceReason (radiusM : Nat) (origin : Option GeoPoint) : Option Reason :=
  let d := min (max (F.round (item.distanceM / radiusM)) 0) 1
  if origin.isSome ∧ 0 < radiusM ∧ F.round (2 / 5) ≤ F.round (1 - d) then
    some ⟨"distance", "reason.distance", distanceLabel F item.distanceM⟩
  else none

def securityReason : Option Reason :=
  let yes : Rat := item.securityYes.length
  if 0 < yes then some ⟨"security", "reason.security", F.display yes⟩ else none

/-- The reason for a rating, its average and its count. -/
def ratingReason (rating : Option Rat × Nat) : Option Reason :=
  match rating.1 with
  | some avg =>
    if 7 / 2 ≤ avg then some ⟨"rating", "reason.rating", F.fixed 1 avg⟩ else none
  | none => none

def freshnessReason (now : Instant) (freshness : FreshnessThresholds) : Option Reason :=
  match categorize item.lastVerifiedAt now freshness with
  | .fresh | .recentlyVerified => some ⟨"freshness", "reason.freshness", ""⟩
  | _ => none

def verificationReason : Option Reason :=
  if item.lastVerifiedAt.isSome then some ⟨"verification", "reason.verification", ""⟩ else none

/-- `recommendation_reasons`. -/
def recommendationReasons (radiusM : Nat) (origin : Option GeoPoint) (now : Instant)
    (freshness : FreshnessThresholds) : List Reason :=
  [distanceReason F item radiusM origin, securityReason F item, ratingReason F item.rating,
    freshnessReason item now freshness, verificationReason item].reduceOption

end Reasons

/-! ## The page -/

/-- A review as it is read from the store. -/
structure ListedReview where
  id : Nat
  locationId : Nat
  author : Option UserId
  rating : StarRating
  body : String
  createdAt : Instant
  updatedAt : Instant

/-- `ReviewBody::new`. -/
def reviewBodyOf (raw : String) : Except String String :=
  let trimmed := Text.trim raw
  if 1 ≤ trimmed.length ∧ trimmed.length ≤ 2000 then .ok trimmed
  else .error ("review body must be 1..=2000 characters: " ++ toString trimmed.length)

/-- `StarRating::from_smallint`. -/
def starRatingOf (value : Nat) : Except String StarRating :=
  if h : 1 ≤ value ∧ value ≤ 5 then .ok ⟨value, h⟩
  else .error ("rating must be between 1 and 5: " ++ toString value)

/-- `review_from_row`. -/
def reviewFromRow (x : Nat × Review) : Except ContributionError ListedReview := do
  let rating ← (starRatingOf x.2.rating).mapError .invalidField
  let body ← (reviewBodyOf x.2.body).mapError .invalidField
  return {
    id := x.1
    locationId := x.2.locationId
    author := x.2.authorId
    rating
    body
    createdAt := x.2.createdAt
    updatedAt := x.2.updatedAt }

structure AttributeSummary where
  code : String
  correct : Nat
  incorrect : Nat

structure StoredPhoto where
  key : String
  thumbnailKey : Option String
  contentType : String
  alt : Option String

/-- What the page is read from. -/
structure CommunityReaders where
  listActive : Nat → Option Nat → Int → Except ContributionError (List ListedReview)
  forReviews : List Nat → Except ContributionError (List (Nat × List StoredPhoto))
  latestExistencePerUser : Nat → Except ContributionError (List ExistenceSignal)
  attributeAndParkedSummary : Nat → Except ContributionError (List AttributeSummary × Nat)
  findOwn : Nat → UserId → Except ContributionError (Option ListedReview)
  isFavorited : UserId → Nat → Except ContributionError Bool

structure CommunityParkingDetails where
  location : LocationAggregate
  reviews : List ListedReview
  reviewPhotos : List (Nat × List StoredPhoto)
  confidence : Confidence
  disputed : Bool
  attributeSummary : List AttributeSummary
  parkedHereCount : Nat
  isFavorited : Bool
  ownReview : Option ListedReview
  ownVerification : Option ExistenceSignal
  reasons : List Reason

/-- `DETAILS_REVIEW_LIMIT`. -/
def detailsReviewLimit : Int := 50

/-- `DEFAULT_RADIUS_M`. -/
def defaultRadiusM : Nat := 1000

/-- The rating in `summary_of`: the mean of the reviews at hand and their number. -/
def ratingOfPage (F : FloatOps) (reviews : List ListedReview) : Option Rat × Nat :=
  let avg :=
    if reviews = [] then none
    else some (F.round (reviews.foldl (fun sum r => F.round (sum + r.rating.value)) 0 /
      F.round reviews.length))
  match ratingNew avg reviews.length with
  | .ok rating => rating
  | .error _ => (none, 0)

/-- `summary_of`. -/
def summaryOf (F : FloatOps) (location : LocationAggregate) (reviews : List ListedReview) :
    ParkingSummary where
  id := location.id
  name := location.name
  address := location.address
  parkingType := location.parkingType
  cost := location.cost
  point := location.point
  distanceM := 0
  securityYes := (location.security.filter fun f => f.state == .yes).map SecurityFeature.code
  rating := ratingOfPage F reviews
  lastVerifiedAt := location.lastVerifiedAt
  timezone := location.timezone
  isOpenNow := false
  photoKey := none
  sortKey := none

/-- `community_details`. -/
def communityDetails (F : FloatOps) (freshness : FreshnessThresholds) (readers : CommunityReaders)
    (now : Instant) (location : LocationAggregate) (viewer : Option UserId) :
    Except ContributionError CommunityParkingDetails := do
  let id := location.id
  let reviews ← readers.listActive id none detailsReviewLimit
  let reviewPhotos ← readers.forReviews (reviews.map ListedReview.id)
  let signals ← readers.latestExistencePerUser id
  let (attributeSummary, parkedHereCount) ← readers.attributeAndParkedSummary id
  let hasAttributeDispute := attributeSummary.any fun a => 0 < a.incorrect
  let hasInfoChanged := signals.any fun s => s.result == .infoChanged
  let ownReview ← (match viewer with
    | some v => readers.findOwn id v
    | none => .ok none)
  let isFavorited ← (match viewer with
    | some v => readers.isFavorited v id
    | none => .ok false)
  return {
    location
    reviews
    reviewPhotos
    confidence := confidence signals now freshness
    disputed := hasAttributeDispute || hasInfoChanged
    attributeSummary
    parkedHereCount
    isFavorited
    ownReview
    ownVerification := viewer.bind fun v => signals.find? fun s => s.user == v
    reasons := recommendationReasons F (summaryOf F location reviews) defaultRadiusM none
      now freshness }

/-- `list_active` of the repository, with the rows decoded. -/
def readActive (c : Rows Cell) (b locationId : Nat) (afterId : Option Nat) (limit : Int) :
    Except ContributionError (List ListedReview) :=
  (listActive c b locationId afterId limit).mapM reviewFromRow

/-! ## The reason for the rating -/

/-- The rating of a set of reviews: their mean and their number. -/
def ratingOf (F : FloatOps) (ratings : List Nat) : Option Rat × Nat :=
  (if ratings = [] then none else some (F.round ((ratings.sum : Rat) / ratings.length)),
    ratings.length)

/-- The page explains the rating that these reviews have. -/
structure Explains (F : FloatOps) (ratings : List Nat) (page : CommunityParkingDetails) : Prop where
  rating : (summaryOf F page.location page.reviews).rating = ratingOf F ratings
  reason : (page.reasons.find? fun x => x.factor == "rating") =
    ratingReason F (ratingOf F ratings)

/-- A location is stored with the count and the average of its active reviews. -/
structure RatedRight (c : Rows Cell) (b locationId : Nat) (r : ParkingLocation) : Prop where
  row : c (.location locationId) = some r
  count : r.ratingCount = (visibleRatings c b locationId).length
  avg : r.ratingAvg = averageHundredths (visibleRatings c b locationId)

/-- Reasons for something else stand aside. -/
theorem find_reduceOption_cons {o : Option Reason} {os : List (Option Reason)} {factor : String}
    (hfactor : factor ≠ "rating") (h : ∀ x ∈ o, x.factor = factor) :
    ((o :: os).reduceOption.find? fun x => x.factor == "rating") =
      os.reduceOption.find? fun x => x.factor == "rating" := by
  cases o with
  | none => rfl
  | some x =>
    rw [List.reduceOption_cons_of_some, List.find?_cons_of_neg]
    simpa [h x rfl] using hfactor

/-- The list has at most one reason for the rating, and it is that of the row. -/
theorem find_recommendationReasons (F : FloatOps) (item : ParkingSummary) (radiusM : Nat)
    (origin : Option GeoPoint) (now : Instant) (freshness : FreshnessThresholds) :
    ((recommendationReasons F item radiusM origin now freshness).find? fun x =>
      x.factor == "rating") = ratingReason F item.rating := by
  have hdistance : ∀ x ∈ distanceReason F item radiusM origin, x.factor = "distance" := by
    intro x hx
    simp only [distanceReason, Option.mem_def, Option.ite_none_right_eq_some] at hx
    rw [← Option.some.inj hx.2]
  have hsecurity : ∀ x ∈ securityReason F item, x.factor = "security" := by
    intro x hx
    simp only [securityReason, Option.mem_def, Option.ite_none_right_eq_some] at hx
    rw [← Option.some.inj hx.2]
  have hfreshness : ∀ x ∈ freshnessReason item now freshness, x.factor = "freshness" := by
    intro x hx
    unfold freshnessReason at hx
    split at hx
    · rw [← Option.some.inj hx]
    · rw [← Option.some.inj hx]
    · cases hx
  have hverification : ∀ x ∈ verificationReason item, x.factor = "verification" := by
    intro x hx
    simp only [verificationReason, Option.mem_def, Option.ite_none_right_eq_some] at hx
    rw [← Option.some.inj hx.2]
  have hrest : ([freshnessReason item now freshness,
      verificationReason item].reduceOption.find? fun x => x.factor == "rating") = none := by
    rw [find_reduceOption_cons (by decide) hfreshness,
      find_reduceOption_cons (by decide) hverification]
    rfl
  unfold recommendationReasons
  rw [find_reduceOption_cons (by decide) hdistance, find_reduceOption_cons (by decide) hsecurity]
  cases hrating : ratingReason F item.rating with
  | none => exact hrest
  | some x =>
    have hfactor : x.factor = "rating" := by
      unfold ratingReason at hrating
      split at hrating
      · rw [Option.ite_none_right_eq_some] at hrating
        rw [← Option.some.inj hrating.2]
      · cases hrating
    rw [List.reduceOption_cons_of_some, List.find?_cons_of_pos (by simp [hfactor])]

/-! ## The rating of the row -/

/-- Small sums of stars are exact. -/
theorem foldl_round_eq_sum (F : FloatOps) (reviews : List ListedReview) {n : Nat}
    (h : n + (reviews.map fun r => r.rating.value).sum ≤ 2 ^ 53) :
    reviews.foldl (fun sum r => F.round (sum + r.rating.value)) (n : Rat) =
      ((n + (reviews.map fun r => r.rating.value).sum : Nat) : Rat) := by
  induction reviews generalizing n with
  | nil => simp
  | cons r rs ih =>
    rw [List.map_cons, List.sum_cons] at h
    have hexact : F.round ((n : Rat) + r.rating.value) = ((n + r.rating.value : Nat) : Rat) := by
      rw [← Nat.cast_add]
      exact F.round_natCast _ (by omega)
    rw [List.foldl_cons, hexact, ih (by omega), List.map_cons, List.sum_cons, Nat.add_assoc]

theorem sum_stars_le (reviews : List ListedReview) :
    (reviews.map fun r => r.rating.value).sum ≤ reviews.length * 5 := by
  induction reviews with
  | nil => simp
  | cons r rs ih =>
    have hrange := r.rating.range
    rw [List.map_cons, List.sum_cons, List.length_cons]
    omega

/-- The mean lies between no star and five, and so does what it is rounded to. -/
theorem round_mean_range (F : FloatOps) {total length : Nat} (hlength : 0 < length)
    (hle : total ≤ length * 5) :
    0 ≤ F.round ((total : Rat) / length) ∧ F.round ((total : Rat) / length) ≤ 5 := by
  have hpos : (0 : Rat) < length := by exact_mod_cast hlength
  have hzero : F.round 0 = 0 := F.round_natCast 0 (by omega)
  have hfive : F.round 5 = 5 := F.round_natCast 5 (by omega)
  constructor
  · rw [← hzero]
    exact F.round_mono (by positivity)
  · rw [← hfive]
    refine F.round_mono ((div_le_iff₀ hpos).mpr ?_)
    rw [mul_comm]
    exact_mod_cast hle

/-- The rating of the row is that of the reviews on the page. -/
theorem summaryOf_rating (F : FloatOps) (location : LocationAggregate)
    (reviews : List ListedReview) (h : reviews.length * 5 ≤ 2 ^ 53) :
    (summaryOf F location reviews).rating =
      ratingOf F (reviews.map fun r => r.rating.value) := by
  have hsum := sum_stars_le reviews
  have hexact := foldl_round_eq_sum F reviews (n := 0) (by omega)
  rw [Nat.zero_add, Nat.cast_zero] at hexact
  show ratingOfPage F reviews = _
  unfold ratingOfPage ratingOf
  rw [hexact, F.round_natCast reviews.length (by omega), List.length_map]
  by_cases hnil : reviews = []
  · subst hnil
    rfl
  · have hlength : 0 < reviews.length := List.length_pos_iff.mpr hnil
    have hmap : ¬ reviews.map (fun r => r.rating.value) = [] := by simpa using hnil
    have hrange := round_mean_range F hlength hsum
    rw [if_neg hnil, if_neg hmap]
    unfold ratingNew
    dsimp only
    rw [if_neg, if_neg hlength.ne']
    rw [Option.any_some, decide_eq_true_iff, not_not]
    exact hrange

/-! ## The reviews on the page -/

theorem ratingOf_perm (F : FloatOps) {ratings ratings' : List Nat} (h : ratings.Perm ratings') :
    ratingOf F ratings = ratingOf F ratings' := by
  unfold ratingOf
  rw [h.sum_eq, h.length_eq]
  by_cases hnil : ratings' = []
  · rw [if_pos hnil, if_pos (by simpa [hnil] using h)]
  · have hnil' : ratings ≠ [] := by
      intro heq
      rw [heq] at h
      exact hnil h.nil_eq.symm
    rw [if_neg hnil, if_neg hnil']

/-- A decoded review has the stars of its row. -/
theorem reviewFromRow_rating {x : Nat × Review} {r : ListedReview}
    (h : reviewFromRow x = .ok r) : r.rating.value = x.2.rating := by
  unfold reviewFromRow starRatingOf at h
  by_cases hrange : 1 ≤ x.2.rating ∧ x.2.rating ≤ 5
  · rw [dif_pos hrange] at h
    cases hbody : reviewBodyOf x.2.body with
    | error e =>
      rw [hbody] at h
      cases h
    | ok body =>
      rw [hbody] at h
      rw [← Except.ok.inj h]
  · rw [dif_neg hrange] at h
    cases h

theorem ratings_of_mapM {rows : List (Nat × Review)} {reviews : List ListedReview}
    (h : rows.mapM reviewFromRow = .ok reviews) :
    (reviews.map fun r => r.rating.value) = rows.map fun x => x.2.rating := by
  induction rows generalizing reviews with
  | nil =>
    obtain rfl := Except.ok.inj h
    rfl
  | cons x xs ih =>
    rw [List.mapM_cons] at h
    cases hx : reviewFromRow x with
    | error e =>
      rw [hx] at h
      cases h
    | ok r =>
      rw [hx] at h
      cases hxs : xs.mapM reviewFromRow with
      | error e =>
        rw [hxs] at h
        cases h
      | ok rs =>
        rw [hxs] at h
        obtain rfl := Except.ok.inj h
        rw [List.map_cons, List.map_cons, reviewFromRow_rating hx, ih hxs]

theorem visibleRatings_eq (c : Rows Cell) (b locationId : Nat) :
    visibleRatings c b locationId = (activeRows c b locationId).map fun x => x.2.rating := by
  rw [activeRows, List.map_filterMap, visibleRatings]
  simp only [Option.map_map]
  rfl

/-- The page has the first fifty of the active reviews. -/
theorem listActive_first (c : Rows Cell) (b locationId : Nat) :
    listActive c b locationId none detailsReviewLimit =
      (Keyset.ordered newestFirst (activeRows c b locationId)).take 50 := by
  show (Keyset.ordered newestFirst ((activeRows c b locationId).filter fun _ => true)).take 50 = _
  rw [List.filter_true]

/-- What a page that is shown has of the reviews and of the reasons. -/
theorem communityDetails_ok {F : FloatOps} {freshness : FreshnessThresholds}
    {readers : CommunityReaders} {now : Instant} {location : LocationAggregate}
    {viewer : Option UserId} {page : CommunityParkingDetails}
    (h : communityDetails F freshness readers now location viewer = .ok page) :
    page.location = location ∧
      readers.listActive location.id none detailsReviewLimit = .ok page.reviews ∧
      page.reasons = recommendationReasons F (summaryOf F location page.reviews) defaultRadiusM
        none now freshness := by
  unfold communityDetails at h
  dsimp only at h
  obtain ⟨reviews, hreviews, h⟩ := Moderation.bind_eq_ok h
  obtain ⟨photos, _, h⟩ := Moderation.bind_eq_ok h
  obtain ⟨signals, _, h⟩ := Moderation.bind_eq_ok h
  obtain ⟨summary, _, h⟩ := Moderation.bind_eq_ok h
  obtain ⟨ownReview, _, h⟩ := Moderation.bind_eq_ok h
  obtain ⟨isFavorited, _, h⟩ := Moderation.bind_eq_ok h
  obtain rfl := Except.ok.inj h
  exact ⟨rfl, hreviews, rfl⟩

/-- With up to fifty reviews the page has the ratings of all of them. -/
theorem explains_iff_length {F : FloatOps} {freshness : FreshnessThresholds}
    {readers : CommunityReaders} {now : Instant} {location : LocationAggregate}
    {viewer : Option UserId} {page : CommunityParkingDetails} {c : Rows Cell} {b : Nat}
    (h : communityDetails F freshness { readers with listActive := readActive c b } now location
      viewer = .ok page) :
    Explains F (visibleRatings c b location.id) page ↔
      (visibleRatings c b location.id).length ≤ 50 := by
  obtain ⟨rfl, hreviews, hreasons⟩ := communityDetails_ok h
  have hratings := ratings_of_mapM (hreviews : List.mapM _ _ = _)
  rw [listActive_first] at hratings
  have hperm : (Keyset.ordered newestFirst (activeRows c b page.location.id)).Perm
    (activeRows c b page.location.id) := Keyset.ordered_perm
  have hlength := congrArg List.length hratings
  rw [List.length_map, List.length_map, List.length_take, hperm.length_eq] at hlength
  have hvisible : (visibleRatings c b page.location.id).length =
      (activeRows c b page.location.id).length := by
    rw [visibleRatings_eq, List.length_map]
  have hrating := summaryOf_rating F page.location page.reviews (by omega)
  constructor
  · intro hexplains
    have hcount := congrArg Prod.snd (hrating.symm.trans hexplains.rating)
    rw [ratingOf, ratingOf, List.length_map] at hcount
    omega
  · intro hle
    rw [List.take_of_length_le (by rw [hperm.length_eq]; omega)] at hratings
    have hall : (summaryOf F page.location page.reviews).rating =
        ratingOf F (visibleRatings c b page.location.id) := by
      rw [hrating, hratings, visibleRatings_eq]
      exact ratingOf_perm F (hperm.map _)
    refine ⟨hall, ?_⟩
    rw [hreasons, find_recommendationReasons, hall]

/-- When the stored rating of a location is right, the page explains the rating of all
its active reviews exactly when there are at most fifty. -/
theorem communityDetails_explains_iff {F : FloatOps} {freshness : FreshnessThresholds}
    {readers : CommunityReaders} {now : Instant} {location : LocationAggregate}
    {viewer : Option UserId} {page : CommunityParkingDetails} {c : Rows Cell} {b : Nat}
    {r : ParkingLocation} (hright : RatedRight c b location.id r)
    (hpage : communityDetails F freshness { readers with listActive := readActive c b } now
      location viewer = .ok page) :
    Explains F (visibleRatings c b location.id) page ↔ r.ratingCount ≤ 50 := by
  rw [hright.count]
  exact explains_iff_length hpage

/-! ## A location with one review too many -/

/-- Exact arithmetic, and numbers written with up to one digit after the point. -/
def exactOps : FloatOps where
  round q := q
  fixed digits q :=
    if digits = 0 then toString ⌊q + 1 / 2⌋
    else toString (⌊q * 10 + 1 / 2⌋ / 10) ++ "." ++ toString (⌊q * 10 + 1 / 2⌋ % 10)
  display q := toString ⌊q⌋
  round_mono _ _ h := h
  round_natCast _ _ := rfl

/-- The location 1 with `n` reviews, the oldest of which has one star. -/
def reviewedRows (n avg : Nat) : Rows Cell
  | .location 1 => some { unrated with ratingCount := n, ratingAvg := some avg }
  | .review i =>
    if 1 ≤ i ∧ i ≤ n then
      some {
        locationId := 1
        authorId := some i
        rating := if i = 1 then 1 else if i ≤ 26 then 3 else 4
        body := "good"
        createdAt := i
        updatedAt := i }
    else none
  | k => noRows k

def reviewedRack (n avg : Nat) : LocationAggregate where
  id := 1
  name := "Rack"
  address := "Street 1"
  description := none
  parkingType := .rack
  cost := .free
  point := ⟨0, 0, GeoPoint.zero_lat, GeoPoint.zero_lon⟩
  timezone := "UTC"
  hours := .unknown
  security := []
  moderationState := .active
  rating := (some ((avg : Rat) / 100), n)
  createdAt := 0
  lastMeaningfulUpdateAt := none
  lastVerifiedAt := none
  version := 1

/-- Nothing but reviews. -/
def reviewsOnly (c : Rows Cell) (b : Nat) : CommunityReaders where
  listActive := readActive c b
  forReviews _ := .ok []
  latestExistencePerUser _ := .ok []
  attributeAndParkedSummary _ := .ok ([], 0)
  findOwn _ _ := .ok none
  isFavorited _ _ := .ok false

def monthly : FreshnessThresholds := ⟨30, 90, 180, 365⟩

/-- The details page of the location with `n` reviews. -/
def rackPage (n avg : Nat) : Except ContributionError CommunityParkingDetails :=
  communityDetails exactOps monthly
    { reviewsOnly (reviewedRows n avg) (n + 1) with
      listActive := readActive (reviewedRows n avg) (n + 1) }
    0 (reviewedRack n avg) none

theorem communityDetails_explains_two :
    ∃ page, rackPage 2 200 = .ok page ∧
      Explains exactOps (visibleRatings (reviewedRows 2 200) 3 1) page := by
  have hok : (rackPage 2 200).isOk = true := by decide +kernel
  cases hpage : rackPage 2 200 with
  | error e =>
    rw [hpage] at hok
    cases hok
  | ok page =>
    have hright : RatedRight (reviewedRows 2 200) 3 (reviewedRack 2 200).id
        { unrated with ratingCount := 2, ratingAvg := some 200 } :=
      ⟨rfl, by decide +kernel, by decide +kernel⟩
    exact ⟨page, rfl, (communityDetails_explains_iff hright hpage).mpr (by decide)⟩

/-- Fifty newer reviews have three and a half stars, and with the oldest one the
location has less. -/
theorem communityDetails_explains_popular :
    ∃ page, rackPage 51 345 = .ok page ∧
      RatedRight (reviewedRows 51 345) 52 1
        { unrated with ratingCount := 51, ratingAvg := some 345 } ∧
      (page.reasons.find? fun x => x.factor == "rating") =
        some ⟨"rating", "reason.rating", "3.5"⟩ ∧
      ratingReason exactOps (ratingOf exactOps (visibleRatings (reviewedRows 51 345) 52 1)) =
        none ∧
      ¬ Explains exactOps (visibleRatings (reviewedRows 51 345) 52 1) page := by
  have hshown : (rackPage 51 345).toOption.map (fun page =>
      page.reasons.find? fun x => x.factor == "rating") =
        some (some ⟨"rating", "reason.rating", "3.5"⟩) := by
    decide +kernel
  obtain ⟨page, hpage, hreason⟩ := Option.map_eq_some_iff.mp hshown
  have hwhole : ratingReason exactOps (ratingOf exactOps
      (visibleRatings (reviewedRows 51 345) 52 1)) = none := by
    decide +kernel
  refine ⟨page, ?_, ⟨rfl, by decide +kernel, by decide +kernel⟩, hreason, hwhole,
    fun hexplains => ?_⟩
  · cases hresult : rackPage 51 345 with
    | error e =>
      rw [hresult] at hpage
      cases hpage
    | ok shown =>
      rw [hresult] at hpage
      rw [Option.some.inj hpage]
  · have heq := hexplains.reason
    rw [hreason, hwhole] at heq
    cases heq

end BikesNest.Community
