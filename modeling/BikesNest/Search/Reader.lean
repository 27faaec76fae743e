import BikesNest.Lib.Keyset
import BikesNest.Search.OpenNow
import BikesNest.Search.Request
import BikesNest.Store.Schema
import Mathlib.Algebra.Order.Floor.Ring
import Mathlib.Data.Prod.Lex
import Mathlib.Data.Rat.Floor

/-!
# The search reader

The two statements of a search: `count` says how many locations match, and
`page` lists them by sort key and id behind the cursor.

A sort key is a `float8`.  It is a rational number here, and `Engine.round`
rounds the result of each operation; finite numbers compare as rationals do.
`Engine` has this function and the others that PostgreSQL, PostGIS and
`chrono_tz` give: distances, time-zone offsets and zone names.

`summaryOf` decodes a row.  `WellStored` says what the write paths store, and
`summaryOf_ok` that such a row is decoded.
-/

namespace BikesNest.Search

open Domain Community Store Relational

/-- What the database and its extensions compute. -/
structure Engine where
  /-- The `float8` next to an exact result. -/
  round : Rat → Rat
  /-- `ST_Distance`. -/
  distance : GeoPoint → GeoPoint → Rat
  /-- `<->`, on the sphere. -/
  sphereDistance : GeoPoint → GeoPoint → Rat
  /-- `ST_DWithin`. -/
  within : GeoPoint → GeoPoint → Rat → Bool
  offset : UtcOffset
  /-- Does a text name a time zone? -/
  isZone : String → Bool
  round_mono : Monotone round
  round_zero : round 0 = 0
  round_quarter : round (1 / 4) = 1 / 4
  round_five : round 5 = 5

structure RecommendationConfig where
  wDistance : Rat
  wSecurity : Rat
  wRating : Rat
  wFreshness : Rat
  wVerification : Rat

structure FreshnessThresholds where
  freshDays : Int
  recentDays : Int
  agingDays : Int
  staleDays : Int

/-- `SqlxParkingSearchReader`. -/
structure SearchReader where
  engine : Engine
  recommendation : RecommendationConfig
  thresholds : FreshnessThresholds

/-! ## Filters -/

def CostFilter.kind : CostFilter → String
  | .free => "free"
  | .paid => "paid"
  | .unknown => "unknown"

/-- `filter_binds`: no bind for a filter that is not set. -/
def filterBinds (f : Filters) :
    Option String × Option (List String) × Option (List String) :=
  (f.cost.map CostFilter.kind,
    if f.types.isEmpty then none else some (f.types.map ParkingType.asCode),
    if f.securityAll.isEmpty then none else some f.securityAll)

/-- Has a location this feature, confirmed? -/
def hasFeature (rec : LocationRecord) (code : String) : Bool :=
  rec.security.any fun ps => ps.featureCode == code && ps.state == 1

/-- `FILTERS`. -/
def isMatch (E : Engine) (req : SearchRequest) (now : Instant) (rec : LocationRecord) : Bool :=
  let (cost, types, securityAll) := filterBinds req.filters
  rec.row.moderationState == .active &&
    E.within rec.row.point req.origin req.radiusM &&
    cost.all (fun c => rec.row.costKind == c) &&
    types.all (fun ts => ts.contains rec.row.parkingType) &&
    (!req.filters.openNow || isOpenAt E.offset rec.hours rec.row.timezone now) &&
    (securityAll.getD []).all fun code => hasFeature rec code

/-! ## Sort keys -/

/-- `SECURITY_COUNT_JOIN`. -/
def securityYes (rec : LocationRecord) : Nat :=
  (rec.security.filter fun ps => ps.state == 1).length

/-- `TRUNC`. -/
def truncRat (q : Rat) : Rat := if 0 ≤ q then ⌊q⌋ else ⌈q⌉

/-- `EXTRACT(EPOCH FROM …)` of a number of microseconds. -/
def epochSeconds (us : Int) : Rat := (us : Rat) / 1000000

/-- `FRESHNESS_DAYS_JOIN`: the whole days since a verification. -/
def freshnessDays (E : Engine) (now verified : Instant) : Rat :=
  max (truncRat (E.round (E.round (epochSeconds (now - verified)) / 86400))) 0

/-- `rating_avg::float8`; the column counts hundredths here. -/
def ratingFloat (E : Engine) (avg : Nat) : Rat := E.round ((avg : Rat) / 100)

/-- The recommendation score: weighted sub-scores between 0 and 1, summed up. -/
def recommendationScore (R : SearchReader) (req : SearchRequest) (now : Instant)
    (rec : LocationRecord) : Rat :=
  let E := R.engine
  let w := R.recommendation
  let near := E.round (1 - min (max
    (E.round (E.distance rec.row.point req.origin / req.radiusM)) 0) 1)
  let secure : Rat :=
    if 0 < securityYes rec then min (E.round ((securityYes rec : Rat) / 8)) 1 else 1 / 2
  let rated : Rat := match rec.row.ratingAvg with
    | some avg => E.round (ratingFloat E avg / 5)
    | none => 1 / 2
  let fresh : Rat := match rec.row.lastVerifiedAt with
    | none => 1 / 2
    | some verified =>
      let days := freshnessDays E now verified
      if days < E.round R.thresholds.freshDays then 1
      else if days < E.round R.thresholds.recentDays then 3 / 4
      else if days < E.round R.thresholds.agingDays then 1 / 2
      else if days < E.round R.thresholds.staleDays then 1 / 4
      else E.round (1 / 10)
  let verified : Rat := match rec.row.lastVerifiedAt with
    | none => 1 / 2
    | some _ => 1
  let add := fun a b => E.round (a + b)
  let mul := fun a b => E.round (a * b)
  add (add (add (add (mul w.wDistance near) (mul w.wSecurity secure)) (mul w.wRating rated))
    (mul w.wFreshness fresh)) (mul w.wVerification verified)

/-- `sort_key_sql`: every key ascends, so all but the distance are negated. -/
def sortKey (R : SearchReader) (req : SearchRequest) (now : Instant) (rec : LocationRecord) :
    Rat :=
  match req.sort with
  | .distance => R.engine.sphereDistance rec.row.point req.origin
  | .security => -(securityYes rec : Rat)
  | .rating => -(match rec.row.ratingAvg with
    | some avg => ratingFloat R.engine avg
    | none => R.engine.round (5 / 2))
  | .recentlyVerified => -(match rec.row.lastVerifiedAt with
    | some verified => R.engine.round (epochSeconds verified)
    | none => 0)
  | .recommended => -recommendationScore R req now rec

/-! ## Decoding a row -/

inductive ReaderError where
  | unavailable
  | unexpected (message : String)

/-- A row of search results. -/
structure ParkingSummary where
  id : Nat
  name : String
  address : String
  parkingType : ParkingType
  cost : Cost
  point : GeoPoint
  distanceM : Rat
  securityYes : List String
  /-- The average of the rating, and its count. -/
  rating : Option Rat × Nat
  lastVerifiedAt : Option Instant
  timezone : Tz
  isOpenNow : Bool
  photoKey : Option String
  sortKey : Option Rat

/-- `ParkingType::from_code`. -/
def parkingTypeOf (code : String) : Except String ParkingType :=
  match code with
  | "rack" => .ok .rack
  | "parking_facility" => .ok .parkingFacility
  | "indoor" => .ok .indoor
  | "secured" => .ok .secured
  | "locker" => .ok .locker
  | "other" => .ok .other
  | other => .error ("unknown parking type: " ++ other)

/-- `PricingUnit::from_code`. -/
def pricingUnitOf (code : String) : Except String PricingUnit :=
  match code with
  | "hour" => .ok .hour
  | "day" => .ok .day
  | "month" => .ok .month
  | "entry" => .ok .entry
  | other => .error ("unknown pricing unit: " ++ other)

/-- `CurrencyCode::parse`. -/
def currencyOf (code : String) : Except String String :=
  let code := (Text.trim code).map Char.toUpper
  if code.length = 3 ∧ code.toList.all Char.isAlpha then .ok code
  else .error ("invalid currency code: " ++ code)

/-- `Cost::from_kind_and_price`. -/
def costFromKindAndPrice (kind : String) (price : Option Money) : Except String Cost :=
  match kind with
  | "free" => .ok .free
  | "paid" => .ok (.paid price)
  | "unknown" => .ok .unknown
  | other => .error ("unknown cost kind: " ++ other)

/-- `cost_of`. -/
def costOf (r : ParkingLocation) : Except String Cost := do
  let price ← match r.priceCents, r.priceCurrency, r.priceUnit with
    | some cents, some cur, some unit => do
      let currency ← currencyOf cur
      let unit ← pricingUnitOf unit
      pure (some ⟨cents, currency, unit⟩)
    | _, _, _ => pure none
  costFromKindAndPrice r.costKind price

/-- `Rating::new`. -/
def ratingNew (avg : Option Rat) (count : Nat) : Except String (Option Rat × Nat) :=
  if avg.any fun a => ¬(0 ≤ a ∧ a ≤ 5) then .error "rating avg out of range"
  else .ok (if count = 0 then none else avg, count)

/-- The lateral join on `parking_photo`: the first approved photo. -/
def primaryPhoto (db : Db) (id : Nat) : Option String :=
  (((db.parkingPhoto.select fun _ ph =>
      ph.parentId == id && ph.moderationState == .approved).insertionSort fun a b =>
    a.2.position < b.2.position ∨ (a.2.position = b.2.position ∧ a.1 ≤ b.1)).head?).map
      fun x => x.2.storageKey

/-- The page statement's row of a location, decoded by `summary_of`. -/
def summaryOf (R : SearchReader) (db : Db) (req : SearchRequest) (now : Instant)
    (x : Nat × LocationRecord) : Except String ParkingSummary := do
  let row := x.2.row
  if R.engine.isZone row.timezone then
    let cost ← costOf row
    let parkingType ← parkingTypeOf row.parkingType
    let rating ← ratingNew (row.ratingAvg.map (ratingFloat R.engine)) row.ratingCount
    return {
      id := x.1
      name := row.name
      address := row.address
      parkingType
      cost
      point := row.point
      distanceM := R.engine.distance row.point req.origin
      securityYes := ((x.2.security.filter fun ps => ps.state == 1).map
        SecurityRow.featureCode).insertionSort (· ≤ ·)
      rating
      lastVerifiedAt := row.lastVerifiedAt
      timezone := row.timezone
      isOpenNow := isOpenAt R.engine.offset x.2.hours row.timezone now
      photoKey := primaryPhoto db x.1
      sortKey := some (sortKey R req now x.2) }
  else .error ("bad timezone " ++ row.timezone)

/-! ## The two statements -/

/-- The locations that match. -/
def matching (R : SearchReader) (db : Db) (req : SearchRequest) (now : Instant) :
    List (Nat × LocationRecord) :=
  db.parkingLocation.select fun _ rec => isMatch R.engine req now rec

/-- Statement (a). -/
def count (R : SearchReader) (db : Db) (req : SearchRequest) (now : Instant) : Nat :=
  (matching R db req now).length

/-- What the rows are ordered by: `(sort_key, id)`. -/
def position (R : SearchReader) (req : SearchRequest) (now : Instant)
    (x : Nat × LocationRecord) : Rat ×ₗ Int :=
  toLex (sortKey R req now x.2, (x.1 : Int))

/-- Statement (b): the first `limit` rows behind the cursor, decoded. -/
def pageRows (R : SearchReader) (db : Db) (req : SearchRequest) (now : Instant)
    (cursor : Option Cursor) (limit : Nat) : Except ReaderError (List ParkingSummary) :=
  ((Keyset.fetch (position R req now) (matching R db req now) limit
    (cursor.map fun c => toLex (c.v, c.id))).mapM (summaryOf R db req now)).mapError .unexpected

/-- `search_at`: the rows of a page, with the total. -/
def searchAt (R : SearchReader) (db : Db) (req : SearchRequest) (limit : Nat)
    (applyCursor : Bool) (now : Instant) : Except ReaderError (List ParkingSummary × Nat) := do
  let cursor := if applyCursor then req.cursor else none
  let items ← pageRows R db req now cursor limit
  return (items, count R db req now)

end BikesNest.Search
