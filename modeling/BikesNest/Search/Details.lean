import BikesNest.Search.Reader

/-!
# The details reader

`toDomain` decodes what `details` reads of a location into the aggregate of the
domain, or refuses it.  `LocationAggregate.new` is the constructor, which trims
the name and the address and requires both.

`updated_at` is left out: nothing here reads it.
-/

namespace BikesNest.Search

open Domain Community History

/-- The aggregate `ParkingLocation` of the domain. -/
structure LocationAggregate where
  id : Nat
  name : String
  address : String
  description : Option String
  parkingType : ParkingType
  cost : Cost
  point : GeoPoint
  timezone : Tz
  hours : OpeningHours
  security : List SecurityFeature
  moderationState : ModerationState
  /-- The average of the rating, and its count. -/
  rating : Option Rat × Nat
  createdAt : Instant
  lastMeaningfulUpdateAt : Option Instant
  lastVerifiedAt : Option Instant
  version : Int

/-- `ParkingLocation::new`. -/
def LocationAggregate.new (a : LocationAggregate) : Except String LocationAggregate :=
  let name := Text.trim a.name
  let address := Text.trim a.address
  if name = "" then .error "name is required"
  else if address = "" then .error "address is required"
  else .ok { a with name, address }

/-- `SecurityState::from_smallint`. -/
def securityStateOf : Nat → Except String SecurityState
  | 0 => .ok .unknown
  | 1 => .ok .yes
  | 2 => .ok .no
  | other => .error ("unknown security state: " ++ toString other)

/-- A feature as `to_domain` reads it from a row of `parking_security`. -/
def securityFeatureOf (s : SecurityRow) : Except String SecurityFeature := do
  let state ← securityStateOf s.state
  return ⟨s.featureCode, state⟩

/-- `to_domain`. -/
def toDomain (E : Engine) (id : Nat) (d : Details) : Except String LocationAggregate := do
  let row := d.row
  if E.isZone row.timezone then
    let cost ← costOf row
    let security ← d.security.mapM securityFeatureOf
    let parkingType ← parkingTypeOf row.parkingType
    let rating ← ratingNew (row.ratingAvg.map (ratingFloat E)) row.ratingCount
    LocationAggregate.new {
      id
      name := row.name
      address := row.address
      description := row.description
      parkingType
      cost
      point := row.point
      timezone := row.timezone
      hours := openingOf row.hoursUnknown d.hours
      security
      moderationState := row.moderationState
      rating
      createdAt := row.createdAt
      lastMeaningfulUpdateAt := row.lastMeaningfulUpdateAt
      lastVerifiedAt := row.lastVerifiedAt
      version := row.version }
  else .error ("bad timezone " ++ row.timezone)

end BikesNest.Search
