import BikesNest.Domain.Account
import BikesNest.Domain.Parking
import BikesNest.Domain.Time
import Mathlib.Data.List.Sort

/-!
# The stored location and its revisions

`LocationRecord` is a row of `parking_location` with the child rows that hang
on it: `opening_hours`, `parking_security` and `parking_revision`.  The child
rows are reached through their location only, and they go when it goes.

The functions are what the statements of the write paths make of one location:
the new row, the `UPDATE`s, `insertHours`, `upsertSecurityRows` and
`insertRevision`, and the two ways to build a snapshot.  `snapshotOf` builds it
from the request and `snapshotWith` from the tables.

A snapshot is a JSON object with a fixed set of keys; `Snapshot` has one field
for each.
-/

namespace BikesNest.Community

open Domain

/-! ## Rows -/

/-- A row of `parking_location`.  `lat` and `lon` are the coordinates of the
column `location`, and `ratingAvg` counts hundredths, the scale of
`NUMERIC(3,2)`. -/
structure ParkingLocation where
  name : String
  address : String
  description : Option String
  parkingType : String
  costKind : String
  priceCents : Option Int
  priceCurrency : Option String
  priceUnit : Option String
  point : GeoPoint
  timezone : Tz
  hoursUnknown : Bool
  ratingAvg : Option Nat := none
  ratingCount : Nat := 0
  moderationState : ModerationState
  version : Int := 1
  creatorId : Option UserId := none
  createdAt : Instant
  lastMeaningfulUpdateAt : Option Instant := none
  lastVerifiedAt : Option Instant := none
deriving DecidableEq

/-- A row of `opening_hours`; times are microseconds since midnight. -/
structure HourRow where
  dayOfWeek : Nat
  opensAt : Nat
  closesAt : Nat
  allDay : Bool
deriving DecidableEq

/-- A row of `parking_security`. -/
structure SecurityRow where
  featureCode : String
  state : Nat
deriving DecidableEq

/-- The `cost` object of a snapshot. -/
structure CostJson where
  kind : String
  price : Option (Int × String × String) := none
deriving DecidableEq

/-- A row of the `hours` object of a snapshot. -/
structure HourJson where
  day : Nat
  opensAt : TimeOfDay
  closesAt : TimeOfDay
  allDay : Bool
deriving DecidableEq

/-- The tracked fields after a change. -/
structure Snapshot where
  name : String
  address : String
  description : Option String
  parkingType : String
  cost : CostJson
  point : GeoPoint
  timezone : Tz
  hoursUnknown : Bool
  hours : List HourJson
  security : List SecurityRow
  moderationState : ModerationState
deriving DecidableEq

inductive ChangeKind where
  | create | edit | moderation | verification
deriving DecidableEq

/-- A row of `parking_revision`. -/
structure ParkingRevision where
  version : Int
  editorId : Option UserId
  changeKind : ChangeKind
  summary : String
  snapshot : Snapshot
  createdAt : Instant
deriving DecidableEq

/-- A location with its child rows. -/
structure LocationRecord where
  row : ParkingLocation
  hours : List HourRow := []
  security : List SecurityRow := []
  revisions : List ParkingRevision := []
deriving DecidableEq

/-! ## What a request asks for -/

structure NewParkingLocation where
  name : String
  address : String
  description : Option String
  parkingType : ParkingType
  cost : Cost
  point : GeoPoint
  timezone : Option Tz
  hours : OpeningHours
  security : List SecurityFeature

/-- A reversible edit to a location. -/
structure ParkingEdit where
  name : String
  address : String
  description : Option String
  parkingType : ParkingType
  cost : Cost
  hours : OpeningHours
  security : List SecurityFeature

/-- The change that an approved proposal applies, with the moderator's
adjustments merged in. -/
inductive ProposalApplication where
  | moveLocation (point : GeoPoint) (timezone : Tz)
  | changeExistence (exists' : Bool)

inductive ContributionError where
  | notVerified
  | rateLimited
  | versionConflict
  | notFound
  | locationNotActive
  | invalidField (hint : String)
  | unauthorized
  | timezone
  | conflict
  | unavailable
  | internal
deriving DecidableEq

/-! ## Costs -/

/-- `cost_parts`: the four cost columns. -/
def costParts : Cost → String × Option Int × Option String × Option String
  | .free => ("free", none, none, none)
  | .unknown => ("unknown", none, none, none)
  | .paid none => ("paid", none, none, none)
  | .paid (some p) => ("paid", some p.cents, some p.currency, some p.unit.asCode)

/-- The `cost` object that `snapshot_of` builds from the request. -/
def costJsonOf : Cost → CostJson
  | .free => { kind := "free" }
  | .unknown => { kind := "unknown" }
  | .paid none => { kind := "paid" }
  | .paid (some p) => { kind := "paid", price := some (p.cents, p.currency, p.unit.asCode) }

/-- `cost_json`: the `cost` object that `snapshot_with` builds from the row. -/
def costJson (r : ParkingLocation) : CostJson :=
  if r.costKind = "free" then { kind := "free" }
  else if r.costKind = "unknown" then { kind := "unknown" }
  else if r.costKind = "paid" then
    match r.priceCents, r.priceCurrency, r.priceUnit with
    | some cents, some currency, some unit =>
      { kind := "paid", price := some (cents, currency, unit) }
    | _, _, _ => { kind := "paid" }
  else { kind := "unknown" }

/-! ## The row -/

/-- The row that `create` inserts. -/
def NewParkingLocation.toRow (new : NewParkingLocation) (tz : Tz) (creator : UserId)
    (now : Instant) : ParkingLocation :=
  let cost := costParts new.cost
  { name := Text.trim new.name
    address := Text.trim new.address
    description := new.description
    parkingType := new.parkingType.asCode
    costKind := cost.1
    priceCents := cost.2.1
    priceCurrency := cost.2.2.1
    priceUnit := cost.2.2.2
    point := new.point
    timezone := tz
    hoursUnknown := new.hours.isUnknown
    moderationState := .active
    version := 1
    creatorId := some creator
    createdAt := now
    lastMeaningfulUpdateAt := some now }

/-- The `UPDATE` of `apply_edit`. -/
def ParkingEdit.apply (edit : ParkingEdit) (now : Instant) (r : ParkingLocation) :
    ParkingLocation :=
  let cost := costParts edit.cost
  { r with
    name := Text.trim edit.name
    address := Text.trim edit.address
    description := edit.description
    parkingType := edit.parkingType.asCode
    costKind := cost.1
    priceCents := cost.2.1
    priceCurrency := cost.2.2.1
    priceUnit := cost.2.2.2
    hoursUnknown := edit.hours.isUnknown
    version := r.version + 1
    lastMeaningfulUpdateAt := some now }

/-- The `UPDATE` of `set_parking_state`. -/
def ParkingLocation.withState (target : ModerationState) (r : ParkingLocation) :
    ParkingLocation :=
  { r with moderationState := target, version := r.version + 1 }

/-- The `UPDATE` of `approve_proposal`. -/
def ProposalApplication.apply (applied : ProposalApplication) (r : ParkingLocation) :
    ParkingLocation :=
  match applied with
  | .moveLocation point timezone => { r with point, timezone, version := r.version + 1 }
  | .changeExistence exists' => r.withState (if exists' then .active else .removed)

/-! ## Opening hours and security rows -/

/-- The row that `write_hours` sends for a range of a day. -/
def hourRow (x : Nat × TimeRange) : HourRow where
  dayOfWeek := x.1
  opensAt := if x.2.allDay then TimeOfDay.midnight.micros else x.2.opensAt.micros
  closesAt := if x.2.allDay then TimeOfDay.lastSecond.micros else x.2.closesAt.micros
  allDay := x.2.allDay

/-- The primary key of `opening_hours` within one location. -/
def HourRow.key (r : HourRow) : Nat × Nat × Nat := (r.dayOfWeek, r.opensAt, r.closesAt)

/-- The `INSERT` of `write_hours` next to the rows that are there.  It fails on a
time past 24:00, a day out of range or a repeated key. -/
def insertHours (rows : List HourRow) (hours : OpeningHours) :
    Except ContributionError (List HourRow) :=
  let sent := hours.rows.map hourRow
  if sent.any fun r => 86400000000 < r.opensAt || 86400000000 < r.closesAt then
    .error .internal
  else if sent.any fun r => r.dayOfWeek < 1 || 7 < r.dayOfWeek then
    .error (.invalidField "opening_hours_day_of_week_check")
  else if ¬ ((rows ++ sent).map HourRow.key).Nodup then .error .conflict
  else .ok (rows ++ sent)

/-- The state of a feature among the rows of a location; a missing one is
unknown. -/
def stateOf (rows : List SecurityRow) (code : String) : Nat :=
  ((rows.find? fun r => r.featureCode == code).map SecurityRow.state).getD 0

/-- `INSERT … ON CONFLICT (location_id, feature_code) DO UPDATE` of one row. -/
def upsertSecurity (rows : List SecurityRow) (r : SecurityRow) : List SecurityRow :=
  if rows.any fun x => x.featureCode == r.featureCode then
    rows.map fun x => if x.featureCode == r.featureCode then r else x
  else rows ++ [r]

/-- The rows that `write_security` sends: one for each known code. -/
def securityRows (security : List SecurityFeature) : List SecurityRow :=
  securityFeatureCodes.map fun code =>
    { featureCode := code
      state :=
        (((security.find? fun f => f.code == code).map SecurityFeature.state).getD
          .unknown).smallint }

/-- The one statement of `write_security`. -/
def upsertSecurityRows (rows : List SecurityRow) (security : List SecurityFeature) :
    List SecurityRow :=
  (securityRows security).foldl upsertSecurity rows

/-! ## Snapshots -/

/-- The hours of a snapshot as the request has them. -/
def hoursJsonOf (hours : OpeningHours) : List HourJson :=
  hours.rows.map fun x => ⟨x.1, x.2.opensAt, x.2.closesAt, x.2.allDay⟩

/-- `read_hours_json`: the hours of a snapshot as the table has them. -/
def hoursJson (rows : List HourRow) : List HourJson :=
  (rows.insertionSort fun x y =>
      x.dayOfWeek < y.dayOfWeek ∨ (x.dayOfWeek = y.dayOfWeek ∧ x.opensAt ≤ y.opensAt)).map
    fun r => ⟨r.dayOfWeek, .ofMicros r.opensAt, .ofMicros r.closesAt, r.allDay⟩

/-- The security rows of a snapshot as the request has them. -/
def securityJsonOf (security : List SecurityFeature) : List SecurityRow :=
  security.map fun f => ⟨f.code, f.state.smallint⟩

/-- `snapshot_of`: hours and security are the request's. -/
def snapshotOf (name address : String) (description : Option String) (parkingType : String)
    (cost : Cost) (point : GeoPoint) (tz : Tz) (hours : OpeningHours)
    (security : List SecurityFeature) (moderationState : ModerationState) : Snapshot where
  name := name
  address := address
  description := description
  parkingType := parkingType
  cost := costJsonOf cost
  point := point
  timezone := tz
  hoursUnknown := hours.isUnknown
  hours := hoursJsonOf hours
  security := securityJsonOf security
  moderationState := moderationState

/-- `snapshot_with`: everything is read from the row and its child rows. -/
def snapshotWith (r : ParkingLocation) (hours : List HourRow) (security : List SecurityRow) :
    Snapshot where
  name := r.name
  address := r.address
  description := r.description
  parkingType := r.parkingType
  cost := costJson r
  point := r.point
  timezone := r.timezone
  hoursUnknown := r.hoursUnknown
  hours := hoursJson hours
  security := security
  moderationState := r.moderationState

/-- `insert_revision`: none when the location has a revision of that version. -/
def LocationRecord.insertRevision (rec : LocationRecord) (rev : ParkingRevision) :
    Option LocationRecord :=
  if rec.revisions.any fun x => x.version == rev.version then none
  else some { rec with revisions := rec.revisions ++ [rev] }

end BikesNest.Community
