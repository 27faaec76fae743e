import Mathlib.Data.Rat.Defs
import Mathlib.Algebra.Order.Ring.Rat

/-!
# Parking locations in the domain

The value types of a parking location: coordinates, type, cost, security
features, opening hours and moderation state, each with the code that the
database stores for it.

A coordinate is a rational number: the code compares and stores coordinates
and computes nothing from them here.  A `chrono_tz::Tz` is its name.  A
`chrono::NaiveTime` is a second of the day and a fraction of it, where a
fraction of a second or more is a leap second; PostgreSQL stores it as a number
of microseconds, and `TimeOfDay.ofMicros_micros_iff` says which times come back
as they went in.
-/

namespace BikesNest.Domain

/-! ## Coordinates, type and cost -/

/-- A WGS84 point.  `GeoPoint::new` refuses coordinates out of range. -/
structure GeoPoint where
  lat : Rat
  lon : Rat
  lat_range : -90 ≤ lat ∧ lat ≤ 90
  lon_range : -180 ≤ lon ∧ lon ≤ 180
deriving DecidableEq

/-- Where the equator and the prime meridian meet. -/
theorem GeoPoint.zero_lat : -90 ≤ (0 : Rat) ∧ (0 : Rat) ≤ 90 := by decide

theorem GeoPoint.zero_lon : -180 ≤ (0 : Rat) ∧ (0 : Rat) ≤ 180 := by decide

/-- The name of a `chrono_tz` zone.  Every writer of the column stores the name
of a zone, which parses back to it. -/
abbrev Tz := String

inductive ParkingType where
  | rack | parkingFacility | indoor | secured | locker | other
deriving DecidableEq

def ParkingType.asCode : ParkingType → String
  | .rack => "rack"
  | .parkingFacility => "parking_facility"
  | .indoor => "indoor"
  | .secured => "secured"
  | .locker => "locker"
  | .other => "other"

inductive PricingUnit where
  | hour | day | month | entry
deriving DecidableEq

def PricingUnit.asCode : PricingUnit → String
  | .hour => "hour"
  | .day => "day"
  | .month => "month"
  | .entry => "entry"

/-- An amount in minor units. -/
structure Money where
  cents : Int
  currency : String
  unit : PricingUnit
deriving DecidableEq

/-- `paid none` is "paid, but the price is not currently known". -/
inductive Cost where
  | free
  | paid (price : Option Money)
  | unknown
deriving DecidableEq

/-! ## Security features -/

inductive SecurityState where
  | unknown | yes | no
deriving DecidableEq

/-- `state_smallint`. -/
def SecurityState.smallint : SecurityState → Nat
  | .unknown => 0
  | .yes => 1
  | .no => 2

theorem SecurityState.smallint_injective {a b : SecurityState} (h : a.smallint = b.smallint) :
    a = b := by
  cases a <;> cases b <;> simp_all [smallint]

/-- `SECURITY_FEATURE_CODES`. -/
def securityFeatureCodes : List String :=
  ["dedicated_locking_point", "indoor", "cctv", "staffed", "security_guard",
    "controlled_access", "well_lit", "restricted_access"]

structure SecurityFeature where
  code : String
  state : SecurityState
deriving DecidableEq

/-! ## Moderation state -/

/-- The lifecycle of a location. -/
inductive ModerationState where
  | active | pendingReview | flagged | invalid | removed
deriving DecidableEq

def ModerationState.asCode : ModerationState → String
  | .active => "ACTIVE"
  | .pendingReview => "PENDING_REVIEW"
  | .flagged => "FLAGGED"
  | .invalid => "INVALID"
  | .removed => "REMOVED"

/-! ## Opening hours -/

/-- `chrono::NaiveTime`: the second of the day, and nanoseconds that reach a
second or more in a leap second. -/
structure TimeOfDay where
  secs : Nat
  nanos : Nat
  secs_lt : secs < 86400
  nanos_lt : nanos < 2000000000
deriving DecidableEq

namespace TimeOfDay

/-- 00:00. -/
def midnight : TimeOfDay := ⟨0, 0, by decide, by decide⟩

/-- 23:59:59. -/
def lastSecond : TimeOfDay := ⟨86399, 0, by decide, by decide⟩

/-- The `TIME` that a time of day is sent as: microseconds since midnight. -/
def micros (t : TimeOfDay) : Nat := t.secs * 1000000 + t.nanos / 1000

/-- The time of day that a `TIME` is read as; 24:00 wraps around. -/
def ofMicros (us : Nat) : TimeOfDay where
  secs := us / 1000000 % 86400
  nanos := us % 1000000 * 1000
  secs_lt := Nat.mod_lt _ (by decide)
  nanos_lt := by omega

/-- Whole microseconds and no leap second. -/
def isStorable (t : TimeOfDay) : Bool := t.nanos < 1000000000 && t.nanos % 1000 == 0

/-- A time of day comes back from the database as it went in exactly when it
has whole microseconds and is no leap second. -/
theorem ofMicros_micros_iff (t : TimeOfDay) :
    ofMicros t.micros = t ↔ t.isStorable = true := by
  obtain ⟨secs, nanos, hsecs, hnanos⟩ := t
  simp only [ofMicros, micros, isStorable, TimeOfDay.mk.injEq, Bool.and_eq_true,
    decide_eq_true_eq, beq_iff_eq]
  omega

end TimeOfDay

/-- One opening range of a day. -/
structure TimeRange where
  opensAt : TimeOfDay
  closesAt : TimeOfDay
  allDay : Bool
deriving DecidableEq

/-- `TimeRange::all_day`. -/
def TimeRange.wholeDay : TimeRange := ⟨.midnight, .lastSecond, true⟩

/-- Weekly opening hours: rows of an ISO day and a range. -/
inductive OpeningHours where
  | unknown
  | weekly (rows : List (Nat × TimeRange))
deriving DecidableEq

def OpeningHours.isUnknown : OpeningHours → Bool
  | .unknown => true
  | .weekly _ => false

/-- The rows of the schedule; none when it is unknown. -/
def OpeningHours.rows : OpeningHours → List (Nat × TimeRange)
  | .unknown => []
  | .weekly rows => rows

end BikesNest.Domain
