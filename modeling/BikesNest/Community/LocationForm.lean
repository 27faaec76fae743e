import BikesNest.Community.HoursMeaning
import BikesNest.Community.Service
import BikesNest.Search.Reader

/-!
# The form of a location

`newLocationFromForm` and `editFromForm` decode the form that adds or edits a
location.  `FormParsers` has the parsers of `chrono`, of `chrono_tz` and of the
standard library that they use.

`IsDecoded` says what is known of a decoded form, and
`ContributionService.addParkingLocation` is the call that creates a location
from one.
-/

namespace BikesNest.Community

open Domain Store Search Transactions

/-! ## The parsers -/

/-- What `str::parse::<f64>` gives. -/
inductive ParsedFloat where
  | finite (q : Rat)
  | nan
  | infinite (negative : Bool)
deriving DecidableEq

/-- What the decoders call. -/
structure FormParsers where
  chrono : Chrono
  /-- Does a text parse as a `chrono_tz::Tz`? -/
  isZone : String → Bool
  parseF64 : String → Option ParsedFloat
  /-- The `f64` next to an exact result. -/
  round : Rat → Rat

/-! ## The form -/

/-- The fields of the form; `hours` and `security` are those of `hours_fields` and of
`security_fields`. -/
structure ContributionForm where
  name : String
  address : String
  description : String
  parkingType : String
  costKind : String
  price : String
  priceCurrency : String
  priceUnit : String
  lat : String
  lon : String
  timezone : String
  hours : Vector DayFields 7
  security : Vector String 8

inductive FormError where
  | contribution (e : ContributionError)
  | hours (e : HoursError)
deriving DecidableEq

/-- `FormError::invalid`. -/
def FormError.invalid (message : String) : FormError := .contribution (.invalidField message)

def i64Max : Int := 9223372036854775807

/-- `round`, half away from zero, and `as i64` of a number that is not negative. -/
def roundToI64 (q : Rat) : Int := min ⌊q + 1 / 2⌋ i64Max

/-- `parse_price_major_to_cents`.  A text that parses as no number at all gives no
price, and one that parses as `NaN` the price zero. -/
def parsePriceMajorToCents (P : FormParsers) (raw : String) : Option Int :=
  let s := (Text.trim raw).map fun c => if c = ',' then '.' else c
  if s = "" then none
  else match P.parseF64 s with
    | none => none
    | some (.finite major) =>
      if major < 0 then none else some (roundToI64 (P.round (major * 100)))
    | some .nan => some 0
    | some (.infinite negative) => if negative then none else some i64Max

/-- `cost_from_form`. -/
def costFromForm (P : FormParsers) (form : ContributionForm) : Except FormError Cost :=
  match form.costKind with
  | "free" => .ok .free
  | "paid" =>
    match parsePriceMajorToCents P form.price with
    | some cents =>
      if form.priceCurrency ≠ "" ∧ form.priceUnit ≠ "" then do
        let currency ← (currencyOf form.priceCurrency).mapError .invalid
        let unit ← (pricingUnitOf form.priceUnit).mapError .invalid
        return .paid (some ⟨cents, currency, unit⟩)
      else .ok (.paid none)
    | none => .ok (.paid none)
  | _ => .ok .unknown

/-- `non_empty`. -/
def nonEmpty (raw : String) : Option String :=
  let raw := Text.trim raw
  if raw = "" then none else some raw

/-- `parse_security`. -/
def parseSecurity (states : Vector String 8) : List SecurityFeature :=
  (securityFeatureCodes.zip states.toList).filterMap fun x =>
    match Text.trim x.2 with
    | "yes" => some ⟨x.1, .yes⟩
    | "no" => some ⟨x.1, .no⟩
    | _ => none

/-- `GeoPoint::new`. -/
def geoPointOf (lat lon : ParsedFloat) : Except String GeoPoint :=
  match lat, lon with
  | .finite lat, .finite lon =>
    if h : (-90 ≤ lat ∧ lat ≤ 90) ∧ -180 ≤ lon ∧ lon ≤ 180 then .ok ⟨lat, lon, h.1, h.2⟩
    else .error "coordinates out of range"
  | _, _ => .error "coordinates out of range"

/-- A number of the form, or the message that it is required. -/
def coordinateOf (P : FormParsers) (raw message : String) : Except FormError ParsedFloat :=
  match P.parseF64 (Text.trim raw) with
  | some x => .ok x
  | none => .error (.invalid message)

/-- The zone of the form; an empty field leaves it to the service. -/
def zoneFromForm (P : FormParsers) (raw : String) : Except FormError (Option Tz) :=
  let tz := Text.trim raw
  if tz = "" then .ok none
  else if P.isZone tz then .ok (some tz)
  else .error (.invalid "invalid timezone")

/-- `new_location_from_form`. -/
def newLocationFromForm (P : FormParsers) (form : ContributionForm) :
    Except FormError NewParkingLocation := do
  let parkingType ← (parkingTypeOf form.parkingType).mapError .invalid
  let cost ← costFromForm P form
  let lat ← coordinateOf P form.lat "latitude is required"
  let lon ← coordinateOf P form.lon "longitude is required"
  let point ← (geoPointOf lat lon).mapError .invalid
  let timezone ← zoneFromForm P form.timezone
  let hours ← (parseHours P.chrono form.hours).mapError .hours
  return {
    name := form.name
    address := form.address
    description := nonEmpty form.description
    parkingType
    cost
    point
    timezone
    hours
    security := parseSecurity form.security }

/-- `edit_from_form`. -/
def editFromForm (P : FormParsers) (form : ContributionForm) : Except FormError ParkingEdit := do
  let parkingType ← (parkingTypeOf form.parkingType).mapError .invalid
  let cost ← costFromForm P form
  let hours ← (parseHours P.chrono form.hours).mapError .hours
  return {
    name := form.name
    address := form.address
    description := nonEmpty form.description
    parkingType
    cost
    hours
    security := parseSecurity form.security }

/-! ## What is decoded -/

theorem currencyOf_idem {raw code : String} (h : currencyOf raw = .ok code) :
    currencyOf code = .ok code := by
  unfold currencyOf at h
  dsimp only at h
  split at h
  · next hcode =>
    obtain rfl := Except.ok.inj h
    have htrim : Text.trim ((Text.trim raw).map Char.toUpper) =
        (Text.trim raw).map Char.toUpper :=
      Text.trim_of_forall fun c hc =>
        Text.isWhitespace_of_isAlpha (List.all_eq_true.mp hcode.2 c hc)
    have hupper : ((Text.trim raw).map Char.toUpper).map Char.toUpper =
        (Text.trim raw).map Char.toUpper := by
      rw [← String.toList_inj, String.toList_map, String.toList_map, List.map_map]
      exact List.map_congr_left fun c _ => Text.toUpper_toUpper c
    unfold currencyOf
    dsimp only
    rw [htrim, hupper, if_pos hcode]
  · cases h

/-- What the decoders make of costs and hours: codes of currencies as they are stored,
and ranges of a whole day or with ends of whole seconds. -/
structure IsDecoded (cost : Cost) (hours : OpeningHours) : Prop where
  currency : ∀ p, cost = .paid (some p) → currencyOf p.currency = .ok p.currency
  ranges : ∀ x ∈ hours.rows, x.2 = .wholeDay ∨
    x.2.allDay = false ∧ x.2.opensAt.isWhole ∧ x.2.closesAt.isWhole

section Decoded

variable {P : FormParsers} {form : ContributionForm}

theorem mapError_ok {ε ε' α : Type} {x : Except ε α} {g : ε → ε'} {a : α}
    (h : x.mapError g = .ok a) : x = .ok a := by
  cases x with
  | error e => cases h
  | ok b =>
    obtain rfl := Except.ok.inj h
    rfl

theorem costFromForm_currency {cost : Cost} (h : costFromForm P form = .ok cost) :
    ∀ p, cost = .paid (some p) → currencyOf p.currency = .ok p.currency := by
  rintro p rfl
  unfold costFromForm at h
  split at h
  · cases h
  · split at h
    · split at h
      · obtain ⟨currency, hcurrency, h⟩ := Moderation.bind_eq_ok h
        obtain ⟨unit, _, h⟩ := Moderation.bind_eq_ok h
        cases h
        exact currencyOf_idem (mapError_ok hcurrency)
      · cases h
    · cases h
  · cases h

theorem DayAccepted.ranges {rs : List TimeRange} (h : DayAccepted rs) :
    ∀ r ∈ rs, r = .wholeDay ∨ r.allDay = false ∧ r.opensAt.isWhole ∧ r.closesAt.isWhole := by
  intro r hr
  cases h with
  | none => cases hr
  | allDay => exact .inl (List.mem_singleton.mp hr)
  | one ha hwhole =>
    obtain rfl := List.mem_singleton.mp hr
    exact .inr ⟨ha, hwhole⟩
  | two ha hwhole hb hwhole' =>
    rcases List.mem_pair.mp hr with rfl | rfl
    · exact .inr ⟨ha, hwhole⟩
    · exact .inr ⟨hb, hwhole'⟩

theorem parseHours_ranges {chrono : Chrono} {fields : Vector DayFields 7} {hours : OpeningHours}
    (h : parseHours chrono fields = .ok hours) :
    ∀ x ∈ hours.rows, x.2 = .wholeDay ∨
      x.2.allDay = false ∧ x.2.opensAt.isWhole ∧ x.2.closesAt.isWhole := by
  intro x hx
  cases hours with
  | unknown => cases hx
  | weekly rows =>
    obtain ⟨-, hdays⟩ := parseHours_weekly_iff.mp h
    obtain ⟨i, hi, rs, hrs, _, hmem⟩ := ((parseDays_ok hdays).2 x).mp hx
    exact (parseDay_accepted hrs).ranges x.2 hmem

theorem newLocationFromForm_decoded {new : NewParkingLocation}
    (h : newLocationFromForm P form = .ok new) :
    IsDecoded new.cost new.hours ∧ ∀ tz, new.timezone = some tz → P.isZone tz = true := by
  unfold newLocationFromForm at h
  obtain ⟨parkingType, _, h⟩ := Moderation.bind_eq_ok h
  obtain ⟨cost, hcost, h⟩ := Moderation.bind_eq_ok h
  obtain ⟨lat, _, h⟩ := Moderation.bind_eq_ok h
  obtain ⟨lon, _, h⟩ := Moderation.bind_eq_ok h
  obtain ⟨point, _, h⟩ := Moderation.bind_eq_ok h
  obtain ⟨timezone, htimezone, h⟩ := Moderation.bind_eq_ok h
  obtain ⟨hours, hhours, h⟩ := Moderation.bind_eq_ok h
  obtain rfl := Except.ok.inj h
  refine ⟨⟨costFromForm_currency hcost, parseHours_ranges (mapError_ok hhours)⟩, ?_⟩
  rintro tz rfl
  unfold zoneFromForm at htimezone
  dsimp only at htimezone
  split at htimezone
  · cases htimezone
  · split at htimezone
    · next hzone =>
      cases htimezone
      exact hzone
    · cases htimezone

theorem editFromForm_decoded {edit : ParkingEdit} (h : editFromForm P form = .ok edit) :
    IsDecoded edit.cost edit.hours := by
  unfold editFromForm at h
  obtain ⟨parkingType, _, h⟩ := Moderation.bind_eq_ok h
  obtain ⟨cost, hcost, h⟩ := Moderation.bind_eq_ok h
  obtain ⟨hours, hhours, h⟩ := Moderation.bind_eq_ok h
  obtain rfl := Except.ok.inj h
  exact ⟨costFromForm_currency hcost, parseHours_ranges (mapError_ok hhours)⟩

end Decoded

/-! ## The call that creates a location -/

/-- A location that is already there and may be the same. -/
structure DuplicateCandidate where
  id : Nat
  name : String
  address : String
  distanceM : Rat
  similarity : Rat

/-- What the service calls beside the repository.  A `Tz` that is resolved is one. -/
structure LocationPorts where
  allow : String → Nat → Int → Bool
  resolve : GeoPoint → Except ContributionError Tz
  duplicateCandidates : GeoPoint → String → Statement ContributionError (List DuplicateCandidate)

namespace ContributionService

def parkingCreateUserLimit : Nat := 5

def parkingCreateIpLimit : Nat := 10

/-- The zone of a new location: the one that is given, or that of its point. -/
def zoneOf (ports : LocationPorts) (input : NewParkingLocation) : Except ContributionError Tz :=
  match input.timezone with
  | some tz => .ok tz
  | none => ports.resolve input.point

/-- `add_parking_location`. -/
def addParkingLocation (n : Nat) (user : AuthenticatedUser) (ports : LocationPorts)
    (times : Times) (ip : String) (input : NewParkingLocation) :
    Script ContributionError (Nat × List DuplicateCandidate) := do
  requireVerified user
  allowed ports.allow ("contribution:parking-create:user:" ++ toString user.id)
    parkingCreateUserLimit day
  allowed ports.allow ("contribution:parking-create:ip:" ++ ip) parkingCreateIpLimit day
  validateNameAddress input.name input.address
  let tz ← Service.request .unavailable fun s => (zoneOf ports input).map fun tz => (tz, s)
  let duplicates ← .request .unavailable (ports.duplicateCandidates input.point input.name)
  let id ← create n { input with timezone := some tz } user.id times.now times.clock
  audit n
    { actor := some user.id, action := "parking.created", targetType := "parking_location"
      targetId := toString id, metadata := .obj [("name", .str input.name)] } times.auditedAt
  return (id, duplicates)

end ContributionService

end BikesNest.Community
