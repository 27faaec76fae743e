import BikesNest.Search.Browse

/-!
# One input, two searches

`SearchParking` answers an input in two ways: a browse of the map's box, and a
radius search around a destination.  Both take their filters from the input, but
only the request of a radius search drops the security codes that are not known.
`browse_filters_iff` says that such a code is what makes the two differ.
-/

namespace BikesNest.Search

open Domain Community Store Relational

/-! ## The two use cases -/

/-- `SearchError`, as the two use cases answer it before a page is read. -/
inductive RequestError where
  | missingDestination
  | invalidOrigin
  | invalidBounds
  | boundsNotPaginated
  | geocode
deriving DecidableEq

/-- `GeoHit`. -/
structure GeoHit where
  label : String
  point : GeoPoint

/-- `GeoPoint::new` on two floats. -/
def pointOf : F64 → F64 → Option GeoPoint
  | .finite lat, .finite lon =>
    if hlat : -90 ≤ lat ∧ lat ≤ 90 then
      if hlon : -180 ≤ lon ∧ lon ≤ 180 then some ⟨lat, lon, hlat, hlon⟩ else none
    else none
  | _, _ => none

/-- A text that is not blank, trimmed. -/
def nonBlank (s : Option String) : Option String :=
  (s.map Text.trim).filter fun s => !s.isEmpty

/-- The query that `SearchParking::browse` builds. -/
def SearchParking.browseQuery (M : MapEngine) (input : SearchInput) :
    Except RequestError BoundsQuery :=
  if (nonBlank input.cursor).isSome then .error .boundsNotPaginated
  else
    match BoundsQuery.parse M (input.bbox.getD "") input.filters browseMarkerCap with
    | some q => .ok q
    | none => .error .invalidBounds

/-- `SearchParking::browse`. -/
def SearchParking.browse (R : MapReader) (db : Db) (now : Instant) (input : SearchInput) :
    Except (RequestError ⊕ ReaderError) (BoundsQuery × BoundsPage) :=
  match SearchParking.browseQuery R.engine input with
  | .error e => .error (.inl e)
  | .ok q =>
    match inBoundsAt R db q now with
    | .error e => .error (.inr e)
    | .ok page => .ok (q, page)

/-- The origin that `SearchParking::resolve` finds: coordinates, or else the
geocoded query. -/
def SearchParking.origin (geocode : String → Except Unit (Option GeoHit)) (input : SearchInput) :
    Except RequestError (GeoPoint × Option GeoHit) :=
  match input.lat, input.lon with
  | some lat, some lon =>
    match pointOf lat lon with
    | some point => .ok (point, none)
    | none => .error .invalidOrigin
  | _, _ =>
    match nonBlank input.query with
    | none => .error .missingDestination
    | some query =>
      match geocode query with
      | .error _ => .error .geocode
      | .ok none => .error .missingDestination
      | .ok (some hit) => .ok (hit.point, some hit)

/-- The request that `SearchParking::resolve` builds around an origin. -/
def SearchInput.request (text : CursorText) (input : SearchInput) (point : GeoPoint)
    (hit : Option GeoHit) : SearchRequest :=
  .new text point ((hit.map GeoHit.label).or (nonBlank input.query))
    (input.radiusM.getD defaultRadiusM) input.filters
    ((input.sort.bind SortOrder.fromCode).getD .recommended)
    (input.pageSize.getD 20) input.cursor

/-- `SearchParking::resolve`. -/
def SearchParking.resolve (text : CursorText) (geocode : String → Except Unit (Option GeoHit))
    (input : SearchInput) : Except RequestError (SearchRequest × Option GeoHit) := do
  let (point, hit) ← SearchParking.origin geocode input
  return (input.request text point hit, hit)

/-! ## Filters alike -/

/-- What the filters ask of a location, wherever it is. -/
structure Meets (E : Engine) (f : Filters) (now : Instant) (rec : LocationRecord) : Prop where
  cost : ∀ c ∈ f.cost, rec.row.costKind = c.kind
  types : f.types = [] ∨ ∃ t ∈ f.types, rec.row.parkingType = t.asCode
  openNow : f.openNow = true → isOpenAt E.offset rec.hours rec.row.timezone now = true
  securityAll : ∀ code ∈ f.securityAll, hasFeature rec code = true

/-- The binds of a filter text say what the filters ask. -/
theorem meets_iff (E : Engine) (f : Filters) (now : Instant) (rec : LocationRecord) :
    ((filterBinds f).1.all (fun c => rec.row.costKind == c) &&
      (filterBinds f).2.1.all (fun ts => ts.contains rec.row.parkingType) &&
      (!f.openNow || isOpenAt E.offset rec.hours rec.row.timezone now) &&
      ((filterBinds f).2.2.getD []).all fun code => hasFeature rec code) = true ↔
    Meets E f now rec := by
  have hcost : (filterBinds f).1.all (fun c => rec.row.costKind == c) = true ↔
      ∀ c ∈ f.cost, rec.row.costKind = c.kind := by
    cases hc : f.cost <;> simp [filterBinds, hc]
  have htypes : (filterBinds f).2.1.all (fun ts => ts.contains rec.row.parkingType) = true ↔
      (f.types = [] ∨ ∃ t ∈ f.types, rec.row.parkingType = t.asCode) := by
    cases ht : f.types with
    | nil => simp [filterBinds, ht]
    | cons t ts =>
      have hcode : ∀ a : ParkingType,
          a.asCode = rec.row.parkingType ↔ rec.row.parkingType = a.asCode := fun _ => eq_comm
      simp [filterBinds, ht, hcode]
  have hsecurity : ((filterBinds f).2.2.getD []).all (fun code => hasFeature rec code) = true ↔
      ∀ code ∈ f.securityAll, hasFeature rec code = true := by
    cases hs : f.securityAll <;> simp [filterBinds, hs]
  have hopen : (!f.openNow || isOpenAt E.offset rec.hours rec.row.timezone now) = true ↔
      (f.openNow = true → isOpenAt E.offset rec.hours rec.row.timezone now = true) := by
    cases f.openNow <;> simp
  rw [Bool.and_eq_true, Bool.and_eq_true, Bool.and_eq_true, hcost, htypes, hopen, hsecurity]
  constructor
  · rintro ⟨⟨⟨h₁, h₂⟩, h₃⟩, h₄⟩
    exact ⟨h₁, h₂, h₃, h₄⟩
  · rintro ⟨h₁, h₂, h₃, h₄⟩
    exact ⟨⟨⟨h₁, h₂⟩, h₃⟩, h₄⟩

theorem isMatch_iff (E : Engine) (req : SearchRequest) (now : Instant) (rec : LocationRecord) :
    isMatch E req now rec = true ↔ rec.row.moderationState = .active ∧
      E.within rec.row.point req.origin req.radiusM = true ∧ Meets E req.filters now rec := by
  rw [← meets_iff]
  simp only [isMatch, Bool.and_eq_true, beq_iff_eq]
  tauto

theorem isInBounds_iff (M : MapEngine) (q : BoundsQuery) (now : Instant) (rec : LocationRecord) :
    isInBounds M q now rec = true ↔ rec.row.moderationState = .active ∧
      M.overlaps q.west q.south q.east q.north rec.row.point = true ∧
        Meets M.toEngine q.filters now rec := by
  rw [← meets_iff]
  simp only [isInBounds, Bool.and_eq_true, beq_iff_eq]
  tauto

/-- Dropping repeated neighbours drops no element. -/
theorem mem_destutter_ne {α : Type} [DecidableEq α] {a : α} {l : List α} :
    a ∈ l.destutter (· ≠ ·) ↔ a ∈ l := by
  have hcons : ∀ (l : List α) (b : α), a ∈ l.destutter' (· ≠ ·) b ↔ a ∈ b :: l := by
    intro l
    induction l with
    | nil => simp
    | cons c l ih =>
      intro b
      by_cases h : b ≠ c
      · rw [List.destutter'_cons_pos _ h, List.mem_cons, ih, List.mem_cons (a := a) (b := b)]
      · rw [List.destutter'_cons_neg _ h, ih]
        rw [ne_eq, Decidable.not_not] at h
        simp [h]
  cases l with
  | nil => simp
  | cons b l => rw [List.destutter_cons', hcons]

theorem trim_of_mem_securityAll {input : SearchInput} {code : String}
    (h : code ∈ input.filters.securityAll) : Text.trim code = code := by
  obtain ⟨raw, -, rfl⟩ := List.mem_map.mp (List.mem_filter.mp h).1
  exact Text.trim_trim raw

/-- The filters of a radius search ask for the known codes only. -/
theorem meets_request_iff (text : CursorText) (E : Engine) (input : SearchInput)
    (point : GeoPoint) (hit : Option GeoHit) (now : Instant) (rec : LocationRecord) :
    Meets E (input.request text point hit).filters now rec ↔
      Meets E { input.filters with
        securityAll := input.filters.securityAll.filter isKnownSecurityCode } now rec := by
  have htypes : ∀ t, t ∈ (input.request text point hit).filters.types ↔
      t ∈ input.filters.types := by
    intro t
    show t ∈ List.destutter _ (List.insertionSort _ _) ↔ _
    rw [mem_destutter_ne, List.mem_insertionSort]
  have hempty : (input.request text point hit).filters.types = [] ↔
      input.filters.types = [] := by
    simp only [List.eq_nil_iff_forall_not_mem, htypes]
  have hcodes : ∀ code, code ∈ (input.request text point hit).filters.securityAll ↔
      code ∈ input.filters.securityAll.filter isKnownSecurityCode := by
    intro code
    show code ∈ List.destutter _ (List.insertionSort _ _) ↔ _
    rw [mem_destutter_ne, List.mem_insertionSort, List.mem_filter, List.mem_filter, List.mem_map]
    refine and_congr_left fun _ => ?_
    constructor
    · rintro ⟨raw, hraw, rfl⟩
      rwa [trim_of_mem_securityAll hraw]
    · exact fun hcode => ⟨code, hcode, trim_of_mem_securityAll hcode⟩
  constructor
  · intro h
    exact ⟨h.cost, by simpa only [htypes, hempty] using h.types, h.openNow,
      fun code hcode => h.securityAll code ((hcodes code).mpr hcode)⟩
  · intro h
    exact ⟨h.cost, by simpa only [htypes, hempty] using h.types, h.openNow,
      fun code hcode => h.securityAll code ((hcodes code).mp hcode)⟩

theorem browseQuery_filters {M : MapEngine} {input : SearchInput} {q : BoundsQuery}
    (h : SearchParking.browseQuery M input = .ok q) : q.filters = input.filters := by
  unfold SearchParking.browseQuery at h
  split at h
  · cases h
  · split at h
    · rename_i hparse
      cases h
      unfold BoundsQuery.parse at hparse
      split at hparse
      · split_ifs at hparse
        cases hparse
        rfl
      · cases hparse
    · cases h

theorem resolve_request {text : CursorText} {geocode : String → Except Unit (Option GeoHit)}
    {input : SearchInput} {req : SearchRequest} {hit : Option GeoHit}
    (h : SearchParking.resolve text geocode input = .ok (req, hit)) :
    ∃ origin, req = input.request text origin hit := by
  unfold SearchParking.resolve at h
  cases horigin : SearchParking.origin geocode input with
  | error e => rw [horigin] at h; cases h
  | ok found =>
    rw [horigin] at h
    cases h
    exact ⟨found.1, rfl⟩

/-- A location that meets filters at an instant, with every known feature and no
other. -/
def fitting (E : Engine) (f : Filters) (point : GeoPoint) : LocationRecord where
  row :=
    { name := ""
      address := ""
      description := none
      parkingType := (f.types.head?.getD .rack).asCode
      costKind := (f.cost.getD .free).kind
      priceCents := none
      priceCurrency := none
      priceUnit := none
      point := point
      timezone := "UTC"
      hoursUnknown := false
      moderationState := .active
      createdAt := 0 }
  hours := [{
    dayOfWeek := isoDay (localMicros E.offset "UTC" 0 / day)
    opensAt := 0
    closesAt := 0
    allDay := true }]
  security := securityFeatureCodes.map fun code => ⟨code, 1⟩

theorem hasFeature_fitting (E : Engine) (f : Filters) (point : GeoPoint) (code : String) :
    hasFeature (fitting E f point) code = isKnownSecurityCode code := by
  rw [Bool.eq_iff_iff]
  simp [hasFeature, fitting, isKnownSecurityCode]

theorem fitting_meets (E : Engine) (f : Filters) (point : GeoPoint)
    (h : ∀ code ∈ f.securityAll, isKnownSecurityCode code = true) :
    Meets E f 0 (fitting E f point) where
  cost c hc := by
    show (f.cost.getD .free).kind = c.kind
    rw [Option.mem_def.mp hc]
    rfl
  types := by
    cases htypes : f.types with
    | nil => exact .inl rfl
    | cons t ts =>
      refine .inr ⟨t, List.mem_cons_self, ?_⟩
      show (f.types.head?.getD .rack).asCode = t.asCode
      rw [htypes]
      rfl
  openNow _ := by
    show ([_] : List HourRow).any _ = true
    simp [rowIsOpen, fitting]
  securityAll code hcode := by
    rw [hasFeature_fitting]
    exact h code hcode

/-- At a point in the box and in the circle, every location matches both queries
made from one input or none, at every instant, exactly when the input asks for no
security code that is not known. -/
theorem browse_filters_iff (M : MapEngine) (text : CursorText)
    (geocode : String → Except Unit (Option GeoHit)) (input : SearchInput) (q : BoundsQuery)
    (req : SearchRequest) (hit : Option GeoHit) (point : GeoPoint)
    (hq : SearchParking.browseQuery M input = .ok q)
    (hreq : SearchParking.resolve text geocode input = .ok (req, hit))
    (hbox : M.overlaps q.west q.south q.east q.north point = true)
    (hcircle : M.within point req.origin req.radiusM = true) :
    (∀ (rec : LocationRecord) (now : Instant), rec.row.point = point →
      (isInBounds M q now rec = true ↔ isMatch M.toEngine req now rec = true)) ↔
    ∀ code ∈ input.filters.securityAll, isKnownSecurityCode code = true := by
  have hfilters := browseQuery_filters hq
  obtain ⟨origin, rfl⟩ := resolve_request hreq
  have hsides : ∀ (rec : LocationRecord) (now : Instant), rec.row.point = point →
      ((isInBounds M q now rec = true ↔
          isMatch M.toEngine (input.request text origin hit) now rec = true) ↔
        (rec.row.moderationState = .active →
          (Meets M.toEngine input.filters now rec ↔ Meets M.toEngine { input.filters with
            securityAll := input.filters.securityAll.filter isKnownSecurityCode } now rec))) := by
    intro rec now hpoint
    rw [isInBounds_iff, isMatch_iff, hpoint, hbox, hcircle, hfilters, meets_request_iff]
    tauto
  constructor
  · intro h code hcode
    let known : Filters := { input.filters with
      securityAll := input.filters.securityAll.filter isKnownSecurityCode }
    have hmeets : Meets M.toEngine known 0 (fitting M.toEngine known point) :=
      fitting_meets M.toEngine known point fun code hcode => (List.mem_filter.mp hcode).2
    have hall := ((hsides _ 0 rfl).mp (h _ 0 rfl) rfl).mpr hmeets
    rw [← hasFeature_fitting M.toEngine known point]
    exact hall.securityAll code hcode
  · intro h rec now hpoint
    rw [hsides rec now hpoint, List.filter_eq_self.mpr h]
    exact fun _ => Iff.rfl

/-! ## A link with an unknown code -/

/-- The numbers of one box. -/
def oneSpotMap : MapEngine :=
  { oneSpot.engine with
    parseF64 := fun s =>
      if s = "-0.5" then some (.finite (-1 / 2))
      else if s = "0.5" then some (.finite (1 / 2))
      else none
    overlaps := fun west south east north p =>
      west ≤ p.lon && p.lon ≤ east && south ≤ p.lat && p.lat ≤ north
    snapToGrid := fun _ p => (p.lat, p.lon)
    avg := fun l => l.sum / l.length
    round_int := fun _ _ => rfl }

/-- The map around the rack, with these security codes. -/
def mapLink (security : String) : SearchInput where
  lat := some (.finite 0)
  lon := some (.finite 0)
  security := some security
  bbox := some "-0.5,-0.5,0.5,0.5"

/-- A rack with a camera. -/
def cameraRack : LocationRecord where
  row := rackRow
  security := [⟨"cctv", 1⟩]

/-- The query of a link is built, and the rack is in its box. -/
theorem mapLink_browses (security : String)
    (h : ((SearchParking.browseQuery oneSpotMap (mapLink security)).toOption.map fun q =>
      oneSpotMap.overlaps q.west q.south q.east q.north rackRow.point) = some true) :
    ∃ q, SearchParking.browseQuery oneSpotMap (mapLink security) = .ok q ∧
      oneSpotMap.overlaps q.west q.south q.east q.north rackRow.point = true := by
  cases hq : SearchParking.browseQuery oneSpotMap (mapLink security) with
  | error e => rw [hq] at h; cases h
  | ok q =>
    rw [hq] at h
    exact ⟨q, rfl, Option.some.inj h⟩

/-- With a known code the two queries agree about every location at the rack. -/
theorem browse_filters_cctv :
    ∃ q req, SearchParking.browseQuery oneSpotMap (mapLink "cctv") = .ok q ∧
      SearchParking.resolve twoCursors (fun _ => .ok none) (mapLink "cctv") = .ok (req, none) ∧
      ∀ (rec : LocationRecord) (now : Instant), rec.row.point = rackRow.point →
        (isInBounds oneSpotMap q now rec = true ↔
          isMatch oneSpotMap.toEngine req now rec = true) := by
  obtain ⟨q, hq, hbox⟩ := mapLink_browses "cctv" (by decide +kernel)
  exact ⟨q, _, hq, rfl, (browse_filters_iff oneSpotMap twoCursors (fun _ => .ok none)
    (mapLink "cctv") q _ none rackRow.point hq rfl hbox (by decide +kernel)).mpr
      (by decide +kernel)⟩

/-- With an unknown one the radius search still finds the rack, the map does
not. -/
theorem browse_filters_unknown :
    ((SearchParking.browseQuery oneSpotMap (mapLink "cctv,bike_wash")).toOption.map fun q =>
      (oneSpotMap.overlaps q.west q.south q.east q.north cameraRack.row.point,
        isInBounds oneSpotMap q 0 cameraRack)) = some (true, false) ∧
    ((SearchParking.resolve twoCursors (fun _ => .ok none)
        (mapLink "cctv,bike_wash")).toOption.map fun r =>
      (oneSpotMap.within cameraRack.row.point r.1.origin r.1.radiusM,
        isMatch oneSpotMap.toEngine r.1 0 cameraRack)) = some (true, true) := by
  decide +kernel

end BikesNest.Search
