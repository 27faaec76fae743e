import BikesNest.Community.LocationForm
import BikesNest.History.EditForm
import BikesNest.History.Revisions
import BikesNest.Search.Details
import BikesNest.Search.Pagination

/-!
# Stored locations

What a form says of a location is written by `create` or `applyEdit` and read by
`details` and by the search reader.  `ReadsBack` says that both read what was
written.

The hours are what matters: `sameHours_iff` says that they come back exactly when
no time of them is a leap second, since a `TIME` has none.  `Saved` says which rows a
commit leaves, and `Decodable` what every commit keeps of the database, so that all
the rest comes back.  `location_reads_back_iff` is about all runs.
-/

namespace BikesNest.Community

open Domain Store Search History Transactions Runs

/-! ## Hours -/

/-- The same opening hours, in any order. -/
def SameHours : OpeningHours → OpeningHours → Prop
  | .unknown, .unknown => True
  | .weekly rows, .weekly rows' => rows.Perm rows'
  | _, _ => False

/-- What is read from a `TIME` is no leap second. -/
theorem isOrdinary_ofMicros (us : Nat) : (TimeOfDay.ofMicros us).isOrdinary = true := by
  show decide (us % 1000000 * 1000 < 1000000000) = true
  rw [decide_eq_true_iff]
  omega

theorem ofMicros_micros {t : TimeOfDay} (hwhole : t.isWhole) (hordinary : t.isOrdinary = true) :
    TimeOfDay.ofMicros t.micros = t := by
  rw [TimeOfDay.ofMicros_micros_iff]
  simp only [TimeOfDay.isWhole, TimeOfDay.isOrdinary, TimeOfDay.isStorable, decide_eq_true_eq,
    Bool.and_eq_true, beq_iff_eq] at *
  omega

/-- A range of a form comes back when its ends are no leap seconds. -/
theorem openingRow_hourRow {x : Nat × TimeRange}
    (hrange : x.2 = .wholeDay ∨
      x.2.allDay = false ∧ x.2.opensAt.isWhole ∧ x.2.closesAt.isWhole)
    (hordinary : x.2.opensAt.isOrdinary = true ∧ x.2.closesAt.isOrdinary = true) :
    openingRow (hourRow x) = x := by
  obtain ⟨day, range⟩ := x
  rcases hrange with rfl | ⟨hall, hopens, hcloses⟩
  · show (day, TimeRange.mk (.ofMicros TimeOfDay.midnight.micros)
      (.ofMicros TimeOfDay.lastSecond.micros) true) = _
    rw [ofMicros_micros (.inl rfl) rfl, ofMicros_micros (.inl rfl) rfl, TimeRange.wholeDay]
  · obtain ⟨opensAt, closesAt, allDay⟩ := range
    obtain rfl : allDay = false := hall
    show (day, TimeRange.mk (.ofMicros opensAt.micros) (.ofMicros closesAt.micros) false) = _
    rw [ofMicros_micros hopens hordinary.1, ofMicros_micros hcloses hordinary.2]

/-- The hours of a form come back exactly when no time of them is a leap second. -/
theorem sameHours_iff {hours : OpeningHours}
    (hranges : ∀ x ∈ hours.rows, x.2 = .wholeDay ∨
      x.2.allDay = false ∧ x.2.opensAt.isWhole ∧ x.2.closesAt.isWhole) :
    SameHours (openingOf hours.isUnknown (hoursInOrder (hours.rows.map hourRow))) hours ↔
      IsOrdinary hours := by
  cases hours with
  | unknown => exact iff_of_true trivial fun x hx => by cases hx
  | weekly rows =>
    have hread : ((hoursInOrder (rows.map hourRow)).map openingRow).Perm
        (rows.map fun x => openingRow (hourRow x)) := by
      have hperm := (List.perm_insertionSort _ (rows.map hourRow) :
        (hoursInOrder (rows.map hourRow)).Perm _).map openingRow
      rwa [List.map_map] at hperm
    show List.Perm _ rows ↔ _
    constructor
    · intro hsame x hx
      obtain ⟨y, _, hy⟩ := List.mem_map.mp (hread.mem_iff.mp (hsame.mem_iff.mpr hx))
      rw [← hy]
      exact ⟨isOrdinary_ofMicros _, isOrdinary_ofMicros _⟩
    · intro hordinary
      refine hread.trans (List.Perm.of_eq ?_)
      calc rows.map (fun x => openingRow (hourRow x))
          = rows.map id := List.map_congr_left fun x hx =>
            openingRow_hourRow (hranges x hx) (hordinary x hx)
        _ = rows := List.map_id rows

/-! ## Security -/

/-- The state of a feature among those that are submitted or read; a missing one is
unknown. -/
def stateIn (security : List SecurityFeature) (code : String) : SecurityState :=
  ((security.find? fun f => f.code == code).map SecurityFeature.state).getD .unknown

theorem requested_eq {security : List SecurityFeature} {code : String}
    (h : code ∈ securityFeatureCodes) : requested security code = stateIn security code :=
  if_pos h

/-- What the rows say does not depend on their order. -/
theorem says_securityInOrder {rows : List SecurityRow} {code : String} {state : Nat} :
    Says (securityInOrder rows) code state ↔ Says rows code state := by
  have hmem : ∀ x, x ∈ securityInOrder rows ↔ x ∈ rows := fun _ =>
    (List.perm_insertionSort _ rows).mem_iff
  simp only [Says, hmem]

theorem securityStateOf_smallint (state : SecurityState) :
    securityStateOf state.smallint = .ok state := by
  cases state <;> rfl

/-- The rows of some states are read as features with these states. -/
theorem mapM_securityFeatureOf {rows : List SecurityRow} {f : String → SecurityState}
    (h : ∀ s ∈ rows, s.state = (f s.featureCode).smallint) :
    rows.mapM securityFeatureOf = .ok (rows.map fun s => ⟨s.featureCode, f s.featureCode⟩) := by
  induction rows with
  | nil => rfl
  | cons s rows ih =>
    rw [List.forall_mem_cons] at h
    have hs : securityFeatureOf s = .ok ⟨s.featureCode, f s.featureCode⟩ := by
      rw [securityFeatureOf, h.1, securityStateOf_smallint]
      rfl
    rw [List.mapM_cons, hs, ih h.2]
    rfl

/-- The state of a feature among those that are read is the one that the rows say. -/
theorem stateIn_map {rows : List SecurityRow} {f : String → SecurityState} {code : String}
    (h : ∀ state, Says rows code state ↔ state = (f code).smallint) :
    stateIn (rows.map fun s => ⟨s.featureCode, f s.featureCode⟩) code = f code := by
  unfold stateIn
  cases hfind : (rows.map fun s => SecurityFeature.mk s.featureCode (f s.featureCode)).find?
      fun x => x.code == code with
  | none =>
    have hmissing : ∀ s ∈ rows, s.featureCode ≠ code := by
      simpa using hfind
    have hzero : 0 = (f code).smallint := (h 0).mp (.inr ⟨rfl, hmissing⟩)
    exact SecurityState.smallint_injective hzero
  | some x =>
    obtain ⟨s, _, rfl⟩ := List.mem_map.mp (List.mem_of_find?_eq_some hfind)
    have hcode : s.featureCode = code := by simpa using List.find?_some hfind
    show f s.featureCode = f code
    rw [hcode]

/-! ## Requests -/

/-- `validate_name_address` passes. -/
def IsNamed (name address : String) : Prop := Text.trim name ≠ "" ∧ Text.trim address ≠ ""

/-- The request of the operation is one that a form gives and the service accepts. -/
def Accepted (P : FormParsers) : Op → Prop
  | .create new _ _ _ => ∃ form input tz, newLocationFromForm P form = .ok input ∧
    IsNamed input.name input.address ∧ P.isZone tz = true ∧
    (input.timezone = none ∨ input.timezone = some tz) ∧
    new = { input with timezone := some tz }
  | .applyEdit _ _ edit _ _ _ => (∃ form, editFromForm P form = .ok edit) ∧
    IsNamed edit.name edit.address
  | .approveProposal _ _ applied _ => ∀ point tz, applied = .moveLocation point tz →
    P.isZone tz = true
  | _ => True

/-- An edit of a location is a new one at its place. -/
def ParkingEdit.at (edit : ParkingEdit) (point : GeoPoint) (tz : Tz) : NewParkingLocation where
  name := edit.name
  address := edit.address
  description := edit.description
  parkingType := edit.parkingType
  cost := edit.cost
  point
  timezone := some tz
  hours := edit.hours
  security := edit.security

/-- The location that an operation with the number `n` writes on the rows `c`, and what
it writes of it. -/
def savedBy (n : Nat) (c : Rows Cell) : Op → Option (Nat × NewParkingLocation)
  | .create new _ _ _ => some (n, new)
  | .applyEdit id _ edit _ _ _ =>
    (c (.location id)).map fun r => (id, edit.at r.point r.timezone)
  | _ => none

/-! ## Reading a location -/

/-- `SqlxParkingDetailsReader::details`, on rows that nobody changes. -/
def readDetails (E : Engine) (c : Rows Cell) (id : Nat) :
    Except ReaderError (Option LocationAggregate) :=
  match ((details id).run (.idle c 0)).1 with
  | .error _ => .error .unavailable
  | .ok none => .ok none
  | .ok (some d) => ((toDomain E id d).map some).mapError .unexpected

/-- The location as the statements of the search read it. -/
def recordOf (c : Rows Cell) (id : Nat) (row : ParkingLocation) : LocationRecord where
  row
  hours := c (.hours id)
  security := c (.security id)

/-- The aggregate says what was written. -/
structure AggregateOf (a : LocationAggregate) (new : NewParkingLocation) : Prop where
  name : a.name = Text.trim new.name
  address : a.address = Text.trim new.address
  description : a.description = new.description
  parkingType : a.parkingType = new.parkingType
  cost : a.cost = new.cost
  point : a.point = new.point
  timezone : some a.timezone = new.timezone
  hours : SameHours a.hours new.hours
  security : ∀ code ∈ securityFeatureCodes, stateIn a.security code = stateIn new.security code

/-- The row of search results says what was written. -/
structure SummaryOf (s : ParkingSummary) (new : NewParkingLocation) : Prop where
  parkingType : s.parkingType = new.parkingType
  cost : s.cost = new.cost
  point : s.point = new.point
  timezone : some s.timezone = new.timezone
  security : ∀ code, code ∈ s.securityYes ↔
    code ∈ securityFeatureCodes ∧ stateIn new.security code = .yes

/-- Both readers read the location as it was written. -/
structure ReadsBack (R : SearchReader) (c : Rows Cell) (id : Nat) (new : NewParkingLocation) :
    Prop where
  details : ∃ a, readDetails R.engine c id = .ok (some a) ∧ AggregateOf a new
  summary : ∃ row, c (.location id) = some row ∧ ∀ db req now,
    ∃ s, summaryOf R db req now (id, recordOf c id row) = .ok s ∧ SummaryOf s new

/-! ## One location -/

/-- The columns of the row are those that were written for `new`. -/
structure RowOf (row : ParkingLocation) (new : NewParkingLocation) : Prop where
  name : row.name = Text.trim new.name
  address : row.address = Text.trim new.address
  description : row.description = new.description
  parkingType : row.parkingType = new.parkingType.asCode
  cost : (row.costKind, row.priceCents, row.priceCurrency, row.priceUnit) = costParts new.cost
  point : row.point = new.point
  timezone : some row.timezone = new.timezone
  hoursUnknown : row.hoursUnknown = new.hours.isUnknown

theorem rowOf_toRow {new : NewParkingLocation} {tz : Tz} (h : new.timezone = some tz)
    (creator : UserId) (now : Instant) : RowOf (new.toRow tz creator now) new :=
  ⟨rfl, rfl, rfl, rfl, rfl, rfl, h.symm, rfl⟩

theorem rowOf_apply (edit : ParkingEdit) (now : Instant) (r : ParkingLocation) :
    RowOf (edit.apply now r) (edit.at r.point r.timezone) :=
  ⟨rfl, rfl, rfl, rfl, rfl, rfl, rfl, rfl⟩

/-- The rows of the location `id` are those that were written for `new`. -/
structure Saved (E : Engine) (c : Rows Cell) (id : Nat) (new : NewParkingLocation)
    (row : ParkingLocation) : Prop extends RowOf row new where
  location : c (.location id) = some row
  stored : WellStored E row
  decoded : IsDecoded new.cost new.hours
  named : IsNamed new.name new.address
  hours : c (.hours id) = new.hours.rows.map hourRow
  security : ∀ code state, Says (c (.security id)) code state ↔
    state = (requested new.security code).smallint

theorem readDetails_some {E : Engine} {c : Rows Cell} {id : Nat} {row : ParkingLocation}
    (h : c (.location id) = some row) :
    readDetails E c id = ((toDomain E id ⟨row, hoursInOrder (c (.hours id)),
      securityInOrder (c (.security id))⟩).map some).mapError .unexpected := by
  have hrun : ((details id).run (.idle c 0)).1 = .ok (some ⟨row, hoursInOrder (c (.hours id)),
      securityInOrder (c (.security id))⟩) := by
    simp [details, select, h]
  rw [readDetails, hrun]

section Saved

variable {R : SearchReader} {E : Engine} {c : Rows Cell} {id : Nat} {new : NewParkingLocation}
  {row : ParkingLocation}

theorem Saved.features (h : Saved E c id new row) :
    (securityInOrder (c (.security id))).mapM securityFeatureOf =
      .ok ((securityInOrder (c (.security id))).map fun s =>
        ⟨s.featureCode, requested new.security s.featureCode⟩) :=
  mapM_securityFeatureOf fun _ hs =>
    (h.security _ _).mp (says_securityInOrder.mp (.inl hs))

/-- The details reader accepts the rows, and all but the hours are as they were
written. -/
theorem Saved.read (h : Saved E c id new row) : ∃ a, readDetails E c id = .ok (some a) ∧
    a.hours = openingOf row.hoursUnknown (hoursInOrder (c (.hours id))) ∧
    (SameHours a.hours new.hours → AggregateOf a new) := by
  obtain ⟨rating, hrating⟩ := h.stored.ratingNew_ok
  have htype : parkingTypeOf row.parkingType = .ok new.parkingType := by
    rw [h.parkingType, parkingTypeOf_asCode]
  have hname : Text.trim row.name = Text.trim new.name := by rw [h.name, Text.trim_trim]
  have haddress : Text.trim row.address = Text.trim new.address := by
    rw [h.address, Text.trim_trim]
  rw [readDetails_some h.location]
  unfold toDomain
  dsimp only
  rw [if_pos h.stored.zone, costOf_costParts h.cost h.decoded.currency, h.features, htype, hrating]
  simp only [bind, Except.bind]
  unfold LocationAggregate.new
  dsimp only
  rw [hname, haddress, if_neg h.named.1, if_neg h.named.2]
  refine ⟨_, rfl, rfl, fun hsame => ?_⟩
  exact
    { name := rfl
      address := rfl
      description := h.description
      parkingType := rfl
      cost := rfl
      point := h.point
      timezone := h.timezone
      hours := hsame
      security := fun code hcode =>
        (stateIn_map fun state => says_securityInOrder.trans (h.security code state)).trans
          (requested_eq hcode) }

/-- A code is listed as confirmed when its state was submitted as such. -/
theorem Saved.confirmed (h : Saved E c id new row) (code : String) :
    (∃ ps ∈ c (.security id), ps.state = 1 ∧ ps.featureCode = code) ↔
      code ∈ securityFeatureCodes ∧ stateIn new.security code = .yes := by
  have hsaid : (∃ ps ∈ c (.security id), ps.state = 1 ∧ ps.featureCode = code) ↔
      Says (c (.security id)) code 1 := by
    constructor
    · rintro ⟨ps, hps, hstate, rfl⟩
      rw [← hstate]
      exact .inl hps
    · rintro (hmem | ⟨hzero, _⟩)
      · exact ⟨_, hmem, rfl, rfl⟩
      · omega
  rw [hsaid, h.security]
  by_cases hcode : code ∈ securityFeatureCodes
  · rw [requested_eq hcode, and_iff_right hcode]
    exact ⟨fun h => SecurityState.smallint_injective h.symm, fun h => by rw [h]; rfl⟩
  · rw [requested, if_neg hcode]
    exact iff_of_false (by decide) fun h => hcode h.1

/-- The search reader accepts the row. -/
theorem Saved.summary (h : Saved R.engine c id new row) (db : Db) (req : SearchRequest)
    (now : Instant) : ∃ s, summaryOf R db req now (id, recordOf c id row) = .ok s ∧
      SummaryOf s new := by
  obtain ⟨rating, hrating⟩ := h.stored.ratingNew_ok
  have htype : parkingTypeOf row.parkingType = .ok new.parkingType := by
    rw [h.parkingType, parkingTypeOf_asCode]
  unfold summaryOf
  dsimp only [recordOf]
  rw [if_pos h.stored.zone, costOf_costParts h.cost h.decoded.currency, htype, hrating]
  refine ⟨_, rfl, rfl, rfl, h.point, h.timezone, fun code => ?_⟩
  rw [← h.confirmed code]
  show code ∈ List.insertionSort _ _ ↔ _
  rw [(List.perm_insertionSort _ _).mem_iff, List.mem_map]
  simp only [List.mem_filter, beq_iff_eq, and_assoc]

/-- The readers read a location as it was written exactly when its hours have no leap
second. -/
theorem Saved.readsBack_iff (h : Saved R.engine c id new row) :
    ReadsBack R c id new ↔ IsOrdinary new.hours := by
  obtain ⟨a, hread, hhours, hof⟩ := h.read
  have hsame : SameHours a.hours new.hours ↔ IsOrdinary new.hours := by
    rw [hhours, h.hoursUnknown, h.hours]
    exact sameHours_iff h.decoded.ranges
  constructor
  · intro hback
    obtain ⟨a', hread', haggregate⟩ := hback.details
    rw [hread] at hread'
    obtain rfl := Option.some.inj (Except.ok.inj hread')
    exact hsame.mp haggregate.hours
  · intro hordinary
    exact ⟨⟨a, hread, hof (hsame.mpr hordinary)⟩, row, h.location, h.summary⟩

end Saved

/-! ## Commits -/

/-- What the readers need of the rows that are there. -/
structure Decodable (E : Engine) (c : Rows Cell) : Prop where
  stored : ∀ l r, c (.location l) = some r → WellStored E r
  known : ∀ l, ∀ x ∈ c (.security l), x.featureCode ∈ securityFeatureCodes

section Commits

variable {P : FormParsers} {E : Engine} {c c' since : Rows Cell} {op : Op} {n id : Nat}
  {new : NewParkingLocation}

theorem Accepted.decoded {creator : UserId} {now clock : Instant}
    (h : Accepted P (.create new creator now clock)) :
    IsDecoded new.cost new.hours ∧ IsNamed new.name new.address ∧
      ∀ tz, new.timezone = some tz → P.isZone tz = true := by
  obtain ⟨form, input, tz, hform, hnamed, hzone, _, rfl⟩ := h
  refine ⟨(newLocationFromForm_decoded hform).1, hnamed, fun tz' htz => ?_⟩
  rwa [← Option.some.inj htz]

theorem Decodable.of_same (h : Decodable E c) (hsame : ∀ k, isTracked k = true → c' k = c k) :
    Decodable E c' := by
  constructor
  · intro l r hr
    rw [hsame _ rfl] at hr
    exact h.stored l r hr
  · intro l
    rw [hsame (.security l) rfl]
    exact h.known l

theorem Decodable.revise {row : ParkingLocation} {hours : List HourRow}
    {security : List SecurityRow} {rev : ParkingRevision} (h : Decodable E c)
    (hrows : ∀ k, isTracked k = true → c' k = Community.revise c id row hours security rev k)
    (hstored : WellStored E row) (hknown : ∀ x ∈ security, x.featureCode ∈ securityFeatureCodes) :
    Decodable E c' := by
  constructor
  · intro l r hr
    rw [hrows _ rfl] at hr
    by_cases hl : l = id
    · subst hl
      obtain rfl : row = r := by simpa [Community.revise] using hr
      exact hstored
    · exact h.stored l r (by simpa [Community.revise, hl] using hr)
  · intro l
    rw [hrows (.security l) rfl]
    by_cases hl : l = id
    · subst hl
      simpa [Community.revise] using hknown
    · simpa [Community.revise, hl] using h.known l

theorem Decodable.moderated {change : ParkingLocation → ParkingLocation} {moderator : UserId}
    {summary : String} {clock : Instant} {r : ParkingLocation} (h : Decodable E c)
    (hstep : Moderation.Moderated id change moderator summary clock r c c')
    (hstored : WellStored E (change r)) : Decodable E c' :=
  h.revise (fun _ hk => rows_of_moderated hstep hk) hstored (h.known id)

/-- Every commit of an accepted request leaves rows that the readers accept. -/
theorem Decodable.effect (h : Decodable E c) (hzone : P.isZone = E.isZone)
    (haccepted : Accepted P op) (heffect : Effect op n since c c') : Decodable E c' := by
  cases op with
  | create new creator now clock =>
    obtain ⟨hdecoded, _, htz⟩ := haccepted.decoded
    obtain ⟨tz, hours, hsome, _, _, _, rfl⟩ := heffect
    exact h.revise (fun _ _ => rfl) (.toRow new (hzone ▸ htz tz hsome) hdecoded.currency _ _)
      (known_upsertSecurityRows _ (h.known n))
  | applyEdit id v edit editor now clock =>
    obtain ⟨⟨form, hform⟩, _⟩ := haccepted
    obtain ⟨r, hours, hr, _, _, _, _, rfl⟩ := heffect
    exact h.revise (fun _ _ => rfl)
      ((h.stored id r hr).applyEdit edit (editFromForm_decoded hform).currency now)
      (known_upsertSecurityRows _ (h.known id))
  | setParkingState id source target moderator clock =>
    obtain ⟨r, _, _, hstep⟩ := heffect
    exact h.moderated hstep ((h.stored id r hstep.row).withState target)
  | approveProposal id moderator applied clock =>
    obtain ⟨p, r, hstep⟩ := heffect
    exact h.moderated hstep.moderated ((h.stored _ r hstep.moderated.row).applyProposal applied
      fun point tz heq => hzone ▸ haccepted point tz heq)
  | createProposal p clock =>
    obtain ⟨_, rfl⟩ := heffect
    exact h.of_same fun k hk => Function.update_of_ne (by rintro rfl; cases hk) ..
  | rejectProposal id moderator clock =>
    obtain ⟨p, _, _, rfl⟩ := heffect
    exact h.of_same fun k hk => Function.update_of_ne (by rintro rfl; cases hk) ..
  | details id =>
    obtain rfl := heffect
    exact h

theorem Saved.of_revise {row : ParkingLocation} {hours : List HourRow}
    {security : List SecurityRow} {rev : ParkingRevision} (h : Decodable E c)
    (hrow : RowOf row new) (hstored : WellStored E row) (hdecoded : IsDecoded new.cost new.hours)
    (hnamed : IsNamed new.name new.address) (hhours : hours = new.hours.rows.map hourRow)
    (hsecurity : security = upsertSecurityRows (c (.security id)) new.security) :
    Saved E (revise c id row hours security rev) id new row where
  toRowOf := hrow
  location := by simp [revise]
  stored := hstored
  decoded := hdecoded
  named := hnamed
  hours := by simp [revise, hhours]
  security := by
    simpa [revise, hsecurity] using says_upsertSecurityRows new.security (h.known id)

/-- The commit of an operation that writes a location leaves the rows of it. -/
theorem saved_of_effect (h : Decodable E c) (hzone : P.isZone = E.isZone)
    (haccepted : Accepted P op) (heffect : Effect op n since c c')
    (hsaved : savedBy n c op = some (id, new)) : ∃ row, Saved E c' id new row := by
  cases op with
  | create input creator now clock =>
    obtain ⟨rfl, rfl⟩ := Prod.mk.inj (Option.some.inj hsaved)
    obtain ⟨hdecoded, hnamed, htz⟩ := haccepted.decoded
    obtain ⟨tz, hours, hsome, hhours, _, _, rfl⟩ := heffect
    obtain rfl := insertHours_eq hhours
    exact ⟨_, .of_revise h (rowOf_toRow hsome creator now)
      (.toRow input (hzone ▸ htz tz hsome) hdecoded.currency creator now) hdecoded hnamed
      rfl rfl⟩
  | applyEdit id' v edit editor now clock =>
    obtain ⟨⟨form, hform⟩, hnamed⟩ := haccepted
    obtain ⟨r, hours, hr, _, _, hhours, _, rfl⟩ := heffect
    obtain rfl := insertHours_eq hhours
    simp only [savedBy, hr, Option.map_some, Option.some.injEq, Prod.mk.injEq] at hsaved
    obtain ⟨rfl, rfl⟩ := hsaved
    have hdecoded := editFromForm_decoded hform
    exact ⟨_, .of_revise h (rowOf_apply edit now r)
      ((h.stored id' r hr).applyEdit edit hdecoded.currency now) hdecoded hnamed rfl rfl⟩
  | _ => cases hsaved

end Commits

/-! ## The service -/

section Calls

variable {P : FormParsers} {form : ContributionForm} {n : Nat} {user : AuthenticatedUser}
  {times : ContributionService.Times} {s s' : Connection Cell}

theorem isNamed_of_run {name address : String} {t : Connection Cell} {u : Unit}
    (h : (ContributionService.validateNameAddress name address).run s = (.ok u, t)) :
    IsNamed name address := by
  obtain ⟨_, _, hname, haddress⟩ := Service.run_bind_ok h
  have hname := (Service.run_require_ok.mp hname).1
  have haddress := (Service.run_require_ok.mp haddress).1
  exact ⟨by simpa using hname, by simpa using haddress⟩

/-- The zone of a new location is the one that the form names, if it names one. -/
theorem zone_of_run {ports : LocationPorts} {input : NewParkingLocation} {tz : Tz}
    {t t' : Connection Cell} (hform : newLocationFromForm P form = .ok input)
    (hresolve : ∀ point tz, ports.resolve point = .ok tz → P.isZone tz = true)
    (h : (Service.request ContributionError.unavailable fun s =>
      (ContributionService.zoneOf ports input).map fun tz => (tz, s)).run t = (.ok tz, t')) :
    P.isZone tz = true ∧ (input.timezone = none ∨ input.timezone = some tz) := by
  have hmap := Service.run_request_ok.mp h
  unfold ContributionService.zoneOf at hmap
  cases htz : input.timezone with
  | some given =>
    rw [htz] at hmap
    obtain ⟨rfl, _⟩ := Prod.mk.inj (Except.ok.inj hmap)
    exact ⟨(newLocationFromForm_decoded hform).2 given htz, .inr rfl⟩
  | none =>
    rw [htz] at hmap
    cases hresult : ports.resolve input.point with
    | error e =>
      simp only [hresult] at hmap
      cases hmap
    | ok tz' =>
      simp only [hresult] at hmap
      obtain ⟨rfl, _⟩ := Prod.mk.inj (Except.ok.inj hmap)
      exact ⟨hresolve _ tz' hresult, .inl rfl⟩

/-- A call that creates a location from a form passes an accepted request on. -/
theorem accepted_of_addParkingLocation {ports : LocationPorts} {ip : String}
    {input : NewParkingLocation} {answer : Nat × List DuplicateCandidate}
    (hform : newLocationFromForm P form = .ok input)
    (hresolve : ∀ point tz, ports.resolve point = .ok tz → P.isZone tz = true)
    (hrun : (ContributionService.addParkingLocation n user ports times ip input).run s =
      (.ok answer, s')) :
    ∃ (tz : Tz) (t t' : Connection Cell),
      Accepted P (.create { input with timezone := some tz } user.id times.now times.clock) ∧
      (create n { input with timezone := some tz } user.id times.now times.clock).run t =
        (.ok answer.1, t') := by
  unfold ContributionService.addParkingLocation at hrun
  obtain ⟨_, _, _, hrun⟩ := Service.run_bind_ok hrun
  obtain ⟨_, _, _, hrun⟩ := Service.run_bind_ok hrun
  obtain ⟨_, _, _, hrun⟩ := Service.run_bind_ok hrun
  obtain ⟨_, _, hnamed, hrun⟩ := Service.run_bind_ok hrun
  obtain ⟨tz, _, hzone, hrun⟩ := Service.run_bind_ok hrun
  obtain ⟨_, _, _, hrun⟩ := Service.run_bind_ok hrun
  obtain ⟨id, _, hcreate, hrun⟩ := Service.run_bind_ok hrun
  obtain ⟨_, _, _, hrun⟩ := Service.run_bind_ok hrun
  obtain rfl : (id, _) = answer := Except.ok.inj (Prod.mk.inj hrun).1
  obtain ⟨htz, hgiven⟩ := zone_of_run hform hresolve hzone
  exact ⟨tz, _, _, ⟨form, input, tz, hform, isNamed_of_run hnamed, htz, hgiven, rfl⟩, hcreate⟩

/-- A call that edits a location from a form passes an accepted request on. -/
theorem accepted_of_applyParkingEdit {allow : String → Nat → Int → Bool} {id : Nat} {v v' : Int}
    {edit : ParkingEdit} (hform : editFromForm P form = .ok edit)
    (hrun : (ContributionService.applyParkingEdit n user allow times id v edit).run s =
      (.ok v', s')) :
    Accepted P (.applyEdit id v edit user.id times.now times.clock) ∧
      ∃ t t' : Connection Cell,
        (applyEdit id v edit user.id times.now times.clock).run t = (.ok v', t') := by
  unfold ContributionService.applyParkingEdit at hrun
  obtain ⟨_, _, _, hrun⟩ := Service.run_bind_ok hrun
  obtain ⟨_, _, _, hrun⟩ := Service.run_bind_ok hrun
  obtain ⟨_, _, hnamed, hrun⟩ := Service.run_bind_ok hrun
  obtain ⟨_, _, _, hrun⟩ := Service.run_bind_ok hrun
  obtain ⟨newVersion, _, hedit, hrun⟩ := Service.run_bind_ok hrun
  obtain ⟨_, _, _, hrun⟩ := Service.run_bind_ok hrun
  obtain rfl : newVersion = v' := Except.ok.inj (Prod.mk.inj hrun).1
  exact ⟨⟨⟨form, hform⟩, isNamed_of_run hnamed⟩, _, _, hedit⟩

end Calls

/-! ## Runs -/

/-- A step that starts accepted requests only. -/
abbrev AcceptedStep (P : FormParsers) : HistorySystem → Label Op → HistorySystem → Prop :=
  Guarded (fun _ l => ∀ op, l = .start op → Accepted P op) HistoryStep

/-- What a run of accepted requests keeps. -/
structure Intact (P : FormParsers) (E : Engine) (s : HistorySystem) : Prop where
  regular : Regular s
  decodable : Decodable E s.committed
  accepted : ∀ (i : Nat) (p : HistoryProcess), s.processes[i]? = some p → Accepted P p.op

section Runs

variable {P : FormParsers} {E : Engine} {s s' : HistorySystem} {l : Label Op}

theorem Intact.start {c : Rows Cell} {n : Nat} (hfits : Fits c n) (h : Decodable E c) :
    Intact P E ⟨c, n, []⟩ where
  regular := .start hfits
  decodable := h
  accepted i p hp := by simp at hp

theorem Intact.next (hzone : P.isZone = E.isZone) (h : Intact P E s)
    (hstep : AcceptedStep P s l s') : Intact P E s' where
  regular := h.regular.next hstep.2
  decodable := by
    rcases h.regular.effect hstep.2 with heq | ⟨i, p, _, _, _, hp, _, _, heffect⟩
    · rw [heq]
      exact h.decodable
    · exact h.decodable.effect hzone (h.accepted i p hp) heffect
  accepted i q hq := by
    rcases System.origin hstep.2 hq with ⟨p, hp, hop, _⟩ | ⟨hl, _⟩
    · rw [hop]
      exact h.accepted i p hp
    · exact hstep.1 q.op hl

/-- The step with which an operation succeeds leaves the rows of what it writes. -/
theorem Intact.saved {i id : Nat} {q : HistoryProcess} {a : Answer} {new : NewParkingLocation}
    (hzone : P.isZone = E.isZone) (h : Intact P E s) (hstep : AcceptedStep P s l s')
    (hq : s'.processes[i]? = some q) (hafter : q.script = pure a) (hbefore : succeeded s i = none)
    (hsaved : savedBy q.serial s.committed q.op = some (id, new)) :
    ∃ row, Saved E s'.committed id new row := by
  rcases h.regular.answers hstep.2 hq hafter with ⟨p, hp, hop, _, hscript⟩ | ⟨_, heffect⟩
  · rw [succeeded_eq_some.mpr ⟨p, a, hp, hop, hscript⟩] at hbefore
    cases hbefore
  · exact saved_of_effect h.decodable hzone ((h.next hzone hstep).accepted i q hq) heffect hsaved

/-- When an operation of a run succeeds, both readers read the location as it was
written, exactly when no time of its hours is a leap second. -/
theorem location_reads_back_iff {R : SearchReader} {c : Rows Cell} {n : Nat}
    (hzone : P.isZone = R.engine.isZone) (hfits : Fits c n) (hdecodable : Decodable R.engine c) :
    ∀ ls s l s' (i : Nat) (q : HistoryProcess) a id new,
      Run (AcceptedStep P) ⟨c, n, []⟩ ls s → AcceptedStep P s l s' →
      s'.processes[i]? = some q → q.script = pure a → succeeded s i = none →
      savedBy q.serial s.committed q.op = some (id, new) →
      (ReadsBack R s'.committed id new ↔ IsOrdinary new.hours) := by
  intro ls s l s' i q a id new hrun hstep hq hafter hbefore hsaved
  have hs : Intact P R.engine s :=
    hrun.invariant (fun _ _ _ h hstep => h.next hzone hstep) (.start hfits hdecodable)
  obtain ⟨row, hrow⟩ := hs.saved hzone hstep hq hafter hbefore hsaved
  exact hrow.readsBack_iff

/-! ## A rack that is open on Mondays -/

/-- Parsers that know the texts of `rackForm`. -/
def rackParsers : FormParsers where
  chrono := twoDigits
  isZone tz := tz == "UTC"
  parseF64 raw :=
    if raw = "0" then some (.finite 0) else if raw = "1.50" then some (.finite (3 / 2)) else none
  round := id

/-- A rack for 1.50 a day that is open on Mondays from nine. -/
def rackForm (closes : String) : ContributionForm where
  name := " Rack "
  address := "Street 1"
  description := ""
  parkingType := "rack"
  costKind := "paid"
  price := "1,50"
  priceCurrency := "eur"
  priceUnit := "day"
  lat := "0"
  lon := "0"
  timezone := "UTC"
  hours := mondayRanges "09:00" closes "" ""
  security := #v["yes", "no", "", "", "", "", "", ""]

deriving instance DecidableEq for NewParkingLocation

/-- What the form gives. -/
def rackUntil (closesAt : TimeOfDay) : NewParkingLocation where
  name := " Rack "
  address := "Street 1"
  description := none
  parkingType := .rack
  cost := .paid (some ⟨150, "EUR", .day⟩)
  point := ⟨0, 0, GeoPoint.zero_lat, GeoPoint.zero_lon⟩
  timezone := some "UTC"
  hours := .weekly [(1, ⟨⟨32400, 0, by decide, TimeOfDay.midnight.nanos_lt⟩, closesAt, false⟩)]
  security := [⟨"dedicated_locking_point", .yes⟩, ⟨"indoor", .no⟩]

theorem accepted_rack {closes : String} {closesAt : TimeOfDay}
    (hform : newLocationFromForm rackParsers (rackForm closes) = .ok (rackUntil closesAt))
    (creator : UserId) (now clock : Instant) :
    Accepted rackParsers (.create (rackUntil closesAt) creator now clock) := by
  have hnamed : IsNamed " Rack " "Street 1" := ⟨by decide, by decide⟩
  exact ⟨rackForm closes, rackUntil closesAt, "UTC", hform, hnamed, rfl, .inr rfl, rfl⟩

/-- The run that creates it, up to its `COMMIT`. -/
def rackWritten (closesAt : TimeOfDay) : List (Label Op) :=
  .start (.create (rackUntil closesAt) 1 0 0) :: List.replicate 6 (.exec 0)

/-- The `COMMIT` succeeds. -/
def rackCommits (closesAt : TimeOfDay) : Bool :=
  ((rackWritten closesAt).foldlM (System.next Op.script) (⟨noRows, 1, []⟩ : HistorySystem)).any
    fun s => (succeeded s 0).isNone && (s.next Op.script (.exec 0)).any fun s' =>
      (succeeded s' 0).isSome && s'.processes[0]?.any fun q =>
        savedBy q.serial s.committed q.op == some (1, rackUntil closesAt)

theorem rack_saved {closes : String} {closesAt : TimeOfDay}
    (hform : newLocationFromForm rackParsers (rackForm closes) = .ok (rackUntil closesAt))
    (hcommits : rackCommits closesAt = true) :
    ∃ (s s' : HistorySystem) (q : HistoryProcess) (a : Answer),
      Run (AcceptedStep rackParsers) ⟨noRows, 1, []⟩ (rackWritten closesAt) s ∧
      AcceptedStep rackParsers s (.exec 0) s' ∧ s'.processes[0]? = some q ∧
      q.script = pure a ∧ succeeded s 0 = none ∧
      savedBy q.serial s.committed q.op = some (1, rackUntil closesAt) := by
  simp only [rackCommits, Option.any_eq_true, Bool.and_eq_true, beq_iff_eq,
    Option.isNone_iff_eq_none] at hcommits
  obtain ⟨s, hs, hbefore, s', hs', hafter, q, hq, hsaved⟩ := hcommits
  obtain ⟨op, hop⟩ := Option.isSome_iff_exists.mp hafter
  obtain ⟨p, a, hp, _, hscript⟩ := succeeded_eq_some.mp hop
  obtain rfl := Option.some.inj (hp.symm.trans hq)
  have hexec : ∀ op, Label.exec 0 = .start op → Accepted rackParsers op := fun op h => by cases h
  refine ⟨s, s', p, a, (Run.of_foldlM hs).guarded_of_forall ?_, ⟨hexec, hs'⟩, hp, hscript,
    hbefore, hsaved⟩
  intro l hl
  rcases List.mem_cons.mp hl with rfl | hl
  · intro op h
    obtain rfl := Label.start.inj h
    exact accepted_rack hform 1 0 0
  · obtain rfl := List.eq_of_mem_replicate hl
    exact hexec

theorem decodable_noRows (E : Engine) : Decodable E noRows :=
  ⟨fun _ _ h => (by cases h), fun _ _ h => (by cases h)⟩

/-- 17:00. -/
def atFive : TimeOfDay := ⟨61200, 0, by decide, TimeOfDay.midnight.nanos_lt⟩

theorem location_reads_back_rack : ∃ s s' : HistorySystem,
    Run (AcceptedStep rackParsers) ⟨noRows, 1, []⟩ (rackWritten atFive) s ∧
      AcceptedStep rackParsers s (.exec 0) s' ∧
      ReadsBack oneSpot s'.committed 1 (rackUntil atFive) := by
  have hform : newLocationFromForm rackParsers (rackForm "17:00") = .ok (rackUntil atFive) := by
    decide +kernel
  obtain ⟨s, s', q, a, hrun, hstep, hq, hafter, hbefore, hsaved⟩ :=
    rack_saved hform (by decide +kernel)
  have hordinary : IsOrdinary (rackUntil atFive).hours := by
    rintro x hx
    obtain rfl := List.mem_singleton.mp hx
    exact ⟨rfl, rfl⟩
  exact ⟨s, s', hrun, hstep, (location_reads_back_iff (P := rackParsers) rfl (fits_noRows 1)
    (decodable_noRows _) _ s _ s' 0 q a 1 _ hrun hstep hq hafter hbefore hsaved).mpr hordinary⟩

/-- The leap second at the end of 16:59. -/
def leapSecond : TimeOfDay := ⟨61199, 1000000000, by decide, by decide⟩

/-- A location that closes with a leap second is created from a form, and does not read
back as it was written. -/
theorem location_not_read_back : ∃ (s s' : HistorySystem) (q : HistoryProcess) (a : Answer),
    newLocationFromForm rackParsers (rackForm "16:59:60") = .ok (rackUntil leapSecond) ∧
      Run (AcceptedStep rackParsers) ⟨noRows, 1, []⟩ (rackWritten leapSecond) s ∧
      AcceptedStep rackParsers s (.exec 0) s' ∧ s'.processes[0]? = some q ∧
      q.script = pure a ∧ succeeded s 0 = none ∧
      savedBy q.serial s.committed q.op = some (1, rackUntil leapSecond) ∧
      ¬ ReadsBack oneSpot s'.committed 1 (rackUntil leapSecond) := by
  have hform : newLocationFromForm rackParsers (rackForm "16:59:60") =
      .ok (rackUntil leapSecond) := by decide +kernel
  obtain ⟨s, s', q, a, hrun, hstep, hq, hafter, hbefore, hsaved⟩ :=
    rack_saved hform (by decide +kernel)
  have hs : Intact rackParsers oneSpot.engine s :=
    hrun.invariant (fun _ _ _ h hstep => h.next rfl hstep)
      (.start (fits_noRows 1) (decodable_noRows _))
  obtain ⟨row, hrow⟩ := hs.saved rfl hstep hq hafter hbefore hsaved
  refine ⟨s, s', q, a, hform, hrun, hstep, hq, hafter, hbefore, hsaved, fun hback => ?_⟩
  have hordinary := (hrow.readsBack_iff.mp hback _ (List.mem_singleton.mpr rfl)).2
  cases hordinary

end Runs

end BikesNest.Community
