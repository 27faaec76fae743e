import BikesNest.Search.Pagination
import Mathlib.Algebra.BigOperators.Group.List.Lemmas

/-!
# Browsing the map

The other way to read locations: everything inside the box that a map shows.
`BoundsQuery.parse` checks the box, `inBoundsAt` counts the locations in it and
then reads either their rows or the counts of a grid.

The module has the input, the query and the three statements.  `browse_exact`
says that the answer has either every location or the clusters that make up
their number.
-/

namespace BikesNest.Search

open Domain Community Store Relational

/-! ## The input -/

/-- An `f64` as it is parsed. -/
inductive F64 where
  | finite (q : Rat)
  | infinite
  | nan
deriving DecidableEq

/-- What browsing needs of the standard library and of PostGIS. -/
structure MapEngine extends Engine where
  /-- `str::parse::<f64>`. -/
  parseF64 : String → Option F64
  /-- `&&` of a point and the envelope `west, south, east, north`. -/
  overlaps : Rat → Rat → Rat → Rat → GeoPoint → Bool
  /-- `ST_SnapToGrid`. -/
  snapToGrid : Rat → GeoPoint → Rat × Rat
  /-- `avg` of `float8`. -/
  avg : List Rat → Rat
  round_int : ∀ n : Int, n.natAbs ≤ 9007199254740992 → round n = n

/-- `SearchInput`. -/
structure SearchInput where
  query : Option String := none
  lat : Option F64 := none
  lon : Option F64 := none
  radiusM : Option Nat := none
  cost : Option String := none
  types : Option String := none
  security : Option String := none
  openNow : Bool := false
  sort : Option String := none
  pageSize : Option Nat := none
  cursor : Option String := none
  bbox : Option String := none

/-- `CostFilter::from_code`. -/
def CostFilter.fromCode (code : String) : Option CostFilter :=
  match code with
  | "free" => some .free
  | "paid" => some .paid
  | "unknown" => some .unknown
  | _ => none

/-- `str::split(',')`. -/
def splitComma (s : String) : List String := (s.toList.splitOn ',').map String.ofList

/-- `SearchInput::filters`. -/
def SearchInput.filters (input : SearchInput) : Filters where
  cost := input.cost.bind CostFilter.fromCode
  types := (splitComma (input.types.getD "")).filterMap fun c => (parkingTypeOf c).toOption
  securityAll :=
    ((splitComma (input.security.getD "")).map Text.trim).filter fun s => !s.isEmpty
  openNow := input.openNow

/-! ## The query -/

/-- `BROWSE_MARKER_CAP`. -/
def browseMarkerCap : Nat := 200

/-- `MAX_BROWSE_SPAN_DEG`. -/
def maxBrowseSpanDeg : Rat := 1

/-- `BROWSE_GRID_COLUMNS`. -/
def browseGridColumns : Rat := 12

/-- A box on the globe, with the filters of a search. -/
structure BoundsQuery where
  west : Rat
  south : Rat
  east : Rat
  north : Rat
  filters : Filters
  limit : Nat
  lon_range : -180 ≤ west ∧ west < east ∧ east ≤ 180
  lat_range : -90 ≤ south ∧ south < north ∧ north ≤ 90
  limit_range : 1 ≤ limit ∧ limit ≤ browseMarkerCap

theorem limit_clamp (limit : Nat) :
    1 ≤ max 1 (min limit browseMarkerCap) ∧ max 1 (min limit browseMarkerCap) ≤ browseMarkerCap := by
  unfold browseMarkerCap
  omega

/-- `BoundsQuery::parse`. -/
def BoundsQuery.parse (M : MapEngine) (raw : String) (filters : Filters) (limit : Nat) :
    Option BoundsQuery :=
  match (splitComma raw).mapM fun p => M.parseF64 (Text.trim p) with
  | some [.finite west, .finite south, .finite east, .finite north] =>
    if hlon : -180 ≤ west ∧ west < east ∧ east ≤ 180 then
      if hlat : -90 ≤ south ∧ south < north ∧ north ≤ 90 then
        if M.round (east - west) > maxBrowseSpanDeg ∨
            M.round (north - south) > maxBrowseSpanDeg then none
        else some {
          west, south, east, north, filters
          limit := max 1 (min limit browseMarkerCap)
          lon_range := hlon
          lat_range := hlat
          limit_range := limit_clamp limit }
      else none
    else none
  | _ => none

theorem MapEngine.round_range (M : MapEngine) {n : Int} (hn : n.natAbs ≤ 9007199254740992)
    {q : Rat} (h : -n ≤ q ∧ q ≤ n) : -n ≤ M.round q ∧ M.round q ≤ n := by
  have hneg : (-n).natAbs ≤ 9007199254740992 := by rwa [Int.natAbs_neg]
  constructor
  · have hlow := M.round_mono h.1
    rwa [← Int.cast_neg, M.round_int (-n) hneg, Int.cast_neg] at hlow
  · have hhigh := M.round_mono h.2
    rwa [M.round_int n hn] at hhigh

/-- The middle between two coordinates, as `f64` computes it. -/
def MapEngine.middle (M : MapEngine) (a b : Rat) : Rat := M.round (M.round (a + b) / 2)

theorem MapEngine.middle_range (M : MapEngine) {n : Int} (hn : n.natAbs ≤ 180) {a b : Rat}
    (ha : -n ≤ a ∧ a ≤ n) (hb : -n ≤ b ∧ b ≤ n) : -n ≤ M.middle a b ∧ M.middle a b ≤ n := by
  have hsum := M.round_range (n := 2 * n) (q := a + b) (by omega)
    (by push_cast; constructor <;> linarith)
  push_cast at hsum
  exact M.round_range (by omega) ⟨by linarith, by linarith⟩

/-- `BoundsQuery::center`. -/
def BoundsQuery.center (M : MapEngine) (q : BoundsQuery) : GeoPoint where
  lat := M.middle q.south q.north
  lon := M.middle q.west q.east
  lat_range := by
    have := q.lat_range
    exact M.middle_range (n := 90) (by decide) ⟨by push_cast; linarith, by push_cast; linarith⟩
      ⟨by push_cast; linarith, by push_cast; linarith⟩
  lon_range := by
    have := q.lon_range
    exact M.middle_range (n := 180) (by decide) ⟨by push_cast; linarith, by push_cast; linarith⟩
      ⟨by push_cast; linarith, by push_cast; linarith⟩

/-- `BoundsQuery::cell_deg`. -/
def BoundsQuery.cellDeg (M : MapEngine) (q : BoundsQuery) : Rat :=
  M.round (M.round (q.east - q.west) / browseGridColumns)

/-! ## The statements -/

/-- `SqlxParkingSearchReader`, as browsing uses it. -/
structure MapReader where
  engine : MapEngine
  recommendation : RecommendationConfig
  thresholds : FreshnessThresholds

def MapReader.toSearchReader (R : MapReader) : SearchReader :=
  ⟨R.engine.toEngine, R.recommendation, R.thresholds⟩

/-- `BOUNDS_FILTERS`. -/
def isInBounds (M : MapEngine) (q : BoundsQuery) (now : Instant) (rec : LocationRecord) : Bool :=
  let (cost, types, securityAll) := filterBinds q.filters
  rec.row.moderationState == .active &&
    M.overlaps q.west q.south q.east q.north rec.row.point &&
    cost.all (fun c => rec.row.costKind == c) &&
    types.all (fun ts => ts.contains rec.row.parkingType) &&
    (!q.filters.openNow || isOpenAt M.offset rec.hours rec.row.timezone now) &&
    (securityAll.getD []).all fun code => hasFeature rec code

/-- The locations that `BOUNDS_FILTERS` selects. -/
def inBoundsRows (M : MapEngine) (db : Db) (q : BoundsQuery) (now : Instant) :
    List (Nat × LocationRecord) :=
  db.parkingLocation.select fun _ rec => isInBounds M q now rec

/-- `bounds_count`. -/
def boundsCount (M : MapEngine) (db : Db) (q : BoundsQuery) (now : Instant) : Nat :=
  (inBoundsRows M db q now).length

/-- `BOUNDS_ORIGIN`: the distance to the middle of the box. -/
def centerDistance (M : MapEngine) (q : BoundsQuery) (x : Nat × LocationRecord) : Rat :=
  M.distance x.2.row.point (q.center M)

/-- What the rows of a box are ordered by: `(distance_m, id)`. -/
def boundsPosition (M : MapEngine) (q : BoundsQuery) (x : Nat × LocationRecord) : Rat ×ₗ Int :=
  toLex (centerDistance M q x, (x.1 : Int))

/-- A search around the middle of the box, for the columns that both page
statements select. -/
def BoundsQuery.aroundCenter (M : MapEngine) (q : BoundsQuery) : SearchRequest where
  origin := q.center M
  destinationLabel := none
  radiusM := defaultRadiusM
  filters := q.filters
  sort := .distance
  pageSize := q.limit
  cursor := none

/-- The row of `bounds_page`, decoded: the columns of a search, and `NULL` as the
sort key. -/
def boundsSummaryOf (R : MapReader) (db : Db) (q : BoundsQuery) (now : Instant)
    (x : Nat × LocationRecord) : Except String ParkingSummary :=
  (summaryOf R.toSearchReader db (q.aroundCenter R.engine) now x).map fun s =>
    { s with sortKey := none }

/-- `bounds_page`: the first `limit` rows by distance and id, decoded. -/
def boundsPage (R : MapReader) (db : Db) (q : BoundsQuery) (now : Instant) :
    Except ReaderError (List ParkingSummary) :=
  ((Keyset.fetch (boundsPosition R.engine q) (inBoundsRows R.engine db q now) q.limit none).mapM
    (boundsSummaryOf R db q now)).mapError .unexpected

/-- A cell of the grid with its locations. -/
structure Cluster where
  lat : Rat
  lon : Rat
  count : Nat
deriving DecidableEq

/-- `bounds_clusters`: one cluster for each cell with a location in it, the
largest first. -/
def boundsClusters (M : MapEngine) (db : Db) (q : BoundsQuery) (now : Instant) : List Cluster :=
  let points := (inBoundsRows M db q now).map fun x => x.2.row.point
  let cell := M.snapToGrid (q.cellDeg M)
  let clusters := (points.map cell).dedup.map fun c =>
    let members := points.filter fun p => cell p = c
    { lat := M.avg (members.map GeoPoint.lat)
      lon := M.avg (members.map GeoPoint.lon)
      count := members.length : Cluster }
  clusters.insertionSort fun a b =>
    b.count < a.count ∨ (a.count = b.count ∧
      (a.lat < b.lat ∨ (a.lat = b.lat ∧ a.lon ≤ b.lon)))

/-- `BoundsPage`. -/
structure BoundsPage where
  items : List ParkingSummary
  total : Nat
  clusters : List Cluster

/-- `in_bounds_at`. -/
def inBoundsAt (R : MapReader) (db : Db) (q : BoundsQuery) (now : Instant) :
    Except ReaderError BoundsPage :=
  let total := boundsCount R.engine db q now
  if total > q.limit then
    .ok { items := [], total, clusters := boundsClusters R.engine db q now }
  else do
    let items ← boundsPage R db q now
    return { items, total, clusters := [] }

/-! ## What is decoded -/

section Decoding

variable {α β γ ε : Type} {f : α → Except ε β}

/-- What is known of each decoded row is known of the list. -/
theorem map_of_mapM {g : β → γ} {h : α → γ} (hf : ∀ x s, f x = .ok s → g s = h x)
    {l : List α} {ss : List β} (hss : l.mapM f = .ok ss) : ss.map g = l.map h := by
  induction l generalizing ss with
  | nil =>
    cases hss
    rfl
  | cons x l ih =>
    rw [List.mapM_cons] at hss
    cases hx : f x with
    | error e => rw [hx] at hss; cases hss
    | ok s =>
      rw [hx] at hss
      cases hl : l.mapM f with
      | error e => rw [hl] at hss; cases hss
      | ok rest =>
        rw [hl] at hss
        cases hss
        rw [List.map_cons, List.map_cons, hf x s hx, ih hl]

theorem mapM_of_forall {l : List α} (h : ∀ x ∈ l, ∃ s, f x = .ok s) :
    ∃ ss, l.mapM f = .ok ss := by
  induction l with
  | nil => exact ⟨[], rfl⟩
  | cons x l ih =>
    obtain ⟨ss, hss⟩ := ih fun y hy => h y (List.mem_cons_of_mem _ hy)
    obtain ⟨s, hs⟩ := h x List.mem_cons_self
    refine ⟨s :: ss, ?_⟩
    rw [List.mapM_cons, hs, hss]
    rfl

end Decoding

variable {R : MapReader} {db : Db} {q : BoundsQuery} {now : Instant}

/-- A decoded row has the distance and the id of its location. -/
theorem boundsSummaryOf_place {x : Nat × LocationRecord} {s : ParkingSummary}
    (h : boundsSummaryOf R db q now x = .ok s) :
    (s.distanceM, s.id) = (centerDistance R.engine q x, x.1) := by
  unfold boundsSummaryOf summaryOf at h
  dsimp only at h
  split at h
  · cases hcost : costOf x.2.row with
    | error e => rw [hcost] at h; cases h
    | ok cost =>
      cases htype : parkingTypeOf x.2.row.parkingType with
      | error e => rw [hcost, htype] at h; cases h
      | ok t =>
        cases hrating : ratingNew (x.2.row.ratingAvg.map
            (ratingFloat R.toSearchReader.engine)) x.2.row.ratingCount with
        | error e => rw [hcost, htype, hrating] at h; cases h
        | ok rating =>
          rw [hcost, htype, hrating] at h
          cases h
          rfl
  · cases h

theorem boundsSummaryOf_ok {x : Nat × LocationRecord}
    (h : WellStored R.engine.toEngine x.2.row) : ∃ s, boundsSummaryOf R db q now x = .ok s := by
  obtain ⟨s, hs, -⟩ :=
    summaryOf_ok (R := R.toSearchReader) h db (q.aroundCenter R.engine) now
  refine ⟨{ s with sortKey := none }, ?_⟩
  rw [boundsSummaryOf, hs]
  rfl

/-! ## Everything or clusters -/

/-- The rows list the locations of the box, each once, by distance and id. -/
structure ListsBox (M : MapEngine) (db : Db) (q : BoundsQuery) (now : Instant)
    (items : List ParkingSummary) : Prop where
  complete : ∀ i, (∃ s ∈ items, s.id = i) ↔
    ∃ rec, db.parkingLocation.row i = some rec ∧ isInBounds M q now rec = true
  placed : ∀ s ∈ items, ∃ rec, db.parkingLocation.row s.id = some rec ∧
    s.distanceM = M.distance rec.row.point (q.center M)
  ordered : items.Pairwise fun a b =>
    a.distanceM < b.distanceM ∨ (a.distanceM = b.distanceM ∧ a.id < b.id)

/-- The page has every location of the box, or the clusters that make up their
number; and the total in either case. -/
def ExactOrClustered (M : MapEngine) (db : Db) (q : BoundsQuery) (now : Instant)
    (page : BoundsPage) : Prop :=
  let found := (inBoundsRows M db q now).length
  page.total = found ∧
    ((found ≤ q.limit ∧ page.clusters = [] ∧ page.items.length = found ∧
        ListsBox M db q now page.items) ∨
      (q.limit < found ∧ page.items = [] ∧ (page.clusters.map Cluster.count).sum = found))

theorem boundsPosition_nodup (M : MapEngine) (db : Db) (q : BoundsQuery) (now : Instant) :
    ((inBoundsRows M db q now).map (boundsPosition M q)).Nodup := by
  have hids : ((inBoundsRows M db q now).map Prod.fst).Nodup :=
    db.parkingLocation.nodup_keys.sublist (List.filter_sublist.map Prod.fst)
  refine List.Nodup.of_map (fun p : Rat ×ₗ Int => (ofLex p).2) ?_
  rw [List.map_map]
  show ((inBoundsRows M db q now).map ((fun i : Nat => (i : Int)) ∘ Prod.fst)).Nodup
  rw [← List.map_map]
  exact hids.map fun _ _ h => Int.ofNat.inj h

/-- Rows decoded from all locations in order list the box. -/
theorem listsBox_of_places {items : List ParkingSummary}
    (h : items.map (fun s => (s.distanceM, s.id)) =
      (Keyset.ordered (boundsPosition R.engine q) (inBoundsRows R.engine db q now)).map
        fun x => (centerDistance R.engine q x, x.1)) :
    ListsBox R.engine db q now items := by
  have hmem : ∀ x, x ∈ Keyset.ordered (boundsPosition R.engine q)
        (inBoundsRows R.engine db q now) ↔
      db.parkingLocation.row x.1 = some x.2 ∧ isInBounds R.engine q now x.2 = true :=
    fun x => Keyset.ordered_perm.mem_iff.trans Table.mem_select
  constructor
  · intro i
    have hids := congrArg (List.map Prod.snd) h
    rw [List.map_map, List.map_map] at hids
    rw [← List.mem_map]
    show i ∈ items.map (Prod.snd ∘ fun s => (s.distanceM, s.id)) ↔ _
    rw [hids, List.mem_map]
    constructor
    · rintro ⟨x, hx, rfl⟩
      exact ⟨x.2, (hmem x).mp hx⟩
    · rintro ⟨rec, hrow⟩
      exact ⟨(i, rec), (hmem (i, rec)).mpr hrow, rfl⟩
  · intro s hs
    have hplace : (s.distanceM, s.id) ∈ items.map fun s => (s.distanceM, s.id) :=
      List.mem_map_of_mem hs
    rw [h] at hplace
    obtain ⟨x, hx, heq⟩ := List.mem_map.mp hplace
    have hdistance : centerDistance R.engine q x = s.distanceM := congrArg Prod.fst heq
    have hid : x.1 = s.id := congrArg Prod.snd heq
    exact ⟨x.2, hid ▸ ((hmem x).mp hx).1, hdistance.symm⟩
  · have hstrict := Keyset.ordered_strict (boundsPosition_nodup R.engine db q now)
    have hplaces : (items.map fun s => (s.distanceM, s.id)).Pairwise fun a b =>
        a.1 < b.1 ∨ (a.1 = b.1 ∧ a.2 < b.2) := by
      rw [h, List.pairwise_map]
      refine hstrict.imp fun {a b} hlt => ?_
      rw [boundsPosition, boundsPosition, Prod.Lex.toLex_lt_toLex] at hlt
      exact hlt.imp_right fun h => ⟨h.1, Int.ofNat_lt.mp h.2⟩
    exact List.pairwise_map.mp hplaces

/-- The sizes of the groups of a list make up its length. -/
theorem sum_group_sizes {α κ : Type} [DecidableEq κ] (cell : α → κ) (l : List α) :
    ((l.map cell).dedup.map fun c => (l.filter fun p => cell p = c).length).sum = l.length := by
  have hcount : ∀ c, (l.filter fun p => cell p = c).length = (l.map cell).count c := by
    intro c
    rw [List.count, List.countP_map, List.countP_eq_length_filter]
    rfl
  simp only [hcount]
  rw [List.sum_map_count_dedup_eq_length, List.length_map]

/-- The grid leaves no location out and counts none twice. -/
theorem sum_boundsClusters (M : MapEngine) (db : Db) (q : BoundsQuery) (now : Instant) :
    ((boundsClusters M db q now).map Cluster.count).sum = (inBoundsRows M db q now).length := by
  unfold boundsClusters
  dsimp only
  rw [((List.perm_insertionSort _ _).map Cluster.count).sum_eq, List.map_map]
  exact (sum_group_sizes _ _).trans (List.length_map _)

/-- Where the limit is enough, the first page has all locations of the box. -/
theorem fetch_inBoundsRows {q : BoundsQuery}
    (hle : (inBoundsRows R.engine db q now).length ≤ q.limit) :
    Keyset.fetch (boundsPosition R.engine q) (inBoundsRows R.engine db q now) q.limit none =
      Keyset.ordered (boundsPosition R.engine q) (inBoundsRows R.engine db q now) := by
  have hall : ∀ l : List (Nat × LocationRecord),
      l.filter (Keyset.isAfter (boundsPosition R.engine q) none) = l :=
    fun l => List.filter_eq_self.mpr fun _ _ => rfl
  rw [Keyset.fetch_eq (boundsPosition_nodup R.engine db q now), hall,
    List.take_of_length_le]
  rwa [Keyset.ordered_perm.length_eq]

theorem exactOrClustered_of_inBoundsAt {q : BoundsQuery} {page : BoundsPage}
    (hpage : inBoundsAt R db q now = .ok page) : ExactOrClustered R.engine db q now page := by
  unfold inBoundsAt boundsCount boundsPage at hpage
  dsimp only at hpage
  by_cases hmany : (inBoundsRows R.engine db q now).length > q.limit
  · rw [if_pos hmany] at hpage
    cases hpage
    exact ⟨rfl, .inr ⟨hmany, rfl, sum_boundsClusters R.engine db q now⟩⟩
  · have hle : (inBoundsRows R.engine db q now).length ≤ q.limit := by omega
    rw [if_neg hmany, fetch_inBoundsRows hle] at hpage
    cases hitems : (Keyset.ordered (boundsPosition R.engine q)
        (inBoundsRows R.engine db q now)).mapM (boundsSummaryOf R db q now) with
    | error e => rw [hitems] at hpage; cases hpage
    | ok items =>
      rw [hitems] at hpage
      cases hpage
      have hplaces := map_of_mapM (g := fun s => (s.distanceM, s.id))
        (h := fun x => (centerDistance R.engine q x, x.1))
        (fun x s hs => boundsSummaryOf_place hs) hitems
      have hlength := congrArg List.length hplaces
      rw [List.length_map, List.length_map, Keyset.ordered_perm.length_eq] at hlength
      exact ⟨rfl, .inl ⟨hle, rfl, hlength, listsBox_of_places hplaces⟩⟩

/-- Whatever the box, the filters and the limit, an answer has every matching
location or clusters, and rows as the write paths store them are answered. -/
theorem browse_exact (R : MapReader) (db : Db) (q : BoundsQuery) (now : Instant) :
    (∀ page, inBoundsAt R db q now = .ok page → ExactOrClustered R.engine db q now page) ∧
      ((∀ i rec, db.parkingLocation.row i = some rec → WellStored R.engine.toEngine rec.row) →
        ∃ page, inBoundsAt R db q now = .ok page) := by
  refine ⟨fun _ => exactOrClustered_of_inBoundsAt, fun hstored => ?_⟩
  unfold inBoundsAt boundsCount boundsPage
  dsimp only
  by_cases hmany : (inBoundsRows R.engine db q now).length > q.limit
  · rw [if_pos hmany]
    exact ⟨_, rfl⟩
  · have hle : (inBoundsRows R.engine db q now).length ≤ q.limit := by omega
    rw [if_neg hmany, fetch_inBoundsRows hle]
    have hrows : ∀ x ∈ Keyset.ordered (boundsPosition R.engine q)
        (inBoundsRows R.engine db q now), ∃ s, boundsSummaryOf R db q now x = .ok s := by
      intro x hx
      have hrow := (Table.mem_select.mp (Keyset.ordered_perm.mem_iff.mp hx)).1
      exact boundsSummaryOf_ok (hstored x.1 x.2 hrow)
    obtain ⟨items, hitems⟩ := mapM_of_forall hrows
    rw [hitems]
    exact ⟨_, rfl⟩

end BikesNest.Search
