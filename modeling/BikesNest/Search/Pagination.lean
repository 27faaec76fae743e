import BikesNest.Community.Review
import BikesNest.Search.Reader
import Mathlib.Algebra.Order.BigOperators.Group.List

/-!
# Search pagination

`SearchParking.page` asks the reader for one row more than a page holds and makes
the cursor of the next page from the last row it keeps.  `Follows` is the list of
pages that a client sees who sends each next cursor back as text.

`Follows.of_walk` carries the walk over the keys of the rows to the pages of the
service.  `pagination_exact` says that the pages end and list every matching
location once, in order.
-/

namespace BikesNest.Search

open Domain Community Store Relational

/-! ## Rows that are decoded -/

/-- A row of `parking_location` as the write paths leave it. -/
structure WellStored (E : Engine) (r : ParkingLocation) : Prop where
  zone : E.isZone r.timezone = true
  type : ∃ t : ParkingType, r.parkingType = t.asCode
  cost : ∃ cost, (r.costKind, r.priceCents, r.priceCurrency, r.priceUnit) = costParts cost ∧
    ∀ p, cost = .paid (some p) → currencyOf p.currency = .ok p.currency
  rating : ∀ avg, r.ratingAvg = some avg → avg ≤ 500

namespace WellStored

variable {E : Engine} {r : ParkingLocation}

/-- `create` leaves a well stored row. -/
theorem toRow (new : NewParkingLocation) {tz : Tz} (hzone : E.isZone tz = true)
    (hcurrency : ∀ p, new.cost = .paid (some p) → currencyOf p.currency = .ok p.currency)
    (creator : UserId) (now : Instant) : WellStored E (new.toRow tz creator now) where
  zone := hzone
  type := ⟨new.parkingType, rfl⟩
  cost := ⟨new.cost, rfl, hcurrency⟩
  rating avg h := by cases h

/-- `apply_edit` keeps the zone and the rating. -/
theorem applyEdit (h : WellStored E r) (edit : ParkingEdit)
    (hcurrency : ∀ p, edit.cost = .paid (some p) → currencyOf p.currency = .ok p.currency)
    (now : Instant) : WellStored E (edit.apply now r) where
  zone := h.zone
  type := ⟨edit.parkingType, rfl⟩
  cost := ⟨edit.cost, rfl, hcurrency⟩
  rating := h.rating

theorem withState (h : WellStored E r) (target : ModerationState) :
    WellStored E (r.withState target) where
  zone := h.zone
  type := h.type
  cost := h.cost
  rating := h.rating

/-- An approved proposal moves the location to a zone or sets its state. -/
theorem applyProposal (h : WellStored E r) (applied : ProposalApplication)
    (hzone : ∀ point tz, applied = .moveLocation point tz → E.isZone tz = true) :
    WellStored E (applied.apply r) := by
  cases applied with
  | moveLocation point tz => exact ⟨hzone point tz rfl, h.type, h.cost, h.rating⟩
  | changeExistence exists' => exact h.withState _

/-- The average of ratings of at most five stars is at most five. -/
theorem withRatings (h : WellStored E r) {ratings : List Nat} (hrange : ∀ n ∈ ratings, n ≤ 5) :
    WellStored E (r.withRatings ratings) where
  zone := h.zone
  type := h.type
  cost := h.cost
  rating avg havg := by
    have havg : averageHundredths ratings = some avg := havg
    unfold averageHundredths at havg
    split at havg
    · cases havg
    · rename_i hne
      have hpos : 0 < ratings.length := List.length_pos_iff.mpr hne
      have hsum : ratings.sum ≤ ratings.length * 5 := by
        simpa using List.sum_le_card_nsmul ratings 5 hrange
      cases havg
      apply Nat.le_of_lt_succ
      rw [Nat.div_lt_iff_lt_mul (by omega)]
      omega

end WellStored

/-- A review that is stored leaves all locations well stored, and the ratings in their range. -/
theorem upsertReview_wellStored {E : Engine} {db db' : Db} {locationId : Nat} {author : UserId}
    {rating : StarRating} {body : String} {wasUpdate : Bool}
    (hstored : ∀ i rec, db.parkingLocation.row i = some rec → WellStored E rec.row)
    (hratings : ∀ i r, db.review.row i = some r → r.rating ≤ 5)
    (h : upsertReview db locationId author rating body = .ok (wasUpdate, db')) :
    (∀ i rec, db'.parkingLocation.row i = some rec → WellStored E rec.row) ∧
      ∀ i r, db'.review.row i = some r → r.rating ≤ 5 := by
  obtain ⟨_, mid, rfl, hreview, hlocations⟩ := upsertReview_eq_ok h
  have hrange : ∀ i r, mid.review.row i = some r → r.rating ≤ 5 := by
    intro i r hr
    rw [hreview] at hr
    unfold upsertRow at hr
    split at hr
    · obtain ⟨r₀, hr₀, rfl⟩ := Table.row_update_eq_some.mp hr
      split
      · exact rating.range.2
      · exact hratings i r₀ hr₀
    · rcases Table.row_insert_eq_some.mp hr with ⟨_, rfl⟩ | hold
      · exact rating.range.2
      · exact hratings i r hold
  refine ⟨?_, hrange⟩
  intro i rec hrec
  obtain ⟨old, hold, rfl⟩ := Table.row_update_eq_some.mp hrec
  rw [hlocations] at hold
  have hold := hstored i old hold
  split
  · apply hold.withRatings
    intro n hn
    obtain ⟨x, hx, rfl⟩ := List.mem_map.mp hn
    exact hrange x.1 x.2 (Table.mem_select.mp hx).1
  · exact hold

theorem parkingTypeOf_asCode (t : ParkingType) : parkingTypeOf t.asCode = .ok t := by
  cases t <;> rfl

theorem pricingUnitOf_asCode (u : PricingUnit) : pricingUnitOf u.asCode = .ok u := by
  cases u <;> rfl

/-- A cost is read as it was written. -/
theorem costOf_costParts {r : ParkingLocation} {cost : Cost}
    (hparts : (r.costKind, r.priceCents, r.priceCurrency, r.priceUnit) = costParts cost)
    (hcurrency : ∀ p, cost = .paid (some p) → currencyOf p.currency = .ok p.currency) :
    costOf r = .ok cost := by
  unfold costOf
  cases cost with
  | free =>
    simp only [costParts, Prod.mk.injEq] at hparts
    rw [hparts.1, hparts.2.1]
    rfl
  | unknown =>
    simp only [costParts, Prod.mk.injEq] at hparts
    rw [hparts.1, hparts.2.1]
    rfl
  | paid price =>
    cases price with
    | none =>
      simp only [costParts, Prod.mk.injEq] at hparts
      rw [hparts.1, hparts.2.1]
      rfl
    | some p =>
      simp only [costParts, Prod.mk.injEq] at hparts
      rw [hparts.1, hparts.2.1, hparts.2.2.1, hparts.2.2.2]
      simp [hcurrency p rfl, pricingUnitOf_asCode, costFromKindAndPrice]
      rfl

theorem WellStored.costOf_ok {E : Engine} {r : ParkingLocation} (h : WellStored E r) :
    ∃ cost, costOf r = .ok cost := by
  obtain ⟨cost, hparts, hcurrency⟩ := h.cost
  exact ⟨cost, costOf_costParts hparts hcurrency⟩

/-- An average of at most five stars stays one when it is rounded. -/
theorem WellStored.ratingNew_ok {E : Engine} {r : ParkingLocation} (h : WellStored E r) :
    ∃ rating, ratingNew (r.ratingAvg.map (ratingFloat E)) r.ratingCount = .ok rating := by
  unfold ratingNew
  rw [if_neg]
  · exact ⟨_, rfl⟩
  · cases havg : r.ratingAvg with
    | none => simp
    | some avg =>
      have hle : (avg : Rat) ≤ 500 := by exact_mod_cast h.rating avg havg
      have hnonneg : (0 : Rat) ≤ avg := Nat.cast_nonneg avg
      have hlow : 0 ≤ ratingFloat E avg := by
        rw [← E.round_zero]
        exact E.round_mono (by linarith)
      have hhigh : ratingFloat E avg ≤ 5 := by
        rw [← E.round_five]
        exact E.round_mono (by linarith)
      simp [hlow, hhigh]

/-- What a listed row is known by: its sort key and its id. -/
def ParkingSummary.tag (s : ParkingSummary) : Option Rat × Nat := (s.sortKey, s.id)

/-- The tag that the row of a location gets. -/
def rowTag (R : SearchReader) (req : SearchRequest) (now : Instant)
    (x : Nat × LocationRecord) : Option Rat × Nat :=
  (some (sortKey R req now x.2), x.1)

/-- A well stored row is decoded, with its sort key and its id. -/
theorem summaryOf_ok {R : SearchReader} {x : Nat × LocationRecord}
    (h : WellStored R.engine x.2.row) (db : Db) (req : SearchRequest) (now : Instant) :
    ∃ s, summaryOf R db req now x = .ok s ∧ s.tag = rowTag R req now x := by
  obtain ⟨cost, hcost⟩ := h.costOf_ok
  obtain ⟨t, htype⟩ := h.type
  obtain ⟨rating, hrating⟩ := h.ratingNew_ok
  have hparking : parkingTypeOf x.2.row.parkingType = .ok t := by
    rw [htype, parkingTypeOf_asCode]
  unfold summaryOf
  dsimp only
  rw [if_pos h.zone, hcost, hparking, hrating]
  exact ⟨_, rfl, rfl⟩

/-- The rows of a statement are decoded one for one. -/
theorem mapM_summaryOf {R : SearchReader} {db : Db} {req : SearchRequest} {now : Instant}
    {l : List (Nat × LocationRecord)} (h : ∀ x ∈ l, WellStored R.engine x.2.row) :
    ∃ ss, l.mapM (summaryOf R db req now) = .ok ss ∧
      ss.map ParkingSummary.tag = l.map (rowTag R req now) := by
  induction l with
  | nil => exact ⟨[], rfl, rfl⟩
  | cons x l ih =>
    obtain ⟨ss, hss, htags⟩ := ih fun y hy => h y (List.mem_cons_of_mem _ hy)
    obtain ⟨s, hs, htag⟩ := summaryOf_ok (h x List.mem_cons_self) db req now
    refine ⟨s :: ss, ?_, by rw [List.map_cons, List.map_cons, htag, htags]⟩
    rw [List.mapM_cons, hs, hss]
    rfl

/-! ## The service -/

structure SearchPage where
  items : List ParkingSummary
  total : Nat
  nextCursor : Option Cursor

inductive SearchError where
  | read (e : ReaderError)
  /-- An `expect` that failed. -/
  | panicked

/-- `SearchParking::page`. -/
def SearchParking.page (R : SearchReader) (db : Db) (now : Instant) (req : SearchRequest) :
    Except SearchError SearchPage :=
  match searchAt R db req (req.pageSize + 1) true now with
  | .error e => .error (.read e)
  | .ok (items, total) =>
    if req.pageSize < items.length then
      let items := items.take req.pageSize
      match items.getLast? with
      | none => .error .panicked
      | some last => match last.sortKey with
        | none => .error .panicked
        | some v => .ok { items, total, nextCursor := some { sort := req.sort, v, id := last.id } }
    else .ok { items, total, nextCursor := none }

/-- The pages that a client sees who follows the cursors, beginning with `raw`. -/
inductive Follows (text : CursorText) (search : Option String → Except SearchError SearchPage) :
    Option String → List SearchPage → Prop where
  | last {raw : Option String} {page : SearchPage} (h : search raw = .ok page)
      (hnext : page.nextCursor = none) : Follows text search raw [page]
  | more {raw : Option String} {page : SearchPage} {c : Cursor} {pages : List SearchPage}
      (h : search raw = .ok page) (hnext : page.nextCursor = some c)
      (rest : Follows text search (some (c.encode text)) pages) :
      Follows text search raw (page :: pages)

/-- There is one such list of pages. -/
theorem Follows.unique {text : CursorText} {search : Option String → Except SearchError SearchPage}
    {raw : Option String} {pages pages' : List SearchPage} (h : Follows text search raw pages)
    (h' : Follows text search raw pages') : pages = pages' := by
  induction h generalizing pages' with
  | last h hnext =>
    cases h' with
    | last h' =>
      rw [h] at h'
      rw [Except.ok.inj h']
    | more h' hnext' =>
      rw [h] at h'
      rw [Except.ok.inj h', hnext'] at hnext
      cases hnext
  | more h hnext _ ih =>
    cases h' with
    | last h' hnext' =>
      rw [h] at h'
      rw [← Except.ok.inj h', hnext] at hnext'
      cases hnext'
    | more h' hnext' rest =>
      rw [h] at h'
      obtain rfl := Except.ok.inj h'
      rw [hnext] at hnext'
      obtain rfl := Option.some.inj hnext'
      rw [ih rest]

/-! ## One page -/

section Pages

variable {R : SearchReader} {db : Db} {now : Instant} {req : SearchRequest}

/-- The place of a cursor among the rows. -/
def Cursor.position (c : Cursor) : Rat ×ₗ Int := toLex (c.v, c.id)

/-- The place of a row as a cursor. -/
def cursorOf (R : SearchReader) (req : SearchRequest) (now : Instant)
    (x : Nat × LocationRecord) : Cursor :=
  { sort := req.sort, v := sortKey R req now x.2, id := x.1 }

theorem mem_fetch {limit : Nat} {cursor : Option (Rat ×ₗ Int)} {x : Nat × LocationRecord}
    {rows : List (Nat × LocationRecord)}
    (h : x ∈ Keyset.fetch (position R req now) rows limit cursor) : x ∈ rows :=
  (List.mem_filter.mp (Keyset.ordered_perm.mem_iff.mp (List.mem_of_mem_take h))).1

/-- The two statements of a search. -/
theorem searchAt_ok (limit : Nat)
    (hstored : ∀ x ∈ matching R db req now, WellStored R.engine x.2.row) :
    ∃ ss, searchAt R db req limit true now = .ok (ss, count R db req now) ∧
      ss.map ParkingSummary.tag = (Keyset.fetch (position R req now) (matching R db req now)
        limit (req.cursor.map Cursor.position)).map (rowTag R req now) := by
  obtain ⟨ss, hss, htags⟩ := mapM_summaryOf (R := R) (l := Keyset.fetch (position R req now)
    (matching R db req now) limit (req.cursor.map Cursor.position))
    fun x hx => hstored x (mem_fetch hx)
  have hpage : pageRows R db req now req.cursor limit = .ok ss := by
    show Except.mapError _ (List.mapM _ (Keyset.fetch _ _ _ (req.cursor.map Cursor.position))) = _
    rw [hss]
    rfl
  refine ⟨ss, ?_, htags⟩
  show (pageRows R db req now req.cursor limit >>= fun items => _) = _
  rw [hpage]
  rfl

variable (req) in
/-- A page of the service is the page of the rows, and its next cursor is the place
of the row that the next page begins behind. -/
theorem page_ok (hn : 0 < req.pageSize)
    (hstored : ∀ x ∈ matching R db req now, WellStored R.engine x.2.row) :
    ∃ p, SearchParking.page R db now req = .ok p ∧ p.total = count R db req now ∧
      p.items.map ParkingSummary.tag = (Keyset.page (position R req now) (matching R db req now)
        req.pageSize (req.cursor.map Cursor.position)).map (rowTag R req now) ∧
      ((Keyset.next (position R req now) (matching R db req now) req.pageSize
          (req.cursor.map Cursor.position) = none ∧ p.nextCursor = none) ∨
        ∃ x ∈ matching R db req now,
          Keyset.next (position R req now) (matching R db req now) req.pageSize
            (req.cursor.map Cursor.position) = some (cursorOf R req now x).position ∧
          p.nextCursor = some (cursorOf R req now x)) := by
  unfold Keyset.next Keyset.page
  obtain ⟨ss, hread, htags⟩ := searchAt_ok (req.pageSize + 1) hstored
  generalize hrows : Keyset.fetch (position R req now) (matching R db req now)
    (req.pageSize + 1) (req.cursor.map Cursor.position) = rows at htags
  have hmem : ∀ x ∈ rows, x ∈ matching R db req now := fun x hx => mem_fetch (hrows ▸ hx)
  have hlen : ss.length = rows.length := by simpa using congrArg List.length htags
  have htake : (ss.take req.pageSize).map ParkingSummary.tag =
      (rows.take req.pageSize).map (rowTag R req now) := by
    rw [List.map_take, List.map_take, htags]
  unfold SearchParking.page
  rw [hread]
  dsimp only
  rw [hlen]
  by_cases hmore : req.pageSize < rows.length
  · obtain ⟨front, x, hfront, _⟩ := Keyset.take_eq_concat hn hmore.le
    have hx : x ∈ rows := List.mem_of_mem_take (by rw [hfront]; simp)
    have hlast : (ss.take req.pageSize).getLast?.map ParkingSummary.tag =
        some (rowTag R req now x) := by
      rw [← List.getLast?_map, htake, hfront, List.map_append, List.map_singleton,
        List.getLast?_concat]
    obtain ⟨s, hs, htag⟩ := Option.map_eq_some_iff.mp hlast
    have hkey : s.sortKey = some (sortKey R req now x.2) := congrArg Prod.fst htag
    have hid : s.id = x.1 := congrArg Prod.snd htag
    rw [if_pos hmore, if_pos hmore, hs]
    dsimp only
    rw [hkey]
    refine ⟨_, rfl, rfl, htake, .inr ⟨x, hmem x hx, ?_, ?_⟩⟩
    · rw [hfront, List.getLast?_concat]
      rfl
    · show some _ = some _
      rw [cursorOf, hid]
  · rw [if_neg hmore, if_neg hmore]
    refine ⟨_, rfl, rfl, ?_, .inl ⟨rfl, rfl⟩⟩
    rw [← htake, List.take_of_length_le (by omega)]

end Pages

/-! ## All pages -/

section Walk

variable {R : SearchReader} {db : Db} {now : Instant} (text : CursorText) (origin : GeoPoint)
  (label : Option String) (radiusM : Nat) (filters : Filters) (sort : SortOrder) (pageSize : Nat)

/-- A search with all its arguments but the cursor. -/
def searchWith (R : SearchReader) (db : Db) (now : Instant) (raw : Option String) :
    Except SearchError SearchPage :=
  SearchParking.page R db now
    (SearchRequest.new text origin label radiusM filters sort pageSize raw)

variable {text origin label radiusM filters sort pageSize} {first : SearchRequest}

/-- The walk over the keys, page by page, as the service answers it. -/
theorem Follows.of_walk
    (hfirst : first = SearchRequest.new text origin label radiusM filters sort pageSize none)
    (hstored : ∀ x ∈ matching R db first now, WellStored R.engine x.2.row)
    (htext : ∀ x ∈ matching R db first now,
      text.read (text.write (cursorOf R first now x).toJson) =
        some (cursorOf R first now x).toJson)
    {cursor : Option (Rat ×ₗ Int)} {pgs : List (List (Nat × LocationRecord))}
    (hwalk : Keyset.Walk (position R first now) (matching R db first now) first.pageSize
      cursor pgs) (raw : Option String)
    (hraw : (SearchRequest.new text origin label radiusM filters sort pageSize raw).cursor.map
      Cursor.position = cursor) :
    ∃ pages, Follows text (searchWith text origin label radiusM filters sort pageSize R db now)
        raw pages ∧
      pages.map (fun p => p.items.map ParkingSummary.tag) =
        pgs.map (List.map (rowTag R first now)) ∧
      ∀ p ∈ pages, p.total = count R db first now := by
  subst hfirst
  induction hwalk generalizing raw with
  | last hnext =>
    obtain ⟨p, hp, htotal, htags, hlast | ⟨x, _, hmore, _⟩⟩ := page_ok
      (SearchRequest.new text origin label radiusM filters sort pageSize raw)
      (SearchRequest.pageSize_pos text origin label radiusM filters sort pageSize raw) hstored
    · rw [hraw] at htags
      refine ⟨[p], .last hp hlast.2, ?_, fun q hq => ?_⟩
      · exact congrArg (fun l => [l]) htags
      · rw [List.mem_singleton.mp hq]
        exact htotal
    · rw [hraw] at hmore
      exact absurd (hnext.symm.trans hmore) (by simp)
  | more hnext _ ih =>
    obtain ⟨p, hp, htotal, htags, hlast | ⟨x, hx, hmore, hcursor⟩⟩ := page_ok
      (SearchRequest.new text origin label radiusM filters sort pageSize raw)
      (SearchRequest.pageSize_pos text origin label radiusM filters sort pageSize raw) hstored
    · rw [hraw] at hlast
      exact absurd (hnext.symm.trans hlast.1) (by simp)
    · rw [hraw] at htags hmore
      have hc := Option.some.inj (hnext.symm.trans hmore)
      obtain ⟨pages, hpages, hall, htotals⟩ :=
        ih (some ((cursorOf R _ now x).encode text)) (by
          rw [hc, SearchRequest.new_of_encode text origin label radiusM filters sort pageSize
            (htext x hx) rfl]
          rfl)
      refine ⟨p :: pages, .more hp hcursor hpages, ?_, fun q hq => ?_⟩
      · exact congrArg₂ List.cons htags hall
      · rcases List.mem_cons.mp hq with rfl | hq
        · exact htotal
        · exact htotals q hq

end Walk

/-- The place of one listed row is before that of another: a smaller sort key, or
the same and a smaller id. -/
def ParkingSummary.Before (a b : ParkingSummary) : Prop :=
  ∃ ka kb, a.sortKey = some ka ∧ b.sortKey = some kb ∧ (ka < kb ∨ (ka = kb ∧ a.id < b.id))

/-- The pages list the locations that match, each once and in order, and all of
them say how many there are. -/
structure ListsMatches (R : SearchReader) (db : Db) (now : Instant) (req : SearchRequest)
    (pages : List SearchPage) : Prop where
  complete : ∀ i, (∃ s ∈ pages.flatMap SearchPage.items, s.id = i) ↔
    ∃ rec, db.parkingLocation.row i = some rec ∧ isMatch R.engine req now rec = true
  keyed : ∀ s ∈ pages.flatMap SearchPage.items, ∃ rec,
    db.parkingLocation.row s.id = some rec ∧ s.sortKey = some (sortKey R req now rec)
  ordered : (pages.flatMap SearchPage.items).Pairwise ParkingSummary.Before
  total : ∀ p ∈ pages, p.total = (pages.flatMap SearchPage.items).length

section Listing

variable {R : SearchReader} {db : Db} {now : Instant} {req : SearchRequest}

variable (R db now req) in
theorem position_nodup :
    ((matching R db req now).map (position R req now)).Nodup := by
  have hids : ((matching R db req now).map Prod.fst).Nodup :=
    db.parkingLocation.nodup_keys.sublist (List.filter_sublist.map Prod.fst)
  refine List.Nodup.of_map (fun q : Rat ×ₗ Int => (ofLex q).2) ?_
  rw [List.map_map]
  have hcast : ((fun q : Rat ×ₗ Int => (ofLex q).2) ∘ position R req now) =
      (fun i : Nat => (i : Int)) ∘ Prod.fst := rfl
  rw [hcast, ← List.map_map]
  exact hids.map fun _ _ h => Int.ofNat.inj h

/-- Pages whose rows have the tags of the ordered matches list the matches. -/
theorem listsMatches_of_tags {pages : List SearchPage}
    (htotal : ∀ p ∈ pages, p.total = count R db req now)
    (htags : (pages.flatMap SearchPage.items).map ParkingSummary.tag =
      (Keyset.ordered (position R req now) (matching R db req now)).map (rowTag R req now)) :
    ListsMatches R db now req pages := by
  have hmem : ∀ x, x ∈ Keyset.ordered (position R req now) (matching R db req now) ↔
      db.parkingLocation.row x.1 = some x.2 ∧ isMatch R.engine req now x.2 = true :=
    fun x => Keyset.ordered_perm.mem_iff.trans Table.mem_select
  constructor
  · intro i
    have hids : (pages.flatMap SearchPage.items).map (fun s => s.id) =
        (Keyset.ordered (position R req now) (matching R db req now)).map Prod.fst := by
      have := congrArg (List.map Prod.snd) htags
      rwa [List.map_map, List.map_map] at this
    rw [← List.mem_map, hids, List.mem_map]
    constructor
    · rintro ⟨x, hx, rfl⟩
      exact ⟨x.2, (hmem x).mp hx⟩
    · rintro ⟨rec, hrow⟩
      exact ⟨(i, rec), (hmem (i, rec)).mpr hrow, rfl⟩
  · intro s hs
    have htag : s.tag ∈ (pages.flatMap SearchPage.items).map ParkingSummary.tag :=
      List.mem_map_of_mem hs
    rw [htags] at htag
    obtain ⟨x, hx, heq⟩ := List.mem_map.mp htag
    have hid : x.1 = s.id := congrArg Prod.snd heq
    have hkey : some (sortKey R req now x.2) = s.sortKey := congrArg Prod.fst heq
    exact ⟨x.2, hid ▸ ((hmem x).mp hx).1, hkey.symm⟩
  · have hstrict := Keyset.ordered_strict (position_nodup R db now req)
    have htagged : ((pages.flatMap SearchPage.items).map ParkingSummary.tag).Pairwise fun a b =>
        ∃ ka kb, a.1 = some ka ∧ b.1 = some kb ∧ (ka < kb ∨ (ka = kb ∧ a.2 < b.2)) := by
      rw [htags, List.pairwise_map]
      refine hstrict.imp fun {a b} hlt => ⟨_, _, rfl, rfl, ?_⟩
      rw [position, position, Prod.Lex.toLex_lt_toLex] at hlt
      exact hlt.imp_right fun h => ⟨h.1, Int.ofNat_lt.mp h.2⟩
    exact (List.pairwise_map.mp htagged).imp fun h => h
  · intro p hp
    rw [htotal p hp, count]
    have := congrArg List.length htags
    rw [List.length_map, List.length_map, Keyset.ordered_perm.length_eq] at this
    exact this.symm

end Listing

/-- There are pages that follow the cursors from the first one on and list the matches. -/
theorem exists_listsMatches {R : SearchReader} {db : Db} {now : Instant} {text : CursorText}
    {origin : GeoPoint} {label : Option String} {radiusM : Nat} {filters : Filters}
    {sort : SortOrder} {pageSize : Nat} {first : SearchRequest}
    (hfirst : first = SearchRequest.new text origin label radiusM filters sort pageSize none)
    (hstored : ∀ i rec, db.parkingLocation.row i = some rec → WellStored R.engine rec.row)
    (htext : ∀ i rec, db.parkingLocation.row i = some rec →
      text.read (text.write (cursorOf R first now (i, rec)).toJson) =
        some (cursorOf R first now (i, rec)).toJson) :
    ∃ pages, Follows text (searchWith text origin label radiusM filters sort pageSize R db now)
        none pages ∧
      ListsMatches R db now first pages := by
  have hrows : ∀ x ∈ matching R db first now, db.parkingLocation.row x.1 = some x.2 :=
    fun x hx => (Table.mem_select.mp hx).1
  have hn : 0 < first.pageSize := hfirst ▸ SearchRequest.pageSize_pos ..
  obtain ⟨pgs, hwalk, hflat⟩ := Keyset.Walk.exists_flatten
    (position_nodup R db now first) hn none
  obtain ⟨pages, hpages, htags, htotal⟩ := Follows.of_walk hfirst
    (fun x hx => hstored x.1 x.2 (hrows x hx)) (fun x hx => htext x.1 x.2 (hrows x hx)) hwalk
    none rfl
  refine ⟨pages, hpages, listsMatches_of_tags htotal ?_⟩
  rw [List.map_flatMap, List.flatMap_def, htags, ← List.map_flatten, hflat]
  congr 1
  exact List.filter_true _

/-- The pages that begin without a cursor end, and they list what matches. -/
theorem pagination_exact (R : SearchReader) (db : Db) (now : Instant) (text : CursorText)
    (origin : GeoPoint) (label : Option String) (radiusM : Nat) (filters : Filters)
    (sort : SortOrder) (pageSize : Nat) (first : SearchRequest)
    (hfirst : first = SearchRequest.new text origin label radiusM filters sort pageSize none)
    (hstored : ∀ i rec, db.parkingLocation.row i = some rec → WellStored R.engine rec.row)
    (htext : ∀ i rec, db.parkingLocation.row i = some rec →
      text.read (text.write (cursorOf R first now (i, rec)).toJson) =
        some (cursorOf R first now (i, rec)).toJson) :
    (∃ pages, Follows text (searchWith text origin label radiusM filters sort pageSize R db now)
        none pages ∧
      ListsMatches R db now first pages) ∧
    ∀ raw c, Cursor.decode text raw = some c → c.sort ≠ sort →
      searchWith text origin label radiusM filters sort pageSize R db now (some raw) =
        searchWith text origin label radiusM filters sort pageSize R db now none := by
  constructor
  · exact exists_listsMatches hfirst hstored htext
  · intro raw c hraw hsort
    unfold searchWith
    rw [SearchRequest.new_of_other_sort text origin label radiusM filters sort pageSize hraw hsort]

/-! ## Two racks, one on each page -/

/-- A rack in the middle of the map. -/
def rackRow : ParkingLocation where
  name := "Rack"
  address := "Main street 1"
  description := none
  parkingType := "rack"
  costKind := "free"
  priceCents := none
  priceCurrency := none
  priceUnit := none
  point := ⟨0, 0, GeoPoint.zero_lat, GeoPoint.zero_lon⟩
  timezone := "UTC"
  hoursUnknown := true
  moderationState := .active
  createdAt := 0

/-- Two racks, the second one with a camera. -/
def twoRacks : Db :=
  { Db.empty 0 with
    parkingLocation := (Table.empty.insert { row := rackRow }).insert
      { row := rackRow, security := [⟨"cctv", 1⟩] } }

/-- Distances between points that are the same, and the zone UTC. -/
def oneSpot : SearchReader where
  engine :=
    { round := id
      distance := fun _ _ => 0
      sphereDistance := fun _ _ => 0
      within := fun p o _ => p = o
      offset := fun _ _ => 0
      isZone := fun tz => tz == "UTC"
      round_mono := monotone_id
      round_zero := rfl
      round_quarter := rfl
      round_five := rfl }
  recommendation := ⟨7 / 20, 1 / 4, 1 / 5, 3 / 20, 1 / 20⟩
  thresholds := ⟨30, 90, 180, 365⟩

/-- The texts of two cursors of the security order. -/
def twoCursors : CursorText where
  write c :=
    if c = ⟨some "security", some 0, some 1⟩ then "eyJpZCI6MSwicyI6InNlY3VyaXR5IiwidiI6LTAuMH0"
    else if c = ⟨some "security", some (-1), some 2⟩ then
      "eyJpZCI6MiwicyI6InNlY3VyaXR5IiwidiI6LTEuMH0"
    else ""
  read raw :=
    if raw = "eyJpZCI6MSwicyI6InNlY3VyaXR5IiwidiI6LTAuMH0" then
      some ⟨some "security", some 0, some 1⟩
    else if raw = "eyJpZCI6MiwicyI6InNlY3VyaXR5IiwidiI6LTEuMH0" then
      some ⟨some "security", some (-1), some 2⟩
    else none

theorem twoRacks_cases {i : Nat} {rec : LocationRecord}
    (h : twoRacks.parkingLocation.row i = some rec) :
    (i = 1 ∧ rec = { row := rackRow }) ∨
      (i = 2 ∧ rec = { row := rackRow, security := [⟨"cctv", 1⟩] }) := by
  rcases Table.row_insert_eq_some.mp h with ⟨rfl, rfl⟩ | h
  · exact .inr ⟨rfl, rfl⟩
  · rcases Table.row_insert_eq_some.mp h with ⟨rfl, rfl⟩ | h
    · exact .inl ⟨rfl, rfl⟩
    · cases h

theorem rackRow_wellStored : WellStored oneSpot.engine rackRow where
  zone := rfl
  type := ⟨.rack, rfl⟩
  cost := ⟨.free, rfl, fun _ h => by cases h⟩
  rating _ h := by cases h

theorem pagination_exact_twoRacks :
    (∃ pages, Follows twoCursors
        (searchWith twoCursors rackRow.point none 500 {} .security 1 oneSpot twoRacks 0)
        none pages ∧
      ListsMatches oneSpot twoRacks 0
        (.new twoCursors rackRow.point none 500 {} .security 1 none) pages) ∧
    ∀ raw c, Cursor.decode twoCursors raw = some c → c.sort ≠ .security →
      searchWith twoCursors rackRow.point none 500 {} .security 1 oneSpot twoRacks 0 (some raw) =
        searchWith twoCursors rackRow.point none 500 {} .security 1 oneSpot twoRacks 0 none :=
  pagination_exact oneSpot twoRacks 0 twoCursors rackRow.point none 500 {} .security 1 _ rfl
    (fun i rec h => by
      rcases twoRacks_cases h with ⟨_, rfl⟩ | ⟨_, rfl⟩
      · exact rackRow_wellStored
      · exact rackRow_wellStored)
    (fun i rec h => by
      rcases twoRacks_cases h with ⟨rfl, rfl⟩ | ⟨rfl, rfl⟩
      · decide +kernel
      · decide +kernel)

end BikesNest.Search
