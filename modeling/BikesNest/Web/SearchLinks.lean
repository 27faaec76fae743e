import BikesNest.Search.UseCases
import BikesNest.Web.Query
import Mathlib.Data.List.ReduceOption

/-!
# Links to the next results

`/search` reads its parameters from the query, and a page of results that is not
the last carries a link that writes them out again with a cursor behind them.
The box of the map is left out of the link, since a search that has pages does not
look at it.

A page of a search that has to find its destination is charged to the network of the
visitor, and refused when the budget is spent.

`read_linkQuery` says that the link asks for the same search from the cursor on, and
`search_links_exact` that a visitor who follows the links sees every location that
matches, once and in order.  The pages are made of one database at one instant, none of
them is refused for its budget, each finds the same origin, and the text of cursors gives
the sort keys back.  What the cache and the limiter say may change between the pages.
-/

namespace BikesNest.Web

open BikesNest.Search Domain

-- Facts about the characters of a text are decided along the text, not over all characters.
attribute [local instance (high)] List.decidableBAll

/-! ## Parameters -/

/-- How `f64` is written and read in a query. -/
structure FloatText where
  display : F64 → List Char
  parse : List Char → Option F64

/-- A plus sign may stand in front of a number. -/
def withoutPlus : List Char → List Char
  | '+' :: rest => rest
  | s => s

/-- `str::parse::<u32>`. -/
def parseU32 (s : List Char) : Option UInt32 :=
  let digits := withoutPlus s
  if digits ≠ [] ∧ digits.all Char.isDigit ∧ Nat.ofDigitChars 10 digits 0 < 4294967296 then
    some (.ofNat (Nat.ofDigitChars 10 digits 0))
  else none

/-- `Display` of a `u32`. -/
def displayU32 (n : UInt32) : List Char := Nat.toDigits 10 n.toNat

/-- `SearchParams`. -/
structure SearchParams where
  q : List Char
  lat : Option F64
  lon : Option F64
  radius : Option UInt32
  cost : List Char
  parkingType : List Char
  security : List Char
  openNow : List Char
  sort : List Char
  cursor : Option (List Char)
  bbox : List Char
deriving DecidableEq

/-- What serde reads of a field that may be missing. -/
def readWith {α : Type} (parse : List Char → Option α) : Option (List Char) → Option (Option α)
  | none => some none
  | some text => (parse text).map some

/-- `Query<SearchParams>`. -/
def SearchParams.read (F : FloatText) (query : Option (List Char)) : Option SearchParams := do
  let pairs := queryPairs query
  let q ← field pairs "q".toList
  let lat ← (field pairs "lat".toList).bind (readWith F.parse)
  let lon ← (field pairs "lon".toList).bind (readWith F.parse)
  let radius ← (field pairs "radius".toList).bind (readWith parseU32)
  let cost ← field pairs "cost".toList
  let parkingType ← field pairs "type".toList
  let security ← field pairs "security".toList
  let openNow ← field pairs "open_now".toList
  let sort ← field pairs "sort".toList
  let cursor ← field pairs "cursor".toList
  let bbox ← field pairs "bbox".toList
  return {
    q := q.getD []
    lat, lon, radius
    cost := cost.getD []
    parkingType := parkingType.getD []
    security := security.getD []
    openNow := openNow.getD []
    sort := sort.getD []
    cursor
    bbox := bbox.getD [] }

/-- A text that is not empty. -/
def present (s : List Char) : Option (List Char) := if s = [] then none else some s

/-- `SearchParams::to_input`. -/
def SearchParams.toInput (p : SearchParams) : SearchInput where
  query := (present p.q).map String.ofList
  lat := p.lat
  lon := p.lon
  radiusM := p.radius.map UInt32.toNat
  cost := (present p.cost).map String.ofList
  types := (present p.parkingType).map String.ofList
  security := (present p.security).map String.ofList
  openNow := p.openNow = "true".toList
  sort := (present p.sort).map String.ofList
  pageSize := none
  cursor := p.cursor.map String.ofList
  bbox := (present p.bbox).map String.ofList

/-- `SearchParams::is_browse`. -/
def SearchParams.isBrowse (p : SearchParams) : Bool :=
  Text.trimChars p.bbox ≠ [] && Text.trimChars p.q = [] && !(p.lat.isSome && p.lon.isSome)

/-- The parts that `SearchParams::query_string` writes, where they are there. -/
def SearchParams.parts (F : FloatText) (p : SearchParams) : List (Option (List Char)) := [
  (present p.q).map fun s => assigned "q".toList (urlencode s),
  p.lat.map fun lat => assigned "lat".toList (F.display lat),
  p.lon.map fun lon => assigned "lon".toList (F.display lon),
  p.radius.map fun r => assigned "radius".toList (displayU32 r),
  (present p.cost).map fun s => assigned "cost".toList (urlencode s),
  (present p.parkingType).map fun s => assigned "type".toList (urlencode s),
  (present p.security).map fun s => assigned "security".toList (urlencode s),
  if p.openNow = "true".toList then some "open_now=true".toList else none,
  (present p.sort).map fun s => assigned "sort".toList (urlencode s)]

/-- `SearchParams::query_string`. -/
def SearchParams.queryString (F : FloatText) (p : SearchParams) : List Char :=
  joined (p.parts F).reduceOption

/-- The link of `build_results`. -/
def nextLink (queryString cursor : List Char) : List Char :=
  if queryString = [] then "/search?cursor=".toList ++ cursor
  else "/search?".toList ++ queryString ++ "&cursor=".toList ++ cursor

/-! ## What a link says -/

/-- The parameters of a link, by name. -/
def SearchParams.fields (F : FloatText) (p : SearchParams) (cursor : List Char) :
    List (List Char × Option (List Char)) := [
  ("q".toList, present p.q),
  ("lat".toList, p.lat.map F.display),
  ("lon".toList, p.lon.map F.display),
  ("radius".toList, p.radius.map displayU32),
  ("cost".toList, present p.cost),
  ("type".toList, present p.parkingType),
  ("security".toList, present p.security),
  ("open_now".toList, if p.openNow = "true".toList then some "true".toList else none),
  ("sort".toList, present p.sort),
  ("cursor".toList, some cursor),
  ("bbox".toList, none)]

/-- The search that a link asks for. -/
def SearchParams.onward (p : SearchParams) (cursor : List Char) : SearchParams :=
  { p with
    openNow := if p.openNow = "true".toList then "true".toList else []
    cursor := some cursor
    bbox := [] }

/-- Numbers are written without anything to encode, and read as they are written. -/
structure FloatText.Faithful (F : FloatText) (x : F64) : Prop where
  plain : IsUnreservedText (F.display x)
  parse_display : F.parse (F.display x) = some x

theorem parseU32_displayU32 (n : UInt32) : parseU32 (displayU32 n) = some n := by
  have hne : Nat.toDigits 10 n.toNat ≠ [] := Nat.toDigits_ne_nil
  have hdigits : (Nat.toDigits 10 n.toNat).all Char.isDigit = true := by
    apply List.all_eq_true.mpr
    intro c hc
    exact Nat.isDigit_of_mem_toDigits (by decide) (by decide) hc
  have hplus : withoutPlus (Nat.toDigits 10 n.toNat) = Nat.toDigits 10 n.toNat := by
    unfold withoutPlus
    split
    · rename_i rest h
      rw [h] at hdigits
      simp at hdigits
    · rfl
  have hvalue : Nat.ofDigitChars 10 (Nat.toDigits 10 n.toNat) 0 = n.toNat :=
    Nat.ofDigitChars_ten_toDigits
  have hlt := n.toNat_lt
  have hall : Nat.toDigits 10 n.toNat ≠ [] ∧ (Nat.toDigits 10 n.toNat).all Char.isDigit ∧
      Nat.ofDigitChars 10 (Nat.toDigits 10 n.toNat) 0 < 4294967296 :=
    ⟨hne, hdigits, by rw [hvalue]; exact hlt⟩
  simp only [parseU32, displayU32, hplus]
  rw [if_pos hall, hvalue, UInt32.ofNat_toNat]

/-- The part of a link behind the question mark. -/
def linkQuery (queryString cursor : List Char) : List Char :=
  if queryString = [] then "cursor=".toList ++ cursor
  else queryString ++ "&cursor=".toList ++ cursor

theorem nextLink_eq (queryString cursor : List Char) :
    nextLink queryString cursor = "/search?".toList ++ linkQuery queryString cursor := by
  unfold nextLink linkQuery
  split
  · rfl
  · simp [List.append_assoc]

theorem joined_concat (parts : List (List Char)) (last : List Char) (hne : parts ≠ []) :
    joined (parts ++ [last]) = joined parts ++ '&' :: last := by
  induction parts with
  | nil => exact absurd rfl hne
  | cons part parts ih =>
    cases parts with
    | nil => simp [joined, List.intercalate]
    | cons next parts =>
      have hrest := ih (List.cons_ne_nil next parts)
      have hcons : ∀ (first second : List Char) (more : List (List Char)),
          joined (first :: second :: more) = first ++ '&' :: joined (second :: more) := by
        intro first second more
        simp [joined, List.intercalate]
      rw [List.cons_append, List.cons_append, hcons, hcons, ← List.cons_append, hrest]
      simp

theorem map_given (fields : List (List Char × Option (List Char)))
    (g : List Char × List Char → List Char) :
    (given fields).map g = (fields.map fun f => f.2.map fun v => g (f.1, v)).reduceOption := by
  induction fields with
  | nil => rfl
  | cons f fields ih =>
    obtain ⟨name, value⟩ := f
    cases value with
    | none => simpa [given] using ih
    | some v => simpa [given] using ih

theorem assigned_ne_nil (name value : List Char) : assigned name value ≠ [] := by
  simp [assigned]

theorem joined_eq_nil {parts : List (List Char)} (hparts : ∀ part ∈ parts, part ≠ [])
    (h : joined parts = []) : parts = [] := by
  cases parts with
  | nil => rfl
  | cons part parts =>
    have hpart := hparts part List.mem_cons_self
    cases parts with
    | nil => exact absurd (by simpa using h) hpart
    | cons next parts =>
      have hcons : joined (part :: next :: parts) = part ++ '&' :: joined (next :: parts) := by
        simp [joined, List.intercalate]
      rw [hcons] at h
      simp at h

section Links

variable {F : FloatText} {p : SearchParams} {cursor : List Char}

theorem parts_ne_nil : ∀ part ∈ (p.parts F).reduceOption, part ≠ [] := by
  intro part hpart
  rw [List.reduceOption_mem_iff] at hpart
  simp only [SearchParams.parts, List.mem_cons, List.not_mem_nil, or_false] at hpart
  have hmap : ∀ {α : Type} {o : Option α} {name : List Char} {f : α → List Char},
      some part = o.map (fun x => assigned name (f x)) → part ≠ [] := by
    intro α o name f h
    have h := Option.map_eq_some_iff.mp h.symm
    obtain ⟨x, -, rfl⟩ := h
    exact assigned_ne_nil name (f x)
  rcases hpart with h | h | h | h | h | h | h | h | h
  · exact hmap h
  · exact hmap h
  · exact hmap h
  · exact hmap h
  · exact hmap h
  · exact hmap h
  · exact hmap h
  · split at h
    · rw [Option.some.inj h]
      decide
    · cases h
  · exact hmap h

/-- The query of a link is made of its parameters. -/
theorem linkQuery_eq (hlat : ∀ x ∈ p.lat, F.Faithful x) (hlon : ∀ x ∈ p.lon, F.Faithful x)
    (hcursor : IsUnreservedText cursor) :
    linkQuery (p.queryString F) cursor =
      joined ((given (p.fields F cursor)).map fun f => assigned f.1 (urlencode f.2)) := by
  have hnumber : ∀ {o : Option F64} {name : List Char}, (∀ x ∈ o, F.Faithful x) →
      ((o.map F.display).map fun v => assigned name (urlencode v)) =
        o.map fun x => assigned name (F.display x) := by
    intro o name hfaithful
    cases o with
    | none => rfl
    | some x =>
      have hplain := urlencode_of_isUnreservedText (hfaithful x rfl).plain
      simp only [Option.map_some, hplain]
  have hradius : ((p.radius.map displayU32).map fun v => assigned "radius".toList (urlencode v)) =
      p.radius.map fun r => assigned "radius".toList (displayU32 r) := by
    cases p.radius with
    | none => rfl
    | some r =>
      have hplain := urlencode_of_isUnreservedText (isUnreservedText_toDigits r.toNat)
      simp only [Option.map_some, displayU32, hplain]
  have hopen : ((if p.openNow = "true".toList then some "true".toList else none).map fun v =>
      assigned "open_now".toList (urlencode v)) =
      if p.openNow = "true".toList then some "open_now=true".toList else none := by
    split
    · decide +kernel
    · rfl
  have hparts : (given (p.fields F cursor)).map (fun f => assigned f.1 (urlencode f.2)) =
      (p.parts F).reduceOption ++ [assigned "cursor".toList cursor] := by
    have hsplit : (p.fields F cursor).map (fun f => f.2.map fun v => assigned f.1 (urlencode v)) =
        p.parts F ++ [some (assigned "cursor".toList cursor), none] := by
      simp only [SearchParams.fields, SearchParams.parts, List.map_cons, List.map_nil,
        hnumber hlat, hnumber hlon, hradius, hopen, Option.map_some, Option.map_none,
        urlencode_of_isUnreservedText hcursor, List.cons_append, List.nil_append]
    rw [map_given, hsplit, List.reduceOption_append]
    rfl
  have hstring : p.queryString F = joined (p.parts F).reduceOption := rfl
  rw [hparts, hstring, linkQuery]
  split
  · rename_i hempty
    rw [joined_eq_nil parts_ne_nil hempty]
    simp [assigned]
  · rename_i hne
    have hparts : (p.parts F).reduceOption ≠ [] := by
      intro hnil
      rw [hnil] at hne
      exact hne rfl
    rw [joined_concat _ _ hparts]
    simp [assigned]

theorem readWith_map {α : Type} {display : α → List Char} {parse : List Char → Option α}
    {o : Option α} (h : ∀ x ∈ o, parse (display x) = some x) :
    readWith parse (o.map display) = some o := by
  cases o with
  | none => rfl
  | some x =>
    show (parse (display x)).map some = _
    rw [h x rfl]
    rfl

theorem getD_present (s : List Char) : (present s).getD [] = s := by
  unfold present
  split
  · rename_i h
    exact h.symm
  · rfl

theorem isName_of_mem_given {f : List Char × List Char} (h : f ∈ given (p.fields F cursor)) :
    IsName f.1 := by
  have hnames : ∀ name ∈ (p.fields F cursor).map Prod.fst,
      (utf8 name).all isUnreserved = true := by
    show ∀ name ∈ ["q".toList, "lat".toList, "lon".toList, "radius".toList, "cost".toList,
      "type".toList, "security".toList, "open_now".toList, "sort".toList, "cursor".toList,
      "bbox".toList], (utf8 name).all isUnreserved = true
    decide +kernel
  intro b hb
  exact List.all_eq_true.mp (hnames f.1 (fst_mem_of_mem_given h)) b hb

/-- The parameters of a link are those of the search, with the cursor. -/
theorem read_linkQuery (hlat : ∀ x ∈ p.lat, F.Faithful x) (hlon : ∀ x ∈ p.lon, F.Faithful x)
    (hcursor : IsUnreservedText cursor) :
    SearchParams.read F (some (linkQuery (p.queryString F) cursor)) = some (p.onward cursor) := by
  have hpairs : queryPairs (some (linkQuery (p.queryString F) cursor)) =
      given (p.fields F cursor) := by
    rw [linkQuery_eq hlat hlon hcursor]
    exact queryPairs_writeQuery writes_urlencode (keepsNames_form (by decide) fun _ h => h)
      fun f hf => isName_of_mem_given hf
  have hnodup : ((p.fields F cursor).map Prod.fst).Nodup := by
    show ["q".toList, "lat".toList, "lon".toList, "radius".toList, "cost".toList,
      "type".toList, "security".toList, "open_now".toList, "sort".toList, "cursor".toList,
      "bbox".toList].Nodup
    decide +kernel
  have hfield : ∀ {name value}, (name, value) ∈ p.fields F cursor →
      field (given (p.fields F cursor)) name = some value := fun h => field_given hnodup h
  have hq : field _ "q".toList = _ := hfield (.head _)
  have hlat' : field _ "lat".toList = _ := hfield (.tail _ (.head _))
  have hlon' : field _ "lon".toList = _ := hfield (.tail _ (.tail _ (.head _)))
  have hradius : field _ "radius".toList = _ := hfield (.tail _ (.tail _ (.tail _ (.head _))))
  have hcost : field _ "cost".toList = _ :=
    hfield (.tail _ (.tail _ (.tail _ (.tail _ (.head _)))))
  have htype : field _ "type".toList = _ :=
    hfield (.tail _ (.tail _ (.tail _ (.tail _ (.tail _ (.head _))))))
  have hsecurity : field _ "security".toList = _ :=
    hfield (.tail _ (.tail _ (.tail _ (.tail _ (.tail _ (.tail _ (.head _)))))))
  have hopen : field _ "open_now".toList = _ :=
    hfield (.tail _ (.tail _ (.tail _ (.tail _ (.tail _ (.tail _ (.tail _ (.head _))))))))
  have hsort : field _ "sort".toList = _ :=
    hfield (.tail _ (.tail _ (.tail _ (.tail _ (.tail _ (.tail _ (.tail _ (.tail _ (.head _)))))))))
  have hcursor' : field _ "cursor".toList = _ :=
    hfield (.tail _ (.tail _ (.tail _ (.tail _ (.tail _ (.tail _ (.tail _ (.tail _ (.tail _
      (.head _))))))))))
  have hbbox : field _ "bbox".toList = _ :=
    hfield (.tail _ (.tail _ (.tail _ (.tail _ (.tail _ (.tail _ (.tail _ (.tail _ (.tail _
      (.tail _ (.head _)))))))))))
  have hflag : (if p.openNow = "true".toList then some "true".toList else none).getD [] =
      if p.openNow = "true".toList then "true".toList else [] := by
    split <;> rfl
  simp only [SearchParams.read, hpairs, hq, hlat', hlon', hradius, hcost, htype, hsecurity, hopen,
    hsort, hcursor', hbbox, Option.bind_some, readWith_map fun x hx => (hlat x hx).parse_display,
    readWith_map fun x hx => (hlon x hx).parse_display,
    readWith_map fun x _ => parseU32_displayU32 x, Option.bind_eq_bind, Option.pure_def,
    getD_present, hflag]
  rfl

end Links

/-! ## Following the links -/

theorem splitAtFirst_nextLink (queryString cursor : List Char) :
    splitAtFirst '?' (nextLink queryString cursor) =
      some ("/search".toList, linkQuery queryString cursor) := by
  rw [nextLink_eq]
  rfl

/-- A link leaves out the box and nothing else. -/
theorem toInput_onward (p : SearchParams) (cursor : List Char) :
    (p.onward cursor).toInput =
      { p.toInput with cursor := some (String.ofList cursor), bbox := none } := by
  by_cases h : p.openNow = "true".toList
  · simp only [SearchParams.toInput, SearchParams.onward, h]
    rfl
  · simp only [SearchParams.toInput, SearchParams.onward, h]
    rfl

theorem isBrowse_onward (p : SearchParams) (cursor : List Char) :
    (p.onward cursor).isBrowse = false := rfl

/-- What `/search` reads and calls. -/
structure SearchApp where
  numbers : FloatText
  text : CursorText
  reader : SearchReader

/-- What the geocoder and the limiter say while one page is made. -/
structure Geocoding where
  /-- `GeocoderProvider::peek` has an answer. -/
  isCached : String → Bool
  /-- The answer of `geocode_within_budget`, where it is asked. -/
  isWithinBudget : Bool
  geocode : String → Except Unit (Option GeoHit)

/-- `geocode_is_billable`. -/
def geocodeIsBillable (isCached : String → Bool) (input : SearchInput) : Bool :=
  if input.lat.isSome && input.lon.isSome then false
  else
    match nonBlank input.query with
    | some query => !isCached query
    | none => false

/-- What `search` answers. -/
inductive SearchAnswer where
  /-- The query cannot be read. -/
  | badQuery
  /-- `browse` answers. -/
  | browse
  /-- `results_notice`, with the key of its text and the status. -/
  | notice (key : String) (status : Nat)
  /-- `internal_error`. -/
  | failed
  /-- A page of results and its link. -/
  | results (page : SearchPage) (link : Option (List Char))

/-- `search`. -/
def SearchApp.search (app : SearchApp) (geo : Geocoding) (db : Store.Db) (now : Instant)
    (query : Option (List Char)) : SearchAnswer :=
  match SearchParams.read app.numbers query with
  | none => .badQuery
  | some p =>
    if p.isBrowse then .browse
    else if geocodeIsBillable geo.isCached p.toInput && !geo.isWithinBudget then
      .notice "search.geocode_limited" 429
    else
      match SearchParking.resolve app.text geo.geocode p.toInput with
      | .error .missingDestination => .notice "search.missing" 200
      | .error .geocode => .notice "search.geocode_unavailable" 200
      | .error _ => .failed
      | .ok (request, _) =>
        match SearchParking.page app.reader db now request with
        | .error _ => .failed
        | .ok page => .results page <| page.nextCursor.map fun c =>
            nextLink (p.queryString app.numbers) (c.encode app.text).toList

/-- The pages that a visitor sees who follows the links, from the `n`-th visit on. -/
inductive FollowsLinks (app : SearchApp) (visits : Nat → Geocoding) (db : Store.Db)
    (now : Instant) : Nat → Option (List Char) → List SearchPage → Prop where
  | last {n : Nat} {query : Option (List Char)} {page : SearchPage}
      (h : app.search (visits n) db now query = .results page none) :
      FollowsLinks app visits db now n query [page]
  | more {n : Nat} {query : Option (List Char)} {page : SearchPage} {link path next : List Char}
      {pages : List SearchPage}
      (h : app.search (visits n) db now query = .results page (some link))
      (hlink : splitAtFirst '?' link = some (path, next))
      (rest : FollowsLinks app visits db now (n + 1) (some next) pages) :
      FollowsLinks app visits db now n query (page :: pages)

/-- A search is not refused for its budget, and finds this origin. -/
structure Geocoding.Finds (geo : Geocoding) (input : SearchInput) (point : GeoPoint)
    (hit : Option GeoHit) : Prop where
  paid : geocodeIsBillable geo.isCached input = true → geo.isWithinBudget = true
  origin : SearchParking.origin geo.geocode input = .ok (point, hit)

section Walk

variable {app : SearchApp} {geo : Geocoding} {visits : Nat → Geocoding} {db : Store.Db}
  {now : Instant} {p : SearchParams} {point : GeoPoint} {hit : Option GeoHit}

/-- The search of an input around an origin, with another cursor. -/
def SearchApp.searchFrom (app : SearchApp) (db : Store.Db) (now : Instant) (input : SearchInput)
    (point : GeoPoint) (hit : Option GeoHit) : Option String → Except SearchError SearchPage :=
  searchWith app.text point ((hit.map GeoHit.label).or (nonBlank input.query))
    (input.radiusM.getD defaultRadiusM) input.filters
    ((input.sort.bind SortOrder.fromCode).getD .recommended) (input.pageSize.getD 20) app.reader db
    now

/-- The parameters ask for the search of an input, from a cursor on. -/
structure AsksFor (p : SearchParams) (input : SearchInput) (raw : Option String) : Prop where
  noBrowse : p.isBrowse = false
  input_eq : ∃ bbox, p.toInput = { input with cursor := raw, bbox := bbox }

theorem search_of_asksFor {query : Option (List Char)} {input : SearchInput} {raw : Option String}
    (hread : SearchParams.read app.numbers query = some p) (hasks : AsksFor p input raw)
    (hfinds : geo.Finds input point hit) {page : SearchPage}
    (hpage : app.searchFrom db now input point hit raw = .ok page) :
    app.search geo db now query = .results page (page.nextCursor.map fun c =>
      nextLink (p.queryString app.numbers) (c.encode app.text).toList) := by
  obtain ⟨bbox, hinput⟩ := hasks.input_eq
  have hpaid : (geocodeIsBillable geo.isCached p.toInput && !geo.isWithinBudget) = false := by
    rw [hinput]
    cases hbillable : geocodeIsBillable geo.isCached input with
    | false =>
      show (geocodeIsBillable geo.isCached input && _) = false
      rw [hbillable, Bool.false_and]
    | true => rw [hfinds.paid hbillable, Bool.not_true, Bool.and_false]
  have horigin : SearchParking.origin geo.geocode p.toInput = .ok (point, hit) := by
    rw [hinput]
    exact hfinds.origin
  have hresolve : SearchParking.resolve app.text geo.geocode p.toInput =
      .ok (p.toInput.request app.text point hit, hit) := by
    rw [SearchParking.resolve, horigin]
    rfl
  have hsearch : SearchParking.page app.reader db now (p.toInput.request app.text point hit) =
      .ok page := by
    rw [hinput]
    exact hpage
  simp only [SearchApp.search, hread, hasks.noBrowse, hpaid, Bool.false_eq_true, if_false,
    hresolve, hsearch]

/-- The links walk along the cursors. -/
theorem FollowsLinks.of_follows {input : SearchInput}
    (hfinds : ∀ n, (visits n).Finds input point hit)
    (hlat : ∀ x ∈ input.lat, app.numbers.Faithful x)
    (hlon : ∀ x ∈ input.lon, app.numbers.Faithful x)
    (hcursors : ∀ c : Cursor, IsUnreservedText (c.encode app.text).toList)
    {raw : Option String} {pages : List SearchPage}
    (h : Follows app.text (app.searchFrom db now input point hit) raw pages)
    {n : Nat} {query : Option (List Char)}
    (hread : SearchParams.read app.numbers query = some p) (hasks : AsksFor p input raw) :
    FollowsLinks app visits db now n query pages := by
  induction h generalizing n query p with
  | last h hnext =>
    apply FollowsLinks.last
    rw [search_of_asksFor hread hasks (hfinds n) h, hnext]
    rfl
  | @more raw page c pages h hnext rest ih =>
    have hresults := search_of_asksFor hread hasks (hfinds n) h
    rw [hnext, Option.map_some] at hresults
    obtain ⟨bbox, hinput⟩ := hasks.input_eq
    have hlat' : ∀ x ∈ p.lat, app.numbers.Faithful x := by
      have hsame : p.lat = input.lat := congrArg SearchInput.lat hinput
      rw [hsame]
      exact hlat
    have hlon' : ∀ x ∈ p.lon, app.numbers.Faithful x := by
      have hsame : p.lon = input.lon := congrArg SearchInput.lon hinput
      rw [hsame]
      exact hlon
    apply FollowsLinks.more hresults (splitAtFirst_nextLink _ _)
    apply ih (read_linkQuery hlat' hlon' (hcursors c))
    constructor
    · exact isBrowse_onward p _
    · refine ⟨none, ?_⟩
      rw [toInput_onward, hinput, String.ofList_toList]

/-- A visitor who follows the links from the first page on sees every location that matches,
once and in order, as long as no page is refused for its budget. -/
theorem search_links_exact {query : Option (List Char)}
    (hread : SearchParams.read app.numbers query = some p) (hbrowse : p.isBrowse = false)
    (hfirst : p.cursor = none) (hfinds : ∀ n, (visits n).Finds p.toInput point hit)
    (hlat : ∀ x ∈ p.lat, app.numbers.Faithful x) (hlon : ∀ x ∈ p.lon, app.numbers.Faithful x)
    (hcursors : ∀ c : Cursor, IsUnreservedText (c.encode app.text).toList)
    (hstored : ∀ i rec, db.parkingLocation.row i = some rec → WellStored app.reader.engine rec.row)
    (htext : ∀ i rec, db.parkingLocation.row i = some rec →
      app.text.read (app.text.write (cursorOf app.reader (p.toInput.request app.text point hit) now
        (i, rec)).toJson) =
        some (cursorOf app.reader (p.toInput.request app.text point hit) now (i, rec)).toJson) :
    ∃ pages, FollowsLinks app visits db now 0 query pages ∧
      ListsMatches app.reader db now (p.toInput.request app.text point hit) pages := by
  have hcursor : p.toInput.cursor = none := by
    show p.cursor.map String.ofList = none
    rw [hfirst]
    rfl
  have hrequest : p.toInput.request app.text point hit =
      SearchRequest.new app.text point ((hit.map GeoHit.label).or (nonBlank p.toInput.query))
        (p.toInput.radiusM.getD defaultRadiusM) p.toInput.filters
        ((p.toInput.sort.bind SortOrder.fromCode).getD .recommended)
        (p.toInput.pageSize.getD 20) none := by
    rw [SearchInput.request, hcursor]
  obtain ⟨pages, hpages, hlists⟩ := exists_listsMatches hrequest hstored htext
  refine ⟨pages, ?_, hlists⟩
  apply FollowsLinks.of_follows hfinds hlat hlon hcursors hpages hread
  exact ⟨hbrowse, p.toInput.bbox, by rw [← hcursor]⟩

end Walk

/-- The number zero in a query. -/
def zeroText : FloatText where
  display x := if x = .finite 0 then "0".toList else []
  parse s := if s = "0".toList then some (.finite 0) else none

/-- The parameters of `/search?lat=0&lon=0&sort=security`. -/
def securityFirst : SearchParams where
  q := []
  lat := some (.finite 0)
  lon := some (.finite 0)
  radius := none
  cost := []
  parkingType := []
  security := []
  openNow := []
  sort := "security".toList
  cursor := none
  bbox := []

theorem zeroText_faithful : ∀ x ∈ securityFirst.lat, zeroText.Faithful x := by
  intro x hx
  have hx : x = .finite 0 := (Option.some.inj hx).symm
  rw [hx]
  constructor
  · show IsUnreservedText "0".toList
    unfold IsUnreservedText
    decide +kernel
  · decide +kernel

theorem twoCursors_plain (c : Cursor) : IsUnreservedText (c.encode twoCursors).toList := by
  unfold Cursor.encode twoCursors IsUnreservedText
  dsimp only
  split
  · decide +kernel
  · split
    · decide +kernel
    · decide +kernel

/-- Nothing is in the cache and the budget is spent. -/
def noBudget : Geocoding := ⟨fun _ => false, false, fun _ => .ok none⟩

/-- A search with coordinates needs no budget. -/
theorem noBudget_finds : noBudget.Finds securityFirst.toInput rackRow.point none where
  paid h := by
    have hfree : geocodeIsBillable noBudget.isCached securityFirst.toInput = false := by decide
    rw [hfree] at h
    cases h
  origin := rfl

theorem search_links_exact_twoRacks :
    ∃ pages, FollowsLinks ⟨zeroText, twoCursors, oneSpot⟩ (fun _ => noBudget) twoRacks 0 0
        (some "lat=0&lon=0&sort=security".toList) pages ∧
      ListsMatches oneSpot twoRacks 0 (securityFirst.toInput.request twoCursors rackRow.point none)
        pages :=
  search_links_exact (p := securityFirst)
    (show SearchParams.read zeroText _ = some securityFirst by decide +kernel)
    (by decide +kernel) rfl (fun _ => noBudget_finds) zeroText_faithful zeroText_faithful
    twoCursors_plain
    (fun i rec h => by
      rcases twoRacks_cases h with ⟨_, rfl⟩ | ⟨_, rfl⟩
      · exact rackRow_wellStored
      · exact rackRow_wellStored)
    (fun i rec h => by
      rcases twoRacks_cases h with ⟨rfl, rfl⟩ | ⟨rfl, rfl⟩
      · decide +kernel
      · decide +kernel)

end BikesNest.Web
