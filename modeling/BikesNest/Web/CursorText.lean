import BikesNest.Domain.SerdeJson
import BikesNest.Lib.Base64
import BikesNest.Web.SearchLinks

/-!
# The text of a cursor

`Cursor::encode` and `Cursor::decode` with both of their crates: an object of three members in
the order of their keys, and base64 of the URL alphabet without padding.

`cursorText_read_write` says that a cursor with an id of the database is read from its link as it
was written.  With it, `search_links_cursors` says of the links that the pages really show what
`search_links_exact` says for any text of cursors.
-/

namespace BikesNest.Web

open BikesNest.Search Community Domain Relational Store

/-! ## Base64 of the URL alphabet -/

def urlDigit (n : Nat) : Char :=
  if n < 26 then Char.ofNat (65 + n)
  else if n < 52 then Char.ofNat (71 + n)
  else if n < 62 then Char.ofNat (n - 4)
  else if n = 62 then '-'
  else '_'

def urlValue (c : Char) : Option Nat :=
  if 65 ≤ c.toNat ∧ c.toNat ≤ 90 then some (c.toNat - 65)
  else if 97 ≤ c.toNat ∧ c.toNat ≤ 122 then some (c.toNat - 71)
  else if 48 ≤ c.toNat ∧ c.toNat ≤ 57 then some (c.toNat + 4)
  else if c = '-' then some 62
  else if c = '_' then some 63
  else none

theorem urlValue_urlDigit : ∀ n < 64, urlValue (urlDigit n) = some n := by decide

theorem urlDigit_of_urlValue {c : Char} {n : Nat} (h : urlValue c = some n) :
    n < 64 ∧ urlDigit n = c := by
  unfold urlValue at h
  split_ifs at h with hupper hlower hdigit hminus hunder
  · obtain rfl : c.toNat - 65 = n := Option.some.inj h
    have hn : 65 + (c.toNat - 65) = c.toNat := by omega
    refine ⟨by omega, ?_⟩
    rw [urlDigit, if_pos (by omega), hn, Char.ofNat_toNat]
  · obtain rfl : c.toNat - 71 = n := Option.some.inj h
    have hn : 71 + (c.toNat - 71) = c.toNat := by omega
    refine ⟨by omega, ?_⟩
    rw [urlDigit, if_neg (by omega), if_pos (by omega), hn, Char.ofNat_toNat]
  · obtain rfl : c.toNat + 4 = n := Option.some.inj h
    refine ⟨by omega, ?_⟩
    rw [urlDigit, if_neg (by omega), if_neg (by omega), if_pos (by omega), Nat.add_sub_cancel,
      Char.ofNat_toNat]
  · obtain rfl : 62 = n := Option.some.inj h
    exact ⟨by omega, hminus.symm⟩
  · obtain rfl : 63 = n := Option.some.inj h
    exact ⟨by omega, hunder.symm⟩

/-- `URL_SAFE_NO_PAD`. -/
def urlSafe : Base64.Alphabet where
  digit := urlDigit
  value := urlValue
  value_eq_some_iff := by
    intro c n
    constructor
    · exact urlDigit_of_urlValue
    · intro h
      rw [← h.2]
      exact urlValue_urlDigit n h.1

theorem isUnreservedText_urlSafe (bytes : List UInt8) :
    IsUnreservedText (urlSafe.encode bytes) := by
  have hall : ∀ n < 64, (urlDigit n).toNat < 128 ∧
      isUnreserved (.ofNat (urlDigit n).toNat) = true := by decide +kernel
  intro c hc
  obtain ⟨n, hn, rfl⟩ := urlSafe.mem_encode bytes c hc
  exact hall n hn

/-! ## Cursors -/

/-- `String::from_utf8`. -/
def fromUtf8 (bytes : List UInt8) : Option (List Char) :=
  if utf8 (fromUtf8Lossy bytes) = bytes then some (fromUtf8Lossy bytes) else none

@[simp] theorem fromUtf8_utf8 (s : List Char) : fromUtf8 (utf8 s) = some s := by
  rw [fromUtf8, fromUtf8Lossy_utf8, if_pos rfl]

/-- The object of a cursor, with its keys in order. -/
def cursorMembers (c : CursorJson) : SerdeJson.Value :=
  .obj ((c.id.map fun id => ("id".toList, .num (.int id))).toList ++
    (c.s.map fun s => ("s".toList, .str s.toList)).toList ++
    (c.v.map fun v => ("v".toList, .num (.float v))).toList)

/-- The text of a cursor as the two crates write and read it. -/
def cursorText (F : SerdeJson.FloatText) : CursorText where
  write c := String.ofList (urlSafe.encode (utf8 (SerdeJson.toText F (cursorMembers c))))
  read raw := do
    let bytes ← urlSafe.decode raw.toList
    let text ← fromUtf8 bytes
    let json ← SerdeJson.fromText F text
    return {
      s := ((SerdeJson.get json "s".toList).bind SerdeJson.asStr).map String.ofList
      v := (SerdeJson.get json "v".toList).bind (SerdeJson.asF64 F)
      id := (SerdeJson.get json "id".toList).bind SerdeJson.asI64 }

section Cursors

variable {F : SerdeJson.FloatText}

/-- A cursor needs no encoding in a link. -/
theorem cursorText_plain (c : Cursor) :
    IsUnreservedText (c.encode (cursorText F)).toList := by
  show IsUnreservedText (String.ofList _).toList
  rw [String.toList_ofList]
  exact isUnreservedText_urlSafe _

/-- A cursor of the database is read as it is written. -/
theorem cursorText_read_write {c : Cursor} (hlow : -9223372036854775808 ≤ c.id)
    (hhigh : c.id < 9223372036854775808) (hv : F.Faithful c.v) :
    (cursorText F).read ((cursorText F).write c.toJson) = some c.toJson := by
  have hfits : ∀ n ∈ (cursorMembers c.toJson).numbers, n.Fits F := by
    intro n hn
    have hn : n = .int c.id ∨ n = .float c.v := by
      simpa [cursorMembers, Cursor.toJson, JsonText.Value.numbers, JsonText.fieldNumbers] using hn
    rcases hn with rfl | rfl
    · exact ⟨hlow, by omega⟩
    · exact hv
  have hread := SerdeJson.read_write hfits
  have hs : SerdeJson.get (cursorMembers c.toJson) "s".toList =
      some (.str c.sort.asCode.toList) := by rfl
  have hkey : SerdeJson.get (cursorMembers c.toJson) "v".toList = some (.num (.float c.v)) := by rfl
  have hid : SerdeJson.get (cursorMembers c.toJson) "id".toList = some (.num (.int c.id)) := by rfl
  simp only [cursorText, String.toList_ofList, urlSafe.decode_encode, fromUtf8_utf8, hread,
    Option.bind_eq_bind, Option.bind_some, Option.pure_def, hs, hkey, hid, SerdeJson.asStr,
    SerdeJson.asF64, SerdeJson.asI64, if_pos hhigh, Option.map_some, String.ofList_toList]
  rfl

/-! ## The links -/

variable {numbers : FloatText} {visits : Nat → Geocoding} {R : SearchReader} {db : Db}
  {now : Instant} {p : SearchParams} {point : GeoPoint} {hit : Option GeoHit}

/-- A visitor who follows the links from the first page on sees every location that matches, once
and in order: the cursor of each page is read back from the link.  The database and the instant
are the same for all pages, and the sort keys survive their JSON. -/
theorem search_links_cursors {query : Option (List Char)}
    (hread : SearchParams.read numbers query = some p) (hbrowse : p.isBrowse = false)
    (hfirst : p.cursor = none) (hfinds : ∀ n, (visits n).Finds p.toInput point hit)
    (hlat : ∀ x ∈ p.lat, numbers.Faithful x) (hlon : ∀ x ∈ p.lon, numbers.Faithful x)
    (hstored : ∀ i rec, db.parkingLocation.row i = some rec → WellStored R.engine rec.row)
    (hids : ∀ i rec, db.parkingLocation.row i = some rec → i < 9223372036854775808)
    (hkeys : ∀ i rec, db.parkingLocation.row i = some rec →
      F.Faithful (sortKey R (p.toInput.request (cursorText F) point hit) now rec)) :
    ∃ pages, FollowsLinks ⟨numbers, cursorText F, R⟩ visits db now 0 query pages ∧
      ListsMatches R db now (p.toInput.request (cursorText F) point hit) pages := by
  have hcursor : ∀ i rec, db.parkingLocation.row i = some rec →
      (cursorText F).read ((cursorText F).write
        (cursorOf R (p.toInput.request (cursorText F) point hit) now (i, rec)).toJson) =
        some (cursorOf R (p.toInput.request (cursorText F) point hit) now (i, rec)).toJson := by
    intro i rec hrow
    have hid := hids i rec hrow
    apply cursorText_read_write
    · show -9223372036854775808 ≤ (i : Int)
      omega
    · show (i : Int) < 9223372036854775808
      omega
    · exact hkeys i rec hrow
  let app : SearchApp := ⟨numbers, cursorText F, R⟩
  exact @search_links_exact app visits db now p point hit query hread hbrowse hfirst hfinds hlat
    hlon cursorText_plain hstored hcursor

end Cursors

/-- A row of racks in one place. -/
def racks : Nat → Table LocationRecord
  | 0 => .empty
  | n + 1 => (racks n).insert { row := rackRow }

/-- One rack more than a page holds. -/
def manyRacks : Db := { Db.empty 0 with parkingLocation := racks 21 }

theorem next_racks (n : Nat) : (racks n).next = n + 1 := by
  induction n with
  | zero => rfl
  | succ n ih =>
    show (racks n).next + 1 = n + 1 + 1
    rw [ih]

theorem row_racks {n i : Nat} {rec : LocationRecord} (h : (racks n).row i = some rec) :
    i ≤ n ∧ rec = { row := rackRow } := by
  induction n with
  | zero => cases h
  | succ n ih =>
    rcases Table.row_insert_eq_some.mp h with ⟨hi, hrec⟩ | hold
    · rw [hi, next_racks]
      exact ⟨le_rfl, hrec⟩
    · exact ⟨Nat.le_succ_of_le (ih hold).1, (ih hold).2⟩

/-- The parameters of `/search?q=rack&sort=security`. -/
def rackSearch : SearchParams := { securityFirst with q := "rack".toList, lat := none, lon := none }

/-- The first page is paid for with the last of the budget, and the others find its answer in the
cache. -/
def firstPays (n : Nat) : Geocoding :=
  ⟨fun _ => n ≠ 0, n = 0, fun _ => .ok (some ⟨"Rack", rackRow.point⟩)⟩

theorem firstPays_finds (n : Nat) :
    (firstPays n).Finds rackSearch.toInput rackRow.point (some ⟨"Rack", rackRow.point⟩) where
  paid h := by
    have hbillable : geocodeIsBillable (firstPays n).isCached rackSearch.toInput =
        !(firstPays n).isCached "rack" := by rfl
    rw [hbillable] at h
    simpa [firstPays] using h
  origin := rfl

theorem search_links_cursors_manyRacks :
    ∃ pages, FollowsLinks ⟨zeroText, cursorText SerdeJson.threeFloats, oneSpot⟩ firstPays manyRacks
        0 0 (some "q=rack&sort=security".toList) pages ∧
      ListsMatches oneSpot manyRacks 0
        (rackSearch.toInput.request (cursorText SerdeJson.threeFloats) rackRow.point
          (some ⟨"Rack", rackRow.point⟩)) pages :=
  search_links_cursors (p := rackSearch)
    (show SearchParams.read zeroText _ = some rackSearch by decide +kernel)
    (by decide +kernel) rfl firstPays_finds (fun x h => by cases h) (fun x h => by cases h)
    (fun i rec h => by
      rw [(row_racks h).2]
      exact rackRow_wellStored)
    (fun i rec h => Nat.lt_of_le_of_lt (row_racks h).1 (by decide))
    (fun i rec h => by
      rw [(row_racks h).2]
      exact SerdeJson.threeFloats_faithful 0 (by decide))

end BikesNest.Web
