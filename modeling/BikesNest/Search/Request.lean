import BikesNest.Domain.Parking
import BikesNest.Domain.Text
import Mathlib.Data.List.Destutter
import Mathlib.Data.List.Sort

/-!
# Search requests

The validated search request and the cursor of the next page.  A cursor travels
as a text: `serde_json` writes an object with three members and `base64` encodes
it.  `CursorText` stands for the two crates.
-/

namespace BikesNest.Search

open Domain

/-! ## Criteria -/

def radiusOptionsM : List Nat := [250, 500, 1000, 2000, 5000]
def defaultRadiusM : Nat := 1000
def maxPageSize : Nat := 100

inductive SortOrder where
  | recommended | distance | security | rating | recentlyVerified
deriving DecidableEq

def SortOrder.asCode : SortOrder → String
  | .recommended => "recommended"
  | .distance => "distance"
  | .security => "security"
  | .rating => "rating"
  | .recentlyVerified => "recently_verified"

def SortOrder.fromCode (code : String) : Option SortOrder :=
  match code with
  | "recommended" => some .recommended
  | "distance" => some .distance
  | "security" => some .security
  | "rating" => some .rating
  | "recently_verified" => some .recentlyVerified
  | _ => none

@[simp] theorem SortOrder.fromCode_asCode (s : SortOrder) : fromCode s.asCode = some s := by
  cases s <;> rfl

/-- `paid` matches any paid location. -/
inductive CostFilter where
  | free | paid | unknown
deriving DecidableEq

/-- Structured filters, all of which must hold. -/
structure Filters where
  cost : Option CostFilter := none
  types : List ParkingType := []
  securityAll : List String := []
  openNow : Bool := false

/-! ## Cursors -/

/-- The place behind a row: its sort key and its id. -/
structure Cursor where
  sort : SortOrder
  v : Rat
  id : Int

/-- The members of a cursor's object, each if it is there and has its type. -/
structure CursorJson where
  s : Option String
  v : Option Rat
  id : Option Int
deriving DecidableEq

/-- Writing and reading the text of a cursor. -/
structure CursorText where
  write : CursorJson → String
  read : String → Option CursorJson

def Cursor.toJson (c : Cursor) : CursorJson := ⟨some c.sort.asCode, some c.v, some c.id⟩

/-- `Cursor::encode`. -/
def Cursor.encode (text : CursorText) (c : Cursor) : String := text.write c.toJson

/-- `Cursor::decode`. -/
def Cursor.decode (text : CursorText) (raw : String) : Option Cursor := do
  let json ← text.read raw
  let sort ← SortOrder.fromCode (← json.s)
  let v ← json.v
  let id ← json.id
  return { sort, v, id }

/-- A cursor whose text is read as it was written is decoded. -/
theorem Cursor.decode_encode {text : CursorText} {c : Cursor}
    (h : text.read (text.write c.toJson) = some c.toJson) :
    decode text (c.encode text) = some c := by
  rw [decode, encode, h]
  simp [toJson]

/-! ## The request -/

structure SearchRequest where
  origin : GeoPoint
  destinationLabel : Option String
  radiusM : Nat
  filters : Filters
  sort : SortOrder
  pageSize : Nat
  cursor : Option Cursor

/-- `is_known_security_code`. -/
def isKnownSecurityCode (code : String) : Bool := securityFeatureCodes.contains code

/-- `SearchRequest::new`. -/
def SearchRequest.new (text : CursorText) (origin : GeoPoint) (destinationLabel : Option String)
    (radiusM : Nat) (filters : Filters) (sort : SortOrder) (pageSize : Nat)
    (cursorRaw : Option String) : SearchRequest where
  origin := origin
  destinationLabel := destinationLabel
  radiusM := if radiusOptionsM.contains radiusM then radiusM else defaultRadiusM
  filters :=
    { filters with
      types := (filters.types.insertionSort fun a b => a.asCode ≤ b.asCode).destutter (· ≠ ·)
      securityAll :=
        (((filters.securityAll.map Text.trim).filter isKnownSecurityCode).insertionSort
          (· ≤ ·)).destutter (· ≠ ·) }
  sort := sort
  pageSize := max 1 (min pageSize maxPageSize)
  cursor := (cursorRaw.bind (Cursor.decode text)).filter fun c => c.sort = sort

variable (text : CursorText) (origin : GeoPoint) (label : Option String) (radiusM : Nat)
  (filters : Filters) (sort : SortOrder) (pageSize : Nat)

theorem SearchRequest.pageSize_pos (raw : Option String) :
    0 < (SearchRequest.new text origin label radiusM filters sort pageSize raw).pageSize := by
  show 0 < max 1 _
  omega

/-- A cursor for another sort order is dropped. -/
theorem SearchRequest.new_of_other_sort {raw : String} {c : Cursor}
    (hraw : Cursor.decode text raw = some c) (hsort : c.sort ≠ sort) :
    SearchRequest.new text origin label radiusM filters sort pageSize (some raw) =
      SearchRequest.new text origin label radiusM filters sort pageSize none := by
  simp [SearchRequest.new, hraw, Option.filter, hsort]

/-- A cursor for the same sort order arrives. -/
theorem SearchRequest.new_of_encode {c : Cursor}
    (htext : text.read (text.write c.toJson) = some c.toJson) (hsort : c.sort = sort) :
    (SearchRequest.new text origin label radiusM filters sort pageSize
      (some (c.encode text))).cursor = some c := by
  simp [SearchRequest.new, Cursor.decode_encode htext, Option.filter, hsort]

end BikesNest.Search
