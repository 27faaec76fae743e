import BikesNest.Domain.Parking
import BikesNest.Lib.FirstMatch

/-!
# Time zones by bounding boxes

`OfflineTimezoneResolver`: two tables of boxes, of which the second is asked
where no box of the first covers the point, and `Etc/UTC` beyond both.  The
comment on the first table promises that any point inside a box maps to that
box's zone.

`resolve_inBox_iff` says where on the globe that is so: outside of the 23
rectangles of `contestedBoxes`, in which boxes of different zones overlap.  Three
boxes lie wholly inside of earlier ones, and their zones are never answered
(`resolve_ne_dead`).
-/

namespace BikesNest.Geo

open Domain

/-- `(lat_min, lat_max, lon_min, lon_max)` -/
structure BBox where
  latMin : Rat
  latMax : Rat
  lonMin : Rat
  lonMax : Rat
deriving DecidableEq

/-- `ZONES`. -/
def zones : List (BBox × Tz) :=
  [ -- Curitiba / São Paulo / Brasília
    (⟨-34, 5, -74, -34⟩, "America/Sao_Paulo"),
    -- Eastern US / Canada, Central US, Western US
    (⟨24, 48, -82, -66⟩, "America/New_York"),
    (⟨25, 48, -98, -82⟩, "America/Chicago"),
    (⟨32, 49, -125, -98⟩, "America/Los_Angeles"),
    -- Western Europe, UK / Ireland, Central Europe, Moscow
    (⟨36, 58, -12, 30⟩, "Europe/Paris"),
    (⟨50, 59, -11, 2⟩, "Europe/London"),
    (⟨45, 56, 6, 24⟩, "Europe/Berlin"),
    (⟨44, 66, 28, 62⟩, "Europe/Moscow"),
    -- Japan, China, India, Southeast Asia
    (⟨30, 46, 129, 146⟩, "Asia/Tokyo"),
    (⟨18, 50, 96, 135⟩, "Asia/Shanghai"),
    (⟨6, 35, 66, 92⟩, "Asia/Kolkata"),
    (⟨-8, 23, 92, 122⟩, "Asia/Singapore"),
    -- Eastern Australia, Mexico / Central America, Andean South America
    (⟨-44, -10, 113, 154⟩, "Australia/Sydney"),
    (⟨14, 33, -118, -86⟩, "America/Mexico_City"),
    (⟨-56, 2, -81, -58⟩, "America/Bogota")]

/-- `CAPITALS`. -/
def capitals : List (BBox × Tz) :=
  [ -- Portugal, Argentina, Chile, Iceland / Norway
    (⟨36, 42, -10, -6⟩, "Europe/Lisbon"),
    (⟨-56, -21, -74, -53⟩, "America/Argentina/Buenos_Aires"),
    (⟨-56, -17, -76, -66⟩, "America/Santiago"),
    (⟨60, 71, -25, 30⟩, "Europe/Oslo"),
    -- Middle East / Turkey, South Africa, East coast Africa, Philippines
    (⟨24, 42, 26, 60⟩, "Asia/Dubai"),
    (⟨-35, -22, 16, 33⟩, "Africa/Johannesburg"),
    (⟨-12, 36, 27, 52⟩, "Africa/Nairobi"),
    (⟨4, 19, 118, 126⟩, "Asia/Manila")]

/-- `DEFAULT_ZONE`. -/
def defaultZone : Tz := "Etc/UTC"

/-- `in_box`. -/
def inBox (bbox : BBox) (point : GeoPoint) : Bool :=
  bbox.latMin ≤ point.lat && point.lat ≤ bbox.latMax &&
    bbox.lonMin ≤ point.lon && point.lon ≤ bbox.lonMax

/-- `OfflineTimezoneResolver::resolve`. -/
def resolve (point : GeoPoint) : Tz :=
  ((FirstMatch.lookup inBox zones point).or (FirstMatch.lookup inBox capitals point)).getD
    defaultZone

/-! ## Overlaps -/

/-- The part that two boxes share. -/
def BBox.meet (a b : BBox) : Option BBox :=
  let both : BBox :=
    ⟨max a.latMin b.latMin, min a.latMax b.latMax, max a.lonMin b.lonMin, min a.lonMax b.lonMax⟩
  if both.latMin ≤ both.latMax ∧ both.lonMin ≤ both.lonMax then some both else none

theorem inBox_meet (a b : BBox) (point : GeoPoint) :
    (∃ r, a.meet b = some r ∧ inBox r point = true) ↔
      inBox a point = true ∧ inBox b point = true := by
  simp only [BBox.meet, inBox, Bool.and_eq_true, decide_eq_true_eq]
  refine ⟨?_, ?_⟩
  · rintro ⟨r, hr, hin⟩
    split_ifs at hr
    cases hr
    simp only [max_le_iff, le_min_iff] at hin
    exact ⟨⟨⟨⟨hin.1.1.1.1, hin.1.1.2.1⟩, hin.1.2.1⟩, hin.2.1⟩,
      ⟨⟨hin.1.1.1.2, hin.1.1.2.2⟩, hin.1.2.2⟩, hin.2.2⟩
  · rintro ⟨ha, hb⟩
    have hlat := le_trans (max_le ha.1.1.1 hb.1.1.1) (le_min ha.1.1.2 hb.1.1.2)
    have hlon := le_trans (max_le ha.1.2 hb.1.2) (le_min ha.2 hb.2)
    refine ⟨_, if_pos ⟨hlat, hlon⟩, ?_⟩
    simp only [max_le_iff, le_min_iff]
    exact ⟨⟨⟨⟨ha.1.1.1, hb.1.1.1⟩, ha.1.1.2, hb.1.1.2⟩, ha.1.2, hb.1.2⟩, ha.2, hb.2⟩

/-- Where boxes of different zones overlap, edges included. -/
def contestedBoxes : List BBox :=
  [ -- Brazil with the Andes, Argentina and Chile
    ⟨-34, 2, -74, -58⟩, ⟨-34, -21, -74, -53⟩, ⟨-34, -17, -74, -66⟩,
    -- the edges between the parts of the US, and Mexico with two of them
    ⟨25, 48, -82, -82⟩, ⟨32, 48, -98, -98⟩, ⟨25, 33, -98, -86⟩, ⟨32, 33, -118, -98⟩,
    -- Western Europe with the UK, Central Europe, Moscow, Portugal, Turkey and Africa
    ⟨50, 58, -11, 2⟩, ⟨45, 56, 6, 24⟩, ⟨44, 58, 28, 30⟩, ⟨36, 42, -10, -6⟩,
    ⟨36, 42, 26, 30⟩, ⟨36, 36, 27, 30⟩,
    -- Moscow with Norway
    ⟨60, 66, 28, 30⟩,
    -- East and Southeast Asia
    ⟨30, 46, 129, 135⟩, ⟨18, 23, 96, 122⟩, ⟨18, 19, 118, 126⟩, ⟨6, 23, 92, 92⟩,
    ⟨4, 19, 118, 122⟩,
    -- the Andes with Argentina and Chile, and these two
    ⟨-56, -21, -74, -58⟩, ⟨-56, -17, -76, -66⟩, ⟨-56, -21, -74, -66⟩,
    -- the Middle East with Africa
    ⟨24, 36, 27, 52⟩]

theorem contested_eq :
    FirstMatch.contested BBox.meet (zones ++ capitals) = contestedBoxes := by decide +kernel

/-! ## What the tables promise -/

theorem resolve_eq (point : GeoPoint) :
    resolve point = (FirstMatch.lookup inBox (zones ++ capitals) point).getD defaultZone := by
  rw [resolve, FirstMatch.lookup_append]

/-- Any point inside a box maps to that box's zone. -/
def MapsToBoxes (point : GeoPoint) : Prop :=
  ∀ entry ∈ zones ++ capitals, inBox entry.1 point = true → resolve point = entry.2

instance (point : GeoPoint) : Decidable (MapsToBoxes point) :=
  inferInstanceAs (Decidable (∀ entry ∈ zones ++ capitals, inBox entry.1 point = true →
    resolve point = entry.2))

theorem mapsToBoxes_iff_lookup {point : GeoPoint} :
    MapsToBoxes point ↔ ∀ entry ∈ zones ++ capitals, inBox entry.1 point = true →
      FirstMatch.lookup inBox (zones ++ capitals) point = some entry.2 := by
  have heach : ∀ entry ∈ zones ++ capitals, inBox entry.1 point = true →
      (resolve point = entry.2 ↔
        FirstMatch.lookup inBox (zones ++ capitals) point = some entry.2) := by
    intro entry hentry hin
    obtain ⟨zone, hzone⟩ := FirstMatch.lookup_isSome hentry hin
    rw [resolve_eq, hzone, Option.getD_some, Option.some.injEq]
  exact forall₃_congr heach

/-- The comment holds exactly outside of the contested boxes. -/
theorem resolve_inBox_iff (point : GeoPoint) :
    MapsToBoxes point ↔ ∀ bbox ∈ contestedBoxes, inBox bbox point = false := by
  rw [mapsToBoxes_iff_lookup, FirstMatch.lookup_eq_iff,
    FirstMatch.agree_iff fun a b => inBox_meet a b point, contested_eq]

/-- London, Berlin and Lisbon are in Paris, and Santiago is in Sao Paulo. -/
theorem not_mapsToBoxes :
    ¬ MapsToBoxes ⟨51.5, -0.1, by decide +kernel, by decide +kernel⟩ ∧
      ¬ MapsToBoxes ⟨52.5, 13.4, by decide +kernel, by decide +kernel⟩ ∧
      ¬ MapsToBoxes ⟨38.7, -9.1, by decide +kernel, by decide +kernel⟩ ∧
      ¬ MapsToBoxes ⟨-33.4, -70.7, by decide +kernel, by decide +kernel⟩ := by
  decide +kernel

/-! ## Zones that are never answered -/

theorem inBox_of_subset {inner outer : BBox} {point : GeoPoint}
    (hlat : outer.latMin ≤ inner.latMin ∧ inner.latMax ≤ outer.latMax)
    (hlon : outer.lonMin ≤ inner.lonMin ∧ inner.lonMax ≤ outer.lonMax)
    (h : inBox inner point = true) : inBox outer point = true := by
  simp only [inBox, Bool.and_eq_true, decide_eq_true_eq] at h ⊢
  exact ⟨⟨⟨hlat.1.trans h.1.1.1, h.1.1.2.trans hlat.2⟩, hlon.1.trans h.1.2⟩, h.2.trans hlon.2⟩

/-- A box inside of an earlier one is never asked. -/
theorem resolve_ne_of_subset (before : List (BBox × Tz)) (earlier entry : BBox × Tz)
    {after : List (BBox × Tz)}
    (hsplit : zones ++ capitals = before ++ entry :: after) (hearlier : earlier ∈ before)
    (hlat : earlier.1.latMin ≤ entry.1.latMin ∧ entry.1.latMax ≤ earlier.1.latMax)
    (hlon : earlier.1.lonMin ≤ entry.1.lonMin ∧ entry.1.lonMax ≤ earlier.1.lonMax)
    (hbefore : ∀ e ∈ before, e.2 ≠ entry.2) (hafter : ∀ e ∈ after, e.2 ≠ entry.2)
    (hdefault : entry.2 ≠ defaultZone) (point : GeoPoint) : resolve point ≠ entry.2 := by
  have hcovered : inBox entry.1 point = true → inBox earlier.1 point = true :=
    inBox_of_subset hlat hlon
  have hnever := FirstMatch.lookup_ne_of_covered hearlier hbefore hafter hcovered
  rw [← hsplit] at hnever
  rw [resolve_eq]
  cases hfound : FirstMatch.lookup inBox (zones ++ capitals) point with
  | none => exact fun h => hdefault h.symm
  | some zone =>
    rw [hfound] at hnever
    exact fun h => hnever (congrArg some h)

/-- Central Europe, Portugal and Chile are in the tables, and no point on the
globe gets their zones. -/
theorem resolve_ne_dead (point : GeoPoint) :
    resolve point ≠ "Europe/Berlin" ∧ resolve point ≠ "Europe/Lisbon" ∧
      resolve point ≠ "America/Santiago" := by
  have hberlin := resolve_ne_of_subset (zones.take 6) (⟨36, 58, -12, 30⟩, "Europe/Paris")
    (⟨45, 56, 6, 24⟩, "Europe/Berlin") rfl (by decide +kernel) (by decide +kernel)
    (by decide +kernel) (by decide +kernel) (by decide +kernel) (by decide) point
  have hlisbon := resolve_ne_of_subset zones (⟨36, 58, -12, 30⟩, "Europe/Paris")
    (⟨36, 42, -10, -6⟩, "Europe/Lisbon") rfl (by decide +kernel) (by decide +kernel)
    (by decide +kernel) (by decide +kernel) (by decide +kernel) (by decide) point
  have hsantiago := resolve_ne_of_subset (zones ++ capitals.take 2)
    (⟨-56, 2, -81, -58⟩, "America/Bogota") (⟨-56, -17, -76, -66⟩, "America/Santiago") rfl
    (by decide +kernel) (by decide +kernel) (by decide +kernel) (by decide +kernel)
    (by decide +kernel) (by decide) point
  exact ⟨hberlin, hlisbon, hsantiago⟩

end BikesNest.Geo
