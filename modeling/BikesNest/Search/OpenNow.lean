import BikesNest.Community.HoursForm
import BikesNest.History.Operations

/-!
# Open now

`isOpenAt` is the database function `bikesnest_is_open_at`: it reads the rows of
`opening_hours` and decides whether a location is open.
`OpeningHours.statusAt` decides the same for the details page, from the rows as
`details` loads them.

`covers_openingRow` compares the two for one row whose times lie before 24:00,
and `open_now_agrees` for every week that the form accepts.
-/

namespace BikesNest.Search

open Domain Community History

/-! ## The database function -/

/-- The condition of `bikesnest_is_open_at` on one row of `opening_hours`. -/
def rowIsOpen (dow prevDow localTime : Nat) (oh : HourRow) : Bool :=
  (oh.dayOfWeek == dow && (oh.allDay ||
    (oh.opensAt ≤ localTime && localTime < oh.closesAt) ||
    (oh.closesAt ≤ oh.opensAt && oh.opensAt ≤ localTime))) ||
  (oh.dayOfWeek == prevDow && !oh.allDay && oh.closesAt ≤ oh.opensAt &&
    localTime < oh.closesAt)

/-- `bikesnest_is_open_at` for a location with these rows. -/
def isOpenAt (offset : UtcOffset) (rows : List HourRow) (tz : Tz) (instant : Instant) : Bool :=
  let localTs := localMicros offset tz instant
  let dow := isoDay (localTs / day)
  let prevDow := isoDay ((localTs - day) / day)
  let localTime := microsOfDay localTs
  rows.any (rowIsOpen dow prevDow localTime)

/-! ## The rows as the details page loads them -/

/-- The row of a schedule that `to_domain` reads from a row of `opening_hours`. -/
def openingRow (h : HourRow) : Nat × TimeRange :=
  (h.dayOfWeek, ⟨.ofMicros h.opensAt, .ofMicros h.closesAt, h.allDay⟩)

/-- The opening hours that `to_domain` reads from a location. -/
def openingOf (hoursUnknown : Bool) (hours : List HourRow) : OpeningHours :=
  if hoursUnknown then .unknown else .weekly (hours.map openingRow)

/-! ## The two answers -/

/-- A row with times before 24:00 holds a location open for the database exactly
when it does for the schedule. -/
theorem covers_openingRow {h : HourRow} (hopens : h.opensAt < 86400000000)
    (hcloses : h.closesAt < 86400000000) {us : Nat} (hus : us < 86400000000) (dow prevDow : Nat) :
    TimeRange.covers dow prevDow (.ofMicros us) (openingRow h) = rowIsOpen dow prevDow us h := by
  have hle := TimeOfDay.ofMicros_le_ofMicros hopens hus
  have hlt := TimeOfDay.ofMicros_lt_ofMicros hus hcloses
  have hover := TimeOfDay.ofMicros_le_ofMicros hcloses hopens
  unfold TimeRange.covers rowIsOpen TimeRange.overnight openingRow
  dsimp only
  simp only [hle, hlt, hover]
  rw [Bool.eq_iff_iff]
  cases h.allDay with
  | true => simp
  | false =>
    -- A range that is open between its ends closes after it opens.
    simp only [Bool.not_false, Bool.true_and, Bool.false_or, Bool.and_true, Bool.or_eq_true,
      Bool.and_eq_true, beq_iff_eq, decide_eq_true_eq, Bool.not_eq_true', decide_eq_false_iff_not]
    omega

/-- The order in which the rows are loaded does not matter. -/
theorem any_hoursInOrder (rows : List HourRow) (p : HourRow → Bool) :
    (hoursInOrder rows).any p = rows.any p :=
  (List.perm_insertionSort _ rows).any_eq

/-- The day before. -/
theorem sub_day_ediv (ts : Int) : (ts - day) / day = ts / day - 1 := by
  rw [day_eq]
  omega

/-- The two functions agree on rows whose times lie before 24:00. -/
theorem isOpenAt_iff {rows : List HourRow}
    (hrows : ∀ h ∈ rows, h.opensAt < 86400000000 ∧ h.closesAt < 86400000000)
    (offset : UtcOffset) (tz : Tz) (instant : Instant) :
    isOpenAt offset rows tz instant = true ↔
      (openingOf false (hoursInOrder rows)).statusAt offset instant tz = .isOpen := by
  have hloaded : ∀ dow prevDow, ((hoursInOrder rows).map openingRow).any
      (TimeRange.covers dow prevDow (.ofMicros (microsOfDay (localMicros offset tz instant)))) =
      rows.any (rowIsOpen dow prevDow (microsOfDay (localMicros offset tz instant))) := by
    intro dow prevDow
    rw [List.any_map, any_hoursInOrder]
    rw [Bool.eq_iff_iff, List.any_eq_true, List.any_eq_true]
    refine exists_congr fun h => and_congr_right fun hh => ?_
    rw [← covers_openingRow (hrows h hh).1 (hrows h hh).2 (microsOfDay_lt _) dow prevDow]
    rfl
  unfold isOpenAt OpeningHours.statusAt openingOf
  simp only [Bool.false_eq_true, if_false, hloaded, sub_day_ediv, isoDay_pred]
  split <;> simp_all

/-- A row of `parking_location` as `create` inserts it or `apply_edit` updates it
with these hours. -/
inductive SavedWith (hours : OpeningHours) : ParkingLocation → Prop where
  | create {new : NewParkingLocation} (h : new.hours = hours) (tz : Tz)
      (creator : Domain.UserId) (now : Instant) : SavedWith hours (new.toRow tz creator now)
  | edit {edit : ParkingEdit} (h : edit.hours = hours) (now : Instant) (r : ParkingLocation) :
      SavedWith hours (edit.apply now r)

theorem SavedWith.hoursUnknown {hours : OpeningHours} {r : ParkingLocation}
    (h : SavedWith hours r) : r.hoursUnknown = hours.isUnknown := by
  cases h with
  | create h => rw [← h]; rfl
  | edit h => rw [← h]; rfl

/-- For every week that the form accepts, with no leap second in it, the database
takes the rows, and both functions say the same at every instant in every zone. -/
theorem open_now_agrees {chrono : Chrono} {fields : Vector DayFields 7} {hours : OpeningHours}
    (hparse : parseHours chrono fields = .ok hours) (hordinary : IsOrdinary hours) :
    ∃ rows, insertHours [] hours = .ok rows ∧
      ∀ (offset : UtcOffset) (tz : Tz) (instant : Instant) (r : ParkingLocation),
        SavedWith hours r →
          (isOpenAt offset rows tz instant = true ↔
            (openingOf r.hoursUnknown (hoursInOrder rows)).statusAt offset instant tz =
              .isOpen) := by
  refine ⟨_, insertHours_parseHours hparse hordinary, fun offset tz instant r hr => ?_⟩
  rw [hr.hoursUnknown]
  cases hours with
  | unknown =>
    simp [isOpenAt, OpeningHours.rows, openingOf, OpeningHours.isUnknown, OpeningHours.statusAt]
  | weekly rows =>
    refine isOpenAt_iff (fun h hh => ?_) offset tz instant
    obtain ⟨x, hx, rfl⟩ := List.mem_map.mp hh
    exact hourRow_lt (hordinary x hx).1 (hordinary x hx).2

/-- The texts of the form `HH:MM`. -/
def hhmm (s : String) : Option TimeOfDay :=
  match s.toList with
  | [a, b, ':', c, d] =>
    let h := (a.toNat - 48) * 10 + (b.toNat - 48)
    let m := (c.toNat - 48) * 10 + (d.toNat - 48)
    if hm : [a, b, c, d].all Char.isDigit ∧ h < 24 ∧ m < 60 then
      some ⟨h * 3600 + m * 60, 0, by omega, TimeOfDay.midnight.nanos_lt⟩
    else none
  | _ => none

/-- `chrono` on texts of the form `HH:MM`. -/
def hhmmOnly : Chrono where
  parseFromStr s format := if format = "%H:%M" then hhmm s else none
  no_fraction s t h := by
    have hparse : hhmm s = some t := by simpa using h
    unfold hhmm at hparse
    split at hparse
    · dsimp only at hparse
      split at hparse
      · rw [← Option.some.inj hparse]
        exact .inl rfl
      · cases hparse
    · cases hparse

/-- Closed, but open from ten in the evening until two on Fridays. -/
def fridayNight : Vector DayFields 7 :=
  let closed : DayFields := ⟨"closed", "", "", "", ""⟩
  #v[closed, closed, closed, closed, ⟨"ranges", "22:00", "02:00", "", ""⟩, closed, closed]

def fridayNightHours : OpeningHours :=
  .weekly [(5, ⟨⟨79200, 0, by decide, TimeOfDay.midnight.nanos_lt⟩,
    ⟨7200, 0, by decide, TimeOfDay.midnight.nanos_lt⟩, false⟩)]

theorem open_now_agrees_friday :
    ∃ rows, insertHours [] fridayNightHours = .ok rows ∧
      ∀ (offset : UtcOffset) (tz : Tz) (instant : Instant) (r : ParkingLocation),
        SavedWith fridayNightHours r →
          (isOpenAt offset rows tz instant = true ↔
            (openingOf r.hoursUnknown (hoursInOrder rows)).statusAt offset instant tz =
              .isOpen) :=
  open_now_agrees (show parseHours hhmmOnly fridayNight = .ok fridayNightHours by decide +kernel)
    (by unfold IsOrdinary; decide)

end BikesNest.Search
