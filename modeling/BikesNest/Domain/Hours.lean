import BikesNest.Domain.Parking
import BikesNest.Domain.Time

/-!
# Opening hours on the wall clock

`OpeningHours.statusAt` reads a weekly schedule at an instant.  The instant is
turned into the wall clock of the location once, with the offset that the
time-zone data give for that zone and instant; `UtcOffset` stands for the data.

`TimeOfDay.ofMicros_le_ofMicros` and `TimeOfDay.ofMicros_lt_ofMicros` compare two
times of day by the numbers that the database stores for them.
-/

namespace BikesNest.Domain

/-! ## Comparing times of day -/

namespace TimeOfDay

/-- The order of `chrono::NaiveTime`: by second, then by fraction. -/
instance : LE TimeOfDay where
  le a b := a.secs < b.secs ∨ (a.secs = b.secs ∧ a.nanos ≤ b.nanos)

instance : LT TimeOfDay where
  lt a b := a.secs < b.secs ∨ (a.secs = b.secs ∧ a.nanos < b.nanos)

instance (a b : TimeOfDay) : Decidable (a ≤ b) :=
  inferInstanceAs (Decidable (a.secs < b.secs ∨ (a.secs = b.secs ∧ a.nanos ≤ b.nanos)))

instance (a b : TimeOfDay) : Decidable (a < b) :=
  inferInstanceAs (Decidable (a.secs < b.secs ∨ (a.secs = b.secs ∧ a.nanos < b.nanos)))

theorem ofMicros_le_ofMicros {m n : Nat} (hm : m < 86400000000) (hn : n < 86400000000) :
    ofMicros m ≤ ofMicros n ↔ m ≤ n := by
  show _ < _ ∨ (_ = _ ∧ _ ≤ _) ↔ _
  simp only [ofMicros]
  omega

theorem ofMicros_lt_ofMicros {m n : Nat} (hm : m < 86400000000) (hn : n < 86400000000) :
    ofMicros m < ofMicros n ↔ m < n := by
  show _ < _ ∨ (_ = _ ∧ _ < _) ↔ _
  simp only [ofMicros]
  omega

/-- No leap second. -/
def isOrdinary (t : TimeOfDay) : Bool := t.nanos < 1000000000

theorem micros_lt {t : TimeOfDay} (h : t.isOrdinary = true) : t.micros < 86400000000 := by
  have hsecs := t.secs_lt
  simp only [isOrdinary, decide_eq_true_eq] at h
  unfold micros
  omega

/-- Whole seconds, a leap second included. -/
def isWhole (t : TimeOfDay) : Prop := t.nanos = 0 ∨ t.nanos = 1000000000

/-- Two ordinary times of whole seconds with the same microseconds are one. -/
theorem eq_of_micros_eq {a b : TimeOfDay} (ha : a.isWhole) (hb : b.isWhole)
    (ha' : a.isOrdinary = true) (hb' : b.isOrdinary = true) (h : a.micros = b.micros) : a = b := by
  obtain ⟨as, an, _, _⟩ := a
  obtain ⟨bs, bn, _, _⟩ := b
  simp only [isWhole, isOrdinary, decide_eq_true_eq, micros, TimeOfDay.mk.injEq] at *
  omega

end TimeOfDay

/-! ## Wall clocks -/

/-- The time-zone data: the seconds that the wall clock of a zone is ahead of
UTC at an instant. -/
abbrev UtcOffset := Tz → Instant → Int

/-- Wall-clock microseconds since 1970-01-01T00:00:00 local time. -/
def localMicros (offset : UtcOffset) (tz : Tz) (instant : Instant) : Int :=
  instant + offset tz instant * second

/-- The ISO weekday of a day, counted from 1970-01-01, which was a Thursday. -/
def isoDay (d : Int) : Nat := ((d + 3) % 7).toNat + 1

/-- The microseconds of a wall clock since its midnight. -/
def microsOfDay (ts : Int) : Nat := (ts % day).toNat

theorem day_eq : day = 86400000000 := by decide

theorem microsOfDay_lt (ts : Int) : microsOfDay ts < 86400000000 := by
  have hlt := Int.emod_lt_of_pos ts (b := day) (by decide)
  have hnonneg := Int.emod_nonneg ts (b := day) (by decide)
  rw [day_eq] at hlt hnonneg
  unfold microsOfDay
  rw [day_eq]
  omega

/-- The weekday before a day is the ISO weekday one less, around the week. -/
theorem isoDay_pred (d : Int) :
    isoDay (d - 1) = if isoDay d = 1 then 7 else isoDay d - 1 := by
  unfold isoDay
  split <;> omega

/-! ## The status of a schedule -/

inductive OpenStatus where
  | isOpen | closed | unknown
deriving DecidableEq

/-- A range that closes at or before it opens runs past midnight. -/
def TimeRange.overnight (r : TimeRange) : Bool := !r.allDay && decide (r.closesAt ≤ r.opensAt)

/-- Does a row of the schedule hold the place open at a time `t` of a weekday? -/
def TimeRange.covers (today yesterday : Nat) (t : TimeOfDay) (x : Nat × TimeRange) : Bool :=
  let range := x.2
  (x.1 == today && (range.allDay ||
    (range.overnight && range.opensAt ≤ t) ||
    (!range.overnight && range.opensAt ≤ t && t < range.closesAt))) ||
  -- Spill-over from yesterday's overnight range.
  (x.1 == yesterday && range.overnight && t < range.closesAt)

/-- `OpeningHours::status_at`. -/
def OpeningHours.statusAt (offset : UtcOffset) (hours : OpeningHours) (instant : Instant)
    (tz : Tz) : OpenStatus :=
  match hours with
  | .unknown => .unknown
  | .weekly rows =>
    let ts := localMicros offset tz instant
    let today := isoDay (ts / day)
    let t := TimeOfDay.ofMicros (microsOfDay ts)
    let yesterday := if today = 1 then 7 else today - 1
    if rows.any (TimeRange.covers today yesterday t) then .isOpen else .closed

end BikesNest.Domain
