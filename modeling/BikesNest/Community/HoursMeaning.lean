import BikesNest.Community.HoursForm
import BikesNest.Lib.Arcs
import Mathlib.Order.Basic

/-!
# What the opening-hours form says

The days of the form say when a place is open: all day, or in ranges, which run past
midnight when they close before they open.  `statusAt_parseHours` compares this
reading with the evaluation of the parsed week at an instant.

The form refuses two ranges of one day that overlap.  A range is an arc of the
day, `TimeRange.times`, and `rangesOverlap` compares the arcs after their ends are
rounded down to minutes.  `parseHours_overlap` says for which ranges the rounding
does not change the answer.
-/

namespace BikesNest.Domain

/-! ## Times of day in order -/

namespace TimeOfDay

theorem le_def {a b : TimeOfDay} :
    a ≤ b ↔ a.secs < b.secs ∨ (a.secs = b.secs ∧ a.nanos ≤ b.nanos) := Iff.rfl

theorem lt_def {a b : TimeOfDay} :
    a < b ↔ a.secs < b.secs ∨ (a.secs = b.secs ∧ a.nanos < b.nanos) := Iff.rfl

protected theorem le_refl (a : TimeOfDay) : a ≤ a := by
  rw [le_def]
  omega

protected theorem le_trans (a b c : TimeOfDay) (hab : a ≤ b) (hbc : b ≤ c) : a ≤ c := by
  rw [le_def] at *
  omega

protected theorem le_antisymm (a b : TimeOfDay) (hab : a ≤ b) (hba : b ≤ a) : a = b := by
  obtain ⟨as, an, _, _⟩ := a
  obtain ⟨bs, bn, _, _⟩ := b
  simp only [le_def, TimeOfDay.mk.injEq] at *
  omega

protected theorem lt_iff_le_not_ge (a b : TimeOfDay) : a < b ↔ a ≤ b ∧ ¬ b ≤ a := by
  rw [lt_def, le_def, le_def]
  omega

protected theorem le_total (a b : TimeOfDay) : a ≤ b ∨ b ≤ a := by
  rw [le_def, le_def]
  omega

instance : LinearOrder TimeOfDay where
  le_refl := TimeOfDay.le_refl
  le_trans := TimeOfDay.le_trans
  le_antisymm := TimeOfDay.le_antisymm
  lt_iff_le_not_ge := TimeOfDay.lt_iff_le_not_ge
  le_total := TimeOfDay.le_total
  toDecidableLE := inferInstance

end TimeOfDay

/-- The times of day that a range with two ends covers. -/
def TimeRange.times (r : TimeRange) : Arc TimeOfDay := ⟨r.opensAt, r.closesAt⟩

end BikesNest.Domain

namespace BikesNest.Community

open Domain

/-! ## Times in texts -/

/-- The time that six digits say; `:60` is a leap second. -/
def sixDigits (a b c d e f : Char) : Option TimeOfDay :=
  let hour := (a.toNat - 48) * 10 + (b.toNat - 48)
  let minute := (c.toNat - 48) * 10 + (d.toNat - 48)
  let sec := (e.toNat - 48) * 10 + (f.toNat - 48)
  if h : [a, b, c, d, e, f].all Char.isDigit ∧ hour < 24 ∧ minute < 60 ∧ sec ≤ 60 then
    some ⟨hour * 3600 + minute * 60 + min sec 59, if sec = 60 then 1000000000 else 0,
      by omega, by split <;> decide⟩
  else none

theorem sixDigits_isWhole {a b c d e f : Char} {t : TimeOfDay}
    (h : sixDigits a b c d e f = some t) : t.isWhole := by
  unfold sixDigits at h
  dsimp only at h
  split at h
  · rw [← Option.some.inj h]
    unfold TimeOfDay.isWhole
    dsimp only
    split
    · exact .inr rfl
    · exact .inl rfl
  · cases h

/-- `chrono` on texts with two digits for each number. -/
def twoDigitTexts (s format : String) : Option TimeOfDay :=
  match s.toList with
  | [a, b, ':', c, d] => if format = "%H:%M" then sixDigits a b c d '0' '0' else none
  | [a, b, ':', c, d, ':', e, f] => if format = "%H:%M:%S" then sixDigits a b c d e f else none
  | _ => none

def twoDigits : Chrono where
  parseFromStr := twoDigitTexts
  no_fraction s t h := by
    have hread : ∀ {format : String}, twoDigitTexts s format = some t → t.isWhole := by
      intro format h
      unfold twoDigitTexts at h
      split at h
      · split at h
        · exact sixDigits_isWhole h
        · cases h
      · split at h
        · exact sixDigits_isWhole h
        · cases h
      · cases h
    exact h.elim hread hread

/-! ## The rows of a day -/

/-- A pair of fields gives a range: two times, which differ. -/
structure GivesRange (chrono : Chrono) (opens closes : String) (r : TimeRange) : Prop where
  opensAt : parseTime chrono (Text.trim opens) = some r.opensAt
  closesAt : parseTime chrono (Text.trim closes) = some r.closesAt
  ne : r.opensAt ≠ r.closesAt
  allDay : r.allDay = false

theorem parseTime_empty (chrono : Chrono) : parseTime chrono "" = none := by
  unfold parseTime
  rw [show Text.trim "" = "" from rfl]
  exact if_pos rfl

theorem parseRange_some_iff {chrono : Chrono} {invalid : HoursError} {opens closes : String}
    {r : TimeRange} :
    parseRange chrono invalid (Text.trim opens) (Text.trim closes) = .ok (some r) ↔
      GivesRange chrono opens closes r := by
  constructor
  · intro h
    unfold parseRange at h
    split at h
    · cases h
    · split at h
      · next o c ho hc =>
        split at h
        · cases h
        · next hne =>
          rw [← Option.some.inj (Except.ok.inj h)]
          exact ⟨ho, hc, hne, rfl⟩
      · cases h
  · rintro ⟨hopens, hcloses, hne, hall⟩
    have hfull : ¬ (Text.trim opens = "" ∧ Text.trim closes = "") := by
      intro hempty
      rw [hempty.1, parseTime_empty] at hopens
      cases hopens
    unfold parseRange
    rw [if_neg hfull, hopens, hcloses]
    dsimp only
    rw [if_neg hne, ← hall]

theorem parseRange_none {chrono : Chrono} {invalid : HoursError} {opens closes : String}
    (h : parseRange chrono invalid opens closes = .ok none) : opens = "" ∧ closes = "" := by
  unfold parseRange at h
  split at h
  · assumption
  · split at h
    · split at h <;> cases h
    · cases h

/-- The day says that the place is open from one time to another. -/
def DayFields.SaysRange (chrono : Chrono) (f : DayFields) (opens closes : TimeOfDay) : Prop :=
  f.dayState = .ranges ∧
    ((parseTime chrono (Text.trim f.r1Open) = some opens ∧
        parseTime chrono (Text.trim f.r1Close) = some closes) ∨
      (parseTime chrono (Text.trim f.r2Open) = some opens ∧
        parseTime chrono (Text.trim f.r2Close) = some closes))

/-- A pair of fields that was read gives the ranges that it says. -/
theorem mem_parseRange {chrono : Chrono} {invalid : HoursError} {opens closes : String}
    {read : Option TimeRange} {r : TimeRange}
    (h : parseRange chrono invalid (Text.trim opens) (Text.trim closes) = .ok read) :
    read = some r ↔ parseTime chrono (Text.trim opens) = some r.opensAt ∧
      parseTime chrono (Text.trim closes) = some r.closesAt ∧ r.allDay = false := by
  cases read with
  | none =>
    obtain ⟨hopens, -⟩ := parseRange_none h
    rw [hopens, parseTime_empty]
    simp
  | some s =>
    have hs := parseRange_some_iff.mp h
    rw [hs.opensAt, hs.closesAt, Option.some.injEq, Option.some.injEq, Option.some.injEq]
    constructor
    · rintro rfl
      exact ⟨rfl, rfl, hs.allDay⟩
    · rintro ⟨hopens, hcloses, hall⟩
      obtain ⟨so, sc, sall⟩ := s
      obtain ⟨ro, rc, rall⟩ := r
      obtain rfl : so = ro := hopens
      obtain rfl : sc = rc := hcloses
      rw [show sall = rall from hs.allDay.trans hall.symm]

/-- An accepted day of ranges, taken apart into its two pairs of fields. -/
theorem parseDay_ranges {chrono : Chrono} {day : Nat} {f : DayFields} {rs : List TimeRange}
    (hstate : f.dayState = .ranges) (h : parseDay chrono day f = .ok rs) :
    ∃ first second,
      parseRange chrono ⟨day, hoursInvalidRange⟩ (Text.trim f.r1Open) (Text.trim f.r1Close) =
        .ok first ∧
      parseRange chrono ⟨day, hoursInvalidRange⟩ (Text.trim f.r2Open) (Text.trim f.r2Close) =
        .ok second ∧
      rs = first.toList ++ second.toList := by
  unfold parseDay at h
  rw [hstate] at h
  dsimp only at h
  generalize hfirst : parseRange chrono _ (Text.trim f.r1Open) (Text.trim f.r1Close) = first at h ⊢
  generalize hsecond :
    parseRange chrono _ (Text.trim f.r2Open) (Text.trim f.r2Close) = second at h ⊢
  match first, second with
  | .error _, _ => cases h
  | .ok _, .error _ => cases h
  | .ok first, .ok second =>
    refine ⟨first, second, rfl, rfl, ?_⟩
    match first, second with
    | none, none => cases h
    | some a, some b =>
      cases hapart : rangesOverlap a b with
      | true => simp [bind, Except.bind, hapart] at h
      | false =>
        simp only [bind, Except.bind, hapart] at h
        exact (Except.ok.inj h).symm
    | some a, none => exact (Except.ok.inj h).symm
    | none, some b => exact (Except.ok.inj h).symm

/-- The rows of an accepted day are what its fields say. -/
theorem mem_parseDay {chrono : Chrono} {day : Nat} {f : DayFields} {rs : List TimeRange}
    (h : parseDay chrono day f = .ok rs) (r : TimeRange) :
    r ∈ rs ↔ (f.dayState = .allDay ∧ r = .wholeDay) ∨
      (f.SaysRange chrono r.opensAt r.closesAt ∧ r.allDay = false) := by
  unfold DayFields.SaysRange
  cases hstate : f.dayState with
  | ranges =>
    obtain ⟨first, second, hfirst, hsecond, rfl⟩ := parseDay_ranges hstate h
    rw [List.mem_append, Option.mem_toList, Option.mem_toList, mem_parseRange hfirst,
      mem_parseRange hsecond]
    grind
  | allDay =>
    unfold parseDay at h
    rw [hstate] at h
    rw [← Except.ok.inj h]
    simp
  | unknown | closed =>
    unfold parseDay at h
    rw [hstate] at h
    rw [← Except.ok.inj h]
    simp

theorem parseDay_ne {chrono : Chrono} {day : Nat} {f : DayFields} {rs : List TimeRange}
    (h : parseDay chrono day f = .ok rs) {opens closes : TimeOfDay}
    (hsaid : f.SaysRange chrono opens closes) : opens ≠ closes := by
  obtain ⟨first, second, hfirst, hsecond, -⟩ := parseDay_ranges hsaid.1 h
  rcases hsaid.2 with ⟨hopens, hcloses⟩ | ⟨hopens, hcloses⟩
  · have hread := (mem_parseRange (r := ⟨opens, closes, false⟩) hfirst).mpr ⟨hopens, hcloses, rfl⟩
    rw [hread] at hfirst
    exact (parseRange_some_iff.mp hfirst).ne
  · have hread := (mem_parseRange (r := ⟨opens, closes, false⟩) hsecond).mpr ⟨hopens, hcloses, rfl⟩
    rw [hread] at hsecond
    exact (parseRange_some_iff.mp hsecond).ne

/-! ## The rows of a week -/

/-- The rows of accepted days in a row: each day is accepted, and a row belongs to its
day. -/
theorem parseDays_ok {chrono : Chrono} {fs : List DayFields} {day : Nat}
    {rows : List (Nat × TimeRange)} (h : parseDays chrono day fs = .ok rows) :
    (∀ i (hi : i < fs.length), ∃ rs, parseDay chrono (day + i) fs[i] = .ok rs) ∧
      ∀ x, x ∈ rows ↔ ∃ i, ∃ hi : i < fs.length, ∃ rs,
        parseDay chrono (day + i) fs[i] = .ok rs ∧ x.1 = day + i ∧ x.2 ∈ rs := by
  induction fs generalizing day rows with
  | nil =>
    rw [← Except.ok.inj h]
    simp
  | cons f fs ih =>
    obtain ⟨first, rest, hday, hrest, rfl⟩ := parseDays_cons_ok h
    obtain ⟨hok, hmem⟩ := ih hrest
    constructor
    · intro i hi
      cases i with
      | zero => exact ⟨first, hday⟩
      | succ i =>
        rw [show day + (i + 1) = day + 1 + i by omega]
        exact hok i (by simpa using hi)
    · intro x
      rw [List.mem_append, List.mem_map, hmem x]
      constructor
      · rintro (⟨r, hr, rfl⟩ | ⟨i, hi, rs, hrs, hx⟩)
        · exact ⟨0, by simp, first, hday, rfl, hr⟩
        · refine ⟨i + 1, by simpa using hi, rs, ?_⟩
          rw [show day + (i + 1) = day + 1 + i by omega]
          exact ⟨hrs, hx⟩
      · rintro ⟨i, hi, rs, hrs, hx, hr⟩
        cases i with
        | zero =>
          obtain rfl : first = rs := Except.ok.inj (hday.symm.trans hrs)
          exact .inl ⟨x.2, hr, Prod.ext hx.symm rfl⟩
        | succ i =>
          rw [show day + (i + 1) = day + 1 + i by omega] at hrs hx
          exact .inr ⟨i, by simpa using hi, rs, hrs, hx, hr⟩

/-! ## The form and the clock -/

/-- The weekday of a day counted from 1970-01-01, from Monday as zero. -/
def weekday (d : Int) : Fin 7 := ⟨((d + 3) % 7).toNat, by omega⟩

theorem isoDay_eq (d : Int) : isoDay d = (weekday d).val + 1 := rfl

/-- The form says that the place is open at a time of a weekday. -/
def SaysOpen (chrono : Chrono) (fields : Vector DayFields 7) (today : Fin 7) (t : TimeOfDay) :
    Prop :=
  fields[today].dayState = .allDay ∨
    (∃ opens closes, fields[today].SaysRange chrono opens closes ∧
      ((opens < closes ∧ opens ≤ t ∧ t < closes) ∨ (closes < opens ∧ opens ≤ t))) ∨
    -- The tail of a range of the day before.
    ∃ opens closes, fields[today - 1].SaysRange chrono opens closes ∧
      closes < opens ∧ t < closes

/-- Nothing is said about the week. -/
def EveryDayUnknown (fields : Vector DayFields 7) : Prop :=
  ∀ d : Fin 7, fields[d].dayState = .unknown

theorem everyDayUnknown_iff {fields : Vector DayFields 7} :
    (fields.toList.all fun f => f.dayState = .unknown) = true ↔ EveryDayUnknown fields := by
  simp [EveryDayUnknown, Fin.forall_iff]

/-- The rows of an accepted week, day by day. -/
theorem mem_week {chrono : Chrono} {fields : Vector DayFields 7} {rows : List (Nat × TimeRange)}
    (h : parseDays chrono 1 fields.toList = .ok rows) (x : Nat × TimeRange) :
    x ∈ rows ↔ ∃ d : Fin 7, x.1 = d.val + 1 ∧
      ((fields[d].dayState = .allDay ∧ x.2 = .wholeDay) ∨
        (fields[d].SaysRange chrono x.2.opensAt x.2.closesAt ∧ x.2.allDay = false)) := by
  obtain ⟨hok, hmem⟩ := parseDays_ok h
  have hlength : fields.toList.length = 7 := Vector.length_toList
  rw [hmem x]
  constructor
  · rintro ⟨i, hi, rs, hrs, hx, hr⟩
    rw [mem_parseDay hrs, Vector.getElem_toList] at hr
    exact ⟨⟨i, hlength ▸ hi⟩, hx.trans (Nat.add_comm 1 i), hr⟩
  · rintro ⟨d, hx, hr⟩
    have hd : d.val < fields.toList.length := by omega
    obtain ⟨rs, hrs⟩ := hok d hd
    refine ⟨d, hd, rs, hrs, hx.trans (Nat.add_comm _ _), ?_⟩
    rw [mem_parseDay hrs, Vector.getElem_toList]
    exact hr

/-- Two times of an accepted range differ. -/
theorem week_ne {chrono : Chrono} {fields : Vector DayFields 7} {rows : List (Nat × TimeRange)}
    (h : parseDays chrono 1 fields.toList = .ok rows) {d : Fin 7} {opens closes : TimeOfDay}
    (hsaid : fields[d].SaysRange chrono opens closes) : opens ≠ closes := by
  have hd : d.val < fields.toList.length := by
    rw [Vector.length_toList]
    exact d.isLt
  obtain ⟨rs, hrs⟩ := (parseDays_ok h).1 d hd
  rw [Vector.getElem_toList] at hrs
  exact parseDay_ne hrs hsaid

/-- A whole day is open on that day. -/
theorem covers_wholeDay (today yesterday day : Nat) (t : TimeOfDay) :
    TimeRange.covers today yesterday t (day, .wholeDay) = true ↔ day = today := by
  simp [TimeRange.covers, TimeRange.overnight, TimeRange.wholeDay]

/-- A range is open on its own day, and after midnight when it closes before it opens. -/
theorem covers_range {r : TimeRange} (hall : r.allDay = false) (hne : r.opensAt ≠ r.closesAt)
    (today yesterday day : Nat) (t : TimeOfDay) :
    TimeRange.covers today yesterday t (day, r) = true ↔
      (day = today ∧ ((r.opensAt < r.closesAt ∧ r.opensAt ≤ t ∧ t < r.closesAt) ∨
        (r.closesAt < r.opensAt ∧ r.opensAt ≤ t))) ∨
      (day = yesterday ∧ r.closesAt < r.opensAt ∧ t < r.closesAt) := by
  have hle : r.closesAt ≤ r.opensAt ↔ r.closesAt < r.opensAt := le_iff_lt_or_eq.trans
    (or_iff_left fun heq => hne heq.symm)
  simp only [TimeRange.covers, TimeRange.overnight, hall, Bool.not_false, Bool.true_and,
    Bool.false_or, Bool.or_eq_true, Bool.and_eq_true, beq_iff_eq, decide_eq_true_eq,
    Bool.not_eq_true', decide_eq_false_iff_not, hle, not_lt]
  grind

theorem yesterday_eq (w : Fin 7) :
    (if w.val + 1 = 1 then 7 else w.val + 1 - 1) = (w - 1).val + 1 := by
  revert w
  decide

/-- The rows of an accepted week are open when its days say so. -/
theorem any_covers_iff {chrono : Chrono} {fields : Vector DayFields 7}
    {rows : List (Nat × TimeRange)} (hdays : parseDays chrono 1 fields.toList = .ok rows)
    (w : Fin 7) (t : TimeOfDay) :
    rows.any (TimeRange.covers (w.val + 1) ((w - 1).val + 1) t) = true ↔
      SaysOpen chrono fields w t := by
  rw [List.any_eq_true]
  constructor
  · rintro ⟨⟨n, r⟩, hx, hcovers⟩
    obtain ⟨d, rfl, hr⟩ := (mem_week hdays _).mp hx
    rcases hr with ⟨hstate, rfl⟩ | ⟨hsaid, hall⟩
    · rw [covers_wholeDay] at hcovers
      obtain rfl : d = w := Fin.ext (by omega)
      exact .inl hstate
    · rw [covers_range hall (week_ne hdays hsaid)] at hcovers
      rcases hcovers with ⟨hday, htimes⟩ | ⟨hday, htail⟩
      · obtain rfl : d = w := Fin.ext (by omega)
        exact .inr (.inl ⟨_, _, hsaid, htimes⟩)
      · obtain rfl : d = w - 1 := Fin.ext (by omega)
        exact .inr (.inr ⟨_, _, hsaid, htail⟩)
  · rintro (hstate | ⟨opens, closes, hsaid, htimes⟩ | ⟨opens, closes, hsaid, htail⟩)
    · refine ⟨(w.val + 1, .wholeDay), ?_, (covers_wholeDay _ _ _ _).mpr rfl⟩
      exact (mem_week hdays _).mpr ⟨w, rfl, .inl ⟨hstate, rfl⟩⟩
    · refine ⟨(w.val + 1, ⟨opens, closes, false⟩), ?_, ?_⟩
      · exact (mem_week hdays _).mpr ⟨w, rfl, .inr ⟨hsaid, rfl⟩⟩
      · exact (covers_range rfl (week_ne hdays hsaid) _ _ _ _).mpr (.inl ⟨rfl, htimes⟩)
    · refine ⟨((w - 1).val + 1, ⟨opens, closes, false⟩), ?_, ?_⟩
      · exact (mem_week hdays _).mpr ⟨w - 1, rfl, .inr ⟨hsaid, rfl⟩⟩
      · exact (covers_range rfl (week_ne hdays hsaid) _ _ _ _).mpr (.inr ⟨rfl, htail⟩)

/-- The parsed week is open when the form says so: never when every day is unknown,
and else on the local weekday and time that the days name. -/
theorem statusAt_parseHours {chrono : Chrono} {fields : Vector DayFields 7}
    {hours : OpeningHours} (h : parseHours chrono fields = .ok hours) (offset : UtcOffset)
    (tz : Tz) (instant : Instant) :
    (EveryDayUnknown fields → hours.statusAt offset instant tz ≠ .isOpen) ∧
      (¬ EveryDayUnknown fields →
        (hours.statusAt offset instant tz = .isOpen ↔
          SaysOpen chrono fields (weekday (localMicros offset tz instant / day))
            (TimeOfDay.ofMicros (microsOfDay (localMicros offset tz instant))))) := by
  cases hours with
  | unknown =>
    have hunknown := everyDayUnknown_iff.mp (parseHours_unknown_iff.mp h)
    exact ⟨fun _ hopen => (by cases hopen), fun hknown => absurd hunknown hknown⟩
  | weekly rows =>
    obtain ⟨hknown, hdays⟩ := parseHours_weekly_iff.mp h
    refine ⟨fun hunknown => absurd (everyDayUnknown_iff.mpr hunknown) hknown, fun _ => ?_⟩
    unfold OpeningHours.statusAt
    dsimp only
    rw [isoDay_eq, yesterday_eq, ← any_covers_iff hdays]
    split <;> simp_all

/-- Monday from ten in the evening until two, Tuesday closed. -/
def mondayNight : Vector DayFields 7 :=
  let unknown : DayFields := ⟨"", "", "", "", ""⟩
  #v[⟨"ranges", "22:00", "02:00", "", ""⟩, ⟨"closed", "", "", "", ""⟩, unknown, unknown, unknown,
    unknown, unknown]

/-- A range of whole seconds. -/
def secondsRange (opens closes : Fin 86400) : TimeRange :=
  ⟨⟨opens, 0, opens.isLt, TimeOfDay.midnight.nanos_lt⟩,
    ⟨closes, 0, closes.isLt, TimeOfDay.midnight.nanos_lt⟩, false⟩

def mondayNightHours : OpeningHours :=
  .weekly [(1, secondsRange 79200 7200)]

/-- The wall clock of a Monday at eleven in the evening. -/
def mondayLate : Int := localMicros (fun _ _ => 0) "UTC" (428400 * second)

theorem statusAt_parseHours_monday :
    (EveryDayUnknown mondayNight →
        mondayNightHours.statusAt (fun _ _ => 0) (428400 * second) "UTC" ≠ .isOpen) ∧
      (¬ EveryDayUnknown mondayNight →
        (mondayNightHours.statusAt (fun _ _ => 0) (428400 * second) "UTC" = .isOpen ↔
          SaysOpen twoDigits mondayNight (weekday (mondayLate / day))
            (TimeOfDay.ofMicros (microsOfDay mondayLate)))) :=
  statusAt_parseHours (show parseHours twoDigits mondayNight = .ok mondayNightHours by
    decide +kernel) _ _ _

/-! ## Overlap -/

theorem minuteOf_lt (t : TimeOfDay) : minuteOf t < 1440 := by
  have := t.secs_lt
  unfold minuteOf
  omega

theorem minuteOf_mono : Monotone minuteOf := fun a b h => by
  have := TimeOfDay.le_def.mp h
  unfold minuteOf
  omega

/-- The code compares the arcs of the day between the minutes of the ends. -/
theorem rangesOverlap_iff {a b : TimeRange} (ha : a.allDay = false) (hb : b.allDay = false) :
    rangesOverlap a b = true ↔ (a.times.map minuteOf).Meets (b.times.map minuteOf) := by
  have hao := minuteOf_lt a.opensAt
  have hbo := minuteOf_lt b.opensAt
  have hac := minuteOf_lt a.closesAt
  have hbc := minuteOf_lt b.closesAt
  rw [Arc.meets_iff]
  simp only [rangesOverlap, segments, ha, hb, Bool.false_eq_true, if_false, Arc.Mem, Arc.map,
    TimeRange.times]
  by_cases hproper : minuteOf a.opensAt < minuteOf a.closesAt <;>
    by_cases hproper' : minuteOf b.opensAt < minuteOf b.closesAt <;>
    simp only [hproper, hproper', if_true, if_false, List.any_cons, List.any_nil,
      Bool.or_eq_true, Bool.and_eq_true, decide_eq_true_eq, Bool.or_false] <;>
    omega

theorem rangesOverlap_comm {a b : TimeRange} (ha : a.allDay = false) (hb : b.allDay = false) :
    rangesOverlap a b = rangesOverlap b a := by
  rw [Bool.eq_iff_iff, rangesOverlap_iff ha hb, rangesOverlap_iff hb ha, Arc.meets_comm]

/-- The range closes in the minute that it opened in. -/
def WithinMinute (r : TimeRange) : Prop :=
  r.opensAt < r.closesAt ∧ minuteOf r.opensAt = minuteOf r.closesAt

instance (r : TimeRange) : Decidable (WithinMinute r) :=
  inferInstanceAs (Decidable (_ ∧ _))

/-- The minutes from the one a range opens in up to the one it closes in. -/
def minutesOpen (r : TimeRange) : Nat :=
  if minuteOf r.opensAt < minuteOf r.closesAt then minuteOf r.closesAt - minuteOf r.opensAt
  else minuteOf r.closesAt + 1440 - minuteOf r.opensAt

/-- `b` opens in the minute that `a` closes in, before `a` closes. -/
def OpensBeforeClose (a b : TimeRange) : Prop :=
  minuteOf b.opensAt = minuteOf a.closesAt ∧ b.opensAt < a.closesAt

/-- Rounding down to minutes does not change whether two ranges overlap. -/
def RoundsExactly (a b : TimeRange) : Prop :=
  if WithinMinute a ∨ WithinMinute b then a.times.Mem b.opensAt ∨ b.times.Mem a.opensAt
  else OpensBeforeClose a b ∨ OpensBeforeClose b a → 1440 < minutesOpen a + minutesOpen b

theorem shrinks_iff (r : TimeRange) : r.times.Shrinks minuteOf ↔ WithinMinute r := by
  refine and_congr_right fun hlt => ?_
  have : minuteOf r.opensAt ≤ minuteOf r.closesAt := minuteOf_mono hlt.le
  show minuteOf r.closesAt ≤ minuteOf r.opensAt ↔ _
  omega

/-- A range within a minute is taken for one that lasts all day. -/
theorem WithinMinute.meets {a : TimeRange} (h : WithinMinute a) (b : TimeRange) :
    (a.times.map minuteOf).Meets (b.times.map minuteOf) := by
  refine Arc.meets_iff.mpr (.inl ((Arc.mem_of_le (ge_of_eq h.2) _).mpr ?_))
  show minuteOf a.opensAt ≤ _ ∨ _ < minuteOf a.closesAt
  have := h.2
  omega

/-- Arcs of minutes, one of which begins where the other ends, meet when they take more
than a day. -/
theorem OpensBeforeClose.meets_iff {a b : TimeRange} (h : OpensBeforeClose a b) :
    (a.times.map minuteOf).Meets (b.times.map minuteOf) ↔
      1440 < minutesOpen a + minutesOpen b := by
  have hao := minuteOf_lt a.opensAt
  have hac := minuteOf_lt a.closesAt
  have hbc := minuteOf_lt b.closesAt
  have hopens := h.1
  rw [Arc.meets_iff]
  unfold Arc.Mem Arc.map TimeRange.times minutesOpen
  dsimp only
  split_ifs <;> omega

/-- The comparison of the minutes is right exactly when the rounding is harmless. -/
theorem rangesOverlap_exact {a b : TimeRange} (ha : a.allDay = false) (hb : b.allDay = false) :
    (rangesOverlap a b = true ↔ a.times.Meets b.times) ↔ RoundsExactly a b := by
  rw [rangesOverlap_iff ha hb]
  unfold RoundsExactly
  by_cases hwithin : WithinMinute a ∨ WithinMinute b
  · rw [if_pos hwithin]
    have hmeets : (a.times.map minuteOf).Meets (b.times.map minuteOf) := by
      rcases hwithin with h | h
      · exact h.meets b
      · exact Arc.meets_comm.mp (h.meets a)
    rw [iff_true_left hmeets]
    exact Arc.meets_iff
  · rw [if_neg hwithin]
    have hsa : ¬ a.times.Shrinks minuteOf := fun h => hwithin (.inl ((shrinks_iff a).mp h))
    have hsb : ¬ b.times.Shrinks minuteOf := fun h => hwithin (.inr ((shrinks_iff b).mp h))
    constructor
    · rintro hexact (hab | hba)
      · exact hab.meets_iff.mp (hexact.mpr (Arc.StartsLast.meets minuteOf_mono hsa hab))
      · rw [Nat.add_comm]
        refine hba.meets_iff.mp (Arc.meets_comm.mp (hexact.mpr (Arc.meets_comm.mp ?_)))
        exact Arc.StartsLast.meets minuteOf_mono hsb hba
    · intro hlong
      constructor
      · exact Arc.Meets.of_map minuteOf_mono hsa hsb
      · intro hmeets
        rcases hmeets.map_or minuteOf_mono hsa hsb with hmap | hab | hba
        · exact hmap
        · exact OpensBeforeClose.meets_iff hab |>.mpr (hlong (.inl hab))
        · refine Arc.meets_comm.mp (OpensBeforeClose.meets_iff hba |>.mpr ?_)
          rw [Nat.add_comm]
          exact hlong (.inr hba)

/-! ## The rejection of a day -/

/-- A day of two ranges is rejected for overlap, or its rows are the ranges. -/
theorem parseDay_two {chrono : Chrono} {f : DayFields} {a b : TimeRange}
    (hstate : f.dayState = .ranges) (ha : GivesRange chrono f.r1Open f.r1Close a)
    (hb : GivesRange chrono f.r2Open f.r2Close b) (day : Nat) :
    parseDay chrono day f =
      if rangesOverlap a b then .error ⟨day, hoursOverlap⟩ else .ok [a, b] := by
  unfold parseDay
  rw [hstate]
  dsimp only
  rw [parseRange_some_iff.mpr ha, parseRange_some_iff.mpr hb]
  rfl

/-- A rejected day is named in the error. -/
theorem parseDay_error {chrono : Chrono} {day : Nat} {f : DayFields} {e : HoursError}
    (h : parseDay chrono day f = .error e) : e.day = day := by
  have hrange : ∀ {opens closes : String} {e : HoursError},
      parseRange chrono ⟨day, hoursInvalidRange⟩ opens closes = .error e → e.day = day := by
    intro opens closes e h
    unfold parseRange at h
    split at h
    · cases h
    · split at h
      · split at h
        · rw [← Except.error.inj h]
        · cases h
      · rw [← Except.error.inj h]
  unfold parseDay at h
  dsimp only at h
  split at h
  · cases h
  · cases h
  · cases h
  · generalize hfirst : parseRange chrono _ (Text.trim f.r1Open) (Text.trim f.r1Close) = first at h
    generalize hsecond :
      parseRange chrono _ (Text.trim f.r2Open) (Text.trim f.r2Close) = second at h
    match first, second with
    | .error e', _ =>
      rw [← Except.error.inj h]
      exact hrange hfirst
    | .ok _, .error e' =>
      rw [← Except.error.inj h]
      exact hrange hsecond
    | .ok none, .ok none => rw [← Except.error.inj h]
    | .ok (some a), .ok none => cases h
    | .ok none, .ok (some b) => cases h
    | .ok (some a), .ok (some b) =>
      cases hapart : rangesOverlap a b with
      | true =>
        simp only [bind, Except.bind, hapart] at h
        rw [← Except.error.inj h]
      | false => simp [bind, Except.bind, hapart] at h

/-- An error names a day from `day` on. -/
theorem parseDays_error_le {chrono : Chrono} {fs : List DayFields} {day : Nat} {e : HoursError}
    (h : parseDays chrono day fs = .error e) : day ≤ e.day := by
  induction fs generalizing day e with
  | nil => cases h
  | cons f fs ih =>
    unfold parseDays at h
    generalize hday : parseDay chrono day f = first at h
    generalize hrest : parseDays chrono (day + 1) fs = rest at h
    cases first with
    | error e' =>
      rw [← Except.error.inj h]
      exact ge_of_eq (parseDay_error hday)
    | ok first =>
      cases rest with
      | error e' =>
        rw [← Except.error.inj h]
        have hle := ih hrest
        omega
      | ok rest => cases h

theorem error_eq_error {α β : Type} {e e' : HoursError} :
    (Except.error e : Except HoursError α) = .error e' ↔
      (Except.error e : Except HoursError β) = .error e' := by
  rw [Except.error.injEq, Except.error.injEq]

/-- The week is rejected for a day that follows accepted ones exactly when that day is. -/
theorem parseDays_error_iff (chrono : Chrono) (day : Nat) (key : String) {fs : List DayFields}
    {i : Nat} (hi : i < fs.length)
    (hearlier : ∀ j (hj : j < i), ∃ rs, parseDay chrono (day + j) fs[j] = .ok rs) :
    parseDays chrono day fs = .error ⟨day + i, key⟩ ↔
      parseDay chrono (day + i) fs[i] = .error ⟨day + i, key⟩ := by
  induction fs generalizing day i with
  | nil => cases hi
  | cons f fs ih =>
    unfold parseDays
    cases i with
    | zero =>
      show (parseDay chrono day f >>= _) = .error ⟨day, key⟩ ↔ parseDay chrono day f = _
      cases parseDay chrono day f with
      | error e => exact error_eq_error
      | ok first =>
        refine iff_of_false (fun h => ?_) (fun h => by cases h)
        generalize hrest : parseDays chrono (day + 1) fs = rest at h
        cases rest with
        | ok rest => cases h
        | error e =>
          have hle := parseDays_error_le hrest
          have hday : e.day = day := congrArg HoursError.day (Except.error.inj h)
          omega
    | succ i =>
      obtain ⟨first, hfirst⟩ : ∃ rs, parseDay chrono day f = .ok rs := hearlier 0 (by omega)
      have hrest := ih (day + 1) (i := i) (by simpa using hi) fun j hj => by
        rw [show day + 1 + j = day + (j + 1) by omega]
        exact hearlier (j + 1) (by omega)
      rw [show day + 1 + i = day + (i + 1) by omega] at hrest
      rw [hfirst, List.getElem_cons_succ, ← hrest]
      generalize parseDays chrono (day + 1) fs = rest
      cases rest with
      | ok rest => exact iff_of_false (fun h => by cases h) (fun h => by cases h)
      | error e => exact Iff.rfl

/-- The days before one are accepted. -/
def AcceptedBefore (chrono : Chrono) (fields : Vector DayFields 7) (d : Fin 7) : Prop :=
  ∀ j, j < d → ∃ rs, parseDay chrono (j.val + 1) fields[j] = .ok rs

theorem parseHours_error_iff {chrono : Chrono} {fields : Vector DayFields 7} {d : Fin 7}
    {key : String} (hstate : fields[d].dayState ≠ .unknown)
    (hearlier : AcceptedBefore chrono fields d) :
    parseHours chrono fields = .error ⟨d.val + 1, key⟩ ↔
      parseDay chrono (d.val + 1) fields[d] = .error ⟨d.val + 1, key⟩ := by
  have hd : d.val < fields.toList.length := by
    rw [Vector.length_toList]
    exact d.isLt
  have hdays := parseDays_error_iff chrono 1 key hd fun j hj => by
    rw [Vector.getElem_toList, Nat.add_comm]
    exact hearlier ⟨j, by omega⟩ hj
  rw [Vector.getElem_toList, Nat.add_comm] at hdays
  unfold parseHours
  rw [if_neg fun hall => hstate (everyDayUnknown_iff.mp hall d)]
  refine Iff.trans ?_ hdays
  cases parseDays chrono 1 fields.toList with
  | ok rows => exact iff_of_false (fun h => by cases h) (fun h => by cases h)
  | error e => exact error_eq_error

/-- The two ranges of a day, given the other way around. -/
def DayFields.swap (f : DayFields) : DayFields :=
  ⟨f.state, f.r2Open, f.r2Close, f.r1Open, f.r1Close⟩

/-- The day is rejected for overlap when its ranges share a time of day, in whichever
order they are given. -/
def RejectsOverlap (chrono : Chrono) (fields : Vector DayFields 7) (d : Fin 7)
    (a b : TimeRange) : Prop :=
  (parseHours chrono fields = .error ⟨d.val + 1, hoursOverlap⟩ ↔ a.times.Meets b.times) ∧
    (parseHours chrono (fields.set d fields[d].swap) = .error ⟨d.val + 1, hoursOverlap⟩ ↔
      parseHours chrono fields = .error ⟨d.val + 1, hoursOverlap⟩)

/-- The overlap of two valid ranges is judged rightly exactly when rounding them to
minutes is harmless. -/
theorem parseHours_overlap {chrono : Chrono} {fields : Vector DayFields 7} {d : Fin 7}
    {a b : TimeRange} (hstate : fields[d].dayState = .ranges)
    (ha : GivesRange chrono fields[d].r1Open fields[d].r1Close a)
    (hb : GivesRange chrono fields[d].r2Open fields[d].r2Close b)
    (hearlier : AcceptedBefore chrono fields d) :
    RejectsOverlap chrono fields d a b ↔ RoundsExactly a b := by
  have hrejects : ∀ {x y : TimeRange}, ((if rangesOverlap x y then
      .error ⟨d.val + 1, hoursOverlap⟩ else .ok [x, y] : Except HoursError (List TimeRange)) =
        .error ⟨d.val + 1, hoursOverlap⟩) ↔ rangesOverlap x y = true := by
    intro x y
    split
    · next h => exact iff_of_true rfl h
    · next h => exact iff_of_false (fun h => by cases h) h
  have hknown : fields[d].dayState ≠ .unknown := by
    rw [hstate]
    decide
  have hreject : parseHours chrono fields = .error ⟨d.val + 1, hoursOverlap⟩ ↔
      rangesOverlap a b = true := by
    rw [parseHours_error_iff hknown hearlier, parseDay_two hstate ha hb]
    exact hrejects
  have hset : (fields.set d fields[d].swap)[d] = fields[d].swap := Vector.getElem_set_self _
  have hswapped : parseHours chrono (fields.set d fields[d].swap) =
      .error ⟨d.val + 1, hoursOverlap⟩ ↔ rangesOverlap b a = true := by
    rw [parseHours_error_iff, hset, parseDay_two (f := fields[d].swap) hstate hb ha]
    · exact hrejects
    · rw [hset]
      exact hknown
    · intro j hj
      have hne : (fields.set d fields[d].swap)[j] = fields[j] :=
        Vector.getElem_set_ne _ _ (by omega)
      rw [hne]
      exact hearlier j hj
  unfold RejectsOverlap
  rw [hreject, hswapped, rangesOverlap_comm hb.allDay ha.allDay, ← rangesOverlap_exact ha.allDay
    hb.allDay]
  exact and_iff_left Iff.rfl

/-- A Monday of two ranges. -/
def mondayRanges (r1Open r1Close r2Open r2Close : String) : Vector DayFields 7 :=
  let closed : DayFields := ⟨"closed", "", "", "", ""⟩
  #v[⟨"ranges", r1Open, r1Close, r2Open, r2Close⟩, closed, closed, closed, closed, closed, closed]

theorem parseHours_overlap_monday :
    RejectsOverlap twoDigits (mondayRanges "09:00" "18:00" "17:00" "20:00") 0
        (secondsRange 32400 64800) (secondsRange 61200 72000) ↔
      RoundsExactly (secondsRange 32400 64800) (secondsRange 61200 72000) :=
  parseHours_overlap (by decide +kernel)
    ⟨by decide +kernel, by decide +kernel, by decide, rfl⟩
    ⟨by decide +kernel, by decide +kernel, by decide, rfl⟩
    fun _ hj => absurd hj (Nat.not_lt_zero _)

/-- From 9:00:00 to 10:00:30 and from 10:00:10 to 11:00:00 share twenty seconds, and the
day is accepted. -/
theorem parseHours_overlap_seconds :
    let fields := mondayRanges "09:00" "10:00:30" "10:00:10" "11:00"
    let a := secondsRange 32400 36030
    let b := secondsRange 36010 39600
    fields[0].dayState = .ranges ∧
      GivesRange twoDigits fields[0].r1Open fields[0].r1Close a ∧
      GivesRange twoDigits fields[0].r2Open fields[0].r2Close b ∧
      AcceptedBefore twoDigits fields 0 ∧ ¬ RejectsOverlap twoDigits fields 0 a b := by
  refine ⟨by decide +kernel, ⟨by decide +kernel, by decide +kernel, by decide, rfl⟩,
    ⟨by decide +kernel, by decide +kernel, by decide, rfl⟩,
    fun _ hj => absurd hj (Nat.not_lt_zero _), fun h => ?_⟩
  have hmeets : (secondsRange 32400 36030).times.Meets (secondsRange 36010 39600).times :=
    Arc.meets_iff.mpr (by decide)
  have hrejected := h.1.mpr hmeets
  revert hrejected
  decide +kernel

end BikesNest.Community
