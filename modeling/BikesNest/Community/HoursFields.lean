import BikesNest.Community.HoursMeaning

/-!
# The opening hours as form fields

`hoursFieldsFrom` renders a schedule into the fields of the hours editor, from which
`parseHours` reads it back when the page is saved.  The editor shows a time as hour
and minute.  `parseHours_hoursFieldsFrom` says for which schedules saving the
untouched page changes nothing.
-/

namespace BikesNest.Community

open Domain

def DayState.asCode : DayState → String
  | .unknown => "unknown"
  | .closed => "closed"
  | .allDay => "all_day"
  | .ranges => "ranges"

/-- `{:02}` of a number below a hundred. -/
def twoDigitChars (n : Nat) : List Char := [Nat.digitChar (n / 10), Nat.digitChar (n % 10)]

/-- The text `HH:MM`. -/
def hourMinute (hour minute : Nat) : String :=
  String.ofList (twoDigitChars hour ++ ':' :: twoDigitChars minute)

/-- `time_value`. -/
def timeValue (t : TimeOfDay) : String := hourMinute (t.secs / 3600) (t.secs / 60 % 60)

/-- The fields of a day with these ranges. -/
def dayFieldsFrom (ranges : List TimeRange) : DayFields :=
  if ranges.isEmpty then ⟨DayState.closed.asCode, "", "", "", ""⟩
  else if ranges.any (·.allDay) then ⟨DayState.allDay.asCode, "", "", "", ""⟩
  else
    let value (i : Nat) (time : TimeRange → TimeOfDay) : String :=
      (ranges[i]?.map fun r => timeValue (time r)).getD ""
    ⟨DayState.ranges.asCode, value 0 (·.opensAt), value 0 (·.closesAt), value 1 (·.opensAt),
      value 1 (·.closesAt)⟩

/-- `rows_by_day`. -/
def rowsByDay (hours : OpeningHours) : Vector (List TimeRange) 7 :=
  .ofFn fun d => (hours.rows.filter fun x => x.1 == d.val + 1).map Prod.snd

/-- `hours_fields_from`. -/
def hoursFieldsFrom (hours : OpeningHours) : Vector DayFields 7 :=
  if hours.isUnknown then .replicate 7 ⟨DayState.unknown.asCode, "", "", "", ""⟩
  else (rowsByDay hours).map dayFieldsFrom

/-! ## Times as texts -/

/-- A time without seconds. -/
def onMinute (t : TimeOfDay) : Prop := t.secs % 60 = 0 ∧ t.nanos = 0

instance (t : TimeOfDay) : Decidable (onMinute t) := inferInstanceAs (Decidable (_ ∧ _))

/-- `chrono` reads two digits for the hour and two for the minute. -/
def ReadsMinutes (chrono : Chrono) : Prop :=
  ∀ (hour minute : Nat) (hlt : hour < 24 ∧ minute < 60),
    chrono.parseFromStr (hourMinute hour minute) "%H:%M" =
      some ⟨hour * 3600 + minute * 60, 0, by omega, TimeOfDay.midnight.nanos_lt⟩

theorem digitChar_not_white {n : Nat} (h : n < 10) :
    Text.isWhitespace (Nat.digitChar n) = false := by
  have : ∀ n : Fin 10, Text.isWhitespace (Nat.digitChar n) = false := by decide
  exact this ⟨n, h⟩

@[simp] theorem toList_hourMinute (hour minute : Nat) :
    (hourMinute hour minute).toList = twoDigitChars hour ++ ':' :: twoDigitChars minute :=
  String.toList_ofList

theorem hourMinute_ne (hour minute : Nat) : hourMinute hour minute ≠ "" := by
  intro h
  have := congrArg String.toList h
  rw [toList_hourMinute] at this
  cases this

/-- The text has no white space at its ends. -/
theorem trim_hourMinute {hour minute : Nat} (h : hour < 100) :
    Text.trim (hourMinute hour minute) = hourMinute hour minute := by
  have hfirst : Text.isWhitespace (Nat.digitChar (hour / 10)) = false :=
    digitChar_not_white (by omega)
  have hlast : Text.isWhitespace (Nat.digitChar (minute % 10)) = false :=
    digitChar_not_white (by omega)
  unfold Text.trim
  rw [toList_hourMinute]
  show String.ofList (Text.trimChars (_ :: _ ++ ':' :: [_, _])) = _
  rw [Text.trimChars, List.cons_append, List.dropWhile_cons_of_neg (by simp [hfirst])]
  show String.ofList (List.rdropWhile _ ([_, _, _, _] ++ [_])) = _
  rw [List.rdropWhile_concat_neg _ _ _ (by simp [hlast])]
  rfl

theorem secs_div_lt (t : TimeOfDay) : t.secs / 3600 < 24 ∧ t.secs / 60 % 60 < 60 := by
  have := t.secs_lt
  omega

/-- A time that was shown is read back without its seconds. -/
theorem parseTime_timeValue {chrono : Chrono} (hreads : ReadsMinutes chrono) (t : TimeOfDay) :
    parseTime chrono (Text.trim (timeValue t)) =
      some ⟨t.secs / 3600 * 3600 + t.secs / 60 % 60 * 60, 0,
        by have := t.secs_lt; omega, by decide⟩ := by
  have htrim : Text.trim (timeValue t) = timeValue t :=
    trim_hourMinute (lt_trans (secs_div_lt t).1 (by decide))
  unfold parseTime
  rw [htrim, htrim]
  dsimp only
  rw [if_neg (show timeValue t ≠ "" from hourMinute_ne _ _)]
  unfold timeValue
  rw [hreads _ _ (secs_div_lt t)]

theorem parseTime_onMinute {chrono : Chrono} (hreads : ReadsMinutes chrono) {t : TimeOfDay}
    (h : onMinute t) : parseTime chrono (Text.trim (timeValue t)) = some t := by
  rw [parseTime_timeValue hreads]
  obtain ⟨secs, nanos, hsecs, hnanos⟩ := t
  obtain ⟨hmod, hzero⟩ := h
  dsimp only at *
  simp only [Option.some.injEq, TimeOfDay.mk.injEq]
  omega

/-- A field of the editor is never read as a time with seconds. -/
theorem onMinute_of_parseTime {chrono : Chrono} (hreads : ReadsMinutes chrono)
    {shown : Option TimeRange} {time : TimeRange → TimeOfDay} {t : TimeOfDay}
    (h : parseTime chrono (Text.trim ((shown.map fun r => timeValue (time r)).getD "")) = some t) :
    onMinute t := by
  cases shown with
  | none =>
    rw [show Text.trim ((none.map fun r => timeValue (time r)).getD "") = "" from rfl,
      parseTime_empty] at h
    cases h
  | some r =>
    have hread := (parseTime_timeValue hreads (time r)).symm.trans h
    rw [← Option.some.inj hread]
    exact ⟨by dsimp only; omega, rfl⟩

/-! ## One day -/

/-- The rendered state of a day is read back. -/
@[simp] theorem dayState_asCode (state : DayState) (r1Open r1Close r2Open r2Close : String) :
    (⟨state.asCode, r1Open, r1Close, r2Open, r2Close⟩ : DayFields).dayState = state := by
  show DayState.fromCode state.asCode = state
  cases state <;> decide

theorem dayState_dayFieldsFrom (rs : List TimeRange) :
    (dayFieldsFrom rs).dayState =
      if rs.isEmpty then .closed else if rs.any (·.allDay) then .allDay else .ranges := by
  unfold dayFieldsFrom
  split_ifs <;> exact dayState_asCode _ _ _ _ _

theorem parseRange_empty (chrono : Chrono) (invalid : HoursError) :
    parseRange chrono invalid (Text.trim "") (Text.trim "") = .ok none := by
  rw [show Text.trim "" = "" from rfl]
  exact if_pos ⟨rfl, rfl⟩

/-- A range of the day that was shown is given again. -/
theorem GivesRange.shown {chrono : Chrono} (hreads : ReadsMinutes chrono) {opens closes : String}
    {r : TimeRange} (h : GivesRange chrono opens closes r) (hopens : onMinute r.opensAt)
    (hcloses : onMinute r.closesAt) :
    GivesRange chrono (timeValue r.opensAt) (timeValue r.closesAt) r :=
  ⟨parseTime_onMinute hreads hopens, parseTime_onMinute hreads hcloses, h.ne, h.allDay⟩

/-- One range, shown in the first pair of fields. -/
theorem parseDay_shown_one {chrono : Chrono} {r : TimeRange} (hall : r.allDay = false)
    (h : GivesRange chrono (timeValue r.opensAt) (timeValue r.closesAt) r) (day : Nat) :
    parseDay chrono day (dayFieldsFrom [r]) = .ok [r] := by
  have hstate : (dayFieldsFrom [r]).dayState = .ranges := by
    rw [dayState_dayFieldsFrom]
    simp [hall]
  have hfields : dayFieldsFrom [r] =
      ⟨DayState.ranges.asCode, timeValue r.opensAt, timeValue r.closesAt, "", ""⟩ := by
    simp [dayFieldsFrom, hall]
  unfold parseDay
  rw [hstate]
  dsimp only
  rw [hfields]
  dsimp only
  rw [parseRange_some_iff.mpr h, parseRange_empty]
  rfl

/-- Reading the fields that were rendered from an accepted day without seconds gives
the day again. -/
theorem parseDay_dayFieldsFrom {chrono : Chrono} (hreads : ReadsMinutes chrono) {day : Nat}
    {f : DayFields} {rs : List TimeRange} (h : parseDay chrono day f = .ok rs)
    (hminutes : ∀ r ∈ rs, r.allDay = false → onMinute r.opensAt ∧ onMinute r.closesAt) :
    parseDay chrono day (dayFieldsFrom rs) = .ok rs := by
  cases hstate : f.dayState with
  | ranges =>
    obtain ⟨first, second, hfirst, hsecond, rfl⟩ := parseDay_ranges hstate h
    match first, second with
    | none, none =>
      unfold parseDay at h
      rw [hstate] at h
      dsimp only at h
      rw [hfirst, hsecond] at h
      cases h
    | some a, none =>
      have ha := parseRange_some_iff.mp hfirst
      have hon := hminutes a (by simp) ha.allDay
      exact parseDay_shown_one ha.allDay (ha.shown hreads hon.1 hon.2) day
    | none, some b =>
      have hb := parseRange_some_iff.mp hsecond
      have hon := hminutes b (by simp) hb.allDay
      exact parseDay_shown_one hb.allDay (hb.shown hreads hon.1 hon.2) day
    | some a, some b =>
      have ha := parseRange_some_iff.mp hfirst
      have hb := parseRange_some_iff.mp hsecond
      have hon := hminutes a (by simp) ha.allDay
      have hon' := hminutes b (by simp) hb.allDay
      rw [parseDay_two hstate ha hb] at h
      have hfields : dayFieldsFrom [a, b] = ⟨DayState.ranges.asCode, timeValue a.opensAt,
          timeValue a.closesAt, timeValue b.opensAt, timeValue b.closesAt⟩ := by
        simp [dayFieldsFrom, ha.allDay, hb.allDay]
      show parseDay chrono day (dayFieldsFrom [a, b]) = _
      rw [hfields]
      exact (parseDay_two (dayState_asCode .ranges _ _ _ _) (ha.shown hreads hon.1 hon.2)
        (hb.shown hreads hon'.1 hon'.2) day).trans h
  | allDay =>
    unfold parseDay at h
    rw [hstate] at h
    rw [← Except.ok.inj h]
    rfl
  | unknown | closed =>
    unfold parseDay at h
    rw [hstate] at h
    rw [← Except.ok.inj h]
    rfl

/-- The ranges that a rendered day says have no seconds. -/
theorem onMinute_of_saysRange {chrono : Chrono} (hreads : ReadsMinutes chrono)
    {rs : List TimeRange} {opens closes : TimeOfDay}
    (h : (dayFieldsFrom rs).SaysRange chrono opens closes) : onMinute opens ∧ onMinute closes := by
  have hstate := h.1
  have hsaid := h.2
  rw [dayState_dayFieldsFrom] at hstate
  unfold dayFieldsFrom at hsaid
  split_ifs at hstate hsaid
  rcases hsaid with ⟨hopens, hcloses⟩ | ⟨hopens, hcloses⟩
  · exact ⟨onMinute_of_parseTime hreads hopens, onMinute_of_parseTime hreads hcloses⟩
  · exact ⟨onMinute_of_parseTime hreads hopens, onMinute_of_parseTime hreads hcloses⟩

/-! ## The week -/

/-- The rows of the days from `day` on. -/
def weekRows (day : Nat) : List (List TimeRange) → List (Nat × TimeRange)
  | [] => []
  | rs :: rss => rs.map (fun r => (day, r)) ++ weekRows (day + 1) rss

/-- A week is accepted when its days are. -/
theorem parseDays_ok_iff {chrono : Chrono} {fs : List DayFields} {day : Nat}
    {rows : List (Nat × TimeRange)} :
    parseDays chrono day fs = .ok rows ↔
      ∃ rss : List (List TimeRange), ∃ hlength : rss.length = fs.length,
        (∀ i (hi : i < fs.length), parseDay chrono (day + i) fs[i] = .ok rss[i]) ∧
          rows = weekRows day rss := by
  induction fs generalizing day rows with
  | nil =>
    constructor
    · intro h
      exact ⟨[], rfl, fun i hi => absurd hi (Nat.not_lt_zero i), (Except.ok.inj h).symm⟩
    · rintro ⟨rss, hlength, -, rfl⟩
      rw [List.eq_nil_of_length_eq_zero hlength]
      rfl
  | cons f fs ih =>
    constructor
    · intro h
      obtain ⟨first, rest, hday, hrest, rfl⟩ := parseDays_cons_ok h
      obtain ⟨rss, hlength, hdays, rfl⟩ := ih.mp hrest
      refine ⟨first :: rss, congrArg Nat.succ hlength, fun i hi => ?_, rfl⟩
      cases i with
      | zero => exact hday
      | succ i =>
        rw [show day + (i + 1) = day + 1 + i by omega]
        exact hdays i (by simpa using hi)
    · rintro ⟨rss, hlength, hdays, rfl⟩
      cases rss with
      | nil => cases hlength
      | cons rs rss =>
        have hday : parseDay chrono day f = .ok rs := hdays 0 (by simp)
        have hrest : parseDays chrono (day + 1) fs = .ok (weekRows (day + 1) rss) :=
          ih.mpr ⟨rss, Nat.succ.inj hlength, fun i hi => by
            rw [show day + 1 + i = day + (i + 1) by omega]
            exact hdays (i + 1) (by simpa using hi), rfl⟩
        rw [parseDays, hday, hrest]
        rfl

theorem weekRows_days {rss : List (List TimeRange)} {day : Nat} :
    ∀ x ∈ weekRows day rss, day ≤ x.1 := by
  induction rss generalizing day with
  | nil => simp [weekRows]
  | cons rs rss ih =>
    intro x hx
    rcases List.mem_append.mp hx with hx | hx
    · obtain ⟨r, -, rfl⟩ := List.mem_map.mp hx
      exact le_refl _
    · have := ih x hx
      omega

/-- The rows of one day of the week. -/
theorem filter_weekRows (day : Nat) {rss : List (List TimeRange)} {i : Nat} (hi : i < rss.length) :
    ((weekRows day rss).filter fun x => x.1 == day + i).map Prod.snd = rss[i] := by
  induction rss generalizing day i with
  | nil => cases hi
  | cons rs rss ih =>
    unfold weekRows
    rw [List.filter_append, List.filter_map, List.map_append, List.map_map]
    cases i with
    | zero =>
      have hrest : (weekRows (day + 1) rss).filter (fun x => x.1 == day + 0) = [] := by
        rw [List.filter_eq_nil_iff]
        intro x hx
        have := weekRows_days x hx
        simp only [beq_iff_eq]
        omega
      rw [hrest]
      simp [Function.comp_def]
    | succ i =>
      have hfirst : rs.filter ((fun x : Nat × TimeRange => x.1 == day + (i + 1)) ∘
          fun r => (day, r)) = [] := by
        rw [List.filter_eq_nil_iff]
        simp
      rw [hfirst, show day + (i + 1) = day + 1 + i by omega]
      exact ih (day + 1) (by simpa using hi)

/-- The times of the schedule have no seconds. -/
def WholeMinutes (hours : OpeningHours) : Prop :=
  ∀ x ∈ hours.rows, x.2.allDay = false → onMinute x.2.opensAt ∧ onMinute x.2.closesAt

theorem getElem_hoursFieldsFrom {rss : List (List TimeRange)} (hlength : rss.length = 7)
    (d : Fin 7) :
    (hoursFieldsFrom (.weekly (weekRows 1 rss)))[d] =
      dayFieldsFrom (rss.get (d.cast hlength.symm)) := by
  have hday : ((weekRows 1 rss).filter fun x => x.1 == d.val + 1).map Prod.snd = rss[d.val] := by
    rw [Nat.add_comm]
    exact filter_weekRows 1 (by omega)
  show ((rowsByDay _).map dayFieldsFrom)[d.val] = _
  rw [Vector.getElem_map]
  unfold rowsByDay
  rw [Vector.getElem_ofFn]
  exact congrArg dayFieldsFrom hday

/-- A schedule that the form accepted is read back from its fields exactly when its
times have no seconds. -/
theorem parseHours_hoursFieldsFrom {chrono : Chrono} (hreads : ReadsMinutes chrono)
    {fields : Vector DayFields 7} {hours : OpeningHours}
    (h : parseHours chrono fields = .ok hours) :
    parseHours chrono (hoursFieldsFrom hours) = .ok hours ↔ WholeMinutes hours := by
  cases hours with
  | unknown => exact iff_of_true rfl (by simp [WholeMinutes, OpeningHours.rows])
  | weekly rows =>
    obtain ⟨rss, hlength, hdays, rfl⟩ := parseDays_ok_iff.mp (parseHours_weekly_iff.mp h).2
    have hseven : rss.length = 7 := hlength.trans Vector.length_toList
    have hknown : ¬ EveryDayUnknown (hoursFieldsFrom (.weekly (weekRows 1 rss))) := by
      intro hall
      have hstate := hall 0
      rw [getElem_hoursFieldsFrom hseven, dayState_dayFieldsFrom] at hstate
      split_ifs at hstate
    rw [parseHours_weekly_iff, everyDayUnknown_iff, and_iff_right hknown]
    constructor
    · intro hsame x hx hall
      obtain ⟨d, -, ⟨-, hwhole⟩ | ⟨hsaid, -⟩⟩ := (mem_week hsame x).mp hx
      · rw [hwhole] at hall
        cases hall
      · rw [getElem_hoursFieldsFrom hseven] at hsaid
        exact onMinute_of_saysRange hreads hsaid
    · intro hminutes
      refine parseDays_ok_iff.mpr ⟨rss, hseven.trans Vector.length_toList.symm, fun i hi => ?_,
        rfl⟩
      rw [Vector.length_toList] at hi
      have hday := hdays i (by rw [Vector.length_toList]; exact hi)
      rw [Vector.getElem_toList]
      have hfields := getElem_hoursFieldsFrom hseven ⟨i, hi⟩
      rw [show (hoursFieldsFrom (.weekly (weekRows 1 rss)))[i] = _ from hfields]
      refine parseDay_dayFieldsFrom hreads hday fun r hr hall => ?_
      have hr : r ∈ rss[i] := hr
      rw [← filter_weekRows 1] at hr
      obtain ⟨x, hx, rfl⟩ := List.mem_map.mp hr
      exact hminutes x (List.mem_of_mem_filter hx) hall

/-! ## Two digits -/

theorem digitChar_isDigit {n : Nat} (h : n < 10) :
    (Nat.digitChar n).isDigit = true ∧ (Nat.digitChar n).toNat - 48 = n := by
  have : ∀ n : Fin 10, (Nat.digitChar n).isDigit = true ∧ (Nat.digitChar n).toNat - 48 = n := by
    decide
  exact this ⟨n, h⟩

theorem readsMinutes_twoDigits : ReadsMinutes twoDigits := by
  intro hour minute hlt
  obtain ⟨hdigit₁, hvalue₁⟩ := digitChar_isDigit (n := hour / 10) (by omega)
  obtain ⟨hdigit₂, hvalue₂⟩ := digitChar_isDigit (n := hour % 10) (by omega)
  obtain ⟨hdigit₃, hvalue₃⟩ := digitChar_isDigit (n := minute / 10) (by omega)
  obtain ⟨hdigit₄, hvalue₄⟩ := digitChar_isDigit (n := minute % 10) (by omega)
  show twoDigitTexts (hourMinute hour minute) "%H:%M" = _
  unfold twoDigitTexts
  rw [toList_hourMinute]
  show sixDigits (Nat.digitChar (hour / 10)) (Nat.digitChar (hour % 10))
    (Nat.digitChar (minute / 10)) (Nat.digitChar (minute % 10)) '0' '0' = _
  have hzero : '0'.isDigit = true ∧ '0'.toNat - 48 = 0 := by decide
  have hhour : hour / 10 * 10 + hour % 10 = hour := by omega
  have hminute : minute / 10 * 10 + minute % 10 = minute := by omega
  unfold sixDigits
  simp only [hvalue₁, hvalue₂, hvalue₃, hvalue₄, hzero.2, hhour, hminute]
  rw [dif_pos ⟨by simp [hdigit₁, hdigit₂, hdigit₃, hdigit₄, hzero.1], hlt.1, hlt.2, by decide⟩]
  simp

theorem parseHours_hoursFieldsFrom_monday :
    parseHours twoDigits (hoursFieldsFrom mondayNightHours) = .ok mondayNightHours ↔
      WholeMinutes mondayNightHours :=
  parseHours_hoursFieldsFrom readsMinutes_twoDigits
    (show parseHours twoDigits mondayNight = .ok mondayNightHours by decide +kernel)

/-- Half a minute is lost when the untouched page is saved. -/
theorem parseHours_hoursFieldsFrom_seconds :
    let hours := OpeningHours.weekly [(1, secondsRange 32430 64800)]
    ReadsMinutes twoDigits ∧
      parseHours twoDigits (mondayRanges "09:00:30" "18:00" "" "") = .ok hours ∧
      parseHours twoDigits (hoursFieldsFrom hours) ≠ .ok hours :=
  ⟨readsMinutes_twoDigits, by decide +kernel, by decide +kernel⟩

end BikesNest.Community
