import BikesNest.Community.Location
import BikesNest.Domain.Hours
import BikesNest.Domain.Text

/-!
# The opening-hours form

`parseHours` reads the seven rows of the hours editor.  A day has at most two
ranges; an empty range and two ranges that share a minute are refused.  The
parser of `chrono` is a parameter, `Chrono`, with the one fact that is used of
it: a text without a fraction gives no fraction, and `:60` gives a leap second.

`parseDay_accepted` says what an accepted day looks like, and
`insertHours_parseHours` that the database takes an accepted week.
-/

namespace BikesNest.Community

open Domain

/-! ## The form -/

/-- `NaiveTime::parse_from_str` on a text and a format. -/
structure Chrono where
  parseFromStr : String → String → Option TimeOfDay
  no_fraction : ∀ s t, parseFromStr s "%H:%M" = some t ∨ parseFromStr s "%H:%M:%S" = some t →
    t.isWhole

inductive DayState where
  | unknown | closed | allDay | ranges
deriving DecidableEq

def DayState.fromCode (raw : String) : DayState :=
  match Text.trim raw with
  | "closed" => .closed
  | "all_day" => .allDay
  | "ranges" => .ranges
  | _ => .unknown

/-- The five raw fields of a day. -/
structure DayFields where
  state : String
  r1Open : String
  r1Close : String
  r2Open : String
  r2Close : String

def DayFields.dayState (f : DayFields) : DayState := .fromCode f.state

/-- A rejected day and the key of the message. -/
structure HoursError where
  day : Nat
  key : String
deriving DecidableEq

def hoursInvalidRange : String := "form.hours.invalid_range"
def hoursOverlap : String := "form.hours.overlap"

/-- `parse_time`. -/
def parseTime (chrono : Chrono) (raw : String) : Option TimeOfDay :=
  let s := Text.trim raw
  if s = "" then none
  else match chrono.parseFromStr s "%H:%M" with
    | some t => some t
    | none => chrono.parseFromStr s "%H:%M:%S"

/-- The minute of the day that a time lies in. -/
def minuteOf (t : TimeOfDay) : Nat := t.secs / 60

/-- `segments`: the minutes of a range as half-open segments of the day. -/
def segments (r : TimeRange) : List (Nat × Nat) :=
  if r.allDay then [(0, 24 * 60), (0, 0)]
  else
    let opens := minuteOf r.opensAt
    let closes := minuteOf r.closesAt
    if opens < closes then [(opens, closes), (0, 0)]
    else [(opens, 24 * 60), (0, closes)]

/-- `ranges_overlap`. -/
def rangesOverlap (a b : TimeRange) : Bool :=
  (segments a).any fun x => (segments b).any fun y => x.1 < y.2 && y.1 < x.2

/-- One pair of fields of a day: none when both are empty. -/
def parseRange (chrono : Chrono) (invalid : HoursError) (opens closes : String) :
    Except HoursError (Option TimeRange) :=
  if opens = "" ∧ closes = "" then .ok none
  else match parseTime chrono opens, parseTime chrono closes with
    | some o, some c => if o = c then .error invalid else .ok (some ⟨o, c, false⟩)
    | _, _ => .error invalid

/-- The rows of one day. -/
def parseDay (chrono : Chrono) (day : Nat) (f : DayFields) :
    Except HoursError (List TimeRange) :=
  let invalid : HoursError := ⟨day, hoursInvalidRange⟩
  match f.dayState with
  | .unknown | .closed => .ok []
  | .allDay => .ok [.wholeDay]
  | .ranges => do
    let first ← parseRange chrono invalid (Text.trim f.r1Open) (Text.trim f.r1Close)
    let second ← parseRange chrono invalid (Text.trim f.r2Open) (Text.trim f.r2Close)
    match first, second with
    | none, none => .error invalid
    | some a, some b => if rangesOverlap a b then .error ⟨day, hoursOverlap⟩ else .ok [a, b]
    | some a, none | none, some a => .ok [a]

/-- The rows of the days from `day` on. -/
def parseDays (chrono : Chrono) : Nat → List DayFields →
    Except HoursError (List (Nat × TimeRange))
  | _, [] => .ok []
  | day, f :: fs => do
    let rows ← parseDay chrono day f
    let rest ← parseDays chrono (day + 1) fs
    return rows.map (fun r => (day, r)) ++ rest

/-- Days are accepted one after the other. -/
theorem parseDays_cons_ok {chrono : Chrono} {day : Nat} {f : DayFields} {fs : List DayFields}
    {rows : List (Nat × TimeRange)} (h : parseDays chrono day (f :: fs) = .ok rows) :
    ∃ first rest, parseDay chrono day f = .ok first ∧ parseDays chrono (day + 1) fs = .ok rest ∧
      rows = first.map (fun r => (day, r)) ++ rest := by
  unfold parseDays at h
  generalize hday : parseDay chrono day f = first at h
  generalize hrest : parseDays chrono (day + 1) fs = rest at h
  cases first with
  | error _ => cases h
  | ok first =>
    cases rest with
    | error _ => cases h
    | ok rest => exact ⟨first, rest, rfl, rfl, (Except.ok.inj h).symm⟩

/-- `parse_hours`. -/
def parseHours (chrono : Chrono) (fields : Vector DayFields 7) :
    Except HoursError OpeningHours :=
  if fields.toList.all fun f => f.dayState = .unknown then .ok .unknown
  else (parseDays chrono 1 fields.toList).map .weekly

/-- A week of rows comes from a form that knows some day and accepts every day. -/
theorem parseHours_weekly_iff {chrono : Chrono} {fields : Vector DayFields 7}
    {rows : List (Nat × TimeRange)} :
    parseHours chrono fields = .ok (.weekly rows) ↔
      ¬ (fields.toList.all fun f => f.dayState = .unknown) = true ∧
        parseDays chrono 1 fields.toList = .ok rows := by
  unfold parseHours
  split
  · next hall => exact iff_of_false (fun h => by cases h) fun h => h.1 hall
  · next hall =>
    rw [and_iff_right hall]
    cases parseDays chrono 1 fields.toList with
    | error e => exact iff_of_false (fun h => by cases h) fun h => by cases h
    | ok read => simp [Except.map]

theorem parseHours_unknown_iff {chrono : Chrono} {fields : Vector DayFields 7} :
    parseHours chrono fields = .ok .unknown ↔
      (fields.toList.all fun f => f.dayState = .unknown) = true := by
  unfold parseHours
  split
  · next hall => exact iff_of_true rfl hall
  · next hall =>
    refine iff_of_false (fun h => ?_) hall
    cases hdays : parseDays chrono 1 fields.toList with
    | error e =>
      rw [hdays] at h
      cases h
    | ok rows =>
      rw [hdays] at h
      cases h

/-! ## What is accepted -/

/-- What the form accepts for a day: all of it, or ranges with ends of whole
seconds and no minute in common. -/
inductive DayAccepted : List TimeRange → Prop where
  | none : DayAccepted []
  | allDay : DayAccepted [.wholeDay]
  | one {a : TimeRange} (ha : a.allDay = false)
      (hwhole : a.opensAt.isWhole ∧ a.closesAt.isWhole) : DayAccepted [a]
  | two {a b : TimeRange} (ha : a.allDay = false)
      (hwhole : a.opensAt.isWhole ∧ a.closesAt.isWhole)
      (hb : b.allDay = false)
      (hwhole' : b.opensAt.isWhole ∧ b.closesAt.isWhole)
      (hapart : rangesOverlap a b = false) : DayAccepted [a, b]

theorem parseTime_isWhole {chrono : Chrono} {raw : String} {t : TimeOfDay}
    (h : parseTime chrono raw = some t) : t.isWhole := by
  unfold parseTime at h
  dsimp only at h
  split at h
  · cases h
  · split at h
    · next heq =>
      rw [Option.some.inj h] at heq
      exact chrono.no_fraction _ _ (.inl heq)
    · exact chrono.no_fraction _ _ (.inr h)

theorem parseRange_some {chrono : Chrono} {invalid : HoursError} {opens closes : String}
    {r : TimeRange} (h : parseRange chrono invalid opens closes = .ok (some r)) :
    r.allDay = false ∧ r.opensAt.isWhole ∧ r.closesAt.isWhole := by
  unfold parseRange at h
  split at h
  · cases h
  · split at h
    · next o c ho hc =>
      split at h
      · cases h
      · obtain rfl := Option.some.inj (Except.ok.inj h)
        exact ⟨rfl, parseTime_isWhole ho, parseTime_isWhole hc⟩
    · cases h

/-- The rows of an accepted day. -/
theorem parseDay_accepted {chrono : Chrono} {day : Nat} {f : DayFields} {rs : List TimeRange}
    (h : parseDay chrono day f = .ok rs) : DayAccepted rs := by
  unfold parseDay at h
  dsimp only at h
  split at h
  · obtain rfl := Except.ok.inj h
    exact .none
  · obtain rfl := Except.ok.inj h
    exact .none
  · obtain rfl := Except.ok.inj h
    exact .allDay
  · generalize hfirst : parseRange chrono _ (Text.trim f.r1Open) (Text.trim f.r1Close) = first at h
    generalize hsecond :
      parseRange chrono _ (Text.trim f.r2Open) (Text.trim f.r2Close) = second at h
    match first, second with
    | .error _, _ => cases h
    | .ok _, .error _ => cases h
    | .ok none, .ok none => cases h
    | .ok (some a), .ok (some b) =>
      have ha := parseRange_some hfirst
      have hb := parseRange_some hsecond
      cases hapart : rangesOverlap a b with
      | true => simp [bind, Except.bind, hapart] at h
      | false =>
        simp only [bind, Except.bind, hapart] at h
        obtain rfl := Except.ok.inj h
        exact .two ha.1 ha.2 hb.1 hb.2 hapart
    | .ok (some a), .ok none =>
      have ha := parseRange_some hfirst
      obtain rfl := Except.ok.inj h
      exact .one ha.1 ha.2
    | .ok none, .ok (some b) =>
      have hb := parseRange_some hsecond
      obtain rfl := Except.ok.inj h
      exact .one hb.1 hb.2

/-! ## What the database takes -/

/-- No time of the schedule is a leap second. -/
def IsOrdinary (hours : OpeningHours) : Prop :=
  ∀ x ∈ hours.rows, x.2.opensAt.isOrdinary = true ∧ x.2.closesAt.isOrdinary = true

theorem rangesOverlap_self {r : TimeRange} (h : r.allDay = false) : rangesOverlap r r = true := by
  have hsecs := r.opensAt.secs_lt
  have hopens : minuteOf r.opensAt < 24 * 60 := by
    unfold minuteOf
    omega
  unfold rangesOverlap segments
  rw [if_neg (by simp [h])]
  dsimp only
  split
  · next hlt => simp [hlt]
  · simp [hopens]

/-- The rows of an accepted day have different keys. -/
theorem DayAccepted.nodup {rs : List TimeRange} (h : DayAccepted rs) (day : Nat)
    (hordinary : ∀ r ∈ rs, r.opensAt.isOrdinary = true ∧ r.closesAt.isOrdinary = true) :
    (rs.map fun r => (hourRow (day, r)).key).Nodup := by
  cases h with
  | none => exact .nil
  | allDay => exact List.nodup_singleton _
  | one => exact List.nodup_singleton _
  | @two a b ha hwhole hb hwhole' hapart =>
    have hoa := hordinary a (by simp)
    have hob := hordinary b (by simp)
    simp only [List.map_cons, List.map_nil, List.nodup_cons, List.mem_singleton,
      List.not_mem_nil, not_false_eq_true, List.nodup_nil, and_true]
    intro hkey
    simp only [HourRow.key, hourRow, ha, hb, Bool.false_eq_true, if_false, Prod.mk.injEq,
      true_and] at hkey
    have hab : a = b := by
      obtain ⟨ao, ac, aall⟩ := a
      obtain ⟨bo, bc, ball⟩ := b
      obtain rfl := TimeOfDay.eq_of_micros_eq hwhole.1 hwhole'.1 hoa.1 hob.1 hkey.1
      obtain rfl := TimeOfDay.eq_of_micros_eq hwhole.2 hwhole'.2 hoa.2 hob.2 hkey.2
      rw [show aall = ball from ha.trans hb.symm]
    rw [← hab, rangesOverlap_self ha] at hapart
    cases hapart

/-- The rows of accepted days in a row: their days lie in range, and their keys
differ. -/
theorem parseDays_rows {chrono : Chrono} {fs : List DayFields} {day : Nat}
    {rows : List (Nat × TimeRange)} (h : parseDays chrono day fs = .ok rows)
    (hordinary : ∀ x ∈ rows, x.2.opensAt.isOrdinary = true ∧ x.2.closesAt.isOrdinary = true) :
    (∀ x ∈ rows, day ≤ x.1 ∧ x.1 < day + fs.length) ∧
      (rows.map fun x => (hourRow x).key).Nodup := by
  induction fs generalizing day rows with
  | nil =>
    obtain rfl := Except.ok.inj h
    exact ⟨by simp, .nil⟩
  | cons f fs ih =>
    obtain ⟨first, rest, hday, hrest, rfl⟩ := parseDays_cons_ok h
    obtain ⟨hdays, hnodup⟩ := ih hrest fun x hx => hordinary x (List.mem_append_right _ hx)
    have hfirst := (parseDay_accepted hday).nodup day fun r hr =>
      hordinary (day, r) (List.mem_append_left _ (List.mem_map_of_mem hr))
    constructor
    · intro x hx
      rw [List.length_cons]
      rcases List.mem_append.mp hx with hx | hx
      · obtain ⟨r, _, rfl⟩ := List.mem_map.mp hx
        exact ⟨le_refl _, by show day < _; omega⟩
      · have := hdays x hx
        omega
    · rw [List.map_append, List.map_map]
      refine List.Nodup.append hfirst hnodup fun k hk hk' => ?_
      obtain ⟨r, _, rfl⟩ := List.mem_map.mp hk
      obtain ⟨x, hx, hkey⟩ := List.mem_map.mp hk'
      have hday : x.1 = day := congrArg Prod.fst hkey
      have := hdays x hx
      omega

/-- The times that an ordinary range is stored with lie before 24:00. -/
theorem hourRow_lt {x : Nat × TimeRange} (h : x.2.opensAt.isOrdinary = true)
    (h' : x.2.closesAt.isOrdinary = true) :
    (hourRow x).opensAt < 86400000000 ∧ (hourRow x).closesAt < 86400000000 := by
  have hopens := TimeOfDay.micros_lt h
  have hcloses := TimeOfDay.micros_lt h'
  unfold hourRow
  cases x.2.allDay with
  | true =>
    show TimeOfDay.midnight.micros < _ ∧ TimeOfDay.lastSecond.micros < _
    exact ⟨by decide, by decide⟩
  | false => exact ⟨hopens, hcloses⟩

/-- The database takes every ordinary schedule that the form accepts. -/
theorem insertHours_parseHours {chrono : Chrono} {fields : Vector DayFields 7}
    {hours : OpeningHours} (h : parseHours chrono fields = .ok hours)
    (hordinary : IsOrdinary hours) :
    insertHours [] hours = .ok (hours.rows.map hourRow) := by
  have hrows : (∀ x ∈ hours.rows, 1 ≤ x.1 ∧ x.1 < 1 + 7) ∧
      (hours.rows.map fun x => (hourRow x).key).Nodup := by
    cases hours with
    | unknown => exact ⟨by simp [OpeningHours.rows], .nil⟩
    | weekly rows =>
      have hall := parseDays_rows (parseHours_weekly_iff.mp h).2 hordinary
      rwa [Vector.length_toList] at hall
  obtain ⟨hdays, hnodup⟩ := hrows
  unfold insertHours
  dsimp only
  rw [if_neg, if_neg, if_neg]
  · rfl
  · rw [List.nil_append, List.map_map, not_not]
    exact hnodup
  · simp only [List.any_map, List.any_eq_true, not_exists, not_and, Function.comp_apply]
    intro x hx
    have := hdays x hx
    show ¬(decide (x.1 < 1) || decide (7 < x.1)) = true
    simp only [Bool.or_eq_true, decide_eq_true_eq]
    omega
  · simp only [List.any_map, List.any_eq_true, not_exists, not_and, Function.comp_apply]
    intro x hx
    have := hourRow_lt (hordinary x hx).1 (hordinary x hx).2
    simp only [Bool.or_eq_true, decide_eq_true_eq]
    omega

end BikesNest.Community
