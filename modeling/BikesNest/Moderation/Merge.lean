import BikesNest.Community.ProposalCodec
import BikesNest.Moderation.Proposals

/-!
# What an approval applies

`merge` takes each value from the moderator's overrides, and else from the payload when
the payload is of the kind of the proposal.  `Merged` says so of the application that it
gives, and `Supplies` which overrides are enough without a payload.
-/

namespace BikesNest

namespace Community.ProposedChange

/-- The latitude of a move. -/
def lat? : ProposedChange → Option F64
  | .moveLocation lat _ _ => some lat
  | _ => none

/-- The longitude of a move. -/
def lon? : ProposedChange → Option F64
  | .moveLocation _ lon _ => some lon
  | _ => none

/-- The time zone of a move, if it has one. -/
def timezone? : ProposedChange → Option String
  | .moveLocation _ _ timezone => timezone
  | _ => none

def exists? : ProposedChange → Option Bool
  | .changeExistence exists' => some exists'
  | _ => none

end Community.ProposedChange

namespace Moderation

open Domain Community Store

variable {isZone : String → Bool} {kind : ProposalKind} {change : ProposedChange}
  {override : ProposalOverride}

/-- Each value of the application is the override's, or else the payload's; the
coordinates are in range, and the time zone is one. -/
def Merged (isZone : String → Bool) (change : ProposedChange) (override : ProposalOverride) :
    ProposalApplication → Prop
  | .moveLocation point timezone =>
    override.lat.or change.lat? = some (.finite point.lat) ∧
      override.lon.or change.lon? = some (.finite point.lon) ∧
      (-90 ≤ point.lat ∧ point.lat ≤ 90) ∧ (-180 ≤ point.lon ∧ point.lon ≤ 180) ∧
      ∃ text, override.timezone.or change.timezone? = some text ∧
        timezone = Text.trim text ∧ isZone timezone = true
  | .changeExistence exists' => override.exists'.or change.exists? = some exists'

/-- The overrides have every value that a kind of application needs, and valid ones. -/
def Supplies (isZone : String → Bool) (override : ProposalOverride) : ProposalKind → Prop
  | .moveLocation =>
    (∃ lat, override.lat = some (.finite lat) ∧ -90 ≤ lat ∧ lat ≤ 90) ∧
      (∃ lon, override.lon = some (.finite lon) ∧ -180 ≤ lon ∧ lon ≤ 180) ∧
      ∃ text, override.timezone = some text ∧ Text.trim text ≠ "" ∧
        isZone (Text.trim text) = true
  | .changeExistence => ∃ exists', override.exists' = some exists'

/-! ## A validated move -/

theorem okOr_ok_iff {ε α : Type} {e : ε} {o : Option α} {a : α} :
    okOr e o = .ok a ↔ o = some a := by
  cases o with
  | none => exact iff_of_false (fun h => by cases h) (fun h => by cases h)
  | some b => simp [okOr]

theorem within_eq_some {bound : Rat} {x : F64} {q : {q : Rat // -bound ≤ q ∧ q ≤ bound}} :
    x.within bound = some q ↔ x = .finite q.1 := by
  cases x with
  | nonFinite => simp [F64.within]
  | finite p =>
    constructor
    · intro h
      dsimp only [F64.within] at h
      split at h
      · rw [← Option.some.inj h]
      · cases h
    · intro h
      rw [h]
      exact dif_pos q.2

/-- A move is validated when its coordinates are in range and its text names a zone. -/
theorem moveLocation_ok_iff {lat lon : Option F64} {timezone : Option String}
    {applied : ProposalApplication} :
    moveLocation isZone lat lon timezone = .ok applied ↔
      ∃ (point : GeoPoint) (text : String), applied = .moveLocation point (Text.trim text) ∧
        lat = some (.finite point.lat) ∧ lon = some (.finite point.lon) ∧
        timezone = some text ∧ Text.trim text ≠ "" ∧ isZone (Text.trim text) = true := by
  constructor
  · intro h
    unfold moveLocation at h
    obtain ⟨x, hx, h⟩ := bind_eq_ok h
    obtain ⟨y, hy, h⟩ := bind_eq_ok h
    obtain ⟨lat, hlat, h⟩ := bind_eq_ok h
    obtain ⟨lon, hlon, h⟩ := bind_eq_ok h
    obtain ⟨zone, hzone, h⟩ := bind_eq_ok h
    obtain ⟨text, htext, htrimmed⟩ := Option.bind_eq_some_iff.mp (okOr_ok_iff.mp hzone)
    obtain ⟨rfl, hne⟩ := ProposedChange.trimmed_eq_some.mp htrimmed
    split at h
    · next hiszone =>
      refine ⟨⟨lat.1, lon.1, lat.2, lon.2⟩, text, (Except.ok.inj h).symm, ?_, ?_, htext, hne,
        hiszone⟩
      · rw [okOr_ok_iff.mp hx, within_eq_some.mp (okOr_ok_iff.mp hlat)]
      · rw [okOr_ok_iff.mp hy, within_eq_some.mp (okOr_ok_iff.mp hlon)]
    · cases h
  · rintro ⟨point, text, rfl, rfl, rfl, rfl, hne, hiszone⟩
    have hlat : F64.within 90 (.finite point.lat) = some ⟨point.lat, point.lat_range⟩ :=
      within_eq_some.mpr rfl
    have hlon : F64.within 180 (.finite point.lon) = some ⟨point.lon, point.lon_range⟩ :=
      within_eq_some.mpr rfl
    have htrimmed : ProposedChange.trimmed text = some (Text.trim text) :=
      ProposedChange.trimmed_eq_some.mpr ⟨rfl, hne⟩
    unfold moveLocation
    simp only [okOr, hlat, hlon, Option.bind_some, htrimmed, hiszone, if_true, bind,
      Except.bind]
    rfl

/-! ## The merge -/

/-- What a merge that succeeds has taken its values from. -/
theorem merged_of_ok {applied : ProposalApplication}
    (h : merge isZone kind change override = .ok applied) :
    ProposalApplication.kind applied = kind ∧ Merged isZone change override applied := by
  unfold merge at h
  split at h
  · next lat lon timezone =>
    obtain ⟨point, text, rfl, hlat, hlon, hzone, -, hiszone⟩ := moveLocation_ok_iff.mp h
    exact ⟨rfl, hlat, hlon, point.lat_range, point.lon_range, text, hzone, rfl, hiszone⟩
  · next exists' =>
    rw [← Except.ok.inj h]
    refine ⟨rfl, ?_⟩
    show override.exists'.or (some exists') = _
    cases override.exists' <;> rfl
  · next hother =>
    obtain ⟨point, text, rfl, hlat, hlon, hzone, -, hiszone⟩ := moveLocation_ok_iff.mp h
    refine ⟨rfl, ?_, ?_, point.lat_range, point.lon_range, text, ?_, rfl, hiszone⟩
    · rw [hlat]
      rfl
    · rw [hlon]
      rfl
    · rw [hzone]
      rfl
  · obtain ⟨exists', hexists, h⟩ := bind_eq_ok h
    rw [← Except.ok.inj h]
    refine ⟨rfl, ?_⟩
    show override.exists'.or _ = _
    rw [okOr_ok_iff.mp hexists]
    rfl

/-- Without a payload of the kind, the merge goes by the overrides alone. -/
theorem merge_of_other (h : change.kind ≠ some kind) :
    merge isZone kind change override = match kind with
      | .moveLocation => moveLocation isZone override.lat override.lon override.timezone
      | .changeExistence => do
        let exists' ← okOr (.invalidProposalField .existence) override.exists'
        return .changeExistence exists' := by
  cases kind with
  | moveLocation =>
    cases change with
    | moveLocation lat lon timezone => exact absurd rfl h
    | changeExistence exists' => rfl
    | unknown => rfl
  | changeExistence =>
    cases change with
    | moveLocation lat lon timezone => rfl
    | changeExistence exists' => exact absurd rfl h
    | unknown => rfl

/-- A merge gives an application of the kind, each value of it the override's or else the
payload's; and without a payload of the kind it succeeds exactly when the overrides have
every value. -/
theorem merge_lawful (isZone : String → Bool) (kind : ProposalKind) (change : ProposedChange)
    (override : ProposalOverride) :
    (∀ applied, merge isZone kind change override = .ok applied →
        ProposalApplication.kind applied = kind ∧ Merged isZone change override applied) ∧
      (change.kind ≠ some kind →
        ((∃ applied, merge isZone kind change override = .ok applied) ↔
          Supplies isZone override kind)) := by
  refine ⟨fun applied h => merged_of_ok h, fun hother => ?_⟩
  rw [merge_of_other hother]
  cases kind with
  | moveLocation =>
    constructor
    · rintro ⟨applied, h⟩
      obtain ⟨point, text, -, hlat, hlon, hzone, hne, hiszone⟩ := moveLocation_ok_iff.mp h
      exact ⟨⟨point.lat, hlat, point.lat_range⟩, ⟨point.lon, hlon, point.lon_range⟩, text, hzone,
        hne, hiszone⟩
    · rintro ⟨⟨lat, hlat, hlatRange⟩, ⟨lon, hlon, hlonRange⟩, text, hzone, hne, hiszone⟩
      exact ⟨_, moveLocation_ok_iff.mpr ⟨⟨lat, lon, hlatRange, hlonRange⟩, text, rfl, hlat, hlon,
        hzone, hne, hiszone⟩⟩
  | changeExistence =>
    constructor
    · rintro ⟨applied, h⟩
      obtain ⟨exists', hexists, -⟩ := bind_eq_ok h
      exact ⟨exists', okOr_ok_iff.mp hexists⟩
    · rintro ⟨exists', hexists⟩
      refine ⟨.changeExistence exists', ?_⟩
      dsimp only
      rw [hexists]
      rfl

end Moderation

end BikesNest
