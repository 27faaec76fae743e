import BikesNest.Community.Proposal

/-!
# The stored payload of a proposal

A payload is a change and the proposer's note in one JSON object.  `toJson` writes
it and `ofJson` reads it for the kind of the row.  `Readable` are the payloads that
come back as they were written; what `ofJson` gives is always one of them.
-/

namespace BikesNest

namespace Json

/-- `Map::insert` of an object, whose fields come in the order of their keys. -/
def insertField (key : String) (value : Json) : List (String × Json) → List (String × Json)
  | [] => [(key, value)]
  | (k, v) :: fields =>
    if k = key then (key, value) :: fields
    else if key < k then (key, value) :: (k, v) :: fields
    else (k, v) :: insertField key value fields

theorem get_obj_cons (k : String) (v : Json) (fields : List (String × Json)) (key : String) :
    (obj ((k, v) :: fields)).get key = if k = key then some v else (obj fields).get key := by
  unfold get
  dsimp only
  rw [List.find?_cons]
  by_cases h : k = key
  · simp [h]
  · rw [if_neg h, show (k == key) = false from by simp [h]]

@[simp] theorem get_obj_nil (key : String) : (obj []).get key = none := rfl

/-- The inserted field is read, and the others stay. -/
theorem get_insertField (key : String) (value : Json) (fields : List (String × Json))
    (key' : String) :
    (obj (insertField key value fields)).get key' =
      if key = key' then some value else (obj fields).get key' := by
  induction fields with
  | nil => exact get_obj_cons key value [] key'
  | cons field fields ih =>
    obtain ⟨k, v⟩ := field
    unfold insertField
    split_ifs with hsame hbefore heq heq heq
    all_goals simp only [get_obj_cons, ih]
    all_goals grind

end Json

namespace Community

open Domain Store

/-! ## The codec -/

namespace ProposedChange

/-- `ProposedChange::kind`. -/
def kind : ProposedChange → Option ProposalKind
  | .moveLocation .. => some .moveLocation
  | .changeExistence _ => some .changeExistence
  | .unknown => none

/-- A number of a payload; JSON has no other numbers than finite ones. -/
def ofF64 : F64 → Json
  | .finite q => .float q
  | .nonFinite => .null

/-- The fields of `to_json`, in the order of their keys. -/
def toFields : ProposedChange → List (String × Json)
  | .moveLocation lat lon timezone =>
    [("lat", ofF64 lat), ("lon", ofF64 lon)] ++
      (timezone.map fun tz => ("timezone", Json.str tz)).toList
  | .changeExistence exists' => [("existence", .str (if exists' then "exists" else "removed"))]
  | .unknown => []

/-- `ProposedChange::to_json`. -/
def toJson (change : ProposedChange) : Json := .obj change.toFields

end ProposedChange

/-- `ProposalPayload`. -/
structure ProposalPayload where
  change : ProposedChange
  reason : Option String
deriving DecidableEq

namespace ProposalPayload

/-- `ProposalPayload::new`. -/
def new (change : ProposedChange) (reason : Option String) : ProposalPayload :=
  ⟨change, reason.bind ProposedChange.trimmed⟩

/-- `ProposalPayload::from_json`. -/
def ofJson (kind : ProposalKind) (raw : Json) : ProposalPayload :=
  new (.ofJson kind raw) ((raw.get "reason").bind Json.asStr)

/-- `ProposalPayload::to_json`. -/
def toJson (p : ProposalPayload) : Json :=
  match p.reason with
  | some reason => .obj (Json.insertField "reason" (.str reason) p.change.toFields)
  | none => p.change.toJson

end ProposalPayload

/-! ## What comes back -/

namespace ProposedChange

theorem trimmed_eq_some {s t : String} : trimmed s = some t ↔ t = Text.trim s ∧ t ≠ "" := by
  unfold trimmed
  dsimp only
  split
  · next h => simp_all [String.isEmpty_iff]
  · next h =>
    rw [Option.some.injEq]
    constructor
    · rintro rfl
      exact ⟨rfl, by simpa [String.isEmpty_iff] using h⟩
    · exact fun h => h.1.symm

/-- A text that was trimmed is trimmed to itself. -/
theorem trimmed_trimmed {s t : String} (h : trimmed s = some t) : trimmed t = some t := by
  obtain ⟨heq, hne⟩ := trimmed_eq_some.mp h
  exact trimmed_eq_some.mpr ⟨by rw [heq, Text.trim_trim], hne⟩

/-- A change that a payload can hold: its coordinates are in range, and its time zone
has no white space around it. -/
def Readable : ProposedChange → Prop
  | .moveLocation lat lon timezone =>
    coordsInRange lat lon = true ∧ ∀ tz, timezone = some tz → tz ≠ "" ∧ Text.trim tz = tz
  | .changeExistence _ => True
  | .unknown => True

theorem asF64_ofF64_of_isSome {bound : Rat} {x : F64} (h : (x.within bound).isSome = true) :
    asF64 (ofF64 x) = some x := by
  cases x with
  | finite q => rfl
  | nonFinite => cases h

/-- An object with the fields of a readable change is read as that change. -/
theorem ofJson_of_fields {kind : ProposalKind} {change : ProposedChange} {raw : Json}
    (hkind : change = .unknown ∨ change.kind = some kind) (hreadable : change.Readable)
    (hfields : ∀ key, key ≠ "reason" → raw.get key = change.toJson.get key) :
    ofJson kind raw = change := by
  have hlat := hfields "lat" (by decide)
  have hlon := hfields "lon" (by decide)
  have htimezone := hfields "timezone" (by decide)
  have hexistence := hfields "existence" (by decide)
  have hexists := hfields "exists" (by decide)
  cases change with
  | unknown =>
    unfold ofJson
    rw [hlat, hexistence, hexists]
    cases kind <;> rfl
  | changeExistence exists' =>
    obtain rfl : ProposalKind.changeExistence = kind := by simpa [ProposedChange.kind] using hkind
    unfold ofJson
    rw [hexistence]
    cases exists' <;> rfl
  | moveLocation lat lon timezone =>
    obtain rfl : ProposalKind.moveLocation = kind := by simpa [ProposedChange.kind] using hkind
    obtain ⟨hrange, htrimmed⟩ := hreadable
    have hwithin : (lat.within 90).isSome = true ∧ (lon.within 180).isSome = true := by
      simpa [coordsInRange] using hrange
    have hlat : (raw.get "lat").bind asF64 = some lat := by
      rw [hlat]
      exact asF64_ofF64_of_isSome hwithin.1
    have hlon : (raw.get "lon").bind asF64 = some lon := by
      rw [hlon]
      exact asF64_ofF64_of_isSome hwithin.2
    have hzone : ((raw.get "timezone").bind Json.asStr).bind trimmed = timezone := by
      rw [htimezone]
      cases timezone with
      | none => rfl
      | some tz =>
        have hread : ((Json.obj (toFields (.moveLocation lat lon (some tz)))).get
            "timezone").bind Json.asStr = some tz := rfl
        rw [toJson, hread, Option.bind_some, trimmed_eq_some]
        exact ⟨(htrimmed tz rfl).2.symm, (htrimmed tz rfl).1⟩
    unfold ofJson
    dsimp only
    rw [hlat, hlon]
    dsimp only
    rw [if_pos hrange, hzone]

/-- What is read is readable, and of the kind that it was read for. -/
theorem ofJson_readable (kind : ProposalKind) (raw : Json) :
    (ofJson kind raw = .unknown ∨ (ofJson kind raw).kind = some kind) ∧
      (ofJson kind raw).Readable := by
  cases kind with
  | moveLocation =>
    unfold ofJson
    dsimp only
    split
    · split
      · next hrange =>
        refine ⟨.inr rfl, hrange, fun tz htz => ?_⟩
        obtain ⟨s, -, hs⟩ := Option.bind_eq_some_iff.mp htz
        obtain ⟨heq, hne⟩ := trimmed_eq_some.mp hs
        exact ⟨hne, by rw [heq, Text.trim_trim]⟩
      · exact ⟨.inl rfl, trivial⟩
    · exact ⟨.inl rfl, trivial⟩
  | changeExistence =>
    unfold ofJson
    dsimp only
    split
    · split_ifs
      · exact ⟨.inr rfl, trivial⟩
      · exact ⟨.inr rfl, trivial⟩
      · exact ⟨.inl rfl, trivial⟩
    · split
      · exact ⟨.inr rfl, trivial⟩
      · exact ⟨.inl rfl, trivial⟩

end ProposedChange

namespace ProposalPayload

theorem get_toJson (p : ProposalPayload) (key : String) :
    p.toJson.get key =
      if key = "reason" then p.reason.map Json.str else p.change.toJson.get key := by
  have hnone : p.change.toJson.get "reason" = none := by
    obtain ⟨change, reason⟩ := p
    cases change with
    | moveLocation lat lon timezone => cases timezone <;> rfl
    | changeExistence exists' => rfl
    | unknown => rfl
  unfold toJson
  split
  · next reason heq =>
    rw [Json.get_insertField, heq]
    by_cases h : key = "reason"
    · simp [h]
    · rw [if_neg h, if_neg (Ne.symm h)]
      rfl
  · next heq =>
    by_cases h : key = "reason"
    · rw [if_pos h, h, hnone, heq]
      rfl
    · rw [if_neg h]

/-- A payload of a readable change comes back as it was written. -/
theorem ofJson_toJson {kind : ProposalKind} {change : ProposedChange}
    (hkind : change = .unknown ∨ change.kind = some kind) (hreadable : change.Readable)
    (reason : Option String) :
    ofJson kind (new change reason).toJson = new change reason := by
  have hchange : ProposedChange.ofJson kind (new change reason).toJson = change := by
    refine ProposedChange.ofJson_of_fields hkind hreadable fun key hkey => ?_
    rw [get_toJson, if_neg hkey]
    rfl
  have hreason : (((new change reason).toJson.get "reason").bind Json.asStr).bind
      ProposedChange.trimmed = reason.bind ProposedChange.trimmed := by
    rw [get_toJson, if_pos rfl]
    show ((((reason.bind ProposedChange.trimmed).map Json.str).bind Json.asStr).bind _) = _
    cases htrimmed : reason.bind ProposedChange.trimmed with
    | none => rfl
    | some t =>
      obtain ⟨s, -, hs⟩ := Option.bind_eq_some_iff.mp htrimmed
      simp only [Option.map_some, Option.bind_some, Json.asStr]
      exact ProposedChange.trimmed_trimmed hs
  show ProposalPayload.mk (.ofJson kind (new change reason).toJson)
    ((((new change reason).toJson.get "reason").bind Json.asStr).bind ProposedChange.trimmed) = _
  rw [hchange, hreason]
  rfl

/-- The payloads that `new` builds of a readable change come back as they were written,
and reading what was written of any stored value gives the same payload again. -/
theorem codec (kind : ProposalKind) :
    (∀ (change : ProposedChange) (reason : Option String),
        change = .unknown ∨ change.kind = some kind → change.Readable →
          ofJson kind (new change reason).toJson = new change reason) ∧
      ∀ v : Json, ofJson kind (ofJson kind v).toJson = ofJson kind v := by
  refine ⟨fun change reason hkind hreadable => ofJson_toJson hkind hreadable reason, fun v => ?_⟩
  obtain ⟨hkind, hreadable⟩ := ProposedChange.ofJson_readable kind v
  exact ofJson_toJson hkind hreadable _

end ProposalPayload

end Community

end BikesNest
