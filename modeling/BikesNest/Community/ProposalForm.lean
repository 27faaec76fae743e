import BikesNest.Community.ProposalCodec
import BikesNest.Community.Service

/-!
# The form that proposes a change

`parkingProposalPost` reads the fields of the form into a change, writes the payload
and hands it to `proposeLocationChange`.  The coordinates are whatever parses as an
`f64`; `str::parse::<f64>` is the parameter `parseF64`.

`parkingProposalPost_reads` says for which of the accepted forms the moderator gets
to read what was submitted.
-/

namespace BikesNest.Store

/-- `ProposalKind::from_code`. -/
def ProposalKind.fromCode (code : String) : Option ProposalKind :=
  match code with
  | "move_location" => some .moveLocation
  | "change_existence" => some .changeExistence
  | _ => none

end BikesNest.Store

namespace BikesNest.Community

open Domain Store Transactions

/-- The raw fields of the form; a missing one is empty. -/
structure ProposalForm where
  kind : String := ""
  lat : String := ""
  lon : String := ""
  timezone : String := ""
  existence : String := ""
  reason : String := ""

/-- `parse_proposed_existence`: the codes of the payload, and those of a verification. -/
def parseProposedExistence (raw : String) : Option Bool :=
  match Text.trim raw with
  | "removed" | "no_longer_exists" => some false
  | "exists" | "info_changed" | "still_exists" => some true
  | _ => none

/-- The change that a form of a kind submits. -/
def ProposalForm.change (parseF64 : String → Option F64) (form : ProposalForm) :
    ProposalKind → Option ProposedChange
  | .moveLocation => do
    let lat ← parseF64 (Text.trim form.lat)
    let lon ← parseF64 (Text.trim form.lon)
    return .moveLocation lat lon (ProposedChange.trimmed form.timezone)
  | .changeExistence => (parseProposedExistence form.existence).map .changeExistence

/-- Where the answer leads. -/
inductive ProposalResponse where
  | login
  | forbidden
  /-- Back to the details of the location. -/
  | details
  | proposed
  | proposalError
  | notFound
deriving DecidableEq

/-- `parking_proposal_post`. -/
def parkingProposalPost (parseF64 : String → Option F64) (n : Nat)
    (auth : Option AuthenticatedUser) (allow : String → Nat → Int → Bool)
    (times : ContributionService.Times) (id : Nat) (form : ProposalForm) :
    Script ContributionError ProposalResponse :=
  match auth with
  | none => return .login
  | some user =>
    if !user.isVerified then return .forbidden
    else match ProposalKind.fromCode form.kind with
      | none => return .details
      | some kind => match form.change parseF64 kind with
        | none => return .proposalError
        | some change =>
          if change = .unknown then return .proposalError
          else do
            let proposed := (ProposalPayload.new change (some form.reason)).toJson
            let result ← Service.attempt
              (ContributionService.proposeLocationChange n user allow times id kind proposed)
            match result with
            | .ok _ => return .proposed
            | .error .locationNotActive => return .notFound
            | .error _ => return .proposalError

/-! ## What is stored -/

theorem run_releasing_request {ε α : Type} {unreachable : ε} {f : Statement ε α}
    {s s' : Connection Cell} {a : α}
    (h : (releasing (.request unreachable f)).run s = (.ok a, s')) :
    ∃ t, f s = .ok (a, t) ∧ s'.rows = t.rows := by
  cases hf : f s with
  | error e =>
    simp only [releasing, Service.request, Service.run, hf] at h
    cases h
  | ok r =>
    obtain ⟨b, t⟩ := r
    simp only [releasing, Service.request, Service.run, hf] at h
    obtain ⟨hb, hs⟩ := Prod.mk.inj h
    refine ⟨t, ?_, ?_⟩
    · rw [Except.ok.inj hb]
    · rw [← hs]
      show (if t.isOpen = true then t else t.release).rows = _
      split <;> rfl

/-- A proposal that was made is stored as it was handed over. -/
theorem proposeLocationChange_stores {n : Nat} {user : AuthenticatedUser}
    {allow : String → Nat → Int → Bool} {times : ContributionService.Times} {id : Nat}
    {kind : ProposalKind} {proposed : Json} {s s' : Connection Cell} {proposalId : Nat}
    (h : (ContributionService.proposeLocationChange n user allow times id kind proposed).run s =
      (.ok proposalId, s')) :
    ∃ row, s'.rows (.proposal n) = some row ∧ row.kind = kind ∧ row.proposed = proposed := by
  unfold ContributionService.proposeLocationChange at h
  obtain ⟨_, _, -, h⟩ := Service.run_bind_ok h
  obtain ⟨_, _, -, h⟩ := Service.run_bind_ok h
  obtain ⟨current, _, -, h⟩ := Service.run_bind_ok h
  obtain ⟨_, t, hcreate, h⟩ := Service.run_bind_ok h
  obtain ⟨_, t', haudit, h⟩ := Service.run_bind_ok h
  obtain ⟨u, hinsert, hrows⟩ := run_releasing_request hcreate
  unfold insertProposal at hinsert
  split at hinsert
  · cases hinsert
  · obtain ⟨-, rfl⟩ := Prod.mk.inj (Except.ok.inj hinsert)
    obtain ⟨-, rfl⟩ := Prod.mk.inj (Except.ok.inj (Service.run_request_ok.mp haudit))
    obtain ⟨-, rfl⟩ := Prod.mk.inj h
    refine ⟨NewProposal.toRow ⟨id, user.id, current.row.version, kind, proposed⟩ times.clock, ?_,
      rfl, rfl⟩
    have hother : ∀ event, ((t.lock [.auditEvent n]).write (.auditEvent n) event).rows
        (.proposal n) = t.rows (.proposal n) := by simp
    rw [hother, hrows]
    exact Function.update_self ..

/-! ## What is read -/

/-- The moderator reads what was submitted: a payload that is understood, with the
change and the note of the form. -/
def ReadsAs (row : ParkingProposal) (change : ProposedChange) (reason : String) : Prop :=
  (ProposalPayload.ofJson row.kind row.proposed).change ≠ .unknown ∧
    ProposalPayload.ofJson row.kind row.proposed = ProposalPayload.new change (some reason)

/-- The form does not move the location to coordinates that are not finite or out of
range. -/
def ProposalForm.InRange (parseF64 : String → Option F64) (form : ProposalForm) : Prop :=
  form.kind = "move_location" →
    ∃ lat lon : Rat, parseF64 (Text.trim form.lat) = some (.finite lat) ∧
      parseF64 (Text.trim form.lon) = some (.finite lon) ∧
      (-90 ≤ lat ∧ lat ≤ 90) ∧ -180 ≤ lon ∧ lon ≤ 180

theorem within_isSome {bound : Rat} {x : F64} :
    (x.within bound).isSome = true ↔ ∃ q, x = .finite q ∧ -bound ≤ q ∧ q ≤ bound := by
  cases x with
  | finite q =>
    unfold F64.within
    by_cases h : -bound ≤ q ∧ q ≤ bound
    · simp [h]
    · simp [h]
  | nonFinite => simp [F64.within]

theorem fromCode_move {code : String} (h : ProposalKind.fromCode code = some .moveLocation) :
    code = "move_location" := by
  unfold ProposalKind.fromCode at h
  split at h
  · rfl
  · cases h
  · cases h

theorem fromCode_existence {code : String}
    (h : ProposalKind.fromCode code = some .changeExistence) : code = "change_existence" := by
  unfold ProposalKind.fromCode at h
  split at h
  · cases h
  · rfl
  · cases h

/-- The changes that a form submits are of its kind. -/
theorem ProposalForm.change_kind {parseF64 : String → Option F64} {form : ProposalForm}
    {kind : ProposalKind} {change : ProposedChange} (h : form.change parseF64 kind = some change) :
    change.kind = some kind := by
  cases kind with
  | moveLocation =>
    obtain ⟨lat, -, h⟩ := Option.bind_eq_some_iff.mp h
    obtain ⟨lon, -, h⟩ := Option.bind_eq_some_iff.mp h
    rw [← Option.some.inj h]
    rfl
  | changeExistence =>
    obtain ⟨exists', -, rfl⟩ := Option.map_eq_some_iff.mp h
    rfl

/-- A submitted change is readable exactly when the form is in range. -/
theorem ProposalForm.change_readable {parseF64 : String → Option F64} {form : ProposalForm}
    {kind : ProposalKind} {change : ProposedChange}
    (hkind : ProposalKind.fromCode form.kind = some kind)
    (h : form.change parseF64 kind = some change) : change.Readable ↔ form.InRange parseF64 := by
  cases kind with
  | moveLocation =>
    obtain ⟨lat, hlat, h⟩ := Option.bind_eq_some_iff.mp h
    obtain ⟨lon, hlon, h⟩ := Option.bind_eq_some_iff.mp h
    rw [← Option.some.inj h]
    have hzone : ∀ tz, ProposedChange.trimmed form.timezone = some tz →
        tz ≠ "" ∧ Text.trim tz = tz := by
      intro tz htz
      obtain ⟨heq, hne⟩ := ProposedChange.trimmed_eq_some.mp htz
      exact ⟨hne, by rw [heq, Text.trim_trim]⟩
    have hrange : ProposedChange.coordsInRange lat lon = true ↔
        (lat.within 90).isSome = true ∧ (lon.within 180).isSome = true := by
      simp [ProposedChange.coordsInRange]
    show _ ∧ _ ↔ _
    rw [and_iff_left hzone, hrange, within_isSome, within_isSome]
    unfold InRange
    rw [hlat, hlon]
    constructor
    · rintro ⟨⟨q, rfl, hq⟩, ⟨p, rfl, hp⟩⟩ -
      exact ⟨q, p, rfl, rfl, hq, hp⟩
    · intro hin
      obtain ⟨q, p, hq, hp, hqr, hpr⟩ := hin (fromCode_move hkind)
      exact ⟨⟨q, Option.some.inj hq, hqr⟩, ⟨p, Option.some.inj hp, hpr⟩⟩
  | changeExistence =>
    obtain ⟨exists', -, rfl⟩ := Option.map_eq_some_iff.mp h
    refine iff_of_true trivial fun hmove => ?_
    rw [fromCode_existence hkind] at hmove
    exact absurd hmove (by decide)

/-- The moderator reads a stored change as it was submitted when it is readable. -/
theorem readsAs_iff {row : ParkingProposal} {change : ProposedChange} {reason : String}
    (hkind : change.kind = some row.kind)
    (hproposed : row.proposed = (ProposalPayload.new change (some reason)).toJson) :
    ReadsAs row change reason ↔ change.Readable := by
  unfold ReadsAs
  rw [hproposed]
  constructor
  · rintro ⟨-, hread⟩
    have hchange : ProposedChange.ofJson row.kind
        (ProposalPayload.new change (some reason)).toJson = change :=
      congrArg ProposalPayload.change hread
    rw [← hchange]
    exact (ProposedChange.ofJson_readable _ _).2
  · intro hreadable
    have hread := ProposalPayload.ofJson_toJson (.inr hkind) hreadable (some reason)
    rw [hread]
    refine ⟨fun hunknown => ?_, rfl⟩
    have hunknown : change = .unknown := hunknown
    rw [hunknown] at hkind
    cases hkind

/-- Of the proposals that the server confirms, exactly those in range reach the
moderator as they were submitted. -/
theorem parkingProposalPost_reads {parseF64 : String → Option F64} {n : Nat}
    {auth : Option AuthenticatedUser} {allow : String → Nat → Int → Bool}
    {times : ContributionService.Times} {id : Nat} {form : ProposalForm} {s s' : Connection Cell}
    (h : (parkingProposalPost parseF64 n auth allow times id form).run s = (.ok .proposed, s')) :
    ∃ kind change row, ProposalKind.fromCode form.kind = some kind ∧
      form.change parseF64 kind = some change ∧ s'.rows (.proposal n) = some row ∧
      row.kind = kind ∧ (ReadsAs row change form.reason ↔ form.InRange parseF64) := by
  unfold parkingProposalPost at h
  split at h
  · cases h
  · next user =>
    split at h
    · cases h
    · split at h
      · cases h
      · next kind hkind =>
        split at h
        · cases h
        · next change hchange =>
          split at h
          · cases h
          · obtain ⟨result, t, hrun, h⟩ := Service.run_bind_ok h
            rw [Service.run_attempt] at hrun
            obtain ⟨hresult, hstate⟩ := Prod.mk.inj hrun
            split at h
            · next proposalId =>
              obtain ⟨-, rfl⟩ := Prod.mk.inj h
              obtain ⟨row, hrow, hrowKind, hproposed⟩ := proposeLocationChange_stores
                (Prod.ext (Except.ok.inj hresult) hstate)
              refine ⟨kind, change, row, hkind, hchange, hrow, hrowKind, ?_⟩
              have hsame : change.kind = some row.kind := by
                rw [hrowKind]
                exact ProposalForm.change_kind hchange
              rw [readsAs_iff hsame hproposed, ProposalForm.change_readable hkind hchange]
            · cases h
            · cases h

/-- `str::parse::<f64>` on a few texts. -/
def parseSome : String → Option F64
  | "-25" => some (.finite (-25))
  | "-49" => some (.finite (-49))
  | "NaN" => some .nonFinite
  | _ => none

def proposingRider : AuthenticatedUser where
  id := 1
  email := "rider@example.com"
  accountState := .active
  isVerified := true
  roles := [.user]

/-- The answer to a form and the store after it. -/
def proposeTo (form : ProposalForm) :
    Except ContributionError ProposalResponse × Connection Cell :=
  (parkingProposalPost parseSome 7 (some proposingRider) (fun _ _ _ => true) ⟨0, 0, 0, 0⟩ 1
    form).run (.idle unratedRows 5)

theorem parkingProposalPost_reads_move :
    let form : ProposalForm :=
      { kind := "move_location", lat := " -25 ", lon := "-49", timezone := "America/Sao_Paulo" }
    ∃ kind change row, ProposalKind.fromCode form.kind = some kind ∧
      form.change parseSome kind = some change ∧
      (proposeTo form).2.rows (.proposal 7) = some row ∧ row.kind = kind ∧
      (ReadsAs row change form.reason ↔ form.InRange parseSome) :=
  parkingProposalPost_reads (Prod.ext (by decide +kernel) rfl)

/-- A move to a latitude that is no number is confirmed to its author and cannot be read
by the moderator. -/
theorem parkingProposalPost_nan :
    let form : ProposalForm := { kind := "move_location", lat := "NaN", lon := "-49" }
    (proposeTo form).1 = .ok .proposed ∧
      ∃ row, (proposeTo form).2.rows (.proposal 7) = some row ∧
        (ProposalPayload.ofJson row.kind row.proposed).change = .unknown := by
  refine ⟨by decide +kernel, ?_⟩
  have hread : ((proposeTo { kind := "move_location", lat := "NaN", lon := "-49" }).2.rows
      (.proposal 7)).any (fun row =>
        decide ((ProposalPayload.ofJson row.kind row.proposed).change = .unknown)) = true := by
    decide +kernel
  obtain ⟨row, hrow, hunknown⟩ := (Option.any_eq_true _ _).mp hread
  exact ⟨row, hrow, of_decide_eq_true hunknown⟩

end BikesNest.Community
