import BikesNest.Community.Proposal
import BikesNest.Moderation.Actions

/-!
# Deciding on a proposal

`merge` combines what the proposer asked for with what the moderator retyped.
`approveProposalRow` and `rejectProposalRow` are the transactions that decide on a
proposal, each as one step on the database.
-/

namespace BikesNest.Moderation

open Domain Community Store Relational

/-- What the moderator typed into the approve form. -/
structure ProposalOverride where
  lat : Option F64 := none
  lon : Option F64 := none
  timezone : Option String := none
  exists' : Option Bool := none

/-- `ok_or`. -/
def okOr {ε α : Type} (e : ε) : Option α → Except ε α
  | some a => .ok a
  | none => .error e

/-- `move_location`.  `isZone` says of a text that it is the name of a zone. -/
def moveLocation (isZone : String → Bool) (lat lon : Option F64) (timezone : Option String) :
    Except ModerationError ProposalApplication := do
  let lat ← okOr (.invalidProposalField .lat) lat
  let lon ← okOr (.invalidProposalField .lon) lon
  let lat ← okOr (.invalidProposalField .lat) (lat.within 90)
  let lon ← okOr (.invalidProposalField .lon) (lon.within 180)
  let timezone ← okOr (.invalidProposalField .timezone) (timezone.bind ProposedChange.trimmed)
  if isZone timezone then
    return .moveLocation ⟨lat.1, lon.1, lat.2, lon.2⟩ timezone
  else .error (.invalidProposalField .timezone)

/-- `ProposalApplication::merge`. -/
def merge (isZone : String → Bool) (kind : ProposalKind) (change : ProposedChange)
    (override : ProposalOverride) : Except ModerationError ProposalApplication :=
  match kind, change with
  | .moveLocation, .moveLocation lat lon timezone =>
    moveLocation isZone (override.lat.or (some lat)) (override.lon.or (some lon))
      (override.timezone.or timezone)
  | .changeExistence, .changeExistence exists' =>
    .ok (.changeExistence (override.exists'.getD exists'))
  | .moveLocation, _ => moveLocation isZone override.lat override.lon override.timezone
  | .changeExistence, _ => do
    let exists' ← okOr (.invalidProposalField .existence) override.exists'
    return .changeExistence exists'

def ProposalApplication.kind : ProposalApplication → ProposalKind
  | .moveLocation .. => .moveLocation
  | .changeExistence _ => .changeExistence

/-- What `get_proposal` answers of a proposal. -/
structure Proposal where
  kind : ProposalKind
  change : ProposedChange

/-- `get_proposal`, and `map_proposal` of its row. -/
def getProposal (db : Db) (id : Nat) : Option Proposal := do
  let p ← db.parkingProposal.row id
  let _ ← db.parkingLocation.row p.locationId
  return ⟨p.kind, .ofJson p.kind p.proposed⟩

/-- A location after an approved proposal: the changed row, and a revision that keeps
the record as it now stands.  None when the revision cannot be stored. -/
def LocationRecord.proposalApplied (rec : LocationRecord) (applied : ProposalApplication)
    (moderator : UserId) (now : Instant) : Option LocationRecord :=
  let row := applied.apply rec.row
  LocationRecord.insertRevision { rec with row }
    { version := row.version, editorId := some moderator, changeKind := .moderation
      summary := ProposalApplication.summary applied
      snapshot := snapshotWith row rec.hours rec.security, createdAt := now }

/-- `SqlxModerationRepository::approve_proposal`. -/
def approveProposalRow (db : Db) (id : Nat) (moderator : UserId) (applied : ProposalApplication) :
    Except ModerationError (Unit × Db) := do
  let prop ← okOr .notFound (db.parkingProposal.row id)
  let location ← okOr .notFound (db.parkingLocation.row prop.locationId)
  if prop.status ≠ .pending then .error .invalidState
  else if prop.baseVersion ≠ location.row.version then .error .staleProposal
  else
    let changed ← okOr .conflict (LocationRecord.proposalApplied location applied moderator db.now)
    if (db.users.row moderator).isNone then
      .error (.invalidField "parking_revision_editor_id_fkey")
    else
      let approved := db.parkingProposal.update (fun i _ => i == id) fun p =>
        { p with status := .approved, resolvedBy := some moderator, resolvedAt := some db.now }
      .ok ((), { db with
        parkingLocation := db.parkingLocation.update (fun l _ => l == prop.locationId)
          fun _ => changed
        parkingProposal := approved.update
          (fun i p => p.locationId == prop.locationId && p.status == .pending && i != id)
          fun p => { p with status := .superseded } })

/-- `SqlxModerationRepository::reject_proposal`. -/
def rejectProposalRow (db : Db) (id : Nat) (moderator : UserId) :
    Except ModerationError (Unit × Db) := do
  let parkingProposal ← updateOne db.parkingProposal id (fun p => p.status == .pending) fun p =>
    { p with status := .rejected, resolvedBy := some moderator, resolvedAt := some db.now }
  if (db.users.row moderator).isNone then
    .error (.invalidField "parking_proposal_resolved_by_fkey")
  else .ok ((), { db with parkingProposal })

end BikesNest.Moderation
