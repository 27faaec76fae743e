import BikesNest.Store.Schema

/-!
# The moderation and report repositories

The statements of `SqlxReportRepository` and `SqlxModerationRepository` that
move a report or its target through its states.  Each is one transaction on the
database.  An `UPDATE` that addresses no row in the required state answers
`invalidState`.
-/

namespace BikesNest.Moderation

open Domain Community Store Relational

inductive ProposalField where
  | lat | lon | timezone | existence
deriving DecidableEq

inductive ModerationError where
  | notAuthorized
  | selfResolve
  | notFound
  | targetNotFound
  | invalidState
  | alreadyReported
  | staleProposal
  | invalidReason
  | invalidField (hint : String)
  | invalidProposalField (field : ProposalField)
  | rateLimited
  | conflict
  | unavailable
  | internal
deriving DecidableEq

inductive ReportOutcome where
  | resolved | dismissed
deriving DecidableEq

/-- `ReportOutcome::as_code`, the state that a decided report gets. -/
def ReportOutcome.state : ReportOutcome → ReportState
  | .resolved => .resolved
  | .dismissed => .dismissed

/-- Which of the two photo tables. -/
inductive PhotoKind where
  | parking | review
deriving DecidableEq

/-- `UPDATE … WHERE id = $1 AND q`, with `rows_affected() != 1` as an invalid
state. -/
def updateOne {ρ : Type} (t : Table ρ) (id : Nat) (q : ρ → Bool) (f : ρ → ρ) :
    Except ModerationError (Table ρ) :=
  if t.affected (fun i r => i == id && q r) = 1 then
    .ok (t.update (fun i r => i == id && q r) f)
  else .error .invalidState

/-- A sequence of two steps that succeeds is two steps that succeed. -/
theorem bind_eq_ok {ε α β : Type} {x : Except ε α} {f : α → Except ε β} {b : β}
    (h : x >>= f = .ok b) : ∃ a, x = .ok a ∧ f a = .ok b := by
  cases x with
  | error e => cases h
  | ok a => exact ⟨a, rfl, h⟩

/-- The update runs exactly when the row is there in the required state. -/
theorem updateOne_eq {ρ : Type} (t : Table ρ) (id : Nat) (q : ρ → Bool) (f : ρ → ρ) :
    updateOne t id q f =
      if (t.row id).any q then .ok (t.update (fun i r => i == id && q r) f)
      else .error .invalidState := by
  rw [updateOne, Table.affected_key]
  split <;> simp_all

/-- The row that an `UPDATE` of one row writes. -/
theorem updateOne_ok {ρ : Type} {table table' : Table ρ} {id : Nat} {q : ρ → Bool} {f : ρ → ρ}
    (h : updateOne table id q f = .ok table') :
    (∃ r, table.row id = some r ∧ q r = true ∧ table'.row id = some (f r)) ∧
      ∀ i, i ≠ id → table'.row i = table.row i := by
  rw [updateOne_eq] at h
  split at h
  · next hany =>
    cases h
    obtain ⟨r, hr, hq⟩ := (Option.any_eq_true ..).mp hany
    refine ⟨⟨r, hr, hq, by simp [hr, hq]⟩, fun i hi => ?_⟩
    rw [Table.row_update]
    cases table.row i with
    | none => rfl
    | some x => simp [hi]
  · cases h

theorem updateOne_error {ρ : Type} {table : Table ρ} {id : Nat} {q : ρ → Bool} {f : ρ → ρ}
    {e : ModerationError} (h : updateOne table id q f = .error e) :
    e = .invalidState ∧ (table.row id).any q = false := by
  rw [updateOne_eq] at h
  split at h
  · cases h
  · next hany =>
    cases h
    exact ⟨rfl, Bool.eq_false_iff.mpr hany⟩

/-! ## Reports -/

/-- `SqlxReportRepository::get`. -/
def getReport (db : Db) (id : Nat) : Option Report := db.report.row id

/-- `SqlxReportRepository::claim`. -/
def claimReport (db : Db) (id : Nat) (moderator : UserId) : Except ModerationError (Unit × Db) :=
  if (db.users.row moderator).isNone then .error (.invalidField "report_claimed_by_fkey")
  else do
    let report ← updateOne db.report id (fun r => r.state == .opened) fun r =>
      { r with state := .underReview, claimedBy := some moderator }
    return ((), { db with report })

/-- `SqlxReportRepository::resolve`.  The foreign key on `resolved_by` is
checked when a row is written. -/
def resolve (db : Db) (id : Nat) (moderator : UserId) (note : String) (outcome : ReportOutcome) :
    Except ModerationError (Unit × Db) := do
  let report ← updateOne db.report id (fun r => r.state == .underReview) fun r =>
    { r with state := outcome.state, resolvedBy := some moderator, resolutionNote := some note }
  if (db.users.row moderator).isNone then .error (.invalidField "report_resolved_by_fkey")
  else .ok ((), { db with report })

theorem resolve_eq (db : Db) (id : Nat) (moderator : UserId) (note : String)
    (outcome : ReportOutcome) :
    resolve db id moderator note outcome =
      if (db.report.row id).any (fun r => r.state == .underReview) then
        if (db.users.row moderator).isNone then .error (.invalidField "report_resolved_by_fkey")
        else .ok ((), { db with
          report := db.report.update (fun i r => i == id && r.state == .underReview) fun r =>
            { r with
              state := outcome.state, resolvedBy := some moderator
              resolutionNote := some note } })
      else .error .invalidState := by
  rw [resolve, updateOne_eq]
  split <;> rfl

/-! ## Reviews and photos -/

/-- Move a review from one moderation state to another. -/
def flipReview (db : Db) (id : Nat) (source target : ReviewState) :
    Except ModerationError (Unit × Db) := do
  let review ← updateOne db.review id (fun r => r.moderationState == source) fun r =>
    { r with moderationState := target, updatedAt := db.now }
  return ((), { db with review })

theorem flipReview_eq (db : Db) (id : Nat) (source target : ReviewState) :
    flipReview db id source target =
      if (db.review.row id).any (fun r => r.moderationState == source) then
        .ok ((), { db with
          review := db.review.update (fun i r => i == id && r.moderationState == source)
            fun r => { r with moderationState := target, updatedAt := db.now } })
      else .error .invalidState := by
  rw [flipReview, updateOne_eq]
  split <;> rfl

/-- `hide_review`: `ACTIVE` to `HIDDEN`. -/
def hideReview (db : Db) (id : Nat) : Except ModerationError (Unit × Db) :=
  flipReview db id .active .hidden

/-- `restore_review`: `HIDDEN` to `ACTIVE`. -/
def restoreReview (db : Db) (id : Nat) : Except ModerationError (Unit × Db) :=
  flipReview db id .hidden .active

/-- `UPDATE` of one row of the photo table that `kind` names. -/
def updatePhoto (db : Db) (kind : PhotoKind) (id : Nat) (q : Photo → Bool) (f : Photo → Photo) :
    Except ModerationError Db :=
  match kind with
  | .parking => do
    let parkingPhoto ← updateOne db.parkingPhoto id q f
    return { db with parkingPhoto }
  | .review => do
    let reviewPhoto ← updateOne db.reviewPhoto id q f
    return { db with reviewPhoto }

/-- Move a photo of either table from one moderation state to another. -/
def flipPhoto (db : Db) (kind : PhotoKind) (id : Nat) (source target : PhotoModerationState)
    (moderator : UserId) : Except ModerationError (Unit × Db) := do
  let db' ← updatePhoto db kind id (fun r => r.moderationState == source) fun r =>
    { r with moderationState := target, reviewedBy := some moderator, reviewedAt := some db.now }
  if (db.users.row moderator).isNone then .error (.invalidField "photo_reviewed_by_fkey")
  else .ok ((), db')

/-- `hide_photo`: `APPROVED` to `HIDDEN`. -/
def hidePhoto (db : Db) (kind : PhotoKind) (id : Nat) (moderator : UserId) :
    Except ModerationError (Unit × Db) :=
  flipPhoto db kind id .approved .hidden moderator

/-- `restore_photo`: `HIDDEN` to `APPROVED`. -/
def restorePhoto (db : Db) (kind : PhotoKind) (id : Nat) (moderator : UserId) :
    Except ModerationError (Unit × Db) :=
  flipPhoto db kind id .hidden .approved moderator

/-! ## Locations -/

/-- A location after a moderation step: the new state under the next version,
and a revision that keeps the record as it now stands.  None when the revision
cannot be stored. -/
def LocationRecord.moderated (rec : LocationRecord) (target : ModerationState)
    (moderator : UserId) (now : Instant) : Option LocationRecord :=
  let row := rec.row.withState target
  LocationRecord.insertRevision { rec with row }
    { version := row.version, editorId := some moderator, changeKind := .moderation
      summary := "moderated", snapshot := snapshotWith row rec.hours rec.security
      createdAt := now }

/-- `set_parking_state`. -/
def setParkingState (db : Db) (id : Nat) (source : List ModerationState)
    (target : ModerationState) (moderator : UserId) : Except ModerationError (Unit × Db) :=
  match db.parkingLocation.row id with
  | none => .error .invalidState
  | some rec =>
    if ¬ source.contains rec.row.moderationState then .error .invalidState
    else
      match LocationRecord.moderated rec target moderator db.now with
      | none => .error .conflict
      | some rec' =>
        if (db.users.row moderator).isNone then
          .error (.invalidField "parking_revision_editor_id_fkey")
        else
          .ok ((), { db with
            parkingLocation := db.parkingLocation.update (fun l _ => l == id) fun _ => rec' })

/-- A change of state that commits has put the moderated record in the place of the
location's. -/
theorem setParkingState_ok {db db' : Db} {id : Nat} {source : List ModerationState}
    {target : ModerationState} {moderator : UserId}
    (h : setParkingState db id source target moderator = .ok ((), db')) :
    ∃ rec rec', db.parkingLocation.row id = some rec ∧
      LocationRecord.moderated rec target moderator db.now = some rec' ∧
      db' = { db with
        parkingLocation := db.parkingLocation.update (fun l _ => l == id) fun _ => rec' } := by
  unfold setParkingState at h
  split at h
  · cases h
  rename_i rec hrec
  split at h
  · cases h
  split at h
  · cases h
  rename_i rec' hmoderated
  split at h
  · cases h
  · cases h
    exact ⟨rec, rec', hrec, hmoderated, rfl⟩

end BikesNest.Moderation
