import BikesNest.Moderation.Repo

/-!
# The moderation service

`ModerationService` checks the role of the caller, calls the repositories and
writes an audit event.  A resolved report also hides its target; a target that
is hidden already, or gone, does not fail the call.
-/

namespace BikesNest.Moderation

open Domain Community Store

/-- `require_moderator`. -/
def isModerator (actor : AuthenticatedUser) : Bool :=
  actor.hasRole .moderator || actor.hasRole .admin

/-- One call of a repository. -/
def repo {α : Type} (f : Db → Except ModerationError (α × Db)) : Service Db ModerationError α :=
  .request .unavailable f

/-- What every single-call use case of the service does: the role check, one
repository call, and an audit event. -/
def act (moderator : AuthenticatedUser) (f : Db → Except ModerationError (Unit × Db))
    (event : NewAuditEvent) : Service Db ModerationError Unit := do
  Service.require (isModerator moderator) .notAuthorized
  repo f
  audit .internal event

/-- `hide_resolved_target`. -/
def hideResolvedTarget (report : Report) (moderator : UserId) : Service Db ModerationError Unit := do
  let res ← Service.attempt (repo fun db =>
    match report.targetType with
    | .review => hideReview db report.targetId
    | .parkingPhoto => hidePhoto db .parking report.targetId moderator
    | .reviewPhoto => hidePhoto db .review report.targetId moderator
    | .parking => setParkingState db report.targetId [.active] .invalid moderator)
  match res with
  | .ok () => pure ()
  | .error .invalidState => pure ()
  | .error .notFound => pure ()
  | .error e => Service.throw e

/-- A decision hides its target in one of four tables. -/
theorem hideResolvedTarget_respects {R : Db → Db → Prop} (hrefl : ∀ db, R db db)
    (hreview : ∀ db t, R db { db with review := t })
    (hparkingPhoto : ∀ db t, R db { db with parkingPhoto := t })
    (hreviewPhoto : ∀ db t, R db { db with reviewPhoto := t })
    (hlocation : ∀ db t, R db { db with parkingLocation := t })
    (report : Report) (moderator : UserId) :
    (hideResolvedTarget report moderator).Respects R := by
  have hphoto : ∀ kind db db', hidePhoto db kind report.targetId moderator = .ok ((), db') →
      R db db' := by
    intro kind db db' h
    obtain ⟨mid, hmid, hlast⟩ := bind_eq_ok h
    have hwithin : R db mid := by
      cases kind with
      | parking =>
        obtain ⟨photos, _, hset⟩ := bind_eq_ok hmid
        cases hset
        exact hparkingPhoto db photos
      | review =>
        obtain ⟨photos, _, hset⟩ := bind_eq_ok hmid
        cases hset
        exact hreviewPhoto db photos
    split at hlast
    · cases hlast
    · cases hlast
      exact hwithin
  refine .bind (.attempt (.request hrefl fun db _ db' h => ?_)) fun res => ?_
  · cases htarget : report.targetType with
    | review =>
      rw [htarget] at h
      obtain ⟨reviews, _, hset⟩ := bind_eq_ok h
      cases hset
      exact hreview db reviews
    | parkingPhoto =>
      rw [htarget] at h
      exact hphoto .parking db db' h
    | reviewPhoto =>
      rw [htarget] at h
      exact hphoto .review db db' h
    | parking =>
      rw [htarget] at h
      obtain ⟨_, _, _, _, rfl⟩ := setParkingState_ok h
      exact hlocation db _
  · split
    · exact .pure ()
    · exact .pure ()
    · exact .pure ()
    · exact .throw _

theorem hideResolvedTarget_within {R : Db → Db → Prop} [IsPreorder Db R]
    (hreview : ∀ db t, R db { db with review := t })
    (hparkingPhoto : ∀ db t, R db { db with parkingPhoto := t })
    (hreviewPhoto : ∀ db t, R db { db with reviewPhoto := t })
    (hlocation : ∀ db t, R db { db with parkingLocation := t })
    (report : Report) (moderator : UserId) :
    Service.Within R (hideResolvedTarget report moderator) := fun db =>
  (hideResolvedTarget_respects (refl_of R) hreview hparkingPhoto hreviewPhoto hlocation report
    moderator).runLosing none db

/-- The audit event of a decided report. -/
def decisionEvent (moderator : UserId) (id : Nat) (outcome : ReportOutcome) (report : Report) :
    NewAuditEvent where
  actor := some moderator
  action := if outcome = .resolved then "report.resolved" else "report.dismissed"
  targetType := "report"
  targetId := toString id
  metadata := .obj [("target_type", .str report.targetType.asCode),
    ("target_id", .int report.targetId)]

/-- `resolve_report`. -/
def resolveReport (moderator : AuthenticatedUser) (id : Nat) (outcome : ReportOutcome)
    (note : String) : Service Db ModerationError Unit := do
  Service.require (isModerator moderator) .notAuthorized
  let found ← Service.query .unavailable fun db => getReport db id
  match found with
  | none => Service.throw .notFound
  | some report =>
    Service.require (report.reporterId != some moderator.id) .selfResolve
    repo fun db => resolve db id moderator.id note outcome
    if outcome = .resolved then hideResolvedTarget report moderator.id
    audit .internal (decisionEvent moderator.id id outcome report)

/-- `claim_report`. -/
def claim (moderator : AuthenticatedUser) (id : Nat) : Service Db ModerationError Unit :=
  act moderator (fun db => claimReport db id moderator.id)
    { actor := some moderator.id, action := "report.claimed", targetType := "report"
      targetId := toString id }

/-- `ModerationService::hide_review`. -/
def hideReviewAs (moderator : AuthenticatedUser) (id : Nat) : Service Db ModerationError Unit :=
  act moderator (fun db => hideReview db id)
    { actor := some moderator.id, action := "review.hidden", targetType := "review"
      targetId := toString id }

/-- `ModerationService::restore_review`. -/
def restoreReviewAs (moderator : AuthenticatedUser) (id : Nat) :
    Service Db ModerationError Unit :=
  act moderator (fun db => restoreReview db id)
    { actor := some moderator.id, action := "review.restored", targetType := "review"
      targetId := toString id }

end BikesNest.Moderation
