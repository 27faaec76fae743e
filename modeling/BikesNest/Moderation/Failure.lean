import BikesNest.Moderation.Proposals
import BikesNest.Moderation.Rating
import BikesNest.Moderation.Reports

/-!
# Failed moderation

The use cases of `ModerationService` that decide on content: each changes the
database by one or two repository calls, and then writes an audit event.  `changes`
is a use case up to that event, and `ContentAction.service` the whole of it.

`failed_action` says what a call that fails leaves in the database, wherever one
store call is lost.
-/

namespace BikesNest.Moderation

open Domain Community Store Relational

/-- `PhotoKind::as_code`. -/
def PhotoKind.asCode : PhotoKind → String
  | .parking => "parking"
  | .review => "review"

inductive ContentAction where
  | resolveReport (id : Nat) (outcome : ReportOutcome) (note : String)
  | hideReview (id : Nat)
  | restoreReview (id : Nat)
  | hidePhoto (kind : PhotoKind) (id : Nat)
  | restorePhoto (kind : PhotoKind) (id : Nat)
  | approveProposal (id : Nat) (override : ProposalOverride)
  | rejectProposal (id : Nat) (reason : String)
  | invalidateParking (id : Nat)
  | restoreParking (id : Nat)

/-- The role check and one repository call, with the event to be audited. -/
def changed (moderator : AuthenticatedUser) (f : Db → Except ModerationError (Unit × Db))
    (event : NewAuditEvent) : Service Db ModerationError NewAuditEvent := do
  Service.require (isModerator moderator) .notAuthorized
  repo f
  return event

/-- An event about a row, by the moderator. -/
def contentEvent (moderator : UserId) (action targetType : String) (id : Nat)
    (metadata : Json := .obj []) : NewAuditEvent where
  actor := some moderator
  action := action
  targetType := targetType
  targetId := toString id
  metadata := metadata

/-- `resolve_report` up to its audit event. -/
def reportResolved (moderator : AuthenticatedUser) (id : Nat) (outcome : ReportOutcome)
    (note : String) : Service Db ModerationError NewAuditEvent := do
  Service.require (isModerator moderator) .notAuthorized
  let found ← Service.query .unavailable fun db => getReport db id
  match found with
  | none => Service.throw .notFound
  | some report =>
    Service.require (report.reporterId != some moderator.id) .selfResolve
    repo fun db => resolve db id moderator.id note outcome
    if outcome = .resolved then hideResolvedTarget report moderator.id
    return decisionEvent moderator.id id outcome report

/-- `approve_proposal` up to its audit event. -/
def proposalApproved (isZone : String → Bool) (moderator : AuthenticatedUser) (id : Nat)
    (override : ProposalOverride) : Service Db ModerationError NewAuditEvent := do
  Service.require (isModerator moderator) .notAuthorized
  let found ← Service.query .unavailable fun db => getProposal db id
  match found with
  | none => Service.throw .notFound
  | some proposal =>
    match merge isZone proposal.kind proposal.change override with
    | .error e => Service.throw e
    | .ok applied =>
      repo fun db => approveProposalRow db id moderator.id applied
      return contentEvent moderator.id "proposal.approved" "parking_proposal" id
        (.obj [("kind", .str (ProposalApplication.kind applied).asCode)])

/-- A use case up to its audit event. -/
def ContentAction.changes (isZone : String → Bool) (moderator : AuthenticatedUser) :
    ContentAction → Service Db ModerationError NewAuditEvent
  | .resolveReport id outcome note => reportResolved moderator id outcome note
  | .hideReview id =>
    changed moderator (Moderation.hideReview · id)
      (contentEvent moderator.id "review.hidden" "review" id)
  | .restoreReview id =>
    changed moderator (Moderation.restoreReview · id)
      (contentEvent moderator.id "review.restored" "review" id)
  | .hidePhoto kind id =>
    changed moderator (Moderation.hidePhoto · kind id moderator.id)
      (contentEvent moderator.id "photo.hidden" kind.asCode id)
  | .restorePhoto kind id =>
    changed moderator (Moderation.restorePhoto · kind id moderator.id)
      (contentEvent moderator.id "photo.restored" kind.asCode id)
  | .approveProposal id override => proposalApproved isZone moderator id override
  | .rejectProposal id reason =>
    changed moderator (rejectProposalRow · id moderator.id)
      (contentEvent moderator.id "proposal.rejected" "parking_proposal" id
        (.obj [("reason", .str reason)]))
  | .invalidateParking id =>
    changed moderator (setParkingState · id [.active] .invalid moderator.id)
      (contentEvent moderator.id "parking.invalidated" "parking_location" id)
  | .restoreParking id =>
    changed moderator (setParkingState · id [.invalid, .removed] .active moderator.id)
      (contentEvent moderator.id "parking.restored" "parking_location" id)

/-- A use case. -/
def ContentAction.service (isZone : String → Bool) (moderator : AuthenticatedUser)
    (action : ContentAction) : Service Db ModerationError Unit := do
  let event ← action.changes isZone moderator
  audit .internal event

section Agree

variable (isZone : String → Bool) (moderator : AuthenticatedUser) (id : Nat)

/-- The report service is the one of the report model. -/
theorem service_resolveReport (outcome : ReportOutcome) (note : String) :
    (ContentAction.resolveReport id outcome note).service isZone moderator =
      resolveReport moderator id outcome note := by
  show reportResolved moderator id outcome note >>= _ = _
  unfold reportResolved resolveReport
  simp only [Service.bind_assoc]
  congr 1
  funext _
  congr 1
  funext found
  cases found with
  | none => rfl
  | some report =>
    cases outcome with
    | resolved =>
      simp only [Service.bind_assoc, if_true]
      rfl
    | dismissed =>
      simp only [Service.bind_assoc, reduceCtorEq, if_false]
      rfl

theorem service_hideReview :
    (ContentAction.hideReview id).service isZone moderator = hideReviewAs moderator id := by
  show changed moderator _ _ >>= _ = _
  unfold changed hideReviewAs act
  simp only [Service.bind_assoc]
  rfl

theorem service_restoreReview :
    (ContentAction.restoreReview id).service isZone moderator = restoreReviewAs moderator id := by
  show changed moderator _ _ >>= _ = _
  unfold changed restoreReviewAs act
  simp only [Service.bind_assoc]
  rfl

end Agree

/-! ## What a failed call leaves -/

section Failed

variable {isZone : String → Bool} {moderator : AuthenticatedUser} {n : Nat}
  {e : ModerationError} {db db' : Db}

/-- The takedown of a resolved report fails: its call is lost, or it answers an error
that `hide_resolved_target` passes on. -/
def TakedownFails (moderator : AuthenticatedUser) (n : Nat) (db : Db) : ContentAction → Prop
  | .resolveReport id .resolved note =>
    ∃ report mid, getReport db id = some report ∧
      resolve db id moderator.id note .resolved = .ok ((), mid) ∧
      (n = 2 ∨ ∃ e, ((hideResolvedTarget report moderator.id).run mid).1 = .error e)
  | _ => False

/-- With one repository call, a failed call leaves the database as it was, or with the
change and without its audit event. -/
theorem changed_failing {f : Db → Except ModerationError (Unit × Db)} {event : NewAuditEvent}
    (h : (changed moderator f event >>= audit .internal).runFailing n db = (.error e, db')) :
    db' = db ∨ (changed moderator f event).run db = (.ok event, db') := by
  unfold changed at h
  rw [Service.bind_assoc] at h
  rcases Service.runFailing_require h with hsame | ⟨hmod, h⟩
  · exact .inl hsame
  rw [Service.bind_assoc] at h
  rcases Service.runFailing_request h with hsame | ⟨_, t, m, _, hf, h⟩
  · exact .inl hsame
  have hlast : db' = t := Service.runFailing_last h
  right
  unfold changed repo
  rw [Service.run_of_require hmod, Service.run_of_request hf, hlast]
  rfl

theorem proposalApproved_failing {id : Nat} {override : ProposalOverride}
    (h : (proposalApproved isZone moderator id override >>= audit .internal).runFailing n db =
      (.error e, db')) :
    db' = db ∨ ∃ event, (proposalApproved isZone moderator id override).run db = (.ok event, db') := by
  unfold proposalApproved at h
  rw [Service.bind_assoc] at h
  rcases Service.runFailing_require h with hsame | ⟨hmod, h⟩
  · exact .inl hsame
  rw [Service.bind_assoc] at h
  rcases Service.runFailing_query h with hsame | ⟨m, _, h⟩
  · exact .inl hsame
  unfold proposalApproved
  rw [Service.run_of_require hmod, Service.run_of_query]
  cases hfound : getProposal db id with
  | none =>
    rw [hfound] at h
    change (Except.error ModerationError.notFound, db) = (.error e, db') at h
    exact .inl (Prod.mk.inj h).2.symm
  | some proposal =>
    rw [hfound] at h
    dsimp only at h ⊢
    cases hmerge : merge isZone proposal.kind proposal.change override with
    | error e' =>
      rw [hmerge] at h
      change (Except.error e', db) = (.error e, db') at h
      exact .inl (Prod.mk.inj h).2.symm
    | ok applied =>
      rw [hmerge] at h
      dsimp only at h ⊢
      rw [Service.bind_assoc] at h
      rcases Service.runFailing_request h with hsame | ⟨_, t, m', _, hf, h⟩
      · exact .inl hsame
      have hlast : db' = t := Service.runFailing_last h
      unfold repo
      rw [Service.run_of_request hf, hlast]
      exact .inr ⟨_, rfl⟩

/-- The takedown answers, or its call is lost. -/
theorem hideResolvedTarget_failing {report : Report} {event : NewAuditEvent} {id : UserId}
    (h : (hideResolvedTarget report id >>= fun _ => audit .internal event).runFailing n db =
      (.error e, db')) :
    n = 0 ∨ (∃ e', ((hideResolvedTarget report id).run db).1 = .error e') ∨
      (hideResolvedTarget report id).run db = (.ok (), db') := by
  unfold hideResolvedTarget repo at h ⊢
  rw [Service.bind_assoc] at h
  rcases Service.runFailing_attempt h with ⟨hn, _⟩ | ⟨m, _, h⟩
  · exact .inl hn
  right
  rw [Service.run_bind, Service.run_attempt]
  revert h
  generalize (Service.request _ _).run db = r
  obtain ⟨res, t⟩ := r
  dsimp only
  intro h
  split at h
  · have hlast : db' = t := Service.runFailing_last h
    rw [hlast]
    exact .inr rfl
  · have hlast : db' = t := Service.runFailing_last h
    rw [hlast]
    exact .inr rfl
  · have hlast : db' = t := Service.runFailing_last h
    rw [hlast]
    exact .inr rfl
  · next e' _ _ => exact .inl ⟨e', rfl⟩

theorem reportResolved_failing {id : Nat} {outcome : ReportOutcome} {note : String}
    (h : (reportResolved moderator id outcome note >>= audit .internal).runFailing n db =
      (.error e, db')) :
    db' = db ∨ (∃ event, (reportResolved moderator id outcome note).run db = (.ok event, db')) ∨
      TakedownFails moderator n db (.resolveReport id outcome note) := by
  unfold reportResolved at h ⊢
  rw [Service.bind_assoc] at h
  rcases Service.runFailing_require h with hsame | ⟨hmod, h⟩
  · exact .inl hsame
  rw [Service.bind_assoc] at h
  rcases Service.runFailing_query h with hsame | ⟨m, hm, h⟩
  · exact .inl hsame
  rw [Service.run_of_require hmod, Service.run_of_query]
  cases hfound : getReport db id with
  | none =>
    rw [hfound] at h
    change (Except.error ModerationError.notFound, db) = (.error e, db') at h
    exact .inl (Prod.mk.inj h).2.symm
  | some report =>
    rw [hfound] at h
    dsimp only at h ⊢
    rw [Service.bind_assoc] at h
    rcases Service.runFailing_require h with hsame | ⟨hself, h⟩
    · exact .inl hsame
    rw [Service.bind_assoc] at h
    rcases Service.runFailing_request h with hsame | ⟨_, t, m', hm', hf, h⟩
    · exact .inl hsame
    unfold repo
    rw [Service.run_of_require hself, Service.run_of_request hf]
    cases outcome with
    | resolved =>
      rw [if_pos rfl, Service.bind_assoc] at h
      rcases hideResolvedTarget_failing h with hn | herror | hrun
      · exact .inr (.inr ⟨report, t, hfound, hf, .inl (by omega)⟩)
      · exact .inr (.inr ⟨report, t, hfound, hf, .inr herror⟩)
      · rw [if_pos rfl, Service.run_bind_of_ok hrun]
        exact .inr (.inl ⟨_, rfl⟩)
    | dismissed =>
      have hlast : db' = t := Service.runFailing_last h
      rw [hlast]
      exact .inr (.inl ⟨_, rfl⟩)

/-- When one store call fails and the use case answers an error, the database is as
before, or as after the use case without its audit event; nothing is said of a resolved
report whose takedown fails. -/
theorem failed_action {action : ContentAction}
    (h : (action.service isZone moderator).runFailing n db = (.error e, db')) :
    db' = db ∨ (∃ event, (action.changes isZone moderator).run db = (.ok event, db')) ∨
      TakedownFails moderator n db action := by
  have hchanged : ∀ {f : Db → Except ModerationError (Unit × Db)} {event : NewAuditEvent},
      (changed moderator f event >>= audit .internal).runFailing n db = (.error e, db') →
      db' = db ∨ (∃ ev, (changed moderator f event).run db = (.ok ev, db')) ∨
        TakedownFails moderator n db action :=
    fun h => (changed_failing h).imp_right fun hrun => .inl ⟨_, hrun⟩
  cases action with
  | resolveReport id outcome note => exact reportResolved_failing h
  | hideReview id => exact hchanged h
  | restoreReview id => exact hchanged h
  | hidePhoto kind id => exact hchanged h
  | restorePhoto kind id => exact hchanged h
  | approveProposal id override => exact (proposalApproved_failing h).imp_right .inl
  | rejectProposal id reason => exact hchanged h
  | invalidateParking id => exact hchanged h
  | restoreParking id => exact hchanged h

/-- The same of the use cases that the models of reports and ratings have. -/
theorem failed_useCase (isZone : String → Bool) {id : Nat} :
    (∀ {outcome : ReportOutcome} {note : String},
      (resolveReport moderator id outcome note).runFailing n db = (.error e, db') →
      db' = db ∨ (∃ event, (reportResolved moderator id outcome note).run db = (.ok event, db')) ∨
        TakedownFails moderator n db (.resolveReport id outcome note)) ∧
    ((hideReviewAs moderator id).runFailing n db = (.error e, db') →
      db' = db ∨ ∃ event,
        ((ContentAction.hideReview id).changes isZone moderator).run db = (.ok event, db')) ∧
    ((restoreReviewAs moderator id).runFailing n db = (.error e, db') →
      db' = db ∨ ∃ event,
        ((ContentAction.restoreReview id).changes isZone moderator).run db = (.ok event, db')) := by
  refine ⟨?_, ?_, ?_⟩
  · intro outcome note h
    rw [← service_resolveReport isZone] at h
    exact reportResolved_failing h
  · intro h
    rw [← service_hideReview isZone] at h
    exact (changed_failing h).imp_right fun hrun => ⟨_, hrun⟩
  · intro h
    rw [← service_restoreReview isZone] at h
    exact (changed_failing h).imp_right fun hrun => ⟨_, hrun⟩

end Failed

/-! ## A lost audit event -/

/-- Bo hides the photo, and the call that writes the audit event is lost. -/
def hidingUnaudited : Except ModerationError Unit × Db :=
  ((ContentAction.hidePhoto .parking 1).service (fun _ => true) rackModerator).runFailing 1
    twoModerators

theorem failed_action_hidePhoto :
    hidingUnaudited.2 = twoModerators ∨
      (∃ event, ((ContentAction.hidePhoto .parking 1).changes (fun _ => true)
        rackModerator).run twoModerators = (.ok event, hidingUnaudited.2)) ∨
      TakedownFails rackModerator 1 twoModerators (.hidePhoto .parking 1) := by
  have hfailed : hidingUnaudited = (.error .internal, hidingUnaudited.2) := by rfl
  exact failed_action hfailed

/-- The call answers an error, and the photo is hidden without an audit event. -/
theorem failed_action_not_unchanged :
    hidingUnaudited.1 = .error .internal ∧
      (twoModerators.parkingPhoto.row 1).map Photo.moderationState = some .approved ∧
      (hidingUnaudited.2.parkingPhoto.row 1).map Photo.moderationState = some .hidden ∧
      hidingUnaudited.2.auditEvents.rows.length = 0 := by
  decide +kernel

end BikesNest.Moderation
