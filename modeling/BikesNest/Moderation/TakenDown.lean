import BikesNest.Lib.Threads
import BikesNest.Moderation.Failure
import BikesNest.Photos.Service

/-!
# Taken down content

Reports, decisions on photos, and takedowns and restorations, one after another from any
database; each call may lose one of its store calls.  A report that is resolved takes
its target down, and a restoration lifts the takedown.

`resolve_report` accepts a target that its `UPDATE` does not find in the visible state.
A photo that waits for review is such a target, and its approval makes it visible.

* `Moves` and `Shows` say what a call does to the visible targets.
* `showsTakenDown` is the condition on a step, and `staysDown_throughout_iff` the result.
-/

namespace BikesNest.Moderation

open Domain Community Store Relational Privacy Photos

/-! ## What the public sees -/

/-- What a report is about: a row of one of four tables. -/
abbrev Target := ReportTargetType × Nat

/-- The type of a report about a photo. -/
def photoType : PhotoKind → ReportTargetType
  | .parking => .parkingPhoto
  | .review => .reviewPhoto

def isApproved (photo : Photo) : Bool := photo.moderationState == .approved

/-- The public queries answer the row. -/
def isVisible (db : Db) : Target → Bool
  | (.parking, id) => (db.parkingLocation.row id).any (·.row.moderationState == .active)
  | (.parkingPhoto, id) => (db.parkingPhoto.row id).any isApproved
  | (.review, id) => (db.review.row id).any (·.moderationState == .active)
  | (.reviewPhoto, id) => (db.reviewPhoto.row id).any isApproved

theorem isVisible_photo (db : Db) (kind : PhotoKind) (id : Nat) :
    isVisible db (photoType kind, id) = ((photos db kind).row id).any isApproved := by
  cases kind <;> rfl

/-! ## Runs -/

/-- What a caller asks for. -/
inductive ContentRequest where
  | submit (allow : String → Nat → Int → Bool) (ip : String) (targetType : ReportTargetType)
      (targetId : Nat) (reason : String) (description : Option String)
  | claim (id : Nat)
  | resolve (id : Nat) (outcome : ReportOutcome) (note : String)
  | hideReview (id : Nat)
  | restoreReview (id : Nat)
  | hidePhoto (kind : PhotoKind) (id : Nat)
  | restorePhoto (kind : PhotoKind) (id : Nat)
  | approvePhoto (kind : PhotoKind) (id : Nat)
  | rejectPhoto (kind : PhotoKind) (id : Nat) (reason : String)
  | invalidateParking (id : Nat)
  | restoreParking (id : Nat)

/-- A step of a run: time passes, or a user makes a request and loses at most one of its
store calls. -/
inductive ContentOp where
  | wait (seconds : Nat)
  | request (user : AuthenticatedUser) (lost : Option Nat) (request : ContentRequest)

/-- What a run fixes. -/
structure ContentEnv where
  limits : ModerationLimits := {}
  isZone : String → Bool

/-- A result and a database, with the objects that the call leaves as they are. -/
def onMedia {α : Type} (media : Media) (r : Except ModerationError α × Db) : Bool × Media :=
  (r.1.isOk, { media with db := r.2 })

/-- One request, as it runs alone: whether it answers `Ok`, and what it leaves. -/
def ContentRequest.run (env : ContentEnv) (user : AuthenticatedUser) (lost : Option Nat)
    (media : Media) : ContentRequest → Bool × Media
  | .submit allow ip targetType targetId reason description =>
    onMedia media ((submitReport env.limits allow user ip targetType targetId reason
      description).runLosing lost media.db)
  | .claim id => onMedia media ((Moderation.claim user id).runLosing lost media.db)
  | .resolve id outcome note =>
    onMedia media ((resolveReport user id outcome note).runLosing lost media.db)
  | .hideReview id => content (.hideReview id)
  | .restoreReview id => content (.restoreReview id)
  | .hidePhoto kind id => content (.hidePhoto kind id)
  | .restorePhoto kind id => content (.restorePhoto kind id)
  | .approvePhoto kind id =>
    let r := (Photos.approvePhoto user kind id).runLosing lost media
    (r.1.isOk, r.2)
  | .rejectPhoto kind id reason =>
    let r := (Photos.rejectPhoto user kind id reason).runLosing lost media
    (r.1.isOk, r.2)
  | .invalidateParking id => content (.invalidateParking id)
  | .restoreParking id => content (.restoreParking id)
where
  /-- A use case of the moderation service. -/
  content (action : ContentAction) : Bool × Media :=
    onMedia media ((action.service env.isZone user).runLosing lost media.db)

/-- The target that a restore operation makes visible. -/
def ContentRequest.restores : ContentRequest → Option Target
  | .restoreReview id => some (.review, id)
  | .restorePhoto kind id => some (photoType kind, id)
  | .restoreParking id => some (.parking, id)
  | _ => none

/-- The target of a report that the request resolves. -/
def ContentRequest.takesDown (db : Db) : ContentRequest → Option Target
  | .resolve id .resolved _ => (db.report.row id).map fun r => (r.targetType, r.targetId)
  | _ => none

/-- The stores, with the targets of the reports that were resolved and not restored
since. -/
structure Takedowns where
  media : Media
  down : List Target := []

/-- A request that answers `ok` and leaves `media`: a resolved report takes its target
down, and a restoration that made its target visible lifts the takedown. -/
def Takedowns.after (s : Takedowns) (request : ContentRequest) (ok : Bool) (media : Media) :
    Takedowns :=
  let down := if ok then (request.takesDown s.media.db).toList ++ s.down else s.down
  { media
    down := down.filter fun t => !(request.restores == some t && isVisible media.db t) }

/-- One step of a run. -/
def Takedowns.exec (env : ContentEnv) (s : Takedowns) : ContentOp → Takedowns
  | .wait seconds =>
    { s with media := { s.media with
      db := { s.media.db with now := s.media.now + seconds * second } } }
  | .request user lost request =>
    let (ok, media) := request.run env user lost s.media
    s.after request ok media

/-- Nothing that is taken down is visible. -/
def StaysDown (s : Takedowns) : Prop := ∀ t ∈ s.down, isVisible s.media.db t = false

/-- The photo that the request approves: the caller is a moderator with an account, the
photo waits for review, and the calls up to the `UPDATE` are answered. -/
def ContentRequest.approves (user : AuthenticatedUser) (lost : Option Nat) (db : Db) :
    ContentRequest → Option Target
  | .approvePhoto kind id =>
    if isModerator user && (db.users.row user.id).isSome &&
        ((photos db kind).row id).any (·.moderationState == .pendingReview) &&
        lost.all (3 ≤ ·) then
      some (photoType kind, id)
    else none
  | _ => none

/-- The step approves a photo that is taken down. -/
def showsTakenDown (s : Takedowns) : ContentOp → Bool
  | .wait _ => false
  | .request user lost request =>
    (request.approves user lost s.media.db).any fun t => s.down.contains t

/-! ## What a transaction does to the visible targets -/

/-- Of all targets, only those of `T` may become visible. -/
def Shows (T : Target → Prop) (db db' : Db) : Prop :=
  ∀ t, isVisible db' t = true → isVisible db t = true ∨ T t

/-- The target `t` becomes visible or not, and no other one changes. -/
structure Moves (t : Target) (shown : Bool) (db db' : Db) : Prop where
  moved : isVisible db' t = shown
  others : ∀ t', t' ≠ t → isVisible db' t' = isVisible db t'

instance (T : Target → Prop) : IsPreorder Db (Shows T) where
  refl _ _ h := .inl h
  trans _ _ _ h h' t ht := (h' t ht).elim (h t) .inr

/-- The rows with the public content. -/
def content (db : Db) :
    Table Review × Table Photo × Table Photo × Table LocationRecord :=
  (db.review, db.parkingPhoto, db.reviewPhoto, db.parkingLocation)

variable {env : ContentEnv} {db db' : Db} {user : AuthenticatedUser} {id : Nat} {t : Target}
  {T : Target → Prop} {lost : Option Nat}

theorem isVisible_of_content (h : content db' = content db) (t : Target) :
    isVisible db' t = isVisible db t := by
  obtain ⟨hreview, hparkingPhoto, hreviewPhoto, hlocation⟩ :
      db'.review = db.review ∧ db'.parkingPhoto = db.parkingPhoto ∧
        db'.reviewPhoto = db.reviewPhoto ∧ db'.parkingLocation = db.parkingLocation := by
    simpa [content] using h
  obtain ⟨targetType, id⟩ := t
  cases targetType with
  | parking =>
    show (db'.parkingLocation.row id).any _ = _
    rw [hlocation]
    rfl
  | parkingPhoto =>
    show (db'.parkingPhoto.row id).any _ = _
    rw [hparkingPhoto]
    rfl
  | review =>
    show (db'.review.row id).any _ = _
    rw [hreview]
    rfl
  | reviewPhoto =>
    show (db'.reviewPhoto.row id).any _ = _
    rw [hreviewPhoto]
    rfl

theorem Shows.mono {T' : Target → Prop} (h : Shows T db db') (hT : ∀ t, T t → T' t) :
    Shows T' db db' := fun t ht => (h t ht).imp_right (hT t)

theorem Shows.of_content (h : content db' = content db) : Shows T db db' := by
  intro t ht
  rw [isVisible_of_content h] at ht
  exact .inl ht

/-- A later call that writes no content. -/
theorem Moves.congr {shown : Bool} {db'' : Db} (h : Moves t shown db db')
    (hcontent : content db'' = content db') : Moves t shown db db'' := by
  refine ⟨?_, fun t' ht' => ?_⟩
  · rw [isVisible_of_content hcontent]
    exact h.moved
  · rw [isVisible_of_content hcontent]
    exact h.others t' ht'

theorem audit_content {event : NewAuditEvent} (h : db.recordAudit event = some db') :
    content db' = content db := by
  obtain ⟨_, _, rfl⟩ := recordAudit_eq_some h
  rfl

theorem Moves.shows {shown : Bool} (h : Moves t shown db db') :
    Shows (fun t' => shown = true ∧ t' = t) db db' := by
  intro t' ht'
  by_cases heq : t' = t
  · subst heq
    exact .inr ⟨h.moved.symm.trans ht', rfl⟩
  · exact .inl ((h.others t' heq).symm.trans ht')

/-! ### Reviews -/

theorem flipReview_moves {source target : ReviewState}
    (h : flipReview db id source target = .ok ((), db')) :
    Moves (.review, id) (target == .active) db db' := by
  obtain ⟨reviews, hupdate, hset⟩ := bind_eq_ok h
  cases hset
  obtain ⟨⟨r, _, _, hr⟩, hothers⟩ := updateOne_ok hupdate
  refine ⟨?_, fun t' ht' => ?_⟩
  · show (reviews.row id).any _ = _
    rw [hr]
    rfl
  · obtain ⟨targetType, i⟩ := t'
    cases targetType with
    | review =>
      have hi : i ≠ id := fun heq => ht' (by rw [heq])
      show (reviews.row i).any _ = _
      rw [hothers i hi]
      rfl
    | parking => rfl
    | parkingPhoto => rfl
    | reviewPhoto => rfl

/-! ### Photos -/

/-- The other photo table, the reviews and the locations stay. -/
theorem isVisible_withPhotos {kind : PhotoKind} (table : Table Photo)
    (h : t.1 ≠ photoType kind) : isVisible (withPhotos db kind table) t = isVisible db t := by
  obtain ⟨targetType, id⟩ := t
  cases kind with
  | parking =>
    cases targetType with
    | parkingPhoto => exact absurd rfl h
    | parking => rfl
    | review => rfl
    | reviewPhoto => rfl
  | review =>
    cases targetType with
    | reviewPhoto => exact absurd rfl h
    | parking => rfl
    | parkingPhoto => rfl
    | review => rfl

/-- An `UPDATE` of one photo that gives every row the same visibility. -/
theorem updatePhoto_moves {kind : PhotoKind} {q : Photo → Bool} {f : Photo → Photo} {shown : Bool}
    (hf : ∀ r, isApproved (f r) = shown) (h : updatePhoto db kind id q f = .ok db') :
    Moves (photoType kind, id) shown db db' := by
  rw [updatePhoto_eq] at h
  cases hupdate : updateOne (photos db kind) id q f with
  | error e =>
    rw [hupdate] at h
    cases h
  | ok table =>
    rw [hupdate] at h
    cases h
    obtain ⟨⟨r, _, _, hr⟩, hothers⟩ := updateOne_ok hupdate
    refine ⟨?_, fun t' ht' => ?_⟩
    · rw [isVisible_photo, photos_withPhotos, hr, Option.any_some, hf]
    · by_cases htype : t'.1 = photoType kind
      · obtain ⟨targetType, i⟩ := t'
        obtain rfl : targetType = photoType kind := htype
        have hi : i ≠ id := fun heq => ht' (by rw [heq])
        rw [isVisible_photo, isVisible_photo, photos_withPhotos, hothers i hi]
      · exact isVisible_withPhotos table htype

theorem flipPhoto_moves {kind : PhotoKind} {source target : PhotoModerationState}
    {moderator : UserId} (h : flipPhoto db kind id source target moderator = .ok ((), db')) :
    Moves (photoType kind, id) (target == .approved) db db' := by
  obtain ⟨mid, hupdate, hlast⟩ := bind_eq_ok h
  split at hlast
  · cases hlast
  · cases hlast
    exact updatePhoto_moves (fun _ => rfl) hupdate

/-! ### Locations -/

theorem moderated_state {rec rec' : LocationRecord} {target : ModerationState}
    {moderator : UserId} {now : Instant}
    (h : LocationRecord.moderated rec target moderator now = some rec') :
    rec'.row.moderationState = target := by
  unfold LocationRecord.moderated LocationRecord.insertRevision at h
  simp only at h
  split at h
  · cases h
  · cases h
    rfl

theorem setParkingState_moves {source : List ModerationState} {target : ModerationState}
    {moderator : UserId} (h : setParkingState db id source target moderator = .ok ((), db')) :
    Moves (.parking, id) (target == .active) db db' := by
  obtain ⟨rec, rec', hrec, hmoderated, rfl⟩ := setParkingState_ok h
  refine ⟨?_, fun t' ht' => ?_⟩
  · show ((db.parkingLocation.update _ _).row id).any _ = _
    rw [Table.row_update, hrec, Option.map_some, beq_self_eq_true, if_pos rfl, Option.any_some,
      moderated_state hmoderated]
  · obtain ⟨targetType, i⟩ := t'
    cases targetType with
    | parking =>
      have hi : (i == id) = false := beq_eq_false_iff_ne.mpr fun heq => ht' (by rw [heq])
      show ((db.parkingLocation.update _ _).row i).any _ = _
      rw [Table.row_update]
      simp [hi, isVisible]
    | parkingPhoto => rfl
    | review => rfl
    | reviewPhoto => rfl

/-- A takedown of a location that finds it in another state. -/
theorem setParkingState_error {target : ModerationState} {moderator : UserId} {e : ModerationError}
    (h : setParkingState db id [.active] target moderator = .error e) :
    e ≠ .notFound ∧ (e = .invalidState → isVisible db (.parking, id) = false) := by
  unfold setParkingState at h
  show _ ∧ (_ → (db.parkingLocation.row id).any _ = false)
  split at h
  · next hrow =>
    cases h
    exact ⟨by decide, fun _ => by rw [hrow]; rfl⟩
  next rec hrec =>
  split at h
  · next hstate =>
    cases h
    refine ⟨by decide, fun _ => ?_⟩
    rw [hrec, Option.any_some]
    simpa using hstate
  split at h
  · cases h
    exact ⟨by decide, fun heq => by cases heq⟩
  split at h
  · cases h
    exact ⟨by simp, fun heq => by cases heq⟩
  · cases h

/-! ## Resolved reports -/

/-- The transaction hides `t`, or answers that `t` is not shown, or fails. -/
structure Hides (t : Target) (f : Db → Except ModerationError (Unit × Db)) : Prop where
  moves : ∀ {db db'}, f db = .ok ((), db') → Moves t false db db'
  refused : ∀ {db e}, f db = .error e →
    e ≠ .notFound ∧ (e = .invalidState → isVisible db t = false)

theorem hideReview_hides : Hides (.review, id) (hideReview · id) := by
  refine ⟨fun h => flipReview_moves h, fun {db e} h => ?_⟩
  cases hupdate : updateOne db.review id (fun r => r.moderationState == .active) fun r =>
      { r with moderationState := .hidden, updatedAt := db.now } with
  | ok reviews =>
    change flipReview db id .active .hidden = _ at h
    rw [flipReview, hupdate] at h
    cases h
  | error e' =>
    change flipReview db id .active .hidden = _ at h
    rw [flipReview, hupdate] at h
    cases h
    obtain ⟨rfl, hrow⟩ := updateOne_error hupdate
    exact ⟨by decide, fun _ => hrow⟩

theorem hidePhoto_hides (kind : PhotoKind) (moderator : UserId) :
    Hides (photoType kind, id) (hidePhoto · kind id moderator) := by
  refine ⟨fun h => flipPhoto_moves h, fun {db e} h => ?_⟩
  change flipPhoto db kind id .approved .hidden moderator = _ at h
  cases hupdate : updatePhoto db kind id (fun r => r.moderationState == .approved) fun r =>
      { r with moderationState := .hidden, reviewedBy := some moderator
               reviewedAt := some db.now } with
  | ok mid =>
    rw [flipPhoto, hupdate] at h
    change (if _ then _ else _) = _ at h
    split at h
    · cases h
      exact ⟨by simp, fun heq => by cases heq⟩
    · cases h
  | error e' =>
    rw [flipPhoto, hupdate] at h
    cases h
    obtain ⟨rfl, hrow⟩ := updatePhoto_error hupdate
    refine ⟨by decide, fun _ => ?_⟩
    rw [isVisible_photo]
    exact hrow

theorem invalidate_hides (moderator : UserId) :
    Hides (.parking, id) (setParkingState · id [.active] .invalid moderator) :=
  ⟨fun h => setParkingState_moves h, fun h => setParkingState_error h⟩

/-- What `hide_resolved_target` calls. -/
def takedown (report : Report) (moderator : UserId) (db : Db) :
    Except ModerationError (Unit × Db) :=
  match report.targetType with
  | .review => hideReview db report.targetId
  | .parkingPhoto => hidePhoto db .parking report.targetId moderator
  | .reviewPhoto => hidePhoto db .review report.targetId moderator
  | .parking => setParkingState db report.targetId [.active] .invalid moderator

theorem takedown_hides (report : Report) (moderator : UserId) :
    Hides (report.targetType, report.targetId) (takedown report moderator) := by
  unfold takedown
  cases report.targetType with
  | review => exact hideReview_hides
  | parkingPhoto => exact hidePhoto_hides .parking moderator
  | reviewPhoto => exact hidePhoto_hides .review moderator
  | parking => exact invalidate_hides moderator

/-- When `hide_resolved_target` answers `Ok`, the target is not visible. -/
theorem hideResolvedTarget_ok {report : Report} {moderator : UserId}
    (h : (hideResolvedTarget report moderator).run db = (.ok (), db')) :
    isVisible db' (report.targetType, report.targetId) = false := by
  have hhides := takedown_hides report moderator
  change (Service.attempt (repo (takedown report moderator)) >>= _).run db = _ at h
  rw [Service.run_bind, Service.run_attempt, repo, Service.run_request] at h
  cases hf : takedown report moderator db with
  | ok r =>
    obtain ⟨⟨⟩, mid⟩ := r
    rw [hf] at h
    cases h
    exact (hhides.moves hf).moved
  | error e =>
    rw [hf] at h
    dsimp only at h
    obtain ⟨hfound, hstate⟩ := hhides.refused hf
    split at h
    · next heq => cases heq
    · next heq =>
      cases heq
      cases h
      exact hstate rfl
    · next heq =>
      cases heq
      exact absurd rfl hfound
    · cases h

theorem hideResolvedTarget_strict (report : Report) (moderator : UserId) :
    (hideResolvedTarget report moderator).Strict := by
  change (Service.attempt (repo (takedown report moderator)) >>= _).Strict
  refine .attempt (e := .unavailable) rfl fun r => ?_
  split
  · exact .pure ()
  · exact .pure ()
  · exact .pure ()
  · exact .throw _

theorem resolveReport_strict (outcome : ReportOutcome) (note : String) :
    (resolveReport user id outcome note).Strict := by
  refine .bind (.require _ _) fun _ => .bind (.query _ _) fun found => ?_
  cases found with
  | none => exact .throw _
  | some report =>
    refine .bind (.require _ _) fun _ => .bind (.request _ _) fun _ => ?_
    cases outcome with
    | resolved => exact .bind (hideResolvedTarget_strict _ _) fun _ => .request _ _
    | dismissed => exact .request _ _

/-- When a report is resolved, its target is not visible. -/
theorem resolveReport_takesDown {note : String}
    (h : (resolveReport user id .resolved note).run db = (.ok (), db')) :
    ∃ report, db.report.row id = some report ∧
      isVisible db' (report.targetType, report.targetId) = false := by
  obtain ⟨_, s₁, hrequire, h⟩ := Service.run_bind_ok h
  obtain ⟨_, rfl⟩ := Service.run_require_ok.mp hrequire
  obtain ⟨found, s₂, hquery, h⟩ := Service.run_bind_ok h
  obtain ⟨rfl, rfl⟩ := Service.run_query_ok.mp hquery
  cases hrow : getReport db id with
  | none =>
    rw [hrow] at h
    cases h
  | some report =>
    rw [hrow] at h
    obtain ⟨_, s₃, hother, h⟩ := Service.run_bind_ok h
    obtain ⟨_, rfl⟩ := Service.run_require_ok.mp hother
    obtain ⟨_, mid, _, h⟩ := Service.run_bind_ok h
    obtain ⟨_, hidden, hhide, h⟩ := Service.run_bind_ok h
    refine ⟨report, hrow, ?_⟩
    have hcontent : content db' = content hidden := by
      have hset := Service.run_request_ok.mp h
      split at hset
      · next hrecord =>
        cases hset
        exact audit_content hrecord
      · cases hset
    rw [isVisible_of_content hcontent]
    exact hideResolvedTarget_ok hhide

/-! ## What a call shows -/

theorem Moves.keeps (h : Moves t false db db') : Shows T db db' := by
  intro t' ht'
  rcases h.shows t' ht' with hbefore | ⟨hshown, _⟩
  · exact .inl hbefore
  · cases hshown

theorem audit_shows {ε : Type} (internal : ε) (event : NewAuditEvent) :
    (audit internal event).Respects (Shows T) := by
  refine .request (refl_of _) fun db _ db' h => ?_
  split at h
  · next hrecord =>
    cases h
    exact .of_content (audit_content hrecord)
  · cases h

theorem hideResolvedTarget_shows (report : Report) (moderator : UserId) :
    (hideResolvedTarget report moderator).Respects (Shows T) := by
  change (Service.attempt (repo (takedown report moderator)) >>= _).Respects _
  refine .bind (.attempt (.request (refl_of _) fun _ _ _ h => ?_)) fun res => ?_
  · exact ((takedown_hides report moderator).moves h).keeps
  · split
    · exact .pure ()
    · exact .pure ()
    · exact .pure ()
    · exact .throw _

theorem resolve_content {moderator : UserId} {note : String} {outcome : ReportOutcome}
    (h : resolve db id moderator note outcome = .ok ((), db')) : content db' = content db := by
  rw [resolve_eq] at h
  split at h
  · split at h
    · cases h
    · cases h
      rfl
  · cases h

theorem resolveReport_shows (outcome : ReportOutcome) (note : String) :
    (resolveReport user id outcome note).Respects (Shows T) := by
  refine .bind (.require _ _) fun _ => .bind (.query _ _ (refl_of _)) fun found => ?_
  cases found with
  | none => exact .throw _
  | some report =>
    refine .bind (.require _ _) fun _ =>
      .bind (.request (refl_of _) fun _ _ _ h => .of_content (resolve_content h)) fun _ => ?_
    cases outcome with
    | resolved => exact .bind (hideResolvedTarget_shows _ _) fun _ => audit_shows _ _
    | dismissed => exact audit_shows _ _

theorem claim_shows : (claim user id).Respects (Shows T) := by
  refine .bind (.require _ _) fun _ => .bind (.request (refl_of _) fun db _ db' h => ?_) fun _ =>
    audit_shows _ _
  unfold claimReport at h
  split at h
  · cases h
  · obtain ⟨reports, _, hset⟩ := bind_eq_ok h
    cases hset
    exact .of_content rfl

theorem submitReport_shows (limits : ModerationLimits) (allow : String → Nat → Int → Bool)
    (ip : String) (targetType : ReportTargetType) (targetId : Nat) (reason : String)
    (description : Option String) :
    (submitReport limits allow user ip targetType targetId reason description).Respects
      (Shows T) := by
  refine .bind (.require _ _) fun _ => .bind (.require _ _) fun _ => .bind (.require _ _) fun _ =>
    .bind (.require _ _) fun _ => ?_
  split
  · exact .throw _
  · refine .bind (.query _ _ (refl_of _)) fun _ => .bind (.require _ _) fun _ =>
      .bind (.mapErr (.request (refl_of _) fun db id db' h => ?_)) fun _ =>
        .bind (audit_shows _ _) fun _ => .pure _
    unfold createReport at h
    split at h
    · cases h
    split at h
    · cases h
    cases h
    exact .of_content rfl

/-- A use case with one transaction. -/
theorem changed_shows {f : Db → Except ModerationError (Unit × Db)} {event : NewAuditEvent}
    (hf : ∀ {db db'}, f db = .ok ((), db') → Shows T db db') :
    (changed user f event >>= audit .internal).Respects (Shows T) := by
  refine .bind (.bind (.require _ _) fun _ => ?_) fun _ => audit_shows _ _
  exact .bind (.request (refl_of _) fun _ _ _ h => hf h) fun _ => .pure _

/-! ### Photos -/

theorem rejectRow_moves {kind : PhotoKind} {moderator : UserId} {reason : String}
    {keys : String × Option String}
    (h : rejectRow db kind id moderator reason = .ok (keys, db')) :
    Moves (photoType kind, id) false db db' := by
  unfold rejectRow at h
  cases hdecide : decidePending db kind id moderator fun r =>
      { r with
        moderationState := .rejected, rejectionReason := some reason
        reviewedBy := some moderator, reviewedAt := some db.now } with
  | error e =>
    rw [hdecide] at h
    cases h
  | ok mid =>
    obtain ⟨_, hupdate, _, rfl⟩ := decidePending_ok hdecide
    rw [hdecide] at h
    cases hrow : (photos db kind).row id with
    | none =>
      rw [hrow] at h
      cases h
    | some r =>
      rw [hrow] at h
      cases h
      exact updatePhoto_moves (fun _ => rfl) hupdate

/-- `Shows` of the databases of both stores. -/
def ShowsMedia (T : Target → Prop) (m m' : Media) : Prop := Shows T m.db m'.db

instance (T : Target → Prop) : IsPreorder Media (ShowsMedia T) where
  refl m := refl_of (Shows T) m.db
  trans _ _ _ h h' := trans_of (Shows T) h h'

theorem repo_shows {α : Type} {f : Db → Except PhotoError (α × Db)}
    (hf : ∀ {db a db'}, f db = .ok (a, db') → Shows T db db') :
    (Photos.repo f).Respects (ShowsMedia T) := by
  refine .request (refl_of _) fun m a m' h => ?_
  split at h
  · next hrun =>
    cases h
    exact hf hrun
  · cases h

theorem photoAudit_content (event : NewAuditEvent) :
    (Photos.audit event).Respects (Service.Frame fun m => content m.db) := by
  refine .request (refl_of _) fun m a m' h => ?_
  split at h
  · next hrun =>
    cases h
    exact audit_content (recordAudit_of_ok hrun)
  · cases h

theorem photoAudit_shows (event : NewAuditEvent) :
    (Photos.audit event).Respects (ShowsMedia T) :=
  (photoAudit_content event).mono fun _ _ h => .of_content h

theorem deleteQuietly_shows (key : String) :
    (deleteQuietly key).Respects (ShowsMedia T) :=
  ⟨fun m => refl_of (Shows T) m.db, fun _ => trivial, trivial⟩

theorem rejectPhoto_shows (kind : PhotoKind) (reason : String) :
    (Photos.rejectPhoto user kind id reason).Respects (ShowsMedia T) := by
  unfold Photos.rejectPhoto Photos.query
  refine .bind (.require _ _) fun _ => ?_
  generalize Text.trim reason = reason
  refine .bind (.require _ _) fun _ => .bind (.query _ _ (refl_of _)) fun found => ?_
  cases found with
  | none => exact .throw _
  | some photo =>
    dsimp only
    split
    · exact .pure ()
    · exact .throw _
    · exact .throw _
    · refine .bind (repo_shows fun h => (rejectRow_moves h).keeps) fun keys => ?_
      refine .bind (deleteQuietly_shows _) fun _ => ?_
      dsimp only
      split
      · exact .bind (deleteQuietly_shows _) fun _ => photoAudit_shows _
      · exact photoAudit_shows _

/-- An approval of a photo that waits for review shows it. -/
theorem approveRow_moves {kind : PhotoKind} {moderator : UserId} {position : Int}
    (h : approveRow db kind id moderator position = .ok ((), db')) :
    ((photos db kind).row id).any (·.moderationState == .pendingReview) = true ∧
      (db.users.row moderator).isSome = true ∧ Moves (photoType kind, id) true db db' := by
  unfold approveRow at h
  cases hdecide : decidePending db kind id moderator fun r =>
      { r with
        moderationState := .approved, position
        reviewedBy := some moderator, reviewedAt := some db.now } with
  | error e =>
    rw [hdecide] at h
    cases h
  | ok mid =>
    obtain ⟨_, hupdate, huser, rfl⟩ := decidePending_ok hdecide
    rw [hdecide] at h
    cases h
    refine ⟨?_, huser, updatePhoto_moves (fun _ => rfl) hupdate⟩
    cases hany : ((photos db kind).row id).any (·.moderationState == .pendingReview) with
    | true => rfl
    | false =>
      rw [updatePhoto_eq, updateOne_eq, hany] at hupdate
      cases hupdate

theorem approveRow_isOk {kind : PhotoKind} {moderator : UserId} (position : Int)
    (hrow : ((photos db kind).row id).any (·.moderationState == .pendingReview) = true)
    (huser : (db.users.row moderator).isSome = true) :
    ∃ db', approveRow db kind id moderator position = .ok ((), db') := by
  obtain ⟨row, hrow'⟩ := Option.isSome_iff_exists.mp huser
  unfold approveRow decidePending
  rw [updatePhoto_eq, updateOne_eq, hrow, if_pos rfl, hrow']
  exact ⟨_, rfl⟩

/-- None of the first three calls is lost. -/
theorem answered_iff : lost.all (3 ≤ ·) = true ↔
    lost ≠ some 0 ∧ lost.map (· - 1) ≠ some 0 ∧ (lost.map (· - 1)).map (· - 1) ≠ some 0 := by
  cases lost with
  | none => simp
  | some n =>
    simp only [Option.all_some, decide_eq_true_eq, Option.map_some, ne_eq, Option.some.injEq]
    omega

/-- A run of an approval: nothing is shown, or the photo of the condition. -/
theorem approvePhoto_cases (kind : PhotoKind) (media : Media) :
    (content ((Photos.approvePhoto user kind id).runLosing lost media).2.db = content media.db ∧
        (ContentRequest.approvePhoto kind id).approves user lost media.db = none) ∨
      (Moves (photoType kind, id) true media.db
          ((Photos.approvePhoto user kind id).runLosing lost media).2.db ∧
        (ContentRequest.approvePhoto kind id).approves user lost media.db =
          some (photoType kind, id)) := by
  unfold Photos.approvePhoto Photos.query Photos.repo
  rw [Service.runLosing_require]
  cases hmod : isModerator user with
  | false => exact .inl ⟨rfl, by simp [ContentRequest.approves, hmod]⟩
  | true =>
  rw [if_pos rfl, Service.runLosing_query]
  -- the row of the photo
  by_cases hfirst : lost = some 0
  · rw [if_pos hfirst]
    exact .inl ⟨rfl, by simp [ContentRequest.approves, hfirst]⟩
  rw [if_neg hfirst]
  cases hrow : (photos media.db kind).row id with
  | none =>
    dsimp only
    rw [hrow]
    dsimp only
    rw [Service.runLosing_throw]
    exact .inl ⟨rfl, by simp [ContentRequest.approves, hrow]⟩
  | some photo =>
  dsimp only
  rw [hrow]
  dsimp only
  cases hstate : photo.moderationState with
  | approved =>
    exact .inl ⟨by cases lost <;> rfl, by simp [ContentRequest.approves, hrow, hstate]⟩
  | rejected =>
    dsimp only
    rw [Service.runLosing_throw]
    exact .inl ⟨rfl, by simp [ContentRequest.approves, hrow, hstate]⟩
  | hidden =>
    dsimp only
    rw [Service.runLosing_throw]
    exact .inl ⟨rfl, by simp [ContentRequest.approves, hrow, hstate]⟩
  | pendingReview =>
  -- the calls before the `UPDATE`, and the `UPDATE`
  dsimp only
  rw [Service.runLosing_query]
  by_cases hsecond : lost.map (· - 1) = some 0
  · rw [if_pos hsecond]
    have hlost : lost.all (3 ≤ ·) = false := Bool.eq_false_iff.mpr fun h =>
      (answered_iff.mp h).2.1 hsecond
    exact .inl ⟨rfl, by simp only [ContentRequest.approves, hlost, Bool.and_false]; rfl⟩
  rw [if_neg hsecond, Service.runLosing_request]
  by_cases hthird : (lost.map (· - 1)).map (· - 1) = some 0
  · rw [if_pos hthird]
    have hlost : lost.all (3 ≤ ·) = false := Bool.eq_false_iff.mpr fun h =>
      (answered_iff.mp h).2.2 hthird
    exact .inl ⟨rfl, by simp only [ContentRequest.approves, hlost, Bool.and_false]; rfl⟩
  rw [if_neg hthird]
  have hlost : lost.all (3 ≤ ·) = true := answered_iff.mpr ⟨hfirst, hsecond, hthird⟩
  cases happrove : approveRow media.db kind id user.id
    (maxPosition media.db ⟨kind, photo.parentId⟩ + 1) with
  | error e =>
    refine .inl ⟨rfl, ?_⟩
    have huser : (media.db.users.row user.id).isSome = false := by
      refine Bool.eq_false_iff.mpr fun huser => ?_
      obtain ⟨db', hok⟩ := approveRow_isOk (maxPosition media.db ⟨kind, photo.parentId⟩ + 1)
        (by rw [hrow, Option.any_some, hstate]; rfl) huser
      rw [happrove] at hok
      cases hok
    rw [ContentRequest.approves, huser, Bool.and_false]
    rfl
  | ok r =>
    obtain ⟨⟨⟩, db'⟩ := r
    obtain ⟨hpending, huser, hmoves⟩ := approveRow_moves happrove
    refine .inr ⟨?_, ?_⟩
    · exact hmoves.congr ((photoAudit_content _).runLosing _ { media with db := db' })
    · rw [ContentRequest.approves, hmod, huser, hpending, hlost]
      rfl

/-! ## Runs of the condition -/

/-- What a request may show: what it restores, and the photo that it approves. -/
theorem ContentRequest.run_shows (env : ContentEnv) (user : AuthenticatedUser)
    (lost : Option Nat) (media : Media) (request : ContentRequest) :
    Shows (fun t => request.restores = some t ∨ request.approves user lost media.db = some t)
      media.db (request.run env user lost media).2.db := by
  have hchanged : ∀ {f : Db → Except ModerationError (Unit × Db)} {event : NewAuditEvent}
      {T : Target → Prop}, (∀ {db db'}, f db = .ok ((), db') → Shows T db db') →
      Shows T media.db
        ((changed user f event >>= audit .internal).runLosing lost media.db).2 :=
    fun hf => (changed_shows hf).runLosing lost media.db
  cases request with
  | submit allow ip targetType targetId reason description =>
    exact (submitReport_shows env.limits allow ip targetType targetId reason
      description).runLosing lost media.db
  | claim id => exact claim_shows.runLosing lost media.db
  | resolve id outcome note => exact (resolveReport_shows outcome note).runLosing lost media.db
  | hideReview id => exact hchanged fun h => (flipReview_moves h).keeps
  | restoreReview id =>
    exact hchanged fun h => (flipReview_moves h).shows.mono fun _ ht => .inl (by rw [ht.2]; rfl)
  | hidePhoto kind id => exact hchanged fun h => (flipPhoto_moves h).keeps
  | restorePhoto kind id =>
    exact hchanged fun h => (flipPhoto_moves h).shows.mono fun _ ht => .inl (by rw [ht.2]; rfl)
  | approvePhoto kind id =>
    rcases approvePhoto_cases kind media with ⟨hcontent, _⟩ | ⟨hmoves, happroves⟩
    · exact .of_content hcontent
    · exact hmoves.shows.mono fun _ ht => .inr (by rw [ht.2]; exact happroves)
  | rejectPhoto kind id reason => exact (rejectPhoto_shows kind reason).runLosing lost media
  | invalidateParking id => exact hchanged fun h => (setParkingState_moves h).keeps
  | restoreParking id =>
    exact hchanged fun h => (setParkingState_moves h).shows.mono fun _ ht =>
      .inl (by rw [ht.2]; rfl)

/-- The target of a resolved report is not visible. -/
theorem ContentRequest.run_takesDown {media : Media} {request : ContentRequest}
    (hok : (request.run env user lost media).1 = true) (ht : request.takesDown media.db = some t) :
    isVisible (request.run env user lost media).2.db t = false := by
  cases request with
  | resolve id outcome note =>
    cases outcome with
    | dismissed => cases ht
    | resolved =>
      change ((resolveReport user id .resolved note).runLosing lost media.db).1.isOk = true at hok
      show isVisible ((resolveReport user id .resolved note).runLosing lost media.db).2 t = false
      cases hrun : (resolveReport user id .resolved note).runLosing lost media.db with
      | mk r db' =>
        rw [hrun] at hok
        cases r with
        | error e => cases hok
        | ok a =>
          obtain ⟨report, hrow, hhidden⟩ := resolveReport_takesDown
            ((resolveReport_strict .resolved note).runLosing_ok hrun)
          rw [ContentRequest.takesDown, hrow] at ht
          cases ht
          exact hhidden
  | _ => cases ht

/-- An approval shows the photo, and restores nothing. -/
theorem ContentRequest.run_approves (env : ContentEnv) {media : Media} {request : ContentRequest}
    (h : request.approves user lost media.db = some t) :
    isVisible (request.run env user lost media).2.db t = true ∧ request.restores = none := by
  cases request with
  | approvePhoto kind id =>
    rcases approvePhoto_cases kind media with ⟨_, hnone⟩ | ⟨hmoves, hsome⟩
    · rw [hnone] at h
      cases h
    · rw [hsome] at h
      cases h
      exact ⟨hmoves.moved, rfl⟩
  | _ => cases h

theorem mem_after {s : Takedowns} {request : ContentRequest} {ok : Bool} {media : Media} :
    t ∈ (s.after request ok media).down ↔
      (ok = true ∧ request.takesDown s.media.db = some t ∨ t ∈ s.down) ∧
        ¬(request.restores = some t ∧ isVisible media.db t = true) := by
  unfold Takedowns.after
  dsimp only
  rw [List.mem_filter]
  refine and_congr ?_ ?_
  · cases ok <;> simp
  · rw [Bool.not_eq_true', ← Bool.not_eq_true, Bool.and_eq_true, beq_iff_eq]

/-- When nothing that is taken down is visible, the same holds after a step exactly if
the step approves no photo that is taken down. -/
theorem Takedowns.exec_iff (env : ContentEnv) (s : Takedowns) (op : ContentOp)
    (hs : StaysDown s) : StaysDown (s.exec env op) ↔ showsTakenDown s op = false := by
  cases op with
  | wait seconds => exact ⟨fun _ => rfl, fun _ => hs⟩
  | request user lost request =>
    show StaysDown (s.after request (request.run env user lost s.media).1
      (request.run env user lost s.media).2) ↔ _
    have hshows := request.run_shows env user lost s.media
    constructor
    · intro hafter
      refine Bool.eq_false_iff.mpr fun hcond => ?_
      obtain ⟨t, happroves, hdown⟩ := (Option.any_eq_true ..).mp hcond
      obtain ⟨hvisible, hrestores⟩ := ContentRequest.run_approves env happroves
      have hhidden : isVisible (request.run env user lost s.media).2.db t = false :=
        hafter t (mem_after.mpr ⟨.inr (by simpa using hdown), by simp [hrestores]⟩)
      rw [hvisible] at hhidden
      cases hhidden
    · intro hcond t ht
      obtain ⟨hdown, hkept⟩ := mem_after.mp ht
      rcases hdown with ⟨hok, htakes⟩ | hdown
      · exact ContentRequest.run_takesDown hok htakes
      · refine Bool.eq_false_iff.mpr fun hvisible => ?_
        rcases hshows t hvisible with hbefore | hrestores | happroves
        · rw [hs t hdown] at hbefore
          cases hbefore
        · exact hkept ⟨hrestores, hvisible⟩
        · have hfree : s.down.contains t = false := by
            simpa [showsTakenDown, happroves] using hcond
          simp [hdown] at hfree

/-- In a run from any stores, nothing that is taken down is ever visible exactly if no step
approves a photo that is taken down. -/
theorem staysDown_throughout_iff (env : ContentEnv) (media : Media) (ops : List ContentOp) :
    Runs.Throughout (Takedowns.exec env) StaysDown ⟨media, []⟩ ops ↔
      Runs.Along (Takedowns.exec env) (fun s op => showsTakenDown s op = false) ⟨media, []⟩ ops :=
  Runs.throughout_iff_along (J := fun _ => True) (fun _ _ _ => trivial)
    (fun s op _ hs => s.exec_iff env op hs) trivial fun _ ht => absurd ht List.not_mem_nil

/-! ## A photo that waits for review -/

/-- Ana and Bo, who are moderators, and a photo that waits for review. -/
def pendingPhoto : Media where
  db := { twoModerators with
    parkingPhoto := Table.empty.insert
      { parentId := 1, uploaderId := none, storageKey := "p/1", thumbnailKey := none
        createdAt := 0 } }
  objects := fun _ => none

/-- A moderator of `twoModerators`. -/
def moderatorOf (id : UserId) (email : String) : AuthenticatedUser where
  id := id
  email := email
  accountState := .active
  isVerified := false
  roles := [.moderator]

/-- Ana reports photo 1, and Bo resolves the report. -/
def reportAndResolve : List ContentOp :=
  let ana := moderatorOf 1 "ana@example.com"
  let bo := moderatorOf 2 "bo@example.com"
  [.request ana none (.submit (fun _ _ _ => true) "203.0.113.7" .parkingPhoto 1 "spam" none),
    .request bo none (.claim 1), .request bo none (.resolve 1 .resolved "spam")]

/-- The zones of this deployment. -/
def utcOnly : ContentEnv where
  isZone name := name == "UTC"

/-- The report is resolved with `Ok`, and then Bo approves the photo. -/
theorem not_staysDown_pending :
    (reportAndResolve.foldl (Takedowns.exec utcOnly) ⟨pendingPhoto, []⟩).down =
        [(.parkingPhoto, 1)] ∧
      ¬ Runs.Throughout (Takedowns.exec utcOnly) StaysDown ⟨pendingPhoto, []⟩
        (reportAndResolve ++
          [.request (moderatorOf 2 "bo@example.com") none (.approvePhoto .parking 1)]) := by
  refine ⟨by decide +kernel, fun h => ?_⟩
  obtain ⟨_, _, _, _, hlast⟩ := h
  have hhidden := hlast (.parkingPhoto, 1) (by decide +kernel)
  revert hhidden
  decide +kernel

end BikesNest.Moderation
