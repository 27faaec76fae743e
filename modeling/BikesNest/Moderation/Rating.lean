import BikesNest.Community.Review
import BikesNest.Lib.Run
import BikesNest.Moderation.Service
import BikesNest.Privacy.Anonymize

/-!
# The rating aggregate over a run

`upsertReview` recomputes the aggregate of its location.  The moderation steps
that hide or restore a review move it out of, or back into, the active ones and
recompute nothing.

* `Harmless` relates the database before and after a step that touches neither
  the active ratings of a location nor a stored aggregate.
* `not_ratingInv_flip` says that a review that changes state breaks the
  invariant.
* `keepsAggregate` is the condition on a step, and `ratingInv_throughout_iff`
  is the result: a run stays in the invariant exactly if its steps meet it.
-/

namespace BikesNest.Moderation

open Domain Community Store Relational

/-! ## Harmless changes -/

/-- Neither the active ratings of a location nor a stored aggregate changes. -/
structure Harmless (db db' : Db) : Prop where
  ratings : ∀ l, activeRatings db'.review l = activeRatings db.review l
  aggregates : ∀ l rec', db'.parkingLocation.row l = some rec' →
    ∃ rec, db.parkingLocation.row l = some rec ∧
      rec'.row.ratingCount = rec.row.ratingCount ∧ rec'.row.ratingAvg = rec.row.ratingAvg

/-- No review or location row changes. -/
structure SameReviews (db db' : Db) : Prop where
  review : db'.review = db.review
  parkingLocation : db'.parkingLocation = db.parkingLocation

instance : IsPreorder Db SameReviews where
  refl _ := ⟨rfl, rfl⟩
  trans _ _ _ h h' := ⟨h'.review.trans h.review, h'.parkingLocation.trans h.parkingLocation⟩

instance : IsPreorder Db Harmless where
  refl _ := ⟨fun _ => rfl, fun _ rec' h => ⟨rec', h, rfl, rfl⟩⟩
  trans _ _ _ h h' := by
    refine ⟨fun l => (h'.ratings l).trans (h.ratings l), fun l rec' hrec' => ?_⟩
    obtain ⟨mid, hmid, hcount', havg'⟩ := h'.aggregates l rec' hrec'
    obtain ⟨rec, hrec, hcount, havg⟩ := h.aggregates l mid hmid
    exact ⟨rec, hrec, hcount'.trans hcount, havg'.trans havg⟩

variable {db db' : Db} {l id : Nat} {moderator : AuthenticatedUser}

theorem SameReviews.harmless (h : SameReviews db db') : Harmless db db' := by
  refine ⟨fun l => by rw [h.review], fun l rec' hrec' => ⟨rec', ?_, rfl, rfl⟩⟩
  rwa [h.parkingLocation] at hrec'

theorem Harmless.ratingInv (h : Harmless db db') (hinv : RatingInv db) : RatingInv db' :=
  ratingInv_of_eq hinv h.ratings h.aggregates

theorem SameReviews.ratingInv_iff (h : SameReviews db db') : RatingInv db' ↔ RatingInv db := by
  simp only [RatingInv, h.review, h.parkingLocation]

theorem SameReviews.placed (h : SameReviews db db') (hplaced : ReviewsPlaced db) :
    ReviewsPlaced db' := by
  simpa only [ReviewsPlaced, h.review, h.parkingLocation] using hplaced

/-! ## The review that changes state -/

theorem length_activeRatings (t : Table Review) (l : Nat) :
    (activeRatings t l).length =
      t.rows.countP fun x => x.2.locationId == l && x.2.moderationState == .active := by
  rw [activeRatings, List.length_map, Table.select, List.countP_eq_length_filter]

/-- A review that leaves or enters the active ones changes their number. -/
theorem length_activeRatings_flip {t : Table Review} {r : Review} {source target : ReviewState}
    {now : Instant} (hr : t.row id = some r) (hsource : r.moderationState = source)
    (hne : source ≠ target) :
    (activeRatings (t.update (fun i x => i == id && x.moderationState == source) fun x =>
        { x with moderationState := target, updatedAt := now }) r.locationId).length ≠
      (activeRatings t r.locationId).length := by
  obtain ⟨before, after, hrows, hupdated⟩ := Table.rows_update_key hr
    (fun x => x.moderationState == source)
    (fun x => { x with moderationState := target, updatedAt := now })
  rw [length_activeRatings, length_activeRatings, hrows, hupdated]
  cases source <;> cases target <;> simp_all

/-- A review that changes state breaks the invariant. -/
theorem not_ratingInv_flip {source target : ReviewState} {r : Review} (hinv : RatingInv db)
    (hplaced : ReviewsPlaced db) (hr : db.review.row id = some r)
    (hsource : r.moderationState = source) (hne : source ≠ target)
    (hflip : flipReview db id source target = .ok ((), db')) : ¬ RatingInv db' := by
  rw [flipReview, updateOne_eq, hr, Option.any_some, hsource, beq_self_eq_true, if_pos rfl] at hflip
  cases hflip
  intro hafter
  obtain ⟨rec, hrec⟩ := Option.isSome_iff_exists.mp (hplaced id r hr)
  have hcount := (hafter r.locationId rec hrec).1
  rw [(hinv r.locationId rec hrec).1] at hcount
  exact length_activeRatings_flip hr hsource hne hcount.symm

/-! ## The calls that change no aggregate -/

theorem audit_same (event : NewAuditEvent) :
    Service.Within SameReviews (audit ModerationError.internal event) := by
  apply audit_within
  intro db events
  exact ⟨rfl, rfl⟩

theorem hidePhoto_same {kind : PhotoKind} {user : UserId}
    (h : hidePhoto db kind id user = .ok ((), db')) : SameReviews db db' := by
  obtain ⟨mid, hmid, hlast⟩ := bind_eq_ok h
  have hsame : SameReviews db mid := by
    cases kind with
    | parking =>
      obtain ⟨photos, _, hset⟩ := bind_eq_ok hmid
      cases hset
      exact ⟨rfl, rfl⟩
    | review =>
      obtain ⟨photos, _, hset⟩ := bind_eq_ok hmid
      cases hset
      exact ⟨rfl, rfl⟩
  split at hlast
  · cases hlast
  · cases hlast
    exact hsame

/-- A location that is taken down keeps its aggregate. -/
theorem setParkingState_harmless {source : List ModerationState} {target : ModerationState}
    {user : UserId} (h : setParkingState db id source target user = .ok ((), db')) :
    Harmless db db' := by
  obtain ⟨rec, rec', hrec, hmoderated, rfl⟩ := setParkingState_ok h
  refine ⟨fun _ => rfl, fun l rec₁ hrec₁ => ?_⟩
  obtain ⟨rec₀, hrec₀, rfl⟩ := Table.row_update_eq_some.mp hrec₁
  refine ⟨rec₀, hrec₀, ?_⟩
  split
  · rename_i hl
    obtain rfl : l = id := by simpa using hl
    obtain rfl := Option.some.inj (hrec.symm.trans hrec₀)
    unfold LocationRecord.moderated LocationRecord.insertRevision at hmoderated
    simp only at hmoderated
    split at hmoderated
    · cases hmoderated
    · cases hmoderated
      exact ⟨rfl, rfl⟩
  · exact ⟨rfl, rfl⟩

/-- Erasing an account nulls authors and creators only. -/
theorem scrubbed_harmless (u : UserId) (now : Instant) :
    Harmless db (Privacy.scrubbed db u now) := by
  refine ⟨fun l => ?_, fun l rec' hrec' => ?_⟩
  · rw [Privacy.scrubbed, activeRatings_update]
    intro r
    exact ⟨rfl, rfl, rfl⟩
  · obtain ⟨rec, hrec, rfl⟩ := Table.row_update_eq_some.mp hrec'
    exact ⟨rec, hrec, rfl, rfl⟩

/-! ## Every review stays on a location -/

theorem flipReview_placed {source target : ReviewState} (hplaced : ReviewsPlaced db)
    (h : flipReview db id source target = .ok ((), db')) : ReviewsPlaced db' := by
  rw [flipReview_eq] at h
  split at h
  · cases h
    exact Table.All.update hplaced fun _ _ hr _ => hr
  · cases h

theorem setParkingState_placed {source : List ModerationState} {target : ModerationState}
    {user : UserId} (hplaced : ReviewsPlaced db)
    (h : setParkingState db id source target user = .ok ((), db')) : ReviewsPlaced db' := by
  obtain ⟨_, _, _, _, rfl⟩ := setParkingState_ok h
  intro i r hr
  simpa using hplaced i r hr

theorem scrubbed_placed (u : UserId) (now : Instant) (hplaced : ReviewsPlaced db) :
    ReviewsPlaced (Privacy.scrubbed db u now) := by
  intro i r hr
  obtain ⟨r₀, hr₀, rfl⟩ := Table.row_update_eq_some.mp hr
  have hlocation := hplaced i r₀ hr₀
  split <;> simpa [Privacy.scrubbed] using hlocation

theorem SameReviews.stable {α : Type} {m : Service Db ModerationError α}
    (h : Service.Within SameReviews m) : Service.Within (Service.Stable ReviewsPlaced) m :=
  fun s => (h s).placed

theorem repo_placed {f : Db → Except ModerationError (Unit × Db)}
    (h : ∀ db db', ReviewsPlaced db → f db = .ok ((), db') → ReviewsPlaced db') :
    Service.Within (Service.Stable ReviewsPlaced) (repo f) :=
  Service.Within.request fun s _ s' hf hs => h s s' hs hf

theorem act_placed {f : Db → Except ModerationError (Unit × Db)} (event : NewAuditEvent)
    (h : ∀ db db', ReviewsPlaced db → f db = .ok ((), db') → ReviewsPlaced db') :
    Service.Within (Service.Stable ReviewsPlaced) (act moderator f event) :=
  .bind (.require _ _) fun _ => .bind (repo_placed h) fun _ => SameReviews.stable (audit_same event)

theorem resolve_same {user : UserId} {note : String} {outcome : ReportOutcome}
    (h : resolve db id user note outcome = .ok ((), db')) : SameReviews db db' := by
  rw [resolve_eq] at h
  split at h
  · split at h
    · cases h
    · cases h
      exact ⟨rfl, rfl⟩
  · cases h

theorem hideResolvedTarget_placed (report : Report) (user : UserId) :
    Service.Within (Service.Stable ReviewsPlaced) (hideResolvedTarget report user) := by
  refine .bind (.attempt (repo_placed fun db db' hplaced h => ?_)) fun res => ?_
  · cases htarget : report.targetType with
    | review =>
      rw [htarget] at h
      exact flipReview_placed hplaced h
    | parkingPhoto =>
      rw [htarget] at h
      exact (hidePhoto_same h).placed hplaced
    | reviewPhoto =>
      rw [htarget] at h
      exact (hidePhoto_same h).placed hplaced
    | parking =>
      rw [htarget] at h
      exact setParkingState_placed hplaced h
  · split
    · exact .pure ()
    · exact .pure ()
    · exact .pure ()
    · exact .throw _

theorem resolveReport_placed (outcome : ReportOutcome) (note : String) :
    Service.Within (Service.Stable ReviewsPlaced) (resolveReport moderator id outcome note) := by
  refine .bind (.require _ _) fun _ => .bind (.query _ _) fun found => ?_
  dsimp only
  split
  · exact .throw _
  refine .bind (.require _ _) fun _ => .bind (repo_placed fun db db' hplaced h =>
    (resolve_same h).placed hplaced) fun _ => ?_
  split
  · exact .bind (hideResolvedTarget_placed _ _) fun _ => SameReviews.stable (audit_same _)
  · exact SameReviews.stable (audit_same _)

/-! ## What each operation does to the aggregate -/

/-- A review that is moved from one state to another breaks the invariant
exactly when it was there to be moved. -/
theorem ratingInv_flip_iff {source target : ReviewState} (hne : source ≠ target)
    (hinv : RatingInv db) (hplaced : ReviewsPlaced db) :
    RatingInv ((repo fun db => flipReview db id source target).run db).2 ↔
      (db.review.row id).any (fun r => r.moderationState == source) = false := by
  rw [repo, Service.run_request, flipReview_eq]
  cases hany : (db.review.row id).any fun r => r.moderationState == source with
  | false => simpa using hinv
  | true =>
    obtain ⟨r, hr, hsource⟩ := (Option.any_eq_true ..).mp hany
    have hbroken := not_ratingInv_flip hinv hplaced hr (by simpa using hsource) hne
      (by rw [flipReview_eq, hany]; rfl)
    simpa using hbroken

/-- A use case of one repository call leaves what the call leaves, when the
caller may make it. -/
theorem act_same (f : Db → Except ModerationError (Unit × Db)) (event : NewAuditEvent) (db : Db) :
    SameReviews (if isModerator moderator then ((repo f).run db).2 else db)
      ((act moderator f event).run db).2 := by
  rw [act, Service.run_bind, Service.run_require]
  cases isModerator moderator with
  | false => exact refl_of SameReviews db
  | true => exact Service.Within.run_bind (fun _ => audit_same event) db

/-- The review that the decision of a report hides: the target of a report
under review that the caller may decide. -/
def resolvedReview (db : Db) (moderator : AuthenticatedUser) (id : Nat) (outcome : ReportOutcome) :
    Option Nat :=
  (db.report.row id).bind fun report =>
    if isModerator moderator ∧ report.reporterId ≠ some moderator.id ∧
        report.state = .underReview ∧ (db.users.row moderator.id).isSome ∧
        outcome = .resolved ∧ report.targetType = .review then
      some report.targetId
    else none

/-- The calls of a decision by a caller who may decide the report. -/
theorem resolveReport_run {report : Report} {outcome : ReportOutcome} {note : String}
    (hmoderator : isModerator moderator = true) (hreport : db.report.row id = some report)
    (hself : report.reporterId ≠ some moderator.id) :
    ((resolveReport moderator id outcome note).run db).2 =
      match resolve db id moderator.id note outcome with
      | .error _ => db
      | .ok (_, mid) =>
        ((do
          if outcome = .resolved then hideResolvedTarget report moderator.id
          audit .internal (decisionEvent moderator.id id outcome report) :
            Service Db ModerationError Unit).run mid).2 := by
  rw [resolveReport, Service.run_bind, Service.run_require, if_pos hmoderator]
  dsimp only
  rw [Service.run_bind, Service.run_query]
  dsimp only [getReport]
  rw [hreport]
  dsimp only
  rw [Service.run_bind, Service.run_require, if_pos (by simpa using hself)]
  dsimp only
  rw [Service.run_bind, repo, Service.run_request]
  cases hresolve : resolve db id moderator.id note outcome with
  | error e => rfl
  | ok r => rfl

/-- The target of a decision changes as its own moderation step changes it. -/
theorem hideResolvedTarget_run (report : Report) (user : UserId) (db : Db) :
    ((hideResolvedTarget report user).run db).2 =
      ((repo fun db => match report.targetType with
        | .review => hideReview db report.targetId
        | .parkingPhoto => hidePhoto db .parking report.targetId user
        | .reviewPhoto => hidePhoto db .review report.targetId user
        | .parking => setParkingState db report.targetId [.active] .invalid user).run db).2 := by
  rw [hideResolvedTarget, Service.run_bind, Service.run_attempt]
  dsimp only
  split <;> rfl

/-- A target that is no review keeps every aggregate. -/
theorem hideResolvedTarget_harmless {report : Report} (user : UserId)
    (htarget : report.targetType ≠ .review) (db : Db) :
    Harmless db ((hideResolvedTarget report user).run db).2 := by
  rw [hideResolvedTarget_run]
  refine Service.Within.request (fun s a s' h => ?_) db
  cases hkind : report.targetType with
  | review => exact absurd hkind htarget
  | parkingPhoto =>
    rw [hkind] at h
    exact (hidePhoto_same h).harmless
  | reviewPhoto =>
    rw [hkind] at h
    exact (hidePhoto_same h).harmless
  | parking =>
    rw [hkind] at h
    exact setParkingState_harmless h

/-- A decision breaks the invariant exactly when it hides an active review. -/
theorem ratingInv_resolveReport_iff (outcome : ReportOutcome) (note : String)
    (hinv : RatingInv db) (hplaced : ReviewsPlaced db) :
    RatingInv ((resolveReport moderator id outcome note).run db).2 ↔
      (resolvedReview db moderator id outcome).any (fun t =>
        (db.review.row t).any fun r => r.moderationState == .active) = false := by
  -- the guards, in the order of the code: a refused decision changes nothing
  cases hmoderator : isModerator moderator with
  | false => simp [resolveReport, resolvedReview, hmoderator, hinv]
  | true =>
  cases hreport : db.report.row id with
  | none => simp [resolveReport, resolvedReview, getReport, hmoderator, hreport, hinv]
  | some report =>
  by_cases hself : report.reporterId = some moderator.id
  · simp [resolveReport, resolvedReview, getReport, hmoderator, hreport, hself, hinv]
  rw [resolveReport_run hmoderator hreport hself, resolve_eq, hreport, Option.any_some]
  by_cases hstate : report.state = .underReview
  case neg => simp [resolvedReview, hreport, hstate, hinv]
  cases huser : db.users.row moderator.id with
  | none => simp [resolvedReview, hreport, hstate, huser, hinv]
  | some user =>
  simp only [hstate, beq_self_eq_true, if_true, Option.isNone_some, Bool.false_eq_true, if_false]
  generalize hmid : ({ db with report := _ } : Db) = mid
  have hsame : SameReviews db mid := by
    rw [← hmid]
    exact ⟨rfl, rfl⟩
  have hinv' := hsame.ratingInv_iff.mpr hinv
  cases outcome with
  | dismissed =>
    have hafter := (audit_same (decisionEvent moderator.id id .dismissed report) mid).ratingInv_iff
    simp [resolvedReview, hreport, hafter, hinv']
  | resolved =>
    have hafter := (Service.Within.run_bind (m := hideResolvedTarget report moderator.id)
      (fun _ => audit_same (decisionEvent moderator.id id .resolved report)) mid).ratingInv_iff
    simp only [if_true]
    rw [hafter]
    by_cases htarget : report.targetType = .review
    · rw [hideResolvedTarget_run, htarget]
      refine (ratingInv_flip_iff (by decide) hinv' (hsame.placed hplaced)).trans ?_
      simp [resolvedReview, hmoderator, hreport, hself, hstate, huser, htarget, hsame.review]
    · have hharmless := (hideResolvedTarget_harmless moderator.id htarget mid).ratingInv hinv'
      simp [resolvedReview, hreport, htarget, hharmless]

/-! ## Runs -/

/-- The operations that write reviews or remove their authors. -/
inductive RatingOp where
  | upsertReview (locationId : Nat) (author : UserId) (rating : StarRating) (body : String)
  | hideReview (moderator : AuthenticatedUser) (id : Nat)
  | restoreReview (moderator : AuthenticatedUser) (id : Nat)
  | resolveReport (moderator : AuthenticatedUser) (id : Nat) (outcome : ReportOutcome)
      (note : String)
  | anonymize (u : UserId)

/-- The database after an operation; one that fails in its first transaction
leaves it as it was. -/
def RatingOp.exec (cases : Text.CaseMap) (db : Db) : RatingOp → Db
  | .upsertReview locationId author rating body =>
    match Community.upsertReview db locationId author rating body with
    | .ok (_, db') => db'
    | .error _ => db
  | .hideReview moderator id => ((hideReviewAs moderator id).run db).2
  | .restoreReview moderator id => ((restoreReviewAs moderator id).run db).2
  | .resolveReport moderator id outcome note =>
    ((Moderation.resolveReport moderator id outcome note).run db).2
  | .anonymize u =>
    match Privacy.anonymize cases db u db.now with
    | .ok (_, db') => db'
    | .error _ => db

/-- The operation moves no review out of, or into, the active ones. -/
def keepsAggregate (db : Db) : RatingOp → Bool
  | .upsertReview .. => true
  | .hideReview moderator id =>
    !(isModerator moderator && (db.review.row id).any fun r => r.moderationState == .active)
  | .restoreReview moderator id =>
    !(isModerator moderator && (db.review.row id).any fun r => r.moderationState == .hidden)
  | .resolveReport moderator id outcome _ =>
    !(resolvedReview db moderator id outcome).any fun t =>
      (db.review.row t).any fun r => r.moderationState == .active
  | .anonymize _ => true

/-- No location has a review, a rating count or an average. -/
structure Unreviewed (db : Db) : Prop where
  reviews : ∀ i, db.review.row i = none
  aggregates : ∀ l rec, db.parkingLocation.row l = some rec →
    rec.row.ratingCount = 0 ∧ rec.row.ratingAvg = none

theorem Unreviewed.ratingInv (h : Unreviewed db) : RatingInv db := by
  intro l rec hrec
  have hnone : activeRatings db.review l = [] := by
    rw [activeRatings, List.map_eq_nil_iff, List.eq_nil_iff_forall_not_mem]
    rintro ⟨i, r⟩ hmem
    have := (Table.mem_select.mp hmem).1
    rw [h.reviews i] at this
    cases this
  rw [hnone]
  exact h.aggregates l rec hrec

theorem Unreviewed.placed (h : Unreviewed db) : ReviewsPlaced db := by
  intro i r hr
  rw [h.reviews i] at hr
  cases hr

variable {cases : Text.CaseMap}

theorem RatingOp.exec_placed (db : Db) (op : RatingOp) (hplaced : ReviewsPlaced db) :
    ReviewsPlaced (op.exec cases db) := by
  cases op with
  | upsertReview locationId author rating body =>
    simp only [exec]
    split
    · rename_i h
      exact reviewsPlaced_upsertReview hplaced h
    · exact hplaced
  | hideReview moderator id =>
    exact act_placed _ (fun _ _ hp h => flipReview_placed hp h) db hplaced
  | restoreReview moderator id =>
    exact act_placed _ (fun _ _ hp h => flipReview_placed hp h) db hplaced
  | resolveReport moderator id outcome note =>
    exact resolveReport_placed outcome note db hplaced
  | anonymize u =>
    simp only [exec]
    split
    · rename_i h
      rw [(Privacy.anonymize_eq_ok h).1]
      exact scrubbed_placed u db.now hplaced
    · exact hplaced

/-- A moderation step on one review keeps the invariant exactly when the review
stays where it is. -/
theorem ratingInv_act_iff {source target : ReviewState} (event : NewAuditEvent)
    (hne : source ≠ target) (hinv : RatingInv db) (hplaced : ReviewsPlaced db) :
    RatingInv ((act moderator (fun db => flipReview db id source target) event).run db).2 ↔
      (isModerator moderator &&
        (db.review.row id).any fun r => r.moderationState == source) = false := by
  rw [(act_same _ event db).ratingInv_iff]
  cases isModerator moderator with
  | false => simpa using hinv
  | true => simpa using ratingInv_flip_iff hne hinv hplaced

theorem RatingOp.ratingInv_exec_iff (db : Db) (op : RatingOp) (hplaced : ReviewsPlaced db)
    (hinv : RatingInv db) : RatingInv (op.exec cases db) ↔ keepsAggregate db op = true := by
  cases op with
  | upsertReview locationId author rating body =>
    simp only [exec, keepsAggregate, iff_true]
    split
    · rename_i h
      exact ratingInv_upsertReview hinv h
    · exact hinv
  | hideReview moderator id =>
    exact (ratingInv_act_iff _ (by decide) hinv hplaced).trans
      (by rw [keepsAggregate, Bool.not_eq_true'])
  | restoreReview moderator id =>
    exact (ratingInv_act_iff _ (by decide) hinv hplaced).trans
      (by rw [keepsAggregate, Bool.not_eq_true'])
  | resolveReport moderator id outcome note =>
    exact (ratingInv_resolveReport_iff outcome note hinv hplaced).trans
      (by rw [keepsAggregate, Bool.not_eq_true'])
  | anonymize u =>
    simp only [exec, keepsAggregate, iff_true]
    split
    · rename_i h
      rw [(Privacy.anonymize_eq_ok h).1]
      exact (scrubbed_harmless u db.now).ratingInv hinv
    · exact hinv

/-- A run from a store without reviews keeps every aggregate right exactly when
no step of it moves a review out of, or into, the active ones. -/
theorem ratingInv_throughout_iff (ops : List RatingOp) (h : Unreviewed db) :
    Runs.Throughout (fun db op => RatingOp.exec cases db op) RatingInv db ops ↔
      Runs.Along (fun db op => RatingOp.exec cases db op)
        (fun db op => keepsAggregate db op = true) db ops :=
  Runs.throughout_iff_along (fun db op => RatingOp.exec_placed db op)
    (fun db op => RatingOp.ratingInv_exec_iff db op) h.placed h.ratingInv

/-- A rider, a moderator and a rack that nobody has reviewed. -/
def freshRack : Db :=
  { Db.empty 0 with
    users := (Table.empty.insert
      { email := "rider@example.com", displayName := none, accountState := .active
        locale := .en, createdAt := 0 }).insert
      { email := "mod@example.com", displayName := none, accountState := .active
        locale := .en, createdAt := 0 }
    parkingLocation := Table.empty.insert
      { row :=
          { name := "Rack", address := "Main street 1", description := none
            parkingType := "rack", costKind := "free", priceCents := none
            priceCurrency := none, priceUnit := none
            point := ⟨0, 0, GeoPoint.zero_lat, GeoPoint.zero_lon⟩, timezone := "UTC", hoursUnknown := true
            moderationState := .active, createdAt := 0 } } }

/-- The moderator of `freshRack`. -/
def rackModerator : AuthenticatedUser where
  id := 2
  email := "mod@example.com"
  accountState := .active
  isVerified := true
  roles := [.user, .moderator]

theorem freshRack_unreviewed : Unreviewed freshRack := by
  refine ⟨fun _ => rfl, fun l rec hrec => ?_⟩
  rcases Table.row_insert_eq_some.mp hrec with ⟨_, rfl⟩ | hold
  · exact ⟨rfl, rfl⟩
  · cases hold

/-- The rider reviews the rack, changes the review and is erased. -/
theorem ratingInv_throughout_iff_erased :
    Runs.Throughout (fun db op => RatingOp.exec .ascii db op) RatingInv freshRack
      [.upsertReview 1 1 ⟨2, by decide⟩ "Wobbly.", .upsertReview 1 1 ⟨4, by decide⟩ "Fixed.",
        .anonymize 1] :=
  (ratingInv_throughout_iff _ freshRack_unreviewed).mpr ⟨rfl, rfl, rfl, trivial⟩

/-- The rider reviews the rack and a moderator hides the review: the rack still
counts one review. -/
theorem hidden_review_counted :
    Unreviewed freshRack ∧
      ¬ Runs.Throughout (fun db op => RatingOp.exec .ascii db op) RatingInv freshRack
        [.upsertReview 1 1 ⟨2, by decide⟩ "Wobbly.", .hideReview rackModerator 1] := by
  refine ⟨freshRack_unreviewed, fun h => ?_⟩
  obtain ⟨_, _, hlast⟩ := h
  have hcount := (hlast 1 _ rfl).1
  revert hcount
  decide

end BikesNest.Moderation
