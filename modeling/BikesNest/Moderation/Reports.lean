import BikesNest.Lib.Run
import BikesNest.Moderation.Service
import BikesNest.Privacy.Retention

/-!
# Reports over a run

The life of a report: `submitReport`, then `claim` and `resolveReport` of the
module before, while roles are granted and revoked and accounts are deleted.

`resolveReport` compares the caller with `reporter_id`.  A deletion sets all
three references of a report to `NULL` as soon as one of them names the deleted
account, so the deletion of the account that claimed a report also takes the
reporter out of the row.

* `Trace` is the database with the history of a run, and `NoSelfDecision` the
  law about it.
* `Recorded` relates the database before and after a call that leaves the
  reporters as they are.
* `sparesReporters` is the condition on a step, and `noSelfDecision_throughout`
  the result.
-/

namespace BikesNest.Moderation

open Domain Store Relational Auth Privacy

/-! ## What a report may say -/

/-- `REPORT_REASONS`. -/
def reportReasons : List String :=
  ["nonexistent_parking", "incorrect_location", "incorrect_price", "incorrect_hours",
    "incorrect_security", "duplicate", "inappropriate_photo", "inappropriate_review", "spam",
    "abuse", "other"]

/-- `is_known_report_reason`. -/
def isKnownReportReason (code : String) : Bool := reportReasons.contains code

/-- `reason_allowed_for`. -/
def reasonAllowedFor (target : ReportTargetType) (reason : String) : Bool :=
  let isPhoto := target == .parkingPhoto || target == .reviewPhoto
  let isReview := target == .review || target == .reviewPhoto
  if reason = "inappropriate_photo" then isPhoto
  else if reason = "inappropriate_review" then isReview
  else if reason = "duplicate" then target == .parking
  else true

/-- A trimmed text of bounded length. -/
structure ReportDescription where
  text : String
  trimmed : Text.trim text = text

/-- `ReportDescription::MAX_LEN`. -/
def ReportDescription.maxLen : Nat := 1000

/-- `ReportDescription::new_with_len`. -/
def ReportDescription.newWithLen (raw : String) (maxLen : Nat) :
    Except DomainError ReportDescription :=
  let trimmed := Text.trim raw
  let len := trimmed.length
  if maxLen < len then
    .error (.invalid ("report description must be at most " ++ toString maxLen ++
      " characters: " ++ toString len))
  else .ok ⟨trimmed, Text.trim_trim raw⟩

structure ModerationLimits where
  reportDescriptionMaxLen : Nat := ReportDescription.maxLen
  reportCreateUserLimit : Nat := 10
  reportCreateIpLimit : Nat := 20

/-! ## Submitting a report -/

structure NewReport where
  reporterId : UserId
  targetType : ReportTargetType
  targetId : Nat
  reason : String
  description : ReportDescription

/-- The states in which a report waits for a decision. -/
def Report.isUndecided (r : Report) : Bool := r.state == .opened || r.state == .underReview

/-- `target_exists`. -/
def targetExists (db : Db) (targetType : ReportTargetType) (targetId : Nat) : Bool :=
  match targetType with
  | .parking => (db.parkingLocation.row targetId).isSome
  | .parkingPhoto => (db.parkingPhoto.row targetId).isSome
  | .review => (db.review.row targetId).isSome
  | .reviewPhoto => (db.reviewPhoto.row targetId).isSome

/-- `SqlxReportRepository::create`.  The index `report_dedupe_idx` covers the
undecided reports. -/
def createReport (db : Db) (new : NewReport) : Except ModerationError (Nat × Db) :=
  if db.report.any fun _ r => Report.isUndecided r && r.reporterId == some new.reporterId &&
      r.targetType == new.targetType && r.targetId == new.targetId then
    .error .conflict
  else if (db.users.row new.reporterId).isNone then
    .error (.invalidField "report_reporter_id_fkey")
  else .ok (db.report.next, { db with
    report := db.report.insert
      { reporterId := some new.reporterId, targetType := new.targetType, targetId := new.targetId
        reason := new.reason, description := some new.description.text, createdAt := db.now } })

/-- The audit event of a submission. -/
def submissionEvent (user : UserId) (id : Nat) (targetType : ReportTargetType) (targetId : Nat)
    (reason : String) : NewAuditEvent where
  actor := some user
  action := "report.created"
  targetType := "report"
  targetId := toString id
  metadata := .obj [("target_type", .str targetType.asCode), ("target_id", .int targetId),
    ("reason", .str reason)]

/-- A description that is absent or blank is stored as an empty text. -/
def describe (limits : ModerationLimits) (description : Option String) :
    Except DomainError ReportDescription :=
  let maxLen := limits.reportDescriptionMaxLen
  match description with
  | none => ReportDescription.newWithLen "" maxLen
  | some raw =>
    if Text.trim raw = "" then ReportDescription.newWithLen "" maxLen
    else ReportDescription.newWithLen raw maxLen

/-- `submit_report`.  `allow` is the answer of the rate limiter to a key, a limit
and a window. -/
def submitReport (limits : ModerationLimits) (allow : String → Nat → Int → Bool)
    (user : AuthenticatedUser) (ip : String) (targetType : ReportTargetType) (targetId : Nat)
    (reason : String) (description : Option String) : Service Db ModerationError Nat := do
  Service.require (allow ("report:create:user:" ++ toString user.id) limits.reportCreateUserLimit
    day) .rateLimited
  Service.require (allow ("report:create:ip:" ++ ip) limits.reportCreateIpLimit day) .rateLimited
  Service.require (isKnownReportReason reason) .invalidReason
  Service.require (reasonAllowedFor targetType reason) .invalidReason
  match describe limits description with
  | .error e => Service.throw (.invalidField e.message)
  | .ok description =>
    let found ← Service.query .unavailable fun db => targetExists db targetType targetId
    Service.require found .targetNotFound
    let id ← (repo fun db => createReport db
      { reporterId := user.id, targetType, targetId, reason, description }).mapErr fun e =>
        if e = .conflict then .alreadyReported else e
    audit .internal (submissionEvent user.id id targetType targetId reason)
    return id

/-! ## The history of a run -/

/-- The account of a request.  An account that cannot be accessed makes none. -/
def principal (cases : Text.CaseMap) (db : Db) (u : UserId) : Option AuthenticatedUser :=
  match findById cases db u with
  | .ok (some user) => if user.accountState.canAccessAccount then some (fromUser user) else none
  | _ => none

/-- What a run fixes. -/
structure ReportEnv where
  cases : Text.CaseMap
  hasher : PasswordHasher
  limits : ModerationLimits := {}

/-- What an account asks for. -/
inductive ReportRequest where
  | submit (allow : String → Nat → Int → Bool) (ip : String) (targetType : ReportTargetType)
      (targetId : Nat) (reason : String) (description : Option String)
  | claim (id : Nat)
  | resolve (id : Nat) (outcome : ReportOutcome) (note : String)
  | grantRole (target : UserId) (role : Role)
  | revokeRole (target : UserId) (role : Role)
  | deleteAccount (password : Option String) (confirmEmail : String)

/-- A step of a run: time passes, or the account `u` makes a request. -/
inductive ReportOp where
  | wait (seconds : Nat)
  | request (u : UserId) (request : ReportRequest)

/-- The database with the reports submitted so far and the decisions that
answered `Ok`, each with the account that made the call. -/
structure Trace where
  db : Db
  submitted : List (Nat × UserId) := []
  decided : List (Nat × UserId) := []

/-- One request, as it runs alone. -/
def Trace.call (env : ReportEnv) (s : Trace) (user : AuthenticatedUser) : ReportRequest → Trace
  | .submit allow ip targetType targetId reason description =>
    match (submitReport env.limits allow user ip targetType targetId reason description).run s.db
    with
    | (.ok id, db) => { s with db, submitted := (id, user.id) :: s.submitted }
    | (.error _, db) => { s with db }
  | .claim id => { s with db := ((claim user id).run s.db).2 }
  | .resolve id outcome note =>
    match (resolveReport user id outcome note).run s.db with
    | (.ok _, db) => { s with db, decided := (id, user.id) :: s.decided }
    | (.error _, db) => { s with db }
  | .grantRole target role => { s with db := ((grantRoleAs user target role).run s.db).2 }
  | .revokeRole target role => { s with db := ((revokeRoleAs user target role).run s.db).2 }
  | .deleteAccount password confirmEmail =>
    { s with db := ((requestDeletion env.cases env.hasher user password confirmEmail).run s.db).2 }

/-- One step of a run. -/
def Trace.exec (env : ReportEnv) (s : Trace) : ReportOp → Trace
  | .wait seconds => { s with db := { s.db with now := s.db.now + seconds * second } }
  | .request u request =>
    match principal env.cases s.db u with
    | some user => s.call env user request
    | none => s

/-- Nobody has decided a report of their own. -/
def NoSelfDecision (s : Trace) : Prop := ∀ r a, (r, a) ∈ s.submitted → (r, a) ∉ s.decided

/-- A deletion erases the account: the caller is re-authenticated and not the
last admin, and nobody holds the replacement address. -/
def erases (env : ReportEnv) (db : Db) (user : AuthenticatedUser) (password : Option String)
    (confirmEmail : String) : Bool :=
  reauthenticated env.cases env.hasher db user password confirmEmail &&
    !isLastAdmin db user.id && !emailTaken env.cases db.users user.id (anonymizedEmail user.id)

/-- An undecided report of somebody else names `u`. -/
def standsIn (db : Db) (u : UserId) : Bool :=
  db.report.any fun _ r =>
    Report.isUndecided r && Report.names u r && r.reporterId.any (· != u)

/-- No account is erased that stands in an undecided report of somebody else. -/
def sparesReporters (env : ReportEnv) (s : Trace) : ReportOp → Bool
  | .request u (.deleteAccount password confirmEmail) =>
    (principal env.cases s.db u).all fun user =>
      !(erases env s.db user password confirmEmail && standsIn s.db u)
  | _ => true

variable {env : ReportEnv} {db db' : Db} {user : AuthenticatedUser} {u : UserId} {id : Nat}

/-! ## Calls that leave the reporters -/

/-- No report disappears, is opened again or gets another reporter, and nobody
who is deleted comes back. -/
structure Recorded (db db' : Db) : Prop where
  next : db.report.next ≤ db'.report.next
  reports : ∀ i r, db.report.row i = some r → ∃ r', db'.report.row i = some r' ∧
    r'.reporterId = r.reporterId ∧
    (Report.isUndecided r' = true → Report.isUndecided r = true)
  deleted : ∀ v, stateOf db v = some .deleted → stateOf db' v = some .deleted

/-- A call that writes neither reports nor accounts. -/
theorem Recorded.of_eq (hreport : db'.report = db.report) (husers : db'.users = db.users) :
    Recorded db db' := by
  refine ⟨by rw [hreport], fun i r hr => ⟨r, by rw [hreport, hr], rfl, id⟩, fun v hv => ?_⟩
  rw [stateOf, husers]
  exact hv

instance : IsPreorder Db Recorded where
  refl _ := .of_eq rfl rfl
  trans _ _ _ h h' := by
    refine ⟨h.next.trans h'.next, fun i r hr => ?_, fun v hv => h'.deleted v (h.deleted v hv)⟩
    obtain ⟨r', hr', hreporter, hundecided⟩ := h.reports i r hr
    obtain ⟨r'', hr'', hreporter', hundecided'⟩ := h'.reports i r' hr'
    exact ⟨r'', hr'', hreporter'.trans hreporter, hundecided ∘ hundecided'⟩

theorem audit_recorded {ε : Type} (internal : ε) (event : NewAuditEvent) :
    Service.Within Recorded (audit internal event) :=
  audit_within (fun _ _ => .of_eq rfl rfl) internal event

/-- A new report stands under a new key, and no undecided one of the reporter says the
same. -/
theorem createReport_ok {new : NewReport} (h : createReport db new = .ok (id, db')) :
    id = db.report.next ∧
      (∀ i r, db.report.row i = some r → Report.isUndecided r = true →
        ¬ (r.reporterId = some new.reporterId ∧ r.targetType = new.targetType ∧
          r.targetId = new.targetId)) ∧
      db' = { db with
        report := db.report.insert
          { reporterId := some new.reporterId, targetType := new.targetType
            targetId := new.targetId, reason := new.reason
            description := some new.description.text, createdAt := db.now } } := by
  unfold createReport at h
  split at h
  · cases h
  rename_i hfree
  split at h
  · cases h
  cases h
  refine ⟨rfl, fun i r hr hundecided hsame => hfree ?_, rfl⟩
  obtain ⟨hreporter, htype, hid⟩ := hsame
  exact Table.any_iff.mpr ⟨i, r, hr, by simp [hundecided, hreporter, htype, hid]⟩

theorem createReport_recorded {new : NewReport} (h : createReport db new = .ok (id, db')) :
    Recorded db db' := by
  obtain ⟨-, -, rfl⟩ := createReport_ok h
  refine ⟨?_, fun i x hx => ⟨x, Table.row_insert_of_some _ hx, rfl, fun h => h⟩, fun v hv => hv⟩
  rw [Table.next_insert]
  omega

/-- A step of one undecided report from a state to the next one. -/
theorem Recorded.update {q : Report → Bool} {f : Report → Report}
    (hq : ∀ r, q r = true → Report.isUndecided r = true)
    (hf : ∀ r, (f r).reporterId = r.reporterId) :
    Recorded db { db with report := db.report.update (fun i r => i == id && q r) f } := by
  refine ⟨le_rfl, fun i r hr => ?_, fun v hv => hv⟩
  simp only [Table.row_update, hr, Option.map_some, Option.some.injEq, exists_eq_left']
  split
  · rename_i hmatch
    rw [Bool.and_eq_true] at hmatch
    exact ⟨hf r, fun _ => hq r hmatch.2⟩
  · exact ⟨rfl, fun h => h⟩

theorem claimReport_recorded {moderator : UserId}
    (h : claimReport db id moderator = .ok ((), db')) : Recorded db db' := by
  unfold claimReport at h
  split at h
  · cases h
  obtain ⟨reports, hupdate, hset⟩ := bind_eq_ok h
  cases hset
  rw [updateOne_eq] at hupdate
  split at hupdate
  · cases hupdate
    refine Recorded.update (fun r hr => ?_) fun r => rfl
    rw [Report.isUndecided, hr, Bool.true_or]
  · cases hupdate

/-- A decision that is written leaves the report decided. -/
theorem resolve_ok {moderator : UserId} {note : String} {outcome : ReportOutcome}
    (h : resolve db id moderator note outcome = .ok ((), db')) :
    (∃ r, db.report.row id = some r ∧ r.state = .underReview) ∧ Recorded db db' := by
  rw [resolve_eq] at h
  split at h
  · rename_i hreview
    split at h
    · cases h
    cases h
    obtain ⟨r, hr, hstate⟩ := (Option.any_eq_true ..).mp hreview
    refine ⟨⟨r, hr, by simpa using hstate⟩, Recorded.update (fun r hr => ?_) fun r => rfl⟩
    rw [Report.isUndecided, hr, Bool.or_true]
  · cases h

theorem hideResolvedTarget_recorded (report : Report) (moderator : UserId) :
    Service.Within Recorded (hideResolvedTarget report moderator) :=
  hideResolvedTarget_within (fun _ _ => .of_eq rfl rfl) (fun _ _ => .of_eq rfl rfl)
    (fun _ _ => .of_eq rfl rfl) (fun _ _ => .of_eq rfl rfl) report moderator

theorem claim_recorded : Service.Within Recorded (claim user id) :=
  .bind (.require _ _) fun _ =>
    .bind (.request fun _ _ _ h => claimReport_recorded h) fun _ => audit_recorded _ _

variable (user id) in
theorem resolveReport_recorded (outcome : ReportOutcome) (note : String) :
    Service.Within Recorded (resolveReport user id outcome note) := by
  refine .bind (.require _ _) fun _ => .bind (.query _ _) fun found => ?_
  dsimp only
  split
  · exact .throw _
  refine .bind (.require _ _) fun _ => .bind (.request fun _ _ _ h => (resolve_ok h).2) fun _ => ?_
  split
  · exact .bind (hideResolvedTarget_recorded _ _) fun _ => audit_recorded _ _
  · exact audit_recorded _ _

variable (user) in
theorem submitReport_recorded (limits : ModerationLimits) (allow : String → Nat → Int → Bool)
    (ip : String) (targetType : ReportTargetType) (targetId : Nat) (reason : String)
    (description : Option String) :
    Service.Within Recorded
      (submitReport limits allow user ip targetType targetId reason description) := by
  refine .bind (.require _ _) fun _ => .bind (.require _ _) fun _ => .bind (.require _ _) fun _ =>
    .bind (.require _ _) fun _ => ?_
  split
  · exact .throw _
  exact .bind (.query _ _) fun _ => .bind (.require _ _) fun _ =>
    .bind (.mapErr (.request fun _ _ _ h => createReport_recorded h)) fun _ =>
      .bind (audit_recorded _ _) fun _ => .pure _

theorem grantRoleAs_recorded (target : UserId) (role : Role) :
    Service.Within Recorded (grantRoleAs user target role) := by
  refine .bind (.require _ _) fun _ => .bind (.require _ _) fun _ =>
    .bind (.request fun db _ db' h => ?_) fun _ => audit_recorded _ _
  unfold grantRole at h
  split at h
  · cases h
    exact refl_of Recorded db
  split at h
  · cases h
  cases h
  exact .of_eq rfl rfl

theorem revokeRoleAs_recorded (target : UserId) (role : Role) :
    Service.Within Recorded (revokeRoleAs user target role) := by
  refine .bind (.require _ _) fun _ => .bind (.require _ _) fun _ =>
    .bind (.request fun db _ db' h => ?_) fun removed => ?_
  · unfold revokeRoleGuarded at h
    simp only at h
    split at h
    · cases h
    cases h
    exact .of_eq rfl rfl
  · split
    · exact audit_recorded _ _
    · exact .pure ()

/-! ## The requests that the history records -/

/-- A submission that answers a key has stored the caller under it. -/
theorem submitReport_ok {limits : ModerationLimits} {allow : String → Nat → Int → Bool}
    {ip : String} {targetType : ReportTargetType} {targetId : Nat} {reason : String}
    {description : Option String}
    (h : (submitReport limits allow user ip targetType targetId reason description).run db =
      (.ok id, db')) :
    id = db.report.next ∧ ∃ r, db'.report.row id = some r ∧ r.reporterId = some user.id := by
  obtain ⟨_, db₁, huser, h⟩ := Service.run_bind_ok h
  obtain ⟨_, db₂, hip, h⟩ := Service.run_bind_ok h
  obtain ⟨_, db₃, hknown, h⟩ := Service.run_bind_ok h
  obtain ⟨_, db₄, hallowed, h⟩ := Service.run_bind_ok h
  split at h
  · cases h
  rename_i described _
  obtain ⟨found, db₅, hquery, h⟩ := Service.run_bind_ok h
  obtain ⟨_, db₆, hfound, h⟩ := Service.run_bind_ok h
  obtain ⟨new, mid, hcreate, h⟩ := Service.run_bind_ok h
  obtain ⟨_, last, haudit, h⟩ := Service.run_bind_ok h
  cases h
  obtain ⟨-, rfl⟩ := Service.run_require_ok.mp huser
  obtain ⟨-, rfl⟩ := Service.run_require_ok.mp hip
  obtain ⟨-, rfl⟩ := Service.run_require_ok.mp hknown
  obtain ⟨-, rfl⟩ := Service.run_require_ok.mp hallowed
  obtain ⟨-, rfl⟩ := Service.run_query_ok.mp hquery
  obtain ⟨-, rfl⟩ := Service.run_require_ok.mp hfound
  have hmid : createReport db
      { reporterId := user.id, targetType, targetId, reason, description := described } =
        .ok (id, mid) := by
    rw [Service.run_mapErr] at hcreate
    split at hcreate
    · rename_i hrun
      cases hcreate
      exact Service.run_request_ok.mp hrun
    · cases hcreate
  obtain ⟨hid, -, hset⟩ := createReport_ok hmid
  have hrow : ∃ r, mid.report.row id = some r ∧ r.reporterId = some user.id := by
    rw [hset, hid]
    exact ⟨_, Table.row_insert_next .., rfl⟩
  obtain ⟨r, hr, hreporter⟩ := hrow
  have hafter : Recorded mid db' := by
    have hwithin := audit_recorded ModerationError.internal
      (submissionEvent user.id id targetType targetId reason) mid
    rwa [haudit] at hwithin
  obtain ⟨r', hr', hsame, -⟩ := hafter.reports id r hr
  exact ⟨hid, r', hr', hsame.trans hreporter⟩

/-- A decision that answers `Ok` is about a report under review whose reporter
is not the caller. -/
theorem resolveReport_ok {outcome : ReportOutcome} {note : String}
    (h : (resolveReport user id outcome note).run db = (.ok (), db')) :
    ∃ r, db.report.row id = some r ∧ r.state = .underReview ∧ r.reporterId ≠ some user.id := by
  obtain ⟨_, db₁, hmoderator, h⟩ := Service.run_bind_ok h
  obtain ⟨found, db₂, hquery, h⟩ := Service.run_bind_ok h
  obtain ⟨-, rfl⟩ := Service.run_require_ok.mp hmoderator
  obtain ⟨hfound, rfl⟩ := Service.run_query_ok.mp hquery
  dsimp only at h
  split at h
  · cases h
  rename_i report
  obtain ⟨_, db₃, hself, h⟩ := Service.run_bind_ok h
  obtain ⟨hother, rfl⟩ := Service.run_require_ok.mp hself
  obtain ⟨_, mid, hresolve, -⟩ := Service.run_bind_ok h
  obtain ⟨⟨r, hr, hstate⟩, -⟩ := resolve_ok (Service.run_request_ok.mp hresolve)
  have hrow : db.report.row id = some report := hfound.symm
  obtain rfl : r = report := Option.some.inj (hr.symm.trans hrow)
  exact ⟨r, hr, hstate, by simpa using hother⟩

/-- The caller of a request has an account that is not deleted. -/
theorem principal_eq_some {cases : Text.CaseMap} (h : principal cases db u = some user) :
    user.id = u ∧ (db.users.row u).isSome = true ∧ stateOf db u ≠ some .deleted := by
  unfold principal findById at h
  cases hrow : db.users.row u with
  | none =>
    rw [hrow] at h
    cases h
  | some row =>
    rw [hrow] at h
    simp only [loadUser] at h
    cases hparse : UserEmail.parse cases row.email with
    | error e =>
      rw [hparse] at h
      cases h
    | ok email =>
      rw [hparse] at h
      simp only [Except.map] at h
      split at h
      · rename_i haccess
        cases h
        refine ⟨rfl, rfl, fun hdeleted => ?_⟩
        rw [stateOf, hrow, Option.map_some, Option.some.injEq] at hdeleted
        rw [hdeleted] at haccess
        cases haccess
      · cases h

variable (env) in
/-- A deletion either erases the account or leaves reports and accounts. -/
theorem requestDeletion_cases (password : Option String) (confirmEmail : String)
    (hrow : (db.users.row user.id).isSome = true) :
    Recorded db ((requestDeletion env.cases env.hasher user password confirmEmail).run db).2 ∨
      erases env db user password confirmEmail = true ∧
      ((requestDeletion env.cases env.hasher user password confirmEmail).run db).2 =
        deleted db user.id := by
  cases herases : erases env db user password confirmEmail with
  | true => exact .inr ⟨rfl, requestDeletion_database hrow herases⟩
  | false =>
    rcases requestDeletion_database hrow herases with hsame | hrequested
    · rw [hsame]
      exact .inl (refl_of Recorded db)
    · rw [hrequested]
      exact .inl (.of_eq rfl rfl)

/-! ## The invariant -/

/-- The account that submitted a report stands in its row until it is decided, or
is deleted. -/
structure Accounted (s : Trace) : Prop where
  lawful : NoSelfDecision s
  decided : ∀ r a, (r, a) ∈ s.decided → r < s.db.report.next
  submitted : ∀ r a, (r, a) ∈ s.submitted → ∃ row, s.db.report.row r = some row ∧
    (Report.isUndecided row = true →
      row.reporterId = some a ∨ stateOf s.db a = some .deleted)

variable {s : Trace}

/-- A call that leaves the reporters keeps the invariant. -/
theorem Accounted.recorded (h : Accounted s) (hrecorded : Recorded s.db db') :
    Accounted { s with db := db' } := by
  refine ⟨h.lawful, fun r a hr => (h.decided r a hr).trans_le hrecorded.next, fun r a hr => ?_⟩
  obtain ⟨row, hrow, howner⟩ := h.submitted r a hr
  obtain ⟨row', hrow', hreporter, hundecided⟩ := hrecorded.reports r row hrow
  refine ⟨row', hrow', fun hopen => ?_⟩
  rcases howner (hundecided hopen) with hsame | hdeleted
  · exact .inl (hreporter.trans hsame)
  · exact .inr (hrecorded.deleted a hdeleted)

/-- A submission gets a key that nobody has decided. -/
theorem Accounted.submit (h : Accounted s) (hrecorded : Recorded s.db db')
    (hid : id = s.db.report.next) {r : Report} (hr : db'.report.row id = some r)
    (hreporter : r.reporterId = some u) :
    Accounted { s with db := db', submitted := (id, u) :: s.submitted } := by
  have hkept := h.recorded hrecorded
  refine ⟨fun i a hi hdecided => ?_, hkept.decided, fun i a hi => ?_⟩
  · rcases List.mem_cons.mp hi with heq | hold
    · obtain ⟨rfl, rfl⟩ := Prod.mk.inj heq
      have hlt := h.decided i a hdecided
      omega
    · exact h.lawful i a hold hdecided
  · rcases List.mem_cons.mp hi with heq | hold
    · obtain ⟨rfl, rfl⟩ := Prod.mk.inj heq
      exact ⟨r, hr, fun _ => .inl hreporter⟩
    · exact hkept.submitted i a hold

/-- A decision by an account that neither stands in the row nor is deleted. -/
theorem Accounted.decide (h : Accounted s) (hrecorded : Recorded s.db db') {r : Report}
    (hr : s.db.report.row id = some r) (hstate : r.state = .underReview)
    (hother : r.reporterId ≠ some u) (hthere : stateOf s.db u ≠ some .deleted) :
    Accounted { s with db := db', decided := (id, u) :: s.decided } := by
  have hkept := h.recorded hrecorded
  refine ⟨fun i a hi hdecided => ?_, fun i a hi => ?_, hkept.submitted⟩
  · rcases List.mem_cons.mp hdecided with heq | hold
    · obtain ⟨rfl, rfl⟩ := Prod.mk.inj heq
      obtain ⟨row, hrow, howner⟩ := h.submitted i a hi
      obtain rfl : r = row := Option.some.inj (hr.symm.trans hrow)
      have hundecided : Report.isUndecided r = true := by simp [Report.isUndecided, hstate]
      rcases howner hundecided with hreporter | hdeleted
      · exact hother hreporter
      · exact hthere hdeleted
    · exact h.lawful i a hi hold
  · rcases List.mem_cons.mp hi with heq | hold
    · obtain ⟨rfl, rfl⟩ := Prod.mk.inj heq
      exact (Table.lt_next hr).trans_le hrecorded.next
    · exact hkept.decided i a hold

theorem stateOf_deleted_of_deleted {v : UserId} (h : stateOf db v = some .deleted) :
    stateOf (deleted db u) v = some .deleted := by
  obtain ⟨row, hrow, hstate⟩ := Option.map_eq_some_iff.mp h
  simp only [stateOf, deleted, revokeAllForUser, audited, fulfilled, scrubbed, requested,
    withRequest, Table.row_update, hrow, Option.map_some, Option.some.injEq]
  split
  · rfl
  · exact hstate

/-- The report under a key after a deletion. -/
theorem row_deleted (db : Db) (u : UserId) (i : Nat) :
    (deleted db u).report.row i = (db.report.row i).map fun r =>
      if Report.names u r then { r with reporterId := none, claimedBy := none, resolvedBy := none }
      else r := rfl

/-- A deletion keeps the reporter of every undecided report that does not name
the account, and of its own reports the account is deleted. -/
theorem Accounted.erase (h : Accounted s) (hrow : (s.db.users.row u).isSome = true)
    (hspared : standsIn s.db u = false) : Accounted { s with db := deleted s.db u } := by
  refine ⟨h.lawful, h.decided, fun i a hi => ?_⟩
  obtain ⟨row, hold, howner⟩ := h.submitted i a hi
  refine ⟨_, (row_deleted s.db u i).trans (by rw [hold, Option.map_some]), fun hopen => ?_⟩
  cases hnames : Report.names u row with
  | false =>
    rw [hnames, if_neg Bool.false_ne_true] at hopen
    rw [if_neg Bool.false_ne_true]
    exact (howner hopen).imp_right stateOf_deleted_of_deleted
  | true =>
    rw [hnames, if_pos rfl] at hopen
    right
    have hundecided : Report.isUndecided row = true := hopen
    rcases howner hundecided with hreporter | hdeleted
    · have hfree := Table.any_eq_false_iff.mp hspared i row hold
      rw [hundecided, hnames, hreporter, Bool.true_and, Bool.true_and, Option.any_some,
        bne_eq_false_iff_eq] at hfree
      rw [hfree]
      exact stateOf_deleted hrow
    · exact stateOf_deleted_of_deleted hdeleted

theorem Accounted.call (h : Accounted s) {request : ReportRequest}
    (hprincipal : principal env.cases s.db u = some user)
    (hspares : sparesReporters env s (.request u request) = true) :
    Accounted (s.call env user request) := by
  obtain ⟨rfl, hrow, hthere⟩ := principal_eq_some hprincipal
  cases request with
  | submit allow ip targetType targetId reason description =>
    have hrecorded := submitReport_recorded user env.limits allow ip targetType targetId
      reason description s.db
    rw [Trace.call]
    split
    · rename_i id db hrun
      rw [hrun] at hrecorded
      obtain ⟨hid, r, hr, hreporter⟩ := submitReport_ok hrun
      exact h.submit hrecorded hid hr hreporter
    · rename_i e db hrun
      rw [hrun] at hrecorded
      exact h.recorded hrecorded
  | claim id => exact h.recorded (claim_recorded s.db)
  | resolve id outcome note =>
    have hrecorded := resolveReport_recorded user id outcome note s.db
    rw [Trace.call]
    split
    · rename_i db hrun
      rw [hrun] at hrecorded
      obtain ⟨r, hr, hstate, hother⟩ := resolveReport_ok hrun
      exact h.decide hrecorded hr hstate hother hthere
    · rename_i e db hrun
      rw [hrun] at hrecorded
      exact h.recorded hrecorded
  | grantRole target role => exact h.recorded (grantRoleAs_recorded target role s.db)
  | revokeRole target role => exact h.recorded (revokeRoleAs_recorded target role s.db)
  | deleteAccount password confirmEmail =>
    rw [Trace.call]
    rcases requestDeletion_cases env password confirmEmail hrow with
      hrecorded | ⟨herases, hdeleted⟩
    · exact h.recorded hrecorded
    · rw [hdeleted]
      rw [sparesReporters, hprincipal, Option.all_some, herases, Bool.true_and,
        Bool.not_eq_true'] at hspares
      exact h.erase hrow hspares

theorem Accounted.exec (h : Accounted s) (op : ReportOp)
    (hspares : sparesReporters env s op = true) : Accounted (s.exec env op) := by
  cases op with
  | wait seconds => exact h.recorded (.of_eq rfl rfl)
  | request u request =>
    rw [Trace.exec]
    split
    · rename_i user hprincipal
      exact h.call hprincipal hspares
    · exact h

/-- In a run from any database in which no account is erased that stands in an
undecided report of somebody else, nobody decides a report of their own. -/
theorem noSelfDecision_throughout (env : ReportEnv) (db : Db) (ops : List ReportOp)
    (h : Runs.Along (Trace.exec env) (fun s op => sparesReporters env s op = true) ⟨db, [], []⟩
      ops) :
    Runs.Throughout (Trace.exec env) NoSelfDecision ⟨db, [], []⟩ ops := by
  have hstart : Accounted ⟨db, [], []⟩ :=
    ⟨fun _ _ hr => absurd hr List.not_mem_nil, fun _ _ hr => absurd hr List.not_mem_nil,
      fun _ _ hr => absurd hr List.not_mem_nil⟩
  exact Runs.Along.throughout (fun s op hs hspares => Accounted.exec hs op hspares)
    (fun s hs => hs.lawful) hstart h

/-! ## Two moderators -/

/-- Two moderators who sign in with Google, and a photo. -/
def twoModerators : Db :=
  { Db.empty 0 with
    users := (Table.empty.insert
      { email := "ana@example.com", displayName := some "Ana", accountState := .active
        locale := .en, createdAt := 0 }).insert
      { email := "bo@example.com", displayName := some "Bo", accountState := .active
        locale := .en, createdAt := 0 }
    authenticationIdentities := (Table.empty.insert
      { userId := 1, provider := .google, providerSubject := "108", credentialHash := none }).insert
      { userId := 2, provider := .google, providerSubject := "109", credentialHash := none }
    userRoles := (Table.empty.insert
      { userId := 1, role := .moderator, grantedBy := none, grantedAt := 0 }).insert
      { userId := 2, role := .moderator, grantedBy := none, grantedAt := 0 }
    parkingPhoto := Table.empty.insert
      { parentId := 1, uploaderId := none, storageKey := "p/1", thumbnailKey := none
        moderationState := .approved, createdAt := 0 } }

/-- A deployment where nobody has a password. -/
def noPasswords : ReportEnv where
  cases := .ascii
  hasher := noHasher

/-- Ana reports the photo, and Bo claims the report. -/
def reportAndClaim : List ReportOp :=
  [.request 1 (.submit (fun _ _ _ => true) "203.0.113.7" .parkingPhoto 1 "spam" none),
    .request 2 (.claim 1)]

/-- Ana may not decide her report; Bo decides it and then leaves. -/
theorem noSelfDecision_throughout_decided :
    Runs.Throughout (Trace.exec noPasswords) NoSelfDecision ⟨twoModerators, [], []⟩
      (reportAndClaim ++ [.request 1 (.resolve 1 .dismissed "fine"),
        .request 2 (.resolve 1 .dismissed "fine"),
        .request 2 (.deleteAccount none "bo@example.com")]) := by
  refine noSelfDecision_throughout noPasswords twoModerators _ ?_
  refine ⟨rfl, rfl, rfl, rfl, ?_, trivial⟩
  decide +kernel

/-- Bo deletes the account before deciding, and Ana decides her own report. -/
theorem not_noSelfDecision_claimantLeft :
    ¬ Runs.Throughout (Trace.exec noPasswords) NoSelfDecision ⟨twoModerators, [], []⟩
      (reportAndClaim ++ [.request 2 (.deleteAccount none "bo@example.com"),
        .request 1 (.resolve 1 .dismissed "fine")]) := by
  intro h
  have hlast := h.2.2.2.2
  exact hlast 1 1 (by decide +kernel) (by decide +kernel)

end BikesNest.Moderation
