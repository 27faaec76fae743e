import BikesNest.Lib.Latch
import BikesNest.Moderation.TakenDown
import BikesNest.Privacy.DeletionOutcome
import BikesNest.Privacy.RetentionJob

/-!
# Reports under races

Any number of submissions, claims and decisions of reports and erasures of accounts run at
the same time, call by call, and any call may be lost.  Every call is a `ReportMove`: it
moves the reports along the edges of `ReportStep`, and keeps the index over the undecided
ones.

That a report is claimed, and that it is decided, are latches: no call takes them back.
A claim succeeds only by shutting the one, and a decision by shutting the other.
-/

namespace BikesNest.Moderation

open Domain Store Relational Auth Privacy Runs Threads

/-! ## The calls -/

/-- A submission, a claim or a decision of a report, or an erasure of accounts. -/
inductive ReportCall where
  | submit (allow : String → Nat → Int → Bool) (user : AuthenticatedUser) (ip : String)
      (targetType : ReportTargetType) (targetId : Nat) (reason : String)
      (description : Option String)
  | claim (moderator : AuthenticatedUser) (id : Nat)
  | resolve (moderator : AuthenticatedUser) (id : Nat) (outcome : ReportOutcome) (note : String)
  | requestDeletion (user : AuthenticatedUser) (password : Option String) (confirmEmail : String)
  /-- The step of the retention job that anonymizes inactive accounts. -/
  | anonymizeInactive (arrange : List UserId → List UserId) (config : RetentionConfig)
      (now : Instant)
  /-- The step that deletes the shells of deleted accounts. -/
  | purgeDeleted (job : RetentionJob) (now : Instant)

def ReportCall.script (env : ReportEnv) :
    ReportCall → Service Db (ModerationError ⊕ PrivacyError) Unit
  | .submit allow user ip targetType targetId reason description => do
    let _ ← (submitReport env.limits allow user ip targetType targetId reason description).mapErr
      .inl
    return ()
  | .claim moderator id => (Moderation.claim moderator id).mapErr .inl
  | .resolve moderator id outcome note =>
    (resolveReport moderator id outcome note).mapErr .inl
  | .requestDeletion user password confirmEmail =>
    (Privacy.requestDeletion env.cases env.hasher user password confirmEmail).mapErr .inr
  | .anonymizeInactive arrange config now => do
    let _ ← (inactiveAccountsStep env.cases arrange config now).mapErr .inr
    return ()
  | .purgeDeleted job now => do
    let _ ← (job.deletedAccountsStep now).mapErr .inr
    return ()

abbrev ReportPool := Pool Db (ModerationError ⊕ PrivacyError) Unit ReportCall

abbrev ReportThread := Thread Db (ModerationError ⊕ PrivacyError) Unit ReportCall

/-- The call claims the report. -/
def ReportCall.Claims (id : Nat) (c : ReportCall) : Prop := ∃ moderator, c = .claim moderator id

/-- The call decides the report. -/
def ReportCall.Decides (id : Nat) (c : ReportCall) : Prop :=
  ∃ moderator outcome note, c = .resolve moderator id outcome note

/-! ## Moves of the reports -/

/-- The edges of the state machine. -/
inductive ReportStep : ReportState → ReportState → Prop where
  | claim : ReportStep .opened .underReview
  | decide (outcome : ReportOutcome) : ReportStep .underReview outcome.state

/-- Two reports of one reporter on one target. -/
structure SameComplaint (r r' : Report) : Prop where
  reporter : r.reporterId = r'.reporterId
  targetType : r.targetType = r'.targetType
  targetId : r.targetId = r'.targetId

/-- `report_dedupe_idx`: a reporter has one undecided report at most on a target. -/
def Deduped (db : Db) : Prop := ∀ i j r r', db.report.row i = some r → db.report.row j = some r' →
  Report.isUndecided r = true → Report.isUndecided r' = true → r.reporterId.isSome = true →
  SameComplaint r r' → i = j

/-- What a call may do to a report: the report moves along an edge when the call claims or
decides it, and an erasure takes the reporter away. -/
structure ReportCall.Edge (c : ReportCall) (id : Nat) (r r' : Report) : Prop where
  reporter : r'.reporterId = r.reporterId ∨ r'.reporterId = none
  targetType : r'.targetType = r.targetType
  targetId : r'.targetId = r.targetId
  state : r'.state = r.state ∨
    c.Claims id ∧ r.state = .opened ∧ r'.state = .underReview ∨
    c.Decides id ∧ r.state = .underReview ∧ ∃ outcome : ReportOutcome, r'.state = outcome.state

/-- What a call does to the reports: none goes, and a new one is open. -/
structure ReportMove (c : ReportCall) (db db' : Db) : Prop where
  row : ∀ {id r}, db.report.row id = some r → ∃ r', db'.report.row id = some r' ∧ c.Edge id r r'
  new : ∀ {id r'}, db.report.row id = none → db'.report.row id = some r' → r'.state = .opened
  deduped : Deduped db → Deduped db'

/-- The report is there and has been claimed. -/
def Claimed (id : Nat) (db : Db) : Prop :=
  ∃ r, db.report.row id = some r ∧ r.state ≠ .opened

/-- The report is there and has been decided. -/
def Decided (id : Nat) (db : Db) : Prop :=
  ∃ r, db.report.row id = some r ∧ Report.isUndecided r = false

section Moves

variable {c : ReportCall} {db db' : Db} {id : Nat}

theorem ReportCall.Edge.refl (r : Report) : c.Edge id r r := ⟨.inl rfl, rfl, rfl, .inl rfl⟩

/-- A report that is undecided after a call was so before. -/
theorem ReportCall.Edge.undecided {r r' : Report} (h : c.Edge id r r')
    (hundecided : Report.isUndecided r' = true) : Report.isUndecided r = true := by
  unfold Report.isUndecided at *
  rcases h.state with hsame | ⟨_, hopen, _⟩ | ⟨_, hreview, _⟩
  · rwa [hsame] at hundecided
  · rw [hopen]
    rfl
  · rw [hreview]
    rfl

/-- A call that adds no report keeps the index. -/
theorem ReportMove.of_rows
    (hrow : ∀ {id r}, db.report.row id = some r →
      ∃ r', db'.report.row id = some r' ∧ c.Edge id r r')
    (hnew : ∀ {id}, db.report.row id = none → db'.report.row id = none) : ReportMove c db db' := by
  refine ⟨hrow, fun hnone hsome => ?_, fun hdeduped i j r r' hr hr' hr₁ hr₁' hsome hsame => ?_⟩
  · rw [hnew hnone] at hsome
    cases hsome
  · have hold : ∀ {i x}, db'.report.row i = some x →
        ∃ y, db.report.row i = some y ∧ c.Edge i y x := by
      intro i x hx
      cases hy : db.report.row i with
      | none =>
        rw [hnew hy] at hx
        cases hx
      | some y =>
        obtain ⟨x', hx', hedge⟩ := hrow hy
        obtain rfl := Option.some.inj (hx'.symm.trans hx)
        exact ⟨y, rfl, hedge⟩
    have hkept : ∀ {i x y}, c.Edge i y x → x.reporterId.isSome = true →
        y.reporterId = x.reporterId := by
      intro i x y hedge hx
      rcases hedge.reporter with hsame | hnone
      · exact hsame.symm
      · rw [hnone] at hx
        cases hx
    obtain ⟨x, hx, hedge⟩ := hold hr
    obtain ⟨x', hx', hedge'⟩ := hold hr'
    have hreporter := hkept hedge hsome
    have hreporter' := hkept hedge' (hsame.reporter ▸ hsome)
    refine hdeduped i j x x' hx hx' (hedge.undecided hr₁) (hedge'.undecided hr₁')
      (hreporter ▸ hsome) ⟨?_, ?_, ?_⟩
    · rw [hreporter, hreporter', hsame.reporter]
    · rw [← hedge.targetType, ← hedge'.targetType, hsame.targetType]
    · rw [← hedge.targetId, ← hedge'.targetId, hsame.targetId]

/-- A call that leaves the reports. -/
theorem ReportMove.of_eq (h : db'.report = db.report) : ReportMove c db db' := by
  refine .of_rows (fun {id r} hr => ⟨r, ?_, .refl r⟩) fun hnone => ?_
  · rwa [h]
  · rwa [h]

/-- An update of reports. -/
theorem ReportMove.of_update {q : Nat → Report → Bool} {f : Report → Report}
    (hset : db'.report = db.report.update q f) (h : ∀ id r, q id r = true → c.Edge id r (f r)) :
    ReportMove c db db' := by
  refine .of_rows (fun {id r} hr => ?_) fun {id} hnone => ?_
  · refine ⟨_, by rw [hset, Table.row_update, hr]; rfl, ?_⟩
    dsimp only
    split
    · exact h id r (by assumption)
    · exact .refl r
  · rw [hset, Table.row_update, hnone]
    rfl

theorem createReport_moves {new : NewReport} (h : createReport db new = .ok (id, db')) :
    ReportMove c db db' := by
  obtain ⟨-, hfree, rfl⟩ := createReport_ok h
  refine ⟨fun {i r} hr => ⟨r, Table.row_insert_of_some _ hr, .refl r⟩, fun {i r'} hnone hsome => ?_,
    fun hdeduped i j r r' hr hr' hopen hopen' hsome hsame => ?_⟩
  · rcases Table.row_insert_eq_some.mp hsome with ⟨_, rfl⟩ | hold
    · rfl
    · rw [hnone] at hold
      cases hold
  · rcases Table.row_insert_eq_some.mp hr with ⟨rfl, rfl⟩ | hold
    · rcases Table.row_insert_eq_some.mp hr' with ⟨rfl, _⟩ | hold'
      · rfl
      · exact absurd ⟨hsame.reporter.symm, hsame.targetType.symm, hsame.targetId.symm⟩
          (hfree j r' hold' hopen')
    · rcases Table.row_insert_eq_some.mp hr' with ⟨rfl, rfl⟩ | hold'
      · exact absurd ⟨hsame.reporter, hsame.targetType, hsame.targetId⟩ (hfree i r hold hopen)
      · exact hdeduped i j r r' hold hold' hopen hopen' hsome hsame

/-- A claim that commits finds the report open. -/
theorem claimReport_ok {moderator : UserId} (h : claimReport db id moderator = .ok ((), db')) :
    (∃ r, db.report.row id = some r ∧ r.state = .opened ∧
      db'.report.row id = some { r with state := .underReview, claimedBy := some moderator }) ∧
    db'.report = db.report.update (fun i r => i == id && r.state == .opened) fun r =>
      { r with state := .underReview, claimedBy := some moderator } := by
  unfold claimReport at h
  split at h
  · cases h
  obtain ⟨reports, hupdate, hset⟩ := bind_eq_ok h
  cases hset
  obtain ⟨⟨r, hr, hopen, hr'⟩, _⟩ := updateOne_ok hupdate
  refine ⟨⟨r, hr, eq_of_beq hopen, hr'⟩, ?_⟩
  rw [updateOne_eq, hr, Option.any_some, hopen, if_pos rfl] at hupdate
  exact (Except.ok.inj hupdate).symm

/-- A decision that commits finds the report under review. -/
theorem resolve_moved {moderator : UserId} {note : String} {outcome : ReportOutcome}
    (h : resolve db id moderator note outcome = .ok ((), db')) :
    (∃ r, db.report.row id = some r ∧ r.state = .underReview ∧
      db'.report.row id = some { r with
        state := outcome.state, resolvedBy := some moderator, resolutionNote := some note }) ∧
    db'.report = db.report.update (fun i r => i == id && r.state == .underReview) fun r =>
      { r with state := outcome.state, resolvedBy := some moderator, resolutionNote := some note } := by
  unfold resolve at h
  obtain ⟨reports, hupdate, hset⟩ := bind_eq_ok h
  split at hset
  · cases hset
  cases hset
  obtain ⟨⟨r, hr, hreview, hr'⟩, _⟩ := updateOne_ok hupdate
  refine ⟨⟨r, hr, eq_of_beq hreview, hr'⟩, ?_⟩
  rw [updateOne_eq, hr, Option.any_some, hreview, if_pos rfl] at hupdate
  exact (Except.ok.inj hupdate).symm

/-- An anonymization takes the reporter out of every report that names the account. -/
theorem scrubbed_moves (u : UserId) (now : Instant) : ReportMove c db (scrubbed db u now) :=
  .of_update rfl fun _ _ _ => ⟨.inr rfl, rfl, rfl, .inl rfl⟩

/-- A deletion of accounts releases the reports that name them. -/
theorem deleteUsers_moves (p : UserId → User → Bool) : ReportMove c db (deleteUsers db p) := by
  refine .of_update rfl fun _ r _ => ⟨?_, rfl, rfl, .inl rfl⟩
  show release _ r.reporterId = r.reporterId ∨ _
  cases r.reporterId with
  | none => exact .inr rfl
  | some v =>
    rw [release, Option.filter_some]
    split
    · exact .inl rfl
    · exact .inr rfl

theorem audit_moves {ε : Type} (internal : ε) (event : NewAuditEvent) :
    (audit internal event).Respects (ReportMove c) := by
  refine audit_respects (fun db => .of_eq rfl) (fun db db' h => ?_) internal
  obtain ⟨_, _, rfl⟩ := recordAudit_eq_some h
  exact .of_eq rfl

/-! ## The services -/

theorem submitReport_moves {limits : ModerationLimits} {allow : String → Nat → Int → Bool}
    {user : AuthenticatedUser} {ip : String} {targetType : ReportTargetType} {targetId : Nat}
    {reason : String} {description : Option String} :
    (submitReport limits allow user ip targetType targetId reason description).Respects
      (ReportMove c) := by
  unfold submitReport
  refine .bind (.require _ _) fun _ => .bind (.require _ _) fun _ => .bind (.require _ _) fun _ =>
    .bind (.require _ _) fun _ => ?_
  split
  · exact .throw _
  · exact .bind (.query _ _ fun db => .of_eq rfl) fun _ => .bind (.require _ _) fun _ =>
      .bind (.mapErr (.request (fun db => .of_eq rfl) fun _ _ _ h => createReport_moves h)) fun _ =>
        .bind (audit_moves _ _) fun _ => .pure _

theorem claim_moves (moderator : AuthenticatedUser) :
    (claim moderator id).Respects (ReportMove (.claim moderator id)) := by
  refine .bind (.require _ _) fun _ =>
    .bind (.request (fun db => .of_eq rfl) fun db _ db' h => ?_) fun _ => audit_moves _ _
  refine .of_update (claimReport_ok h).2 fun i r hq => ?_
  rw [Bool.and_eq_true, beq_iff_eq, beq_iff_eq] at hq
  obtain ⟨rfl, hopen⟩ := hq
  exact ⟨.inl rfl, rfl, rfl, .inr (.inl ⟨⟨moderator, rfl⟩, hopen, rfl⟩)⟩

theorem resolveReport_moves (moderator : AuthenticatedUser) (outcome : ReportOutcome)
    (note : String) : (resolveReport moderator id outcome note).Respects
      (ReportMove (.resolve moderator id outcome note)) := by
  have hsame : ∀ db : Db, ReportMove (.resolve moderator id outcome note) db db :=
    fun db => .of_eq rfl
  refine .bind (.require _ _) fun _ => .bind (.query _ _ hsame) fun found => ?_
  cases found with
  | none => exact .throw _
  | some report =>
    refine .bind (.require _ _) fun _ => .bind (.request hsame fun db _ db' h => ?_) fun _ => ?_
    · refine .of_update (resolve_moved h).2 fun i r hq => ?_
      rw [Bool.and_eq_true, beq_iff_eq, beq_iff_eq] at hq
      obtain ⟨rfl, hreview⟩ := hq
      exact ⟨.inl rfl, rfl, rfl,
        .inr (.inr ⟨⟨moderator, outcome, note, rfl⟩, hreview, outcome, rfl⟩)⟩
    · dsimp only
      split
      · exact .bind (hideResolvedTarget_respects hsame (fun _ _ => .of_eq rfl)
          (fun _ _ => .of_eq rfl) (fun _ _ => .of_eq rfl) (fun _ _ => .of_eq rfl) _ _)
          fun _ => audit_moves _ _
      · exact audit_moves _ _

theorem requestDeletion_moves {cases : Text.CaseMap} {hasher : PasswordHasher}
    {user : AuthenticatedUser} {password : Option String} {confirmEmail : String} :
    (requestDeletion cases hasher user password confirmEmail).Respects (ReportMove c) := by
  refine requestDeletion_respects (fun db => .of_eq rfl) (fun h => ?_) (fun _ db db' h => ?_)
    (fun db now => scrubbed_moves user.id now) (fun h => ?_) fun db => .of_eq rfl
  · unfold createRequest at h
    split at h
    · cases h
    · cases h
      exact .of_eq rfl
  · obtain ⟨_, _, rfl⟩ := recordAudit_eq_some h
    exact .of_eq rfl
  · obtain ⟨rfl, _⟩ := fulfill_ok h
    exact .of_eq rfl

/-- Every call is a move of the reports. -/
theorem reportScript_moves (env : ReportEnv) (c : ReportCall) :
    (c.script env).Respects (ReportMove c) := by
  have hsame : ∀ db : Db, ReportMove c db db := fun db => .of_eq rfl
  cases c with
  | submit allow user ip targetType targetId reason description =>
    exact .bind submitReport_moves.mapErr fun _ => .pure _
  | claim moderator id => exact (claim_moves moderator).mapErr
  | resolve moderator id outcome note => exact (resolveReport_moves moderator outcome note).mapErr
  | requestDeletion user password confirmEmail => exact requestDeletion_moves.mapErr
  | anonymizeInactive arrange config now =>
    exact .bind (inactiveAccountsStep_respects hsame fun _ => scrubbed_moves).mapErr fun _ => .pure _
  | purgeDeleted job now =>
    exact .bind (deletedAccountsStep_respects hsame fun _ => deleteUsers_moves).mapErr fun _ =>
      .pure _

theorem reportScript_strict (env : ReportEnv) (c : ReportCall) : (c.script env).Strict := by
  cases c with
  | submit allow user ip targetType targetId reason description =>
    refine .bind (.mapErr ?_) fun _ => .pure _
    unfold submitReport
    refine .bind (.require _ _) fun _ => .bind (.require _ _) fun _ =>
      .bind (.require _ _) fun _ => .bind (.require _ _) fun _ => ?_
    split
    · exact .throw _
    · exact .bind (.query _ _) fun _ => .bind (.require _ _) fun _ =>
        .bind (.mapErr (.request _ _)) fun _ => .bind (.request _ _) fun _ => .pure _
  | claim moderator id =>
    exact .mapErr (.bind (.require _ _) fun _ => .bind (.request _ _) fun _ => .request _ _)
  | resolve moderator id outcome note => exact (resolveReport_strict outcome note).mapErr
  | requestDeletion user password confirmEmail => exact (requestDeletion_strict ..).mapErr
  | anonymizeInactive arrange config now =>
    exact .bind inactiveAccountsStep_strict.mapErr fun _ => .pure _
  | purgeDeleted job now => exact .bind deletedAccountsStep_strict.mapErr fun _ => .pure _

/-! ## The latches -/

theorem claimed_stays (h : ReportMove c db db') : Claimed id db → Claimed id db' := by
  rintro ⟨r, hr, hstate⟩
  obtain ⟨r', hr', hedge⟩ := h.row hr
  refine ⟨r', hr', ?_⟩
  rcases hedge.state with hsame | ⟨_, hopen, _⟩ | ⟨_, _, outcome, hdecided⟩
  · rwa [hsame]
  · exact absurd hopen hstate
  · rw [hdecided]
    cases outcome <;> exact nofun

theorem decided_stays (h : ReportMove c db db') : Decided id db → Decided id db' := by
  rintro ⟨r, hr, hdecided⟩
  obtain ⟨r', hr', hedge⟩ := h.row hr
  refine ⟨r', hr', ?_⟩
  cases hundecided : Report.isUndecided r' with
  | false => rfl
  | true =>
    rw [hedge.undecided hundecided] at hdecided
    cases hdecided

/-- Only a claim of the report claims it. -/
theorem ReportMove.claims (h : ReportMove c db db') (hopen : ¬ Claimed id db)
    (hclaimed : Claimed id db') : c.Claims id := by
  obtain ⟨r', hr', hstate'⟩ := hclaimed
  cases hr : db.report.row id with
  | none => exact absurd (h.new hr hr') hstate'
  | some r =>
    obtain ⟨x, hx, hedge⟩ := h.row hr
    obtain rfl := Option.some.inj (hr'.symm.trans hx)
    rcases hedge.state with hsame | ⟨hclaims, _⟩ | ⟨_, hreview, _⟩
    · exact absurd ⟨r, hr, by rwa [← hsame]⟩ hopen
    · exact hclaims
    · exact absurd ⟨r, hr, by rw [hreview]; exact nofun⟩ hopen

/-- Only a decision of the report decides it, and one that finds it under review. -/
theorem ReportMove.decides (h : ReportMove c db db') (hopen : ¬ Decided id db)
    (hdecided : Decided id db') :
    c.Decides id ∧ ∃ r, db.report.row id = some r ∧ r.state = .underReview := by
  obtain ⟨r', hr', hstate'⟩ := hdecided
  cases hr : db.report.row id with
  | none =>
    rw [Report.isUndecided, h.new hr hr'] at hstate'
    cases hstate'
  | some r =>
    obtain ⟨x, hx, hedge⟩ := h.row hr
    obtain rfl := Option.some.inj (hr'.symm.trans hx)
    rcases hedge.state with hsame | ⟨_, _, hreview⟩ | ⟨hdecides, hreview, _⟩
    · exact absurd ⟨r, hr, by rwa [Report.isUndecided, ← hsame]⟩ hopen
    · rw [Report.isUndecided, hreview] at hstate'
      cases hstate'
    · exact ⟨hdecides, r, rfl, hreview⟩

/-- A claim that succeeds has claimed the report. -/
theorem claim_performs {env : ReportEnv} (h : c.Claims id) :
    (c.script env).Performs (Shutting (Claimed id)) := by
  obtain ⟨moderator, rfl⟩ := h
  refine .mapErr (.after _ fun _ => .bind _ (.request fun db _ db' h => ?_))
  obtain ⟨⟨r, hr, hopen, hr'⟩, _⟩ := claimReport_ok h
  refine ⟨fun ⟨x, hx, hstate⟩ => ?_, _, hr', nofun⟩
  obtain rfl := Option.some.inj (hr.symm.trans hx)
  exact hstate hopen

/-- A decision that succeeds has decided the report. -/
theorem resolve_performs {env : ReportEnv} (h : c.Decides id) :
    (c.script env).Performs (Shutting (Decided id)) := by
  obtain ⟨moderator, outcome, note, rfl⟩ := h
  refine .mapErr (.after _ fun _ => .after _ fun found => ?_)
  cases found with
  | none => exact .throw _
  | some report =>
    refine .after _ fun _ => .bind _ (.request fun db _ db' h => ?_)
    obtain ⟨⟨r, hr, hreview, hr'⟩, _⟩ := resolve_moved h
    refine ⟨fun ⟨x, hx, hdecided⟩ => ?_, _, hr', by cases outcome <;> rfl⟩
    obtain rfl := Option.some.inj (hr.symm.trans hx)
    rw [Report.isUndecided, hreview] at hdecided
    cases hdecided

end Moves

/-! ## A submission after a decision -/

section Submission

variable (limits : ModerationLimits) (db : Db) (allow : String → Nat → Int → Bool)
  (user : AuthenticatedUser) (ip : String) (targetType : ReportTargetType) (targetId : Nat)
  (reason : String) (description : Option String)

/-- The submission passes its checks, and the account is there. -/
def isSubmittable : Bool :=
  allow ("report:create:user:" ++ toString user.id) limits.reportCreateUserLimit day &&
    allow ("report:create:ip:" ++ ip) limits.reportCreateIpLimit day &&
    isKnownReportReason reason && reasonAllowedFor targetType reason &&
    (describe limits description).isOk && targetExists db targetType targetId &&
    (db.users.row user.id).isSome

/-- The reporter has an undecided report on the target. -/
def StandsOpen (u : UserId) : Prop :=
  ∃ i r, db.report.row i = some r ∧ Report.isUndecided r = true ∧ r.reporterId = some u ∧
    r.targetType = targetType ∧ r.targetId = targetId

end Submission

variable {env : ReportEnv} {db : Db} {allow : String → Nat → Int → Bool} {user : AuthenticatedUser}
  {ip : String} {targetType : ReportTargetType} {targetId : Nat} {reason : String}
  {description : Option String}

/-- A report that is not standing open is created. -/
theorem createReport_of_free {new : NewReport}
    (hfree : ¬ StandsOpen db new.targetType new.targetId new.reporterId)
    (huser : (db.users.row new.reporterId).isSome = true) :
    ∃ db', createReport db new = .ok (db.report.next, db') ∧ db'.users = db.users := by
  unfold createReport
  split
  · rename_i hany
    obtain ⟨i, r, hr, hmatch⟩ := Table.any_iff.mp hany
    simp only [Bool.and_eq_true, beq_iff_eq] at hmatch
    exact absurd ⟨i, r, hr, hmatch.1.1.1, hmatch.1.1.2, hmatch.1.2, hmatch.2⟩ hfree
  split
  · rename_i hnone
    rw [Option.isNone_iff_eq_none.mp hnone] at huser
    cases huser
  · exact ⟨_, rfl, rfl⟩

/-- A submission that passes its checks is the insert and the audit event. -/
theorem submitReport_checked (hsubmittable :
      isSubmittable env.limits db allow user ip targetType targetId reason description = true) :
    ∃ described, (submitReport env.limits allow user ip targetType targetId reason
      description).run db = ((repo fun db => createReport db
        { reporterId := user.id, targetType, targetId, reason, description := described }).mapErr
          (fun e => if e = .conflict then .alreadyReported else e) >>= fun id =>
        audit .internal (submissionEvent user.id id targetType targetId reason) >>= fun _ =>
          pure id).run db := by
  simp only [isSubmittable, Bool.and_eq_true] at hsubmittable
  obtain ⟨⟨⟨⟨⟨⟨huser, hip⟩, hknown⟩, hallowed⟩, hdescribe⟩, hfound⟩, _⟩ := hsubmittable
  cases hdescribed : describe env.limits description with
  | error e =>
    rw [hdescribed] at hdescribe
    cases hdescribe
  | ok described =>
    refine ⟨described, ?_⟩
    unfold submitReport
    rw [Service.run_of_require huser, Service.run_of_require hip, Service.run_of_require hknown,
      Service.run_of_require hallowed, hdescribed]
    dsimp only
    rw [Service.run_of_query, Service.run_of_require hfound]

/-- A submission that passes its checks is accepted unless the reporter has an undecided
report on the target. -/
theorem submit_accepted_iff (hsubmittable :
      isSubmittable env.limits db allow user ip targetType targetId reason description = true) :
    (∃ db', ((ReportCall.submit allow user ip targetType targetId reason description).script
      env).run db = (.ok (), db')) ↔ ¬ StandsOpen db targetType targetId user.id := by
  obtain ⟨described, hchecked⟩ := submitReport_checked hsubmittable
  have haccount : (db.users.row user.id).isSome = true := by
    simp only [isSubmittable, Bool.and_eq_true] at hsubmittable
    exact hsubmittable.2
  constructor
  · rintro ⟨db', hrun⟩ ⟨i, r, hr, hundecided, hsame⟩
    obtain ⟨id, mid, hmapped, _⟩ := Service.run_bind_ok hrun
    rw [Service.run_mapErr, hchecked, Service.run_bind, Service.run_mapErr, repo,
      Service.run_request] at hmapped
    cases hcreate : createReport db
        { reporterId := user.id, targetType, targetId, reason, description := described } with
    | ok x => exact (createReport_ok hcreate).2.1 i r hr hundecided hsame
    | error e =>
      rw [hcreate] at hmapped
      cases hmapped
  · intro hfree
    have hcreated : ∃ mid, createReport db
        { reporterId := user.id, targetType, targetId, reason, description := described } =
          .ok (db.report.next, mid) ∧ mid.users = db.users := createReport_of_free hfree haccount
    obtain ⟨mid, hcreate, husers⟩ := hcreated
    have haudit : (audit .internal (submissionEvent user.id db.report.next targetType targetId
        reason) : Service Db ModerationError Unit).run mid =
          (.ok (), audited mid (submissionEvent user.id db.report.next targetType targetId
            reason)) :=
      audit_run _ rfl (by rw [husers]; exact haccount)
    refine ⟨audited mid (submissionEvent user.id db.report.next targetType targetId reason), ?_⟩
    show (_ >>= _ : Service Db _ Unit).run db = _
    rw [Service.run_bind, Service.run_mapErr, hchecked, Service.run_bind, Service.run_mapErr, repo,
      Service.run_request, hcreate]
    dsimp only
    rw [Service.run_bind, haudit]
    rfl

/-! ## Any number of calls -/

section Run

variable {db₀ : Db} {es : List (Event ReportCall)} {p p' : ReportPool} {e : Event ReportCall}

theorem claimed_run (id : Nat) (hrun : PoolRun (ReportCall.script env) (Pool.init db₀) es p) :
    Latched (ReportCall.script env) (Claimed id) db₀ p :=
  latched_run (reportScript_strict env)
    (fun c => (reportScript_moves env c).mono fun _ _ => claimed_stays) hrun

theorem decided_run (id : Nat) (hrun : PoolRun (ReportCall.script env) (Pool.init db₀) es p) :
    Latched (ReportCall.script env) (Decided id) db₀ p :=
  latched_run (reportScript_strict env)
    (fun c => (reportScript_moves env c).mono fun _ _ => decided_stays) hrun

/-- A step of the pool leaves the database or is a move of the reports. -/
theorem reports_next (hrun : PoolRun (ReportCall.script env) (Pool.init db₀) es p)
    (h : p.next (ReportCall.script env) e = some p') :
    p'.store = p.store ∨ ∃ c, ReportMove c p.store p'.store :=
  (claimed_run 0 hrun).traced.moved (fun _ _ => .of_eq rfl) (reportScript_moves env) h

theorem deduped_run (hdeduped : Deduped db₀)
    (hrun : PoolRun (ReportCall.script env) (Pool.init db₀) es p) : Deduped p.store :=
  respects_run (R := Service.Stable Deduped)
    (fun c => (reportScript_moves env c).mono fun _ _ hmove => hmove.deduped) hrun hdeduped

/-- Whatever the interleaving of submissions, claims and decisions of reports and erasures of
accounts: a reporter has one undecided report at most on a target, and may submit another
one as soon as it has none; a report's state only moves along its state machine; at most one
claim and at most one decision of a report succeed; and a report is decided only after a
claim of it. -/
theorem reports_under_races (hdeduped : Deduped db₀)
    (hrun : PoolRun (ReportCall.script env) (Pool.init db₀) es p) :
    Deduped p.store ∧
    (∀ allow user ip targetType targetId reason description,
      isSubmittable env.limits p.store allow user ip targetType targetId reason description = true →
      ((∃ db', ((ReportCall.submit allow user ip targetType targetId reason description).script
        env).run p.store = (.ok (), db')) ↔ ¬ StandsOpen p.store targetType targetId user.id)) ∧
    ∀ id,
      (∀ e p', p.next (ReportCall.script env) e = some p' →
        (∀ r, p.store.report.row id = some r → ∃ r', p'.store.report.row id = some r' ∧
          (r'.state = r.state ∨ ReportStep r.state r'.state)) ∧
        (∀ r', p.store.report.row id = none → p'.store.report.row id = some r' →
          r'.state = .opened) ∧
        (¬ Decided id p.store → Decided id p'.store → Claimed id p.store)) ∧
      (∀ (i j : Nat) (t t' : ReportThread), p.threads[i]? = some t →
        p.threads[j]? = some t' → t.op.Claims id → t'.op.Claims id →
        t.rest = .done (.ok ()) → t'.rest = .done (.ok ()) → i = j) ∧
      (∀ (i j : Nat) (t t' : ReportThread), p.threads[i]? = some t →
        p.threads[j]? = some t' → t.op.Decides id → t'.op.Decides id →
        t.rest = .done (.ok ()) → t'.rest = .done (.ok ()) → i = j) ∧
      (∀ t ∈ p.threads, t.op.Decides id → t.rest = .done (.ok ()) → Decided id p.store) ∧
      (¬ Claimed id db₀ → Claimed id p.store →
        ∃ t ∈ p.threads, t.op.Claims id ∧ t.Shuts (ReportCall.script env) (Claimed id)) := by
  refine ⟨deduped_run hdeduped hrun, fun _ _ _ _ _ _ _ h => submit_accepted_iff h, fun id => ?_⟩
  have hclaimed := claimed_run id hrun
  have hdecided := decided_run id hrun
  refine ⟨fun e p' h => ?_, fun i j t t' ht ht' hop hop' hrest hrest' => ?_,
    fun i j t t' ht ht' hop hop' hrest hrest' => ?_, fun t ht hop hrest => ?_,
    fun hstart hend => ?_⟩
  · rcases reports_next hrun h with hsame | ⟨c, hmove⟩
    · rw [hsame]
      refine ⟨fun r hr => ⟨r, hr, .inl rfl⟩, fun r' hnone hsome => ?_,
        fun hopen hgone => absurd hgone hopen⟩
      rw [hnone] at hsome
      cases hsome
    · refine ⟨fun r hr => ?_, fun r' => hmove.new, fun hopen hgone => ?_⟩
      · obtain ⟨r', hr', hedge⟩ := hmove.row hr
        refine ⟨r', hr', ?_⟩
        rcases hedge.state with hsame | ⟨_, hopen, hreview⟩ | ⟨_, hreview, outcome, hout⟩
        · exact .inl hsame
        · rw [hopen, hreview]
          exact .inr .claim
        · rw [hreview, hout]
          exact .inr (.decide outcome)
      · obtain ⟨_, r, hr, hreview⟩ := hmove.decides hopen hgone
        exact ⟨r, hr, by rw [hreview]; exact nofun⟩
  · exact hclaimed.succeeds_once ht ht' (claim_performs hop) (claim_performs hop') hrest hrest'
  · exact hdecided.succeeds_once ht ht' (resolve_performs hop) (resolve_performs hop') hrest hrest'
  · by_contra hopen
    exact hdecided.unshut hopen t ht (hdecided.shuts ht (resolve_performs hop) hrest)
  · rcases hclaimed.shut hend with hbefore | ⟨t, ht, hshuts⟩
    · exact absurd hbefore hstart
    · refine ⟨t, ht, ?_, hshuts⟩
      by_contra hother
      refine hshuts.not_respects ((reportScript_moves env t.op).mono fun db db' hmove hnow => ?_)
      by_contra hopen
      exact hother (hmove.claims hopen hnow)

end Run

/-! ## A report that two moderators claim -/

/-- The rider reports the rack. -/
def reportRack : ReportCall :=
  .submit (fun _ _ _ => true) rider "203.0.113.7" .parking 1 "spam" none

/-- Two submissions at the same time, two claims, a decision, and another submission; then
the rider leaves. -/
def reportRace : List (Event ReportCall) :=
  [.start reportRack, .start reportRack, .answer 0, .answer 1, .answer 1, .answer 0, .answer 1,
    .start (.claim rackModerator 1), .start (.claim rackModerator 1), .answer 2, .answer 3,
    .answer 2, .start (.resolve rackModerator 1 .dismissed "fine"), .answer 4, .answer 4,
    .answer 4, .start reportRack, .answer 5, .answer 5, .answer 5,
    .start (.requestDeletion rider none "rider@example.com"), .answer 6, .answer 6, .answer 6,
    .answer 6, .answer 6, .answer 6, .answer 6, .answer 6]

theorem reports_under_races_rack :
    ∃ p, PoolRun (ReportCall.script noPasswords) (Pool.init freshRack) reportRace p ∧
      Deduped p.store ∧ (∃ t ∈ p.threads, t.op.Claims 1) ∧
      ∃ r, p.store.report.row 2 = some r ∧ r.state = .opened ∧ r.reporterId = none := by
  have hend : (reportRace.foldlM (Pool.next (ReportCall.script noPasswords))
      (Pool.init freshRack)).any (fun p => (p.store.report.row 1).any (·.state == .dismissed) &&
        (p.store.report.row 2).any fun r => r.state == .opened && r.reporterId == none) = true := by
    decide +kernel
  obtain ⟨p, hp, hreports⟩ := (Option.any_eq_true ..).mp hend
  rw [Bool.and_eq_true] at hreports
  obtain ⟨r, hr, hdismissed⟩ := (Option.any_eq_true ..).mp hreports.1
  obtain ⟨r', hr', hopen⟩ := (Option.any_eq_true ..).mp hreports.2
  rw [Bool.and_eq_true, beq_iff_eq, beq_iff_eq] at hopen
  have hdeduped : Deduped freshRack := fun i j r r' hr => by cases hr
  obtain ⟨hkept, _, hreport⟩ := reports_under_races hdeduped (Run.of_foldlM hp)
  obtain ⟨_, _, _, _, hclaims⟩ := hreport 1
  obtain ⟨t, ht, hclaim, _⟩ := hclaims (fun ⟨x, hx, _⟩ => by cases hx)
    ⟨r, hr, by rw [eq_of_beq hdismissed]; exact nofun⟩
  exact ⟨p, Run.of_foldlM hp, hkept, ⟨t, ht, hclaim⟩, r', hr', hopen.1, hopen.2⟩

end BikesNest.Moderation
