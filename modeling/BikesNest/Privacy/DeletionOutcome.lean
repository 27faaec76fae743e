import BikesNest.Auth.ActiveAdmin
import BikesNest.Auth.Sessions
import BikesNest.Lib.Outline

/-!
# A deletion among other administrators

`request_deletion` writes the rights request, its audit event, the erasure, the
completion, another audit event and the revocation of the sessions in a call each.
Between two calls other administrators revoke roles and delete their accounts,
and any call can be lost.

* `Elsewhere u` is what the others do to the account `u` and to the rights requests.
* `Asked`, `Recorded`, `Emptied` and `Closed` are the places of the outline.
* `deletion_outcome` is the result: what holds when the deletion has answered `Ok`,
  and what it may have left when it has answered an error.
-/

namespace BikesNest.Privacy

open Domain Store Relational Auth Threads
open Service (Outline Place Assertion)

/-! ## The threads -/

inductive LeaveError where
  | privacy (e : PrivacyError)
  | auth (e : AuthError)
deriving DecidableEq

/-- A request that takes an account or a role away. -/
inductive LeaveOp where
  | requestDeletion (user : AuthenticatedUser) (password : Option String) (confirmEmail : String)
  | revokeRole (actor : AuthenticatedUser) (target : UserId) (role : Role)

/-- The account that makes the request. -/
def LeaveOp.actor : LeaveOp → UserId
  | .requestDeletion user _ _ => user.id
  | .revokeRole actor _ _ => actor.id

/-- The service of a request. -/
def LeaveOp.script (cases : Text.CaseMap) (hasher : PasswordHasher) :
    LeaveOp → Service Db LeaveError Unit
  | .requestDeletion user password confirmEmail =>
    (Privacy.requestDeletion cases hasher user password confirmEmail).mapErr .privacy
  | .revokeRole actor target role => (revokeRoleAs actor target role).mapErr .auth

abbrev LeavePool := Pool Db LeaveError Unit LeaveOp

/-! ## What a deletion leaves -/

/-- The shell is scrubbed, and nothing names the account but the audit log and the
photos that it has reviewed. -/
structure Anonymized (db : Db) (u : UserId) : Prop where
  shell : ∃ r now, db.users.row u = some (User.scrubbed r u now)
  names : ∀ c : Column, c.Names db u → c = .auditActor ∨ c.isReviewer = true

/-- A rights request to delete the account `u` that nobody has closed. -/
def LeftOpen (db : Db) (u : UserId) (i : Nat) : Prop :=
  ∃ r, db.privacyRequest.row i = some r ∧ r.userId = some u ∧ r.kind = .deletion ∧
    isOpen r = true

/-- The rights request `i` is a deletion in one of the states. -/
def InState (db : Db) (i : Nat) (states : List PrivacyRequestState) : Prop :=
  ∃ r, db.privacyRequest.row i = some r ∧ r.kind = .deletion ∧ r.state ∈ states

/-- One of the calls has written the rights request `i`. -/
def Files (calls : List (Db × Db)) (i : Nat) : Prop :=
  ∃ c ∈ calls, c.1.privacyRequest.row i = none ∧ (c.2.privacyRequest.row i).isSome = true

/-- Of the whole database, only the rights requests and the audit log differ. -/
def OnlyRecords (db db' : Db) : Prop :=
  db' = { db with privacyRequest := db'.privacyRequest, auditEvents := db'.auditEvents }

/-- After an `Ok`: the account is anonymized, the rights request that the deletion
has written is completed, and no session of the account is accepted. -/
structure Finished (u : UserId) (calls : List (Db × Db)) (db : Db) : Prop where
  account : Anonymized db u
  request : ∃ i, Files calls i ∧ InState db i [.completed]
  sessions : ∀ deps raw now s, ((resolve deps raw now).run db).1 = .ok (some s) → s.userId ≠ u

/-- After an error.  Either no call of the deletion has touched the account, or the
account is anonymized.  One rights request at most has been written, and without it
nothing has; no other request to delete the account is left open than before. -/
structure Stopped (u : UserId) (db₀ : Db) (calls : List (Db × Db)) (db : Db) : Prop where
  account : (∀ c ∈ calls, OnlyRecords c.1 c.2) ∨ Anonymized db u
  silent : (∀ i, ¬ Files calls i) → ∀ c ∈ calls, c.2 = c.1
  single : ∀ i j, Files calls i → Files calls j → i = j
  request : ∀ i, Files calls i → InState db i [.opened, .completed]
  left : ∀ i, LeftOpen db u i → LeftOpen db₀ u i ∨ Files calls i

/-! ## What the others do -/

/-- The account `u` keeps its shell and gets no row that names it, and no rights request
goes away or is opened again. -/
structure Elsewhere (u : UserId) (db db' : Db) : Prop where
  shell : db'.users.row u = db.users.row u
  cells : ∀ (c : Column) k, c.cell db' k = some (some u) → c.cell db k = some (some u)
  requests : ∀ i r, db.privacyRequest.row i = some r →
    ∃ r', db'.privacyRequest.row i = some r' ∧ r'.kind = r.kind ∧
      (r'.state = r.state ∨ r'.state = .completed)

section Elsewhere

variable {u v : UserId} {db db' : Db}

/-- The rights requests are as they were. -/
theorem Elsewhere.of_requests_eq (hshell : db'.users.row u = db.users.row u)
    (hcells : ∀ (c : Column) k, c.cell db' k = some (some u) → c.cell db k = some (some u))
    (hrequests : db'.privacyRequest = db.privacyRequest) : Elsewhere u db db' := by
  refine ⟨hshell, hcells, fun i r hr => ⟨r, ?_, rfl, .inl rfl⟩⟩
  rw [hrequests]
  exact hr

instance (u : UserId) : IsPreorder Db (Elsewhere u) where
  refl _ := .of_requests_eq rfl (fun _ _ h => h) rfl
  trans db₁ db₂ db₃ h h' := by
    refine ⟨h'.shell.trans h.shell, fun c k hk => h.cells c k (h'.cells c k hk), fun i r hr => ?_⟩
    obtain ⟨r', hr', hkind, hstate⟩ := h.requests i r hr
    obtain ⟨r'', hr'', hkind', hstate'⟩ := h'.requests i r' hr'
    refine ⟨r'', hr'', hkind'.trans hkind, ?_⟩
    rcases hstate' with hsame | hdone
    · rw [hsame]
      exact hstate
    · exact .inr hdone

theorem Elsewhere.names (h : Elsewhere u db db') {c : Column} (hc : c.Names db' u) :
    c.Names db u := by
  obtain ⟨k, hk⟩ := hc
  exact ⟨k, h.cells c k hk⟩

theorem Elsewhere.inState (h : Elsewhere u db db') {i : Nat} {states : List PrivacyRequestState}
    (hs : InState db i states) (hdone : .completed ∈ states) : InState db' i states := by
  obtain ⟨r, hr, hkind, hstate⟩ := hs
  obtain ⟨r', hr', hkind', hstate'⟩ := h.requests i r hr
  refine ⟨r', hr', hkind'.trans hkind, ?_⟩
  rcases hstate' with hsame | hcompleted
  · rw [hsame]
    exact hstate
  · rw [hcompleted]
    exact hdone

/-- A request that is open was open before. -/
theorem Elsewhere.leftOpen (h : Elsewhere u db db') {i : Nat} (ho : LeftOpen db' u i) :
    LeftOpen db u i := by
  obtain ⟨r', hr', huser, hkind, hopen⟩ := ho
  have hcell : Column.requestSubject.cell db (i, 0) = some (some u) := by
    apply h.cells
    simp [Column.cell, hr', huser]
  obtain ⟨r, hr, hsubject⟩ := Option.map_eq_some_iff.mp hcell
  obtain ⟨x, hx, hkind', hstate⟩ := h.requests i r hr
  obtain rfl : x = r' := by simpa [hr'] using hx.symm
  refine ⟨r, hr, hsubject, hkind' ▸ hkind, ?_⟩
  rcases hstate with hsame | hdone
  · rwa [isOpen, ← hsame]
  · rw [isOpen, hdone] at hopen
    cases hopen

theorem Elsewhere.anonymized (h : Elsewhere u db db') (ha : Anonymized db u) :
    Anonymized db' u := by
  refine ⟨?_, fun c hc => ha.names c (h.names hc)⟩
  rw [h.shell]
  exact ha.shell

/-! Each call of another account is a move elsewhere. -/

theorem createRequest_elsewhere (hne : v ≠ u) {kind : PrivacyRequestKind} {details : Json}
    {id : Nat} (h : createRequest db v kind details = .ok (id, db')) : Elsewhere u db db' := by
  unfold createRequest at h
  split at h
  · cases h
  cases h
  refine ⟨rfl, fun c k hk => ?_, fun i r hr => ⟨r, ?_, rfl, .inl rfl⟩⟩
  · cases c with
    | requestSubject | requestFulfiller =>
      obtain ⟨r, hr, hname⟩ := Option.map_eq_some_iff.mp hk
      rcases Table.row_insert_eq_some.mp hr with ⟨_, rfl⟩ | hold
      · simp_all
      · exact Option.map_eq_some_iff.mpr ⟨r, hold, hname⟩
    | _ => exact hk
  · exact Table.row_insert_of_some _ hr

theorem audit_elsewhere {event : NewAuditEvent} (hactor : event.actor = some v) (hne : v ≠ u)
    (h : db.recordAudit event = some db') : Elsewhere u db db' := by
  obtain ⟨event, hevent, rfl⟩ := recordAudit_eq_some h
  refine .of_requests_eq rfl (fun c k hk => ?_) rfl
  cases c with
  | auditActor =>
    obtain ⟨r, hr, hname⟩ := Option.map_eq_some_iff.mp hk
    rcases Table.row_insert_eq_some.mp hr with ⟨_, rfl⟩ | hold
    · rw [hevent, hactor, Option.some.injEq] at hname
      exact absurd hname hne
    · exact Option.map_eq_some_iff.mpr ⟨r, hold, hname⟩
  | _ => exact hk

theorem scrubbed_elsewhere (hne : v ≠ u) (now : Instant) : Elsewhere u db (scrubbed db v now) := by
  refine ⟨?_, fun c k hk => ?_, fun i r hr => ?_⟩
  · simp only [scrubbed, Table.row_update, beq_iff_eq, if_neg hne.symm, Option.map_id']
  · rw [cell_scrubbed, Column.left] at hk
    split at hk
    · cases hk
    obtain ⟨value, hvalue, hleft⟩ := Option.map_eq_some_iff.mp hk
    split at hleft
    · rw [hvalue, hleft]
    · split at hleft
      · cases hleft
      · rw [hvalue, (forget_eq_some hne.symm).mp hleft]
  · refine ⟨_, Table.row_update_of_some _ _ hr, ?_⟩
    split
    · exact ⟨rfl, .inl rfl⟩
    · exact ⟨rfl, .inl rfl⟩

theorem fulfill_elsewhere {id : Nat} (h : fulfill db id none = .ok ((), db')) :
    Elsewhere u db db' := by
  rw [(fulfill_ok h).1]
  refine ⟨rfl, fun c k hk => cell_fulfilled hk, fun i r hr => ?_⟩
  refine ⟨_, Table.row_update_of_some _ _ hr, ?_⟩
  split
  · exact ⟨rfl, .inr rfl⟩
  · exact ⟨rfl, .inl rfl⟩

theorem revokeAllForUser_elsewhere : Elsewhere u db (revokeAllForUser db v) := by
  refine .of_requests_eq rfl (fun c k hk => ?_) rfl
  rwa [cell_revokeAllForUser] at hk

theorem revokeRoleGuarded_elsewhere {target : UserId} {role : Role} {removed : Bool}
    (h : revokeRoleGuarded db target role = .ok (removed, db')) : Elsewhere u db db' := by
  rw [revokeRoleGuarded_ok h]
  refine .of_requests_eq rfl (fun c k hk => ?_) rfl
  cases c with
  | roleUser | roleGrantor =>
    obtain ⟨r, hr, hname⟩ := Option.map_eq_some_iff.mp hk
    exact Option.map_eq_some_iff.mpr ⟨r, (Table.row_delete_eq_some.mp hr).1, hname⟩
  | _ => exact hk

end Elsewhere

/-- The re-authentication only reads. -/
theorem reauthenticate_reads (cases : Text.CaseMap) (hasher : PasswordHasher)
    (user : AuthenticatedUser) (password : Option String) (confirmEmail : String) :
    (reauthenticate cases hasher user password confirmEmail).Respects fun db db' => db' = db := by
  refine .bind (.require _ _) fun _ => .bind (.query _ _ fun _ => rfl) fun identity => ?_
  split
  · exact .pure _
  · split
    · exact .throw _
    · split
      · exact .throw _
      · exact .require _ _

/-- What each call of a deletion does to the database. -/
theorem requestDeletion_respects {R : Db → Db → Prop} (hrefl : ∀ db, R db db)
    {cases : Text.CaseMap} {hasher : PasswordHasher} {user : AuthenticatedUser}
    {password : Option String} {confirmEmail : String}
    (hcreate : ∀ {db id db'}, createRequest db user.id .deletion (.obj []) = .ok (id, db') →
      R db db')
    (haudit : ∀ {event : NewAuditEvent}, event.actor = some user.id →
      ∀ db db', db.recordAudit event = some db' → R db db')
    (hscrub : ∀ db now, R db (scrubbed db user.id now))
    (hfulfill : ∀ {db id db'}, fulfill db id none = .ok ((), db') → R db db')
    (hrevoke : ∀ db, R db (revokeAllForUser db user.id)) :
    (requestDeletion cases hasher user password confirmEmail).Respects R := by
  unfold requestDeletion
  refine .bind ((reauthenticate_reads ..).mono fun db db' h => ?_) fun _ =>
    .bind (.query _ _ hrefl) fun _ => .bind (.require _ _) fun _ =>
    .bind (.request hrefl fun db id db' h => hcreate h) fun id =>
    .bind (audit_respects hrefl (haudit rfl) _) fun _ =>
    .bind (.request hrefl fun db _ db' h => ?_) fun _ =>
    .bind (.request hrefl fun db _ db' h => hfulfill h) fun _ =>
    .bind (audit_respects hrefl (haudit rfl) _) fun _ => .execute _ hrevoke
  · rw [h]
    exact hrefl db
  · rw [(anonymize_eq_ok h).1]
    exact hscrub db _

theorem requestDeletion_strict (cases : Text.CaseMap) (hasher : PasswordHasher)
    (user : AuthenticatedUser) (password : Option String) (confirmEmail : String) :
    (requestDeletion cases hasher user password confirmEmail).Strict := by
  unfold requestDeletion
  refine .bind ?_ fun _ => .bind (.query _ _) fun _ => .bind (.require _ _) fun _ =>
    .bind (.request _ _) fun _ => .bind (.request _ _) fun _ => .bind (.request _ _) fun _ =>
    .bind (.request _ _) fun _ => .bind (.request _ _) fun _ => .execute _ _
  refine .bind (.require _ _) fun _ => .bind (.query _ _) fun _ => ?_
  split
  · exact .pure _
  · split
    · exact .throw _
    · split
      · exact .throw _
      · exact .require _ _

/-- The requests of another account move elsewhere. -/
theorem leaveScript_elsewhere (cases : Text.CaseMap) (hasher : PasswordHasher) {u : UserId}
    {op : LeaveOp} (hne : op.actor ≠ u) : (op.script cases hasher).Respects (Elsewhere u) := by
  have hrefl : ∀ db, Elsewhere u db db := refl_of (Elsewhere u)
  cases op with
  | requestDeletion user password confirmEmail =>
    refine .mapErr (requestDeletion_respects hrefl (createRequest_elsewhere hne)
      (fun hactor db db' h => audit_elsewhere hactor hne h) (fun db now => ?_) fulfill_elsewhere
      fun db => revokeAllForUser_elsewhere)
    exact scrubbed_elsewhere hne now
  | revokeRole actor target role =>
    refine .mapErr ?_
    unfold revokeRoleAs
    refine .bind (.require _ _) fun _ => .bind (.require _ _) fun _ =>
      .bind (.request hrefl fun db _ db' h => revokeRoleGuarded_elsewhere h) fun removed => ?_
    split
    · exact audit_respects hrefl (fun db db' h => audit_elsewhere rfl hne h) _
    · exact .pure _

theorem leaveScript_strict (cases : Text.CaseMap) (hasher : PasswordHasher) (op : LeaveOp) :
    (op.script cases hasher).Strict := by
  cases op with
  | requestDeletion user password confirmEmail => exact (requestDeletion_strict ..).mapErr
  | revokeRole actor target role =>
    refine .mapErr ?_
    unfold revokeRoleAs
    refine .bind (.require _ _) fun _ => .bind (.require _ _) fun _ =>
      .bind (.request _ _) fun removed => ?_
    split
    · exact .request _ _
    · exact .pure _

/-! ## The places of a deletion -/

section Places

variable {u : UserId} {db₀ db db' : Db} {calls : List (Db × Db)} {i id : Nat}
  {states : List PrivacyRequestState}

theorem files_snoc : Files (calls ++ [(db, db')]) i ↔
    Files calls i ∨ (db.privacyRequest.row i = none ∧ (db'.privacyRequest.row i).isSome = true) := by
  simp [Files, or_and_right, exists_or]

/-- A call that adds no rights request. -/
theorem files_snoc_of_rows
    (h : ∀ i, (db'.privacyRequest.row i).isSome = true → (db.privacyRequest.row i).isSome = true) :
    Files (calls ++ [(db, db')]) i ↔ Files calls i := by
  rw [files_snoc, or_iff_left]
  rintro ⟨hnone, hsome⟩
  have hbefore := h i hsome
  rw [hnone] at hbefore
  cases hbefore

theorem files_snoc_of_eq (h : db'.privacyRequest = db.privacyRequest) :
    Files (calls ++ [(db, db')]) i ↔ Files calls i :=
  files_snoc_of_rows fun i hi => by rwa [h] at hi

theorem InState.mono {states' : List PrivacyRequestState} (h : InState db i states)
    (hsub : states ⊆ states') : InState db i states' := by
  obtain ⟨r, hr, hkind, hstate⟩ := h
  exact ⟨r, hr, hkind, hsub hstate⟩

/-- Before the rights request: nothing has been written. -/
structure Asked (u : UserId) (db₀ : Db) (calls : List (Db × Db)) (db : Db) : Prop where
  idle : ∀ c ∈ calls, c.2 = c.1
  left : ∀ i, LeftOpen db u i → LeftOpen db₀ u i

/-- The rights request `id` is written, and the account not yet touched. -/
structure Recorded (u : UserId) (db₀ : Db) (id : Nat) (calls : List (Db × Db)) (db : Db) :
    Prop where
  records : ∀ c ∈ calls, OnlyRecords c.1 c.2
  files : ∀ i, Files calls i ↔ i = id
  shell : (db.users.row u).isSome = true
  request : InState db id [.opened, .completed]
  left : ∀ i, LeftOpen db u i → LeftOpen db₀ u i ∨ i = id

/-- The account is anonymized, and the rights request `id` in one of the states. -/
structure Emptied (u : UserId) (id : Nat) (states : List PrivacyRequestState)
    (calls : List (Db × Db)) (db : Db) : Prop where
  files : ∀ i, Files calls i ↔ i = id
  account : Anonymized db u
  request : InState db id states

theorem Asked.place : Place (Elsewhere u) (Stopped u db₀) (Asked u db₀) where
  stable h hR := ⟨h.idle, fun i hi => h.left i (hR.leftOpen hi)⟩
  idle h := by
    refine ⟨fun c hc => ?_, h.left⟩
    rcases List.mem_append.mp hc with hold | hnew
    · exact h.idle c hold
    · rw [List.mem_singleton.mp hnew]
  fails {calls s} h := by
    have hfiles : ∀ i, ¬ Files calls i := by
      rintro i ⟨c, hc, hnone, hsome⟩
      rw [h.idle c hc, hnone] at hsome
      cases hsome
    refine ⟨.inl fun c hc => ?_, fun _ => h.idle, fun i _ hi => absurd hi (hfiles i),
      fun i hi => absurd hi (hfiles i), fun i hi => .inl (h.left i hi)⟩
    rw [OnlyRecords, h.idle c hc]

theorem Recorded.place : Place (Elsewhere u) (Stopped u db₀) (Recorded u db₀ id) where
  stable h hR :=
    { records := h.records
      files := h.files
      shell := by
        rw [hR.shell]
        exact h.shell
      request := hR.inState h.request (by simp)
      left := fun i hi => h.left i (hR.leftOpen hi) }
  idle h := by
    refine ⟨fun c hc => ?_, fun i => (files_snoc_of_eq (by rfl)).trans (h.files i),
      h.shell, h.request, h.left⟩
    rcases List.mem_append.mp hc with hold | hnew
    · exact h.records c hold
    · rw [List.mem_singleton.mp hnew]
      rfl
  fails h := by
    refine ⟨.inl h.records, fun hnone => absurd ((h.files id).mpr rfl) (hnone id),
      fun i j hi hj => ((h.files i).mp hi).trans ((h.files j).mp hj).symm, fun i hi => ?_,
      fun i hi => (h.left i hi).imp_right (h.files i).mpr⟩
    rw [(h.files i).mp hi]
    exact h.request

theorem Emptied.place (hdone : .completed ∈ states) (hsub : states ⊆ [.opened, .completed]) :
    Place (Elsewhere u) (Stopped u db₀) (Emptied u id states) where
  stable h hR := ⟨h.files, hR.anonymized h.account, hR.inState h.request hdone⟩
  idle h := ⟨fun i => (files_snoc_of_eq (by rfl)).trans (h.files i), h.account, h.request⟩
  fails {calls s} h := by
    refine ⟨.inr h.account, fun hnone => absurd ((h.files id).mpr rfl) (hnone id),
      fun i j hi hj => ((h.files i).mp hi).trans ((h.files j).mp hj).symm, fun i hi => ?_, ?_⟩
    · rw [(h.files i).mp hi]
      exact h.request.mono hsub
    · -- a request of the account would name it
      rintro i ⟨r, hr, huser, _⟩
      have hnames : Column.requestSubject.Names s u := ⟨(i, 0), by simp [Column.cell, hr, huser]⟩
      rcases h.account.names _ hnames with hactor | hreviewer
      · cases hactor
      · cases hreviewer

/-! Each call of the deletion leads to the next place. -/

theorem Asked.createRequest (h : Asked u db₀ calls db)
    (hcreate : createRequest db u .deletion (.obj []) = .ok (id, db')) :
    Recorded u db₀ id (calls ++ [(db, db')]) db' := by
  unfold Privacy.createRequest at hcreate
  split at hcreate
  · cases hcreate
  rename_i hshell
  cases hcreate
  have hbefore : ∀ i, ¬ Files calls i := by
    rintro i ⟨c, hc, hnone, hsome⟩
    rw [h.idle c hc, hnone] at hsome
    cases hsome
  refine ⟨fun c hc => ?_, fun i => ?_, by simpa [Option.isSome_iff_ne_none] using hshell,
    ⟨_, Table.row_insert_next .., rfl, by simp⟩, fun i hi => ?_⟩
  · rcases List.mem_append.mp hc with hold | hnew
    · rw [OnlyRecords, h.idle c hold]
    · rw [List.mem_singleton.mp hnew]
      rfl
  · rw [files_snoc, or_iff_right (hbefore i)]
    constructor
    · rintro ⟨hnone, hsome⟩
      obtain ⟨r, hr⟩ := Option.isSome_iff_exists.mp hsome
      rcases Table.row_insert_eq_some.mp hr with ⟨hi, _⟩ | hold
      · exact hi
      · rw [hnone] at hold
        cases hold
    · rintro rfl
      exact ⟨db.privacyRequest.fresh _ le_rfl, by rw [Table.row_insert_next]; rfl⟩
  · obtain ⟨r, hr, hopen⟩ := hi
    rcases Table.row_insert_eq_some.mp hr with ⟨hi, _⟩ | hold
    · exact .inr hi
    · exact .inl (h.left i ⟨r, hold, hopen⟩)

theorem Recorded.audit (h : Recorded u db₀ id calls db) {event : NewAuditEvent}
    (hrecord : db.recordAudit event = some db') :
    Recorded u db₀ id (calls ++ [(db, db')]) db' := by
  obtain ⟨r, _, rfl⟩ := recordAudit_eq_some hrecord
  refine ⟨fun c hc => ?_, fun i => (files_snoc_of_eq (by rfl)).trans (h.files i),
    h.shell, h.request, h.left⟩
  rcases List.mem_append.mp hc with hold | hnew
  · exact h.records c hold
  · rw [List.mem_singleton.mp hnew]
    rfl

theorem Recorded.anonymize (h : Recorded u db₀ id calls db) {cases : Text.CaseMap}
    {report : AnonymizationReport} (hrun : anonymize cases db u db.now = .ok (report, db')) :
    Emptied u id [.opened, .completed] (calls ++ [(db, db')]) db' := by
  obtain rfl := (anonymize_eq_ok hrun).1
  refine ⟨fun i => (files_snoc_of_rows fun i hi => ?_).trans (h.files i), ⟨?_, fun c hc => ?_⟩, ?_⟩
  · simpa [scrubbed] using hi
  · obtain ⟨r, hr⟩ := Option.isSome_iff_exists.mp h.shell
    refine ⟨r, db.now, (Table.row_update_of_some _ _ hr).trans ?_⟩
    rw [beq_self_eq_true, if_pos rfl]
  · exact .inr ((names_scrubbed_iff c).mp hc).1
  · obtain ⟨r, hr, hkind, hstate⟩ := h.request
    refine ⟨_, Table.row_update_of_some _ _ hr, ?_⟩
    split
    · exact ⟨hkind, hstate⟩
    · exact ⟨hkind, hstate⟩

theorem Emptied.fulfill (h : Emptied u id states calls db)
    (hrun : fulfill db id none = .ok ((), db')) :
    Emptied u id [.completed] (calls ++ [(db, db')]) db' := by
  have hmove : Elsewhere u db db' := fulfill_elsewhere hrun
  obtain ⟨rfl, hone⟩ := fulfill_ok hrun
  refine ⟨fun i => (files_snoc_of_rows fun i hi => ?_).trans (h.files i),
    hmove.anonymized h.account, ?_⟩
  · simpa [fulfilled] using hi
  · obtain ⟨r, hr, hkind, _⟩ := h.request
    have hopen : isOpen r = true := by simpa [hr] using hone
    refine ⟨_, Table.row_update_of_some _ _ hr, ?_⟩
    rw [beq_self_eq_true, Bool.true_and, if_pos hopen]
    exact ⟨hkind, by simp⟩

/-- The completion event names the account in the audit log only. -/
theorem Emptied.audit (h : Emptied u id states calls db) {event : NewAuditEvent}
    (hrecord : db.recordAudit event = some db') :
    Emptied u id states (calls ++ [(db, db')]) db' := by
  obtain ⟨r, _, rfl⟩ := recordAudit_eq_some hrecord
  refine ⟨fun i => (files_snoc_of_eq (by rfl)).trans (h.files i),
    ⟨h.account.shell, fun c hc => ?_⟩, h.request⟩
  by_cases hactor : c = .auditActor
  · exact .inl hactor
  · apply h.account.names c
    obtain ⟨k, hk⟩ := hc
    refine ⟨k, ?_⟩
    cases c with
    | auditActor => exact absurd rfl hactor
    | _ => exact hk

theorem Emptied.revokeAllForUser (h : Emptied u id states calls db) :
    Emptied u id states (calls ++ [(db, revokeAllForUser db u)]) (revokeAllForUser db u) :=
  ⟨fun i => (files_snoc_of_eq (by rfl)).trans (h.files i),
    revokeAllForUser_elsewhere.anonymized h.account, h.request⟩

end Places

/-! ## The outline -/

section Result

variable {cases : Text.CaseMap} {hasher : PasswordHasher} {user : AuthenticatedUser}
  {password : Option String} {confirmEmail : String} {db₀ : Db}

theorem audit_outline {ε : Type} {R : Db → Db → Prop} {E P : Assertion Db} (hP : Place R E P)
    {event : NewAuditEvent}
    (h : ∀ calls db db', P calls db → db.recordAudit event = some db' → P (calls ++ [(db, db')]) db')
    (internal : ε) : Outline R E P (audit internal event : Service Db ε Unit) fun _ => P := by
  refine .request hP (fun _ => hP) fun calls db _ db' hp hf => ?_
  exact h calls db db' hp (recordAudit_of_ok hf)

/-- The deletion goes from place to place. -/
theorem requestDeletion_outline :
    Outline (Elsewhere user.id) (Stopped user.id db₀) (Asked user.id db₀)
      (requestDeletion cases hasher user password confirmEmail)
      fun _ calls db => ∃ id, Emptied user.id id [.completed] calls db := by
  have hempty (id : Nat) : Place (Elsewhere user.id) (Stopped user.id db₀)
      (Emptied user.id id [.opened, .completed]) := Emptied.place (by simp) (by simp)
  have hclosed (id : Nat) : Place (Elsewhere user.id) (Stopped user.id db₀)
      (Emptied user.id id [.completed]) := Emptied.place (by simp) (by simp)
  have hend : Place (Elsewhere user.id) (Stopped user.id db₀)
      fun calls db => ∃ id, Emptied user.id id [.completed] calls db :=
    ⟨fun ⟨id, h⟩ hR => ⟨id, (hclosed id).stable h hR⟩, fun ⟨id, h⟩ => ⟨id, (hclosed id).idle h⟩,
      fun ⟨id, h⟩ => (hclosed id).fails h⟩
  unfold requestDeletion
  refine .bind (.reads Asked.place (reauthenticate_reads ..)) fun _ =>
    .bind (.query Asked.place _ _) fun last => .bind (.require Asked.place _ _) fun _ =>
    .bind (.request Asked.place (fun id => Recorded.place)
      fun calls db id db' h hf => h.createRequest hf) fun id => ?_
  refine .bind (audit_outline Recorded.place (fun _ _ _ h hf => h.audit hf) _) fun _ =>
    .bind (.request Recorded.place (fun _ => hempty id) fun _ _ _ _ h hf => h.anonymize hf)
      fun _ => ?_
  refine .bind (.request (hempty id) (fun _ => hclosed id) fun _ _ _ _ h hf => h.fulfill hf)
    fun _ => .bind (audit_outline (hclosed id) (fun _ _ _ h hf => h.audit hf) _) fun _ => ?_
  exact .execute (hclosed id) hend fun _ _ h => ⟨id, h.revokeAllForUser⟩

/-- A session that is accepted has a row. -/
theorem row_of_resolve {deps : Deps} {raw : Token} {now : Instant} {db : Db} {s : Session}
    (h : ((resolve deps raw now).run db).1 = .ok (some s)) : ∃ k, db.sessions.row k = some s := by
  unfold resolve Auth.repo at h
  rw [Service.run_bind, Service.run_request] at h
  dsimp only at h
  split at h
  · cases h
  rename_i r hrow
  obtain ⟨x, hx, rfl⟩ := Option.map_eq_some_iff.mp hrow
  have hsame : x.2 = s := by
    split at h
    · rw [Service.run_bind, Service.run_require] at h
      split at h
      · rename_i hrun
        split at hrun <;> simp_all
      · cases h
    · cases h
  exact ⟨x.1, hsame ▸ (Table.mem_select.mp (List.mem_of_head? hx)).1⟩

/-- No session of an anonymized account is accepted. -/
theorem Anonymized.sessions {u : UserId} {db : Db} (h : Anonymized db u) {deps : Deps}
    {raw : Token} {now : Instant} {s : Session}
    (hs : ((resolve deps raw now).run db).1 = .ok (some s)) : s.userId ≠ u := by
  rintro rfl
  obtain ⟨k, hk⟩ := row_of_resolve hs
  have hnames : Column.sessionUser.Names db s.userId := ⟨(k, 0), by simp [Column.cell, hk]⟩
  rcases h.names _ hnames with hactor | hreviewer
  · cases hactor
  · cases hreviewer

/-- However other accounts delete themselves and revoke roles in between, and whichever
calls are lost: a deletion that has answered `Ok` is `Finished`, and one that has answered
an error has left what `Stopped` says. -/
theorem deletion_outcome {es : List (Event LeaveOp)} {p : LeavePool} {i : Nat}
    {t : Thread Db LeaveError Unit LeaveOp}
    (hrun : PoolRun (LeaveOp.script cases hasher) (Pool.init db₀) es p)
    (ht : p.threads[i]? = some t) (hop : t.op = .requestDeletion user password confirmEmail)
    (hothers : ∀ j t, p.threads[j]? = some t → j ≠ i → t.op.actor ≠ user.id) :
    (t.rest = .done (.ok ()) →
        Finished user.id (t.calls (LeaveOp.script cases hasher)) p.store) ∧
      ∀ e, t.rest = .done (.error e) →
        Stopped user.id db₀ (t.calls (LeaveOp.script cases hasher)) p.store := by
  have houtline : Outline (Elsewhere user.id) (Stopped user.id db₀) (Asked user.id db₀)
      (LeaveOp.script cases hasher (.requestDeletion user password confirmEmail))
      fun _ calls db => ∃ id, Emptied user.id id [.completed] calls db :=
    requestDeletion_outline.mapErr
  have halone : Alone (LeaveOp.script cases hasher) (Elsewhere user.id) i
      (.requestDeletion user password confirmEmail) p := by
    refine ⟨fun t' ht' => ?_, fun j t' ht' hj => leaveScript_elsewhere cases hasher ?_⟩
    · obtain rfl : t = t' := by simpa [ht] using ht'
      exact hop
    · exact hothers j t' ht' hj
  have hstart : ∀ db, Elsewhere user.id db₀ db → Asked user.id db₀ [] db := by
    intro db hmove
    refine ⟨fun c hc => ?_, fun i hi => hmove.leftOpen hi⟩
    cases hc
  obtain ⟨hok, herror⟩ :=
    outline_run houtline hstart (leaveScript_strict cases hasher) hrun halone ht
  refine ⟨fun hrest => ?_, herror⟩
  obtain ⟨id, h⟩ := hok () hrest
  exact ⟨h.account, ⟨id, (h.files id).mpr rfl, h.request⟩, fun _ _ _ _ hs => h.account.sessions hs⟩

end Result

/-! ## Two administrators -/

/-- Two administrators who sign in with Google. -/
def twoAdministrators : Db :=
  { Db.empty 0 with
    users := (Table.empty.insert
      { email := "one@example.com", displayName := some "One", accountState := .active
        locale := .en, createdAt := 0 }).insert
      { email := "two@example.com", displayName := some "Two", accountState := .active
        locale := .en, createdAt := 0 }
    authenticationIdentities := (Table.empty.insert
      { userId := 1, provider := .google, providerSubject := "108", credentialHash := none }).insert
      { userId := 2, provider := .google, providerSubject := "109", credentialHash := none }
    userRoles := (Table.empty.insert
      { userId := 1, role := .admin, grantedBy := none, grantedAt := 0 }).insert
      { userId := 2, role := .admin, grantedBy := some 1, grantedAt := 0 } }

/-- The first of the two, signed in. -/
def firstAdministrator : AuthenticatedUser where
  id := 1
  email := "one@example.com"
  accountState := .active
  isVerified := true
  roles := [.user, .admin]

/-- The second, signed in. -/
def secondAdministrator : AuthenticatedUser where
  id := 2
  email := "two@example.com"
  accountState := .active
  isVerified := true
  roles := [.user, .admin]

/-- The first administrator deletes the account. -/
def firstLeaves : LeaveOp := .requestDeletion firstAdministrator none "one@example.com"

/-- After the pre-check of the deletion, the second administrator takes the role ADMIN from
the first. -/
def revokedMeanwhile : List (Event LeaveOp) :=
  [.start firstLeaves, .answer 0, .answer 0, .start (.revokeRole secondAdministrator 1 .admin),
    .answer 1, .answer 1, .answer 0, .answer 0, .answer 0, .answer 0, .answer 0, .answer 0]

/-- The completion of the rights request is lost. -/
def completionLost : List (Event LeaveOp) :=
  [.start firstLeaves, .answer 0, .answer 0, .answer 0, .answer 0, .answer 0, .lose 0 false]

/-- After the pre-check of the deletion, the second administrator resigns. -/
def secondResigns : List (Event LeaveOp) :=
  [.start firstLeaves, .start (.revokeRole secondAdministrator 2 .admin), .answer 0, .answer 0,
    .answer 1, .answer 1, .answer 0, .answer 0, .answer 0]

/-- Has thread `i` answered `Ok`? -/
def hasAnswered (p : LeavePool) (i : Nat) : Bool :=
  p.threads[i]?.any fun t =>
    match t.rest with
    | .done (.ok ()) => true
    | _ => false

/-- The error that thread `i` has answered. -/
def failure (p : LeavePool) (i : Nat) : Option LeaveError :=
  p.threads[i]?.bind fun t =>
    match t.rest with
    | .done (.error e) => some e
    | _ => none

theorem exists_answered {p : LeavePool} {i : Nat} (h : hasAnswered p i = true) :
    ∃ t, p.threads[i]? = some t ∧ t.rest = .done (.ok ()) := by
  obtain ⟨t, ht, hrest⟩ := (Option.any_eq_true ..).mp h
  refine ⟨t, ht, ?_⟩
  split at hrest
  · assumption
  · cases hrest

theorem exists_failed {p : LeavePool} {i : Nat} {e : LeaveError} (h : failure p i = some e) :
    ∃ t, p.threads[i]? = some t ∧ t.rest = .done (.error e) := by
  obtain ⟨t, ht, hrest⟩ := Option.bind_eq_some_iff.mp h
  refine ⟨t, ht, ?_⟩
  split at hrest
  · rename_i e' hdone
    rw [hdone, Option.some.inj hrest]
  · cases hrest

theorem deletion_outcome_revoked :
    ∃ p t, PoolRun (LeaveOp.script .ascii noHasher) (Pool.init twoAdministrators)
        revokedMeanwhile p ∧ p.threads[0]? = some t ∧ t.rest = .done (.ok ()) ∧
      Finished 1 (t.calls (LeaveOp.script .ascii noHasher)) p.store := by
  have hanswered : (revokedMeanwhile.foldlM (Pool.next (LeaveOp.script .ascii noHasher))
      (Pool.init twoAdministrators)).any (fun p => hasAnswered p 0) = true := by decide +kernel
  obtain ⟨p, hp, hok⟩ := (Option.any_eq_true ..).mp hanswered
  have hrun := Runs.Run.of_foldlM hp
  obtain ⟨t, ht, hrest⟩ := exists_answered hok
  have hops : p.threads.map Thread.op = [firstLeaves, .revokeRole secondAdministrator 1 .admin] :=
    ops_run hrun
  have hop : t.op = firstLeaves := by
    have hfirst := congrArg (fun ops : List LeaveOp => ops[0]?) hops
    simpa [ht] using hfirst
  have hothers : ∀ j t, p.threads[j]? = some t → j ≠ 0 → t.op.actor ≠ firstAdministrator.id := by
    intro j t ht hj
    have hother := congrArg (fun ops : List LeaveOp => ops[j]?) hops
    simp only [List.getElem?_map, ht, Option.map_some] at hother
    match j, hj with
    | 1, _ =>
      rw [Option.some.inj hother]
      decide
    | j + 2, _ => simp at hother
  exact ⟨p, t, hrun, ht, hrest, (deletion_outcome hrun ht hop hothers).1 hrest⟩

/-- Without the completion the deletion answers an error, with the account erased and the
rights request open.  When the second administrator resigns after the pre-check, no
call is lost: the guard refuses, and the rights request of the account stays open. -/
theorem deletion_not_atomic :
    (∃ p t, PoolRun (LeaveOp.script .ascii noHasher) (Pool.init twoAdministrators)
        completionLost p ∧ p.threads[0]? = some t ∧
      t.rest = .done (.error (.privacy .unavailable)) ∧
      stateOf p.store 1 = some .deleted ∧ InState p.store 1 [.opened]) ∧
    ∃ p t, PoolRun (LeaveOp.script .ascii noHasher) (Pool.init twoAdministrators)
        secondResigns p ∧ p.threads[0]? = some t ∧
      t.rest = .done (.error (.privacy .lastAdmin)) ∧
      stateOf p.store 1 = some .active ∧ LeftOpen p.store 1 1 := by
  constructor
  · have hlost : (completionLost.foldlM (Pool.next (LeaveOp.script .ascii noHasher))
        (Pool.init twoAdministrators)).any (fun p => failure p 0 == some (.privacy .unavailable) &&
          stateOf p.store 1 == some .deleted && (p.store.privacyRequest.row 1).any fun r =>
            r.kind == .deletion && r.state == .opened) = true := by decide +kernel
    obtain ⟨p, hp, hlost⟩ := (Option.any_eq_true ..).mp hlost
    simp only [Bool.and_eq_true, beq_iff_eq, Option.any_eq_true] at hlost
    obtain ⟨⟨hfailed, hstate⟩, r, hr, hkind, hopen⟩ := hlost
    obtain ⟨t, ht, hrest⟩ := exists_failed hfailed
    exact ⟨p, t, Runs.Run.of_foldlM hp, ht, hrest, hstate, r, hr, hkind, by simp [hopen]⟩
  · have hrefused : (secondResigns.foldlM (Pool.next (LeaveOp.script .ascii noHasher))
        (Pool.init twoAdministrators)).any (fun p => failure p 0 == some (.privacy .lastAdmin) &&
          stateOf p.store 1 == some .active && (p.store.privacyRequest.row 1).any fun r =>
            r.userId == some 1 && r.kind == .deletion && isOpen r) = true := by decide +kernel
    obtain ⟨p, hp, hrefused⟩ := (Option.any_eq_true ..).mp hrefused
    simp only [Bool.and_eq_true, beq_iff_eq, Option.any_eq_true] at hrefused
    obtain ⟨⟨hfailed, hstate⟩, r, hr, ⟨huser, hkind⟩, hopen⟩ := hrefused
    obtain ⟨t, ht, hrest⟩ := exists_failed hfailed
    exact ⟨p, t, Runs.Run.of_foldlM hp, ht, hrest, hstate, r, hr, huser, hkind, hopen⟩

end BikesNest.Privacy
