import BikesNest.Auth.Accounts
import BikesNest.Privacy.Attribution

/-!
# Account deletion

`requestDeletion` re-authenticates the caller, writes the rights request,
anonymizes the account, completes the request, audits and revokes the sessions.

* `requestDeletion_run` is the run of the whole use case for a caller who is
  re-authenticated and not the last admin.
* `Erased` is what a deletion promises: no column names the account and nothing
  stores its address.  The completion event of the audit log names the account,
  so no deletion keeps the promise (`requestDeletion_not_erased`);
  `names_deleted_iff` lists the columns that are left.
-/

namespace BikesNest.Privacy

open Domain Store Relational Auth

/-! ## The repository of rights requests -/

/-- `PrivacyRequestRepository::create`. -/
def createRequest (db : Db) (u : UserId) (kind : PrivacyRequestKind) (details : Json) :
    Except PrivacyError (Nat × Db) :=
  if (db.users.row u).isNone then .error (.invalidField "privacy_request_user_id_fkey")
  else .ok (db.privacyRequest.next, { db with
    privacyRequest := db.privacyRequest.insert
      { userId := some u, kind, details, createdAt := db.now } })

/-- The `WHERE` clause of `fulfill`. -/
def isOpen (r : PrivacyRequest) : Bool := r.state == .opened || r.state == .inProgress

/-- `PrivacyRequestRepository::fulfill`. -/
def fulfill (db : Db) (id : Nat) (by' : Option UserId) : Except PrivacyError (Unit × Db) :=
  let addressed (i : Nat) (r : PrivacyRequest) : Bool := i == id && isOpen r
  if by'.any (fun u => (db.users.row u).isNone) && db.privacyRequest.any addressed then
    .error (.invalidField "privacy_request_fulfilled_by_fkey")
  else if db.privacyRequest.affected addressed ≠ 1 then .error .notFound
  else .ok ((), { db with
    privacyRequest := db.privacyRequest.update addressed fun r =>
      { r with state := .completed, fulfilledBy := by', fulfilledAt := some db.now } })

/-! ## The use case -/

/-- One call of a repository. -/
def repo {α : Type} (f : Db → Except PrivacyError (α × Db)) : Service Db PrivacyError α :=
  .request .unavailable f

/-- The re-authentication: the typed address, and the password of an account
that has one. -/
def reauthenticate (cases : Text.CaseMap) (hasher : PasswordHasher) (user : AuthenticatedUser)
    (password : Option String) (confirmEmail : String) : Service Db PrivacyError Unit := do
  Service.require (cases.toLowercase (Text.trim confirmEmail) == user.email) .reauthRequired
  let identity ← Service.query .internal fun db => findIdentity db .password user.email
  match identity.bind AuthenticationIdentity.credentialHash with
  | none => pure ()
  | some hash =>
    match password with
    | none => Service.throw .reauthRequired
    | some pw =>
      match hasher.verify pw hash with
      | none => Service.throw .internal
      | some verified => Service.require verified .reauthRequired

/-- The audit event of a step of a deletion. -/
def deletionEvent (u : UserId) (action : String) : NewAuditEvent where
  actor := some u
  action := action
  targetType := "user"
  targetId := toString u

/-- `request_deletion`. -/
def requestDeletion (cases : Text.CaseMap) (hasher : PasswordHasher) (user : AuthenticatedUser)
    (password : Option String) (confirmEmail : String) : Service Db PrivacyError Unit := do
  reauthenticate cases hasher user password confirmEmail
  let last ← Service.query .unavailable fun db => isLastAdmin db user.id
  Service.require (!last) .lastAdmin
  let requestId ← repo fun db => createRequest db user.id .deletion (.obj [])
  audit .internal (deletionEvent user.id "account.deletion_requested")
  let _ ← repo fun db => anonymize cases db user.id db.now
  repo fun db => fulfill db requestId none
  audit .internal (deletionEvent user.id "account.anonymized")
  Service.execute .internal fun db => revokeAllForUser db user.id

/-! ## The re-authentication -/

variable {cases : Text.CaseMap} {hasher : PasswordHasher} {user : AuthenticatedUser}
  {password : Option String} {confirmEmail : String} {db db' : Db}

/-- The caller typed the address and, where the account has a password, the
password. -/
def reauthenticated (cases : Text.CaseMap) (hasher : PasswordHasher) (db : Db)
    (user : AuthenticatedUser) (password : Option String) (confirmEmail : String) : Bool :=
  cases.toLowercase (Text.trim confirmEmail) == user.email &&
    match (findIdentity db .password user.email).bind AuthenticationIdentity.credentialHash with
    | none => true
    | some hash => password.any fun pw => hasher.verify pw hash == some true

theorem reauthenticate_run (cases : Text.CaseMap) (hasher : PasswordHasher) (db : Db)
    (user : AuthenticatedUser) (password : Option String) (confirmEmail : String) :
    ∃ e, (reauthenticate cases hasher user password confirmEmail).run db =
      (if reauthenticated cases hasher db user password confirmEmail then .ok () else .error e,
        db) := by
  rw [reauthenticate, Service.run_bind, Service.run_require, reauthenticated]
  cases cases.toLowercase (Text.trim confirmEmail) == user.email with
  | false => exact ⟨_, rfl⟩
  | true =>
    simp only [if_true, Bool.true_and, Service.run_bind, Service.run_query]
    cases (findIdentity db .password user.email).bind AuthenticationIdentity.credentialHash with
    | none => exact ⟨.internal, rfl⟩
    | some hash =>
      cases password with
      | none => exact ⟨_, rfl⟩
      | some pw =>
        dsimp only
        split
        · rename_i hverify
          exact ⟨.internal, by simp [hverify]⟩
        · rename_i verified hverify
          exact ⟨.reauthRequired, by simp [hverify]⟩

/-! ## The run of a deletion -/

/-- The audit log with one more event. -/
def audited (db : Db) (event : NewAuditEvent) : Db :=
  { db with
    auditEvents := db.auditEvents.insert
      { actorUserId := event.actor, action := event.action, targetType := event.targetType
        targetId := event.targetId, result := event.result, metadata := event.metadata
        createdAt := db.now } }

/-- The database with the rights request of a deletion. -/
def withRequest (db : Db) (u : UserId) : Db :=
  { db with
    privacyRequest := db.privacyRequest.insert
      { userId := some u, kind := .deletion, details := .obj [], createdAt := db.now } }

/-- The database after step 3: the request is written and audited. -/
def requested (db : Db) (u : UserId) : Db :=
  audited (withRequest db u) (deletionEvent u "account.deletion_requested")

/-- The database with the request completed by the system. -/
def fulfilled (db : Db) (id : Nat) : Db :=
  { db with
    privacyRequest := db.privacyRequest.update (fun i r => i == id && isOpen r) fun r =>
      { r with state := .completed, fulfilledBy := none, fulfilledAt := some db.now } }

/-- The database after a deletion that succeeds. -/
def deleted (db : Db) (u : UserId) : Db :=
  let erased := scrubbed (requested db u) u db.now
  revokeAllForUser
    (audited (fulfilled erased db.privacyRequest.next) (deletionEvent u "account.anonymized")) u

theorem audit_run {ε : Type} (internal : ε) {event : NewAuditEvent} {u : UserId}
    (hactor : event.actor = some u) (hrow : (db.users.row u).isSome) :
    (audit internal event : Service Db ε Unit).run db = (.ok (), audited db event) := by
  simp [audit, Db.recordAudit, audited, hactor, hrow]

/-- A request that is open can be fulfilled by the system. -/
theorem fulfill_open {id : Nat} {r : PrivacyRequest} (hr : db.privacyRequest.row id = some r)
    (hopen : isOpen r = true) : fulfill db id none = .ok ((), fulfilled db id) := by
  simp only [fulfill, Option.any_none, Bool.false_and, Bool.false_eq_true, if_false,
    Table.affected_key, hr, Option.any_some, hopen, if_true, ne_eq, not_true_eq_false, fulfilled]

theorem fulfill_ok {id : Nat} (h : fulfill db id none = .ok ((), db')) :
    db' = fulfilled db id ∧ (db.privacyRequest.row id).any isOpen = true := by
  simp only [fulfill, Option.any_none, Bool.false_and, Bool.false_eq_true, if_false,
    Table.affected_key] at h
  split at h
  · rename_i hone
    cases h
    exact ⟨rfl, hone⟩
  · cases h

/-- The request of a deletion is still open when the account is erased. -/
theorem row_scrubbed_requested (db : Db) (u : UserId) :
    ∃ r, (scrubbed (requested db u) u db.now).privacyRequest.row db.privacyRequest.next = some r ∧
      isOpen r = true := by
  simp only [scrubbed, requested, audited, withRequest, Table.row_update, Table.row_insert_next,
    Option.map_some, Option.some.injEq, exists_eq_left']
  split <;> rfl

/-- The guard inside the transaction refuses nobody whom the pre-check let
pass. -/
theorem lastAdminLocked_of_isLastAdmin {u : UserId} (h : isLastAdmin db u = false) :
    lastAdminLocked db u = false := by
  by_contra hlocked
  simp only [lastAdminLocked, Bool.not_eq_false, Bool.and_eq_true, List.contains_iff_mem,
    List.length_map, beq_iff_eq, List.mem_map] at hlocked
  obtain ⟨⟨x, hx, rfl⟩, hlength⟩ := hlocked
  obtain ⟨y, hy⟩ := List.length_eq_one_iff.mp hlength
  rw [hy, List.mem_singleton] at hx
  subst hx
  have hadmin : x ∈ adminRows db := by simp [hy]
  have hothers : db.userRoles.select (fun _ r => r.role == .admin && r.userId != x.2.userId) = [] := by
    rw [List.eq_nil_iff_forall_not_mem]
    rintro ⟨i, r⟩ hmem
    obtain ⟨hr, hrow⟩ := Table.mem_select.mp hmem
    simp only [Bool.and_eq_true, bne_iff_ne] at hrow
    have hin : (i, r) ∈ adminRows db := Table.mem_select.mpr ⟨hr, hrow.1⟩
    rw [hy, List.mem_singleton] at hin
    exact hrow.2 (by rw [← hin])
  have hany : (db.userRoles.any fun _ r => r.role == .admin && r.userId == x.2.userId) = true := by
    obtain ⟨hr, hrow⟩ := Table.mem_select.mp hadmin
    exact Table.any_iff.mpr ⟨x.1, x.2, hr, by simpa using hrow⟩
  simp [isLastAdmin, Table.affected, hothers, hany] at h

/-- A caller who is re-authenticated and leaves an ADMIN behind gets the
account erased unless another account holds the replacement address. -/
theorem requestDeletion_run
    (hreauth : reauthenticated cases hasher db user password confirmEmail = true)
    (hadmin : isLastAdmin db user.id = false) (hrow : (db.users.row user.id).isSome = true) :
    (requestDeletion cases hasher user password confirmEmail).run db =
      if emailTaken cases db.users user.id (anonymizedEmail user.id) then
        (.error .conflict, requested db user.id)
      else (.ok (), deleted db user.id) := by
  obtain ⟨e, hrun⟩ := reauthenticate_run cases hasher db user password confirmEmail
  rw [hreauth, if_pos rfl] at hrun
  have hcreate : (repo fun db => createRequest db user.id .deletion (.obj [])).run db =
      (.ok db.privacyRequest.next, withRequest db user.id) := by
    rw [repo, Service.run_request_ok, createRequest,
      if_neg (by rw [Option.isNone_iff_eq_none]; exact Option.isSome_iff_ne_none.mp hrow)]
    rfl
  have haudit : (audit PrivacyError.internal
      (deletionEvent user.id "account.deletion_requested")).run (withRequest db user.id) =
        (.ok (), requested db user.id) := audit_run _ rfl hrow
  rw [requestDeletion, Service.run_bind_of_ok hrun, Service.run_bind_of_ok (Service.run_query ..),
    Service.run_bind_of_ok (by rw [hadmin]; exact Service.run_require ..),
    Service.run_bind_of_ok hcreate,
    Service.run_bind_of_ok haudit]
  have hlocked : lastAdminLocked (requested db user.id) user.id = false :=
    lastAdminLocked_of_isLastAdmin hadmin
  have hanonymize : anonymize cases (requested db user.id) user.id (requested db user.id).now =
      if emailTaken cases db.users user.id (anonymizedEmail user.id) then .error .conflict
      else .ok (anonymizationReport (requested db user.id) user.id,
        scrubbed (requested db user.id) user.id db.now) := by
    rw [anonymize, hlocked, if_neg Bool.false_ne_true]
    show (if ((db.users.row user.id).isSome && _) = true then _ else _) = _
    rw [hrow, Bool.true_and]
    rfl
  rw [Service.run_bind, repo, Service.run_request]
  rw [hanonymize]
  cases emailTaken cases db.users user.id (anonymizedEmail user.id) with
  | true => rfl
  | false =>
    obtain ⟨r, hr, hopen⟩ := row_scrubbed_requested db user.id
    have hshell : ((fulfilled (scrubbed (requested db user.id) user.id db.now)
        db.privacyRequest.next).users.row user.id).isSome = true := by
      simpa [fulfilled, scrubbed, requested, withRequest, audited] using hrow
    simp only [if_neg Bool.false_ne_true]
    rw [Service.run_bind, repo, Service.run_request, fulfill_open hr hopen]
    dsimp only
    rw [Service.run_bind_of_ok (audit_run _ rfl hshell)]
    rfl

/-- A deletion whose checks all hold erases the account; any other leaves the database
as it is, or with one more rights request. -/
theorem requestDeletion_database (hrow : (db.users.row user.id).isSome = true) {passes : Bool}
    (hpasses : (reauthenticated cases hasher db user password confirmEmail &&
      !isLastAdmin db user.id && !emailTaken cases db.users user.id (anonymizedEmail user.id)) =
        passes) :
    let db' := ((requestDeletion cases hasher user password confirmEmail).run db).2
    if passes then db' = deleted db user.id else db' = db ∨ db' = requested db user.id := by
  obtain ⟨e, hrun⟩ := reauthenticate_run cases hasher db user password confirmEmail
  subst hpasses
  cases hreauth : reauthenticated cases hasher db user password confirmEmail with
  | false =>
    rw [hreauth] at hrun
    left
    rw [requestDeletion, Service.run_bind, hrun]
    rfl
  | true =>
    cases hadmin : isLastAdmin db user.id with
    | true =>
      rw [hreauth] at hrun
      left
      rw [requestDeletion, Service.run_bind_of_ok hrun,
        Service.run_bind_of_ok (Service.run_query ..), hadmin]
      rfl
    | false =>
      rw [requestDeletion_run hreauth hadmin hrow]
      cases emailTaken cases db.users user.id (anonymizedEmail user.id) with
      | true => exact .inr rfl
      | false => rfl

/-- A deletion that answers `Ok` has erased the account. -/
theorem requestDeletion_ok
    (h : (requestDeletion cases hasher user password confirmEmail).run db = (.ok (), db')) :
    (db.users.row user.id).isSome = true ∧ db' = deleted db user.id := by
  obtain ⟨_, db₁, hreauth, hrest⟩ := Service.run_bind_ok h
  obtain ⟨last, db₂, hlast, hrest⟩ := Service.run_bind_ok hrest
  obtain ⟨_, db₃, hrequire, hrest⟩ := Service.run_bind_ok hrest
  obtain ⟨id, db₄, hcreate, hrest⟩ := Service.run_bind_ok hrest
  obtain ⟨e, hrun⟩ := reauthenticate_run cases hasher db user password confirmEmail
  have hreauth' : reauthenticated cases hasher db user password confirmEmail = true := by
    by_contra hnot
    rw [hrun, if_neg hnot] at hreauth
    cases hreauth
  rw [hrun, if_pos hreauth'] at hreauth
  cases hreauth
  obtain ⟨rfl, rfl⟩ := Service.run_query_ok.mp hlast
  obtain ⟨hadmin, rfl⟩ := Service.run_require_ok.mp hrequire
  rw [Bool.not_eq_true'] at hadmin
  have hrow : (db.users.row user.id).isSome = true := by
    rw [repo, Service.run_request_ok, createRequest] at hcreate
    split at hcreate
    · cases hcreate
    · rename_i hsome
      simpa [Option.isSome_iff_ne_none] using hsome
  rw [requestDeletion_run hreauth' hadmin hrow] at h
  split at h
  · cases h
  · cases h
    exact ⟨hrow, rfl⟩

/-! ## What a deletion leaves -/

/-- The address stands in a column of another account, of a token, of a queued
message or of the audit log. -/
def storesEmail (db : Db) (u : UserId) (email : String) : Bool :=
  (db.users.any fun i r => i != u && r.email == email) ||
  (db.authenticationIdentities.any fun _ r => r.providerSubject == email) ||
  (db.emailVerificationTokens.any fun _ r => r.email == email) ||
  (db.auditEvents.any fun _ r => r.targetId == email) ||
  db.backgroundJob.any fun _ r => (r.payload.get "to").any fun v => v.asStr == some email

/-- No row but the shell of `u` refers to the account or stores its address. -/
structure Erased (db : Db) (u : UserId) (email : String) : Prop where
  ids : ∀ c : Column, ¬ c.Names db u
  address : storesEmail db u email = false

/-- A completion by the system names nobody anew. -/
theorem cell_fulfilled {c : Column} {k : Nat × Nat} {id : Nat} {v : UserId}
    (h : c.cell (fulfilled db id) k = some (some v)) : c.cell db k = some (some v) := by
  cases c with
  | requestSubject =>
    refine Eq.trans (map_update_keep _ ?_).symm h
    exact fun _ => rfl
  | requestFulfiller =>
    -- the one row that is written gets no fulfiller
    obtain ⟨r, hr, hname⟩ := Option.map_eq_some_iff.mp h
    obtain ⟨r₀, hr₀, rfl⟩ := Table.row_update_eq_some.mp hr
    split at hname
    · cases hname
    · exact Option.map_eq_some_iff.mpr ⟨r₀, hr₀, hname⟩
  | _ => exact h

/-- A revocation keeps the account of every session. -/
theorem cell_revokeAllForUser (c : Column) (k : Nat × Nat) (u : UserId) :
    c.cell (revokeAllForUser db u) k = c.cell db k := by
  cases c with
  | sessionUser =>
    refine map_update_keep _ ?_
    exact fun _ => rfl
  | _ => rfl

/-- The steps after the erasure write the account into no column but the actor
of the audit log. -/
theorem names_deleted {c : Column} {u v : UserId} (hc : c ≠ .auditActor)
    (h : c.Names (deleted db u) v) : c.Names (scrubbed (requested db u) u db.now) v := by
  obtain ⟨k, hk⟩ := h
  rw [deleted, cell_revokeAllForUser] at hk
  have hfulfilled : c.cell (fulfilled (scrubbed (requested db u) u db.now)
      db.privacyRequest.next) k = some (some v) := by
    cases c with
    | auditActor => exact absurd rfl hc
    | _ => exact hk
  exact ⟨k, cell_fulfilled hfulfilled⟩

/-- After a deletion the audit log names the account, and so does every photo
that the account has reviewed. -/
theorem names_deleted_iff (c : Column) (u : UserId) :
    c.Names (deleted db u) u ↔ c = .auditActor ∨ (c.isReviewer = true ∧ c.Names db u) := by
  constructor
  · intro h
    by_cases hc : c = .auditActor
    · exact Or.inl hc
    obtain ⟨hreviewer, k, hk⟩ := (names_scrubbed_iff c).mp (names_deleted hc h)
    refine Or.inr ⟨hreviewer, k, ?_⟩
    cases c with
    | parkingPhotoReviewer | reviewPhotoReviewer => exact hk
    | _ => cases hreviewer
  · rintro (rfl | ⟨hreviewer, k, hk⟩)
    · refine ⟨(db.auditEvents.next + 1, 0), ?_⟩
      simp only [Column.cell, deleted, revokeAllForUser, audited]
      rw [Table.row_insert, if_pos (by rfl)]
      rfl
    · have hscrubbed : c.Names (scrubbed (requested db u) u db.now) u := by
        refine (names_scrubbed_iff c).mpr ⟨hreviewer, k, ?_⟩
        cases c with
        | parkingPhotoReviewer | reviewPhotoReviewer => exact hk
        | _ => cases hreviewer
      cases c with
      | parkingPhotoReviewer | reviewPhotoReviewer => exact hscrubbed
      | _ => cases hreviewer

/-- The completion event names the account: no deletion erases it. -/
theorem requestDeletion_not_erased {email : String}
    (h : (requestDeletion cases hasher user password confirmEmail).run db = (.ok (), db')) :
    ¬ Erased db' user.id email := by
  intro herased
  rw [(requestDeletion_ok h).2] at herased
  exact herased.ids .auditActor ((names_deleted_iff .auditActor user.id).mpr (Or.inl rfl))

/-- A moderator who signs in with Google and has approved a photo. -/
def photoModerator : Db :=
  { Db.empty 0 with
    users := Table.empty.insert
      { email := "mod@example.com", displayName := some "Mo", accountState := .active
        locale := .en, createdAt := 0 }
    authenticationIdentities := Table.empty.insert
      { userId := 1, provider := .google, providerSubject := "108", credentialHash := none }
    userRoles := (Table.empty.insert
      { userId := 1, role := .user, grantedBy := none, grantedAt := 0 }).insert
      { userId := 1, role := .moderator, grantedBy := none, grantedAt := 0 }
    parkingPhoto := Table.empty.insert
      { parentId := 1, uploaderId := none, storageKey := "p/1", thumbnailKey := none
        moderationState := .approved, reviewedBy := some 1, reviewedAt := some 0
        createdAt := 0 } }

/-- The moderator of `photoModerator`, signed in. -/
def photoModeratorSession : AuthenticatedUser where
  id := 1
  email := "mod@example.com"
  accountState := .active
  isVerified := true
  roles := [.user, .moderator]

/-- No password is hashed or verified for an account without one. -/
def noHasher : PasswordHasher where
  hash _ := none
  verify _ _ := none

theorem photoModerator_deleted :
    (requestDeletion .ascii noHasher photoModeratorSession none "Mod@example.com").run
      photoModerator = (.ok (), deleted photoModerator 1) := by
  have hreauth : reauthenticated .ascii noHasher photoModerator photoModeratorSession none
      "Mod@example.com" = true := by decide
  rw [requestDeletion_run hreauth (by decide) rfl, if_neg (by decide)]
  rfl

theorem requestDeletion_not_erased_moderator :
    ¬ Erased (deleted photoModerator 1) 1 "mod@example.com" :=
  requestDeletion_not_erased photoModerator_deleted

/-- The deletion of the moderator answers `Ok`; the audit log and the approved
photo still name the account. -/
theorem moderator_not_erased :
    (requestDeletion .ascii noHasher photoModeratorSession none "Mod@example.com").run
        photoModerator = (.ok (), deleted photoModerator 1) ∧
      Column.auditActor.Names (deleted photoModerator 1) 1 ∧
      Column.parkingPhotoReviewer.Names (deleted photoModerator 1) 1 ∧
      ¬ Erased (deleted photoModerator 1) 1 "mod@example.com" :=
  ⟨photoModerator_deleted, ⟨(2, 0), rfl⟩, ⟨(1, 0), rfl⟩, fun h => h.ids .auditActor ⟨(2, 0), rfl⟩⟩

end BikesNest.Privacy
