import BikesNest.Auth.Service
import BikesNest.Privacy.Deletion

/-!
# Inactive accounts

The step of the retention job that anonymizes inactive accounts: it picks the
candidates with one query and anonymizes one after the other, each in a
transaction of its own.

Both a deletion and this step give the account its `anonymizedEmail`, and both
fail when somebody else holds that address.  `vacant` says that nobody stands in
the way of a list of accounts, and `erasable_iff` that this decides the outcome.
-/

namespace BikesNest.Privacy

open Domain Store Relational Auth

/-! ## The step -/

/-- `RetentionConfig`: zero days switch a step off. -/
structure RetentionConfig where
  inactiveAccountAnonymizeAfterDays : Nat
deriving DecidableEq

/-- `COALESCE(max(last_seen_at), created_at)`. -/
def lastSeen (db : Db) (u : UserId) (createdAt : Instant) : Instant :=
  (((db.sessions.select fun _ s => s.userId == u).map fun x => x.2.lastSeenAt).max?).getD createdAt

/-- The role ADMIN is granted to `u`. -/
def isAdmin (db : Db) (u : UserId) : Bool :=
  db.userRoles.any fun _ r => r.userId == u && r.role == .admin

/-- The accounts that the query selects. -/
def inactiveCandidates (db : Db) (cutoff : Instant) : List UserId :=
  (db.users.select fun i r =>
    r.accountState != .deleted && !isAdmin db i && lastSeen db i r.createdAt < cutoff).map Prod.fst

/-- The loop over the candidates: how many it anonymized. -/
def anonymizeAll (cases : Text.CaseMap) : List UserId → Service Db PrivacyError Nat
  | [] => pure 0
  | u :: rest => do
    let _ ← repo fun db => anonymize cases db u db.now
    let count ← anonymizeAll cases rest
    return count + 1

/-- `anonymize_inactive_accounts`.  The query has no `ORDER BY`; `arrange` is the
order in which the database answers its rows. -/
def anonymizeInactiveAccounts (cases : Text.CaseMap) (arrange : List UserId → List UserId)
    (cutoff : Instant) : Service Db PrivacyError Nat := do
  let candidates ← Service.query .unavailable fun db => arrange (inactiveCandidates db cutoff)
  anonymizeAll cases candidates

/-- The inactive-account step of `RetentionJob::run` at the time `now`. -/
def inactiveAccountsStep (cases : Text.CaseMap) (arrange : List UserId → List UserId)
    (config : RetentionConfig) (now : Instant) : Service Db PrivacyError (Option Nat) :=
  if 0 < config.inactiveAccountAnonymizeAfterDays then do
    let count ← anonymizeInactiveAccounts cases arrange
      (now - config.inactiveAccountAnonymizeAfterDays * day)
    return some count
  else pure none

/-! ## Who stands in the way -/

/-- Nobody holds the replacement address of an account of the list at its turn;
`done` are the accounts that have theirs already. -/
def vacant (cases : Text.CaseMap) (users : Table User) : List UserId → List UserId → Bool
  | _, [] => true
  | done, u :: rest =>
    !(users.any fun i r => i != u && !done.contains i &&
      cases.lower r.email == cases.lower (anonymizedEmail u)) &&
    vacant cases users (u :: done) rest

variable {cases : Text.CaseMap} {db db' : Db}

/-- The accounts after those of `done` are erased. -/
structure ErasedOf (db : Db) (done : List UserId) (db' : Db) : Prop where
  erased : ∀ i ∈ done, ∀ r, db'.users.row i = some r → r.email = anonymizedEmail i
  others : ∀ i, i ∉ done → db'.users.row i = db.users.row i
  present : ∀ i, (db'.users.row i).isSome = (db.users.row i).isSome
  admins : ∀ i, isAdmin db i = false → isAdmin db' i = false

theorem ErasedOf.refl (db : Db) : ErasedOf db [] db :=
  ⟨by simp, fun _ _ => rfl, fun _ => rfl, fun _ => id⟩

/-- The replacement address of `u` is taken exactly when somebody holds it who
is not erased yet. -/
theorem ErasedOf.emailTaken_eq {done : List UserId} (h : ErasedOf db done db') (u : UserId) :
    emailTaken cases db'.users u (anonymizedEmail u) =
      db.users.any fun i r => i != u && !done.contains i &&
        cases.lower r.email == cases.lower (anonymizedEmail u) := by
  rw [Bool.eq_iff_iff, emailTaken, Table.any_iff, Table.any_iff]
  constructor
  · rintro ⟨i, r, hr, htaken⟩
    simp only [Bool.and_eq_true, bne_iff_ne, beq_iff_eq] at htaken
    by_cases hdone : i ∈ done
    · rw [h.erased i hdone r hr, lower_anonymizedEmail, lower_anonymizedEmail] at htaken
      exact absurd (anonymizedEmail_injective htaken.2) htaken.1
    · rw [h.others i hdone] at hr
      exact ⟨i, r, hr, by simpa [hdone] using htaken⟩
  · rintro ⟨i, r, hr, htaken⟩
    simp only [Bool.and_eq_true, bne_iff_ne, beq_iff_eq, Bool.not_eq_true',
      List.contains_eq_mem, decide_eq_false_iff_not] at htaken
    refine ⟨i, r, by rw [h.others i htaken.1.2, hr], ?_⟩
    simpa using ⟨htaken.1.1, htaken.2⟩

theorem isAdmin_scrubbed {u i : UserId} {now : Instant} (h : isAdmin db i = false) :
    isAdmin (scrubbed db u now) i = false := by
  rw [isAdmin, Table.any_eq_false_iff] at h ⊢
  intro k r hr
  obtain ⟨r₀, hr₀, rfl⟩ := Table.row_update_eq_some.mp hr
  have hsame := h k r₀ (Table.row_delete_eq_some.mp hr₀).1
  split <;> exact hsame

theorem ErasedOf.scrubbed {done : List UserId} (h : ErasedOf db done db') (u : UserId)
    (now : Instant) : ErasedOf db (u :: done) (scrubbed db' u now) := by
  refine ⟨fun i hi r hr => ?_, fun i hi => ?_, fun i => ?_, fun i hi =>
    isAdmin_scrubbed (h.admins i hi)⟩
  · obtain ⟨r₀, hr₀, rfl⟩ := Table.row_update_eq_some.mp hr
    by_cases hu : i = u
    · simp [hu, User.scrubbed]
    · rw [if_neg (by simpa using hu)]
      exact h.erased i ((List.mem_cons.mp hi).resolve_left hu) r₀ hr₀
  · obtain ⟨hu, hdone⟩ := not_or.mp (List.mem_cons.not.mp hi)
    rw [← h.others i hdone]
    simp [Privacy.scrubbed, hu]
  · rw [← h.present i]
    simp [Privacy.scrubbed]

/-- Somebody who is no ADMIN is not the last one. -/
theorem lastAdminLocked_of_isAdmin {u : UserId} (h : isAdmin db u = false) :
    lastAdminLocked db u = false := by
  apply lastAdminLocked_of_isLastAdmin
  have hnone : (db.userRoles.any fun _ r => r.role == .admin && r.userId == u) = false := by
    rw [← h, isAdmin]
    congr 1
    funext i r
    exact Bool.and_comm _ _
  rw [isLastAdmin, hnone, Bool.false_and]

/-- One turn of the loop. -/
theorem anonymize_turn {done : List UserId} (h : ErasedOf db done db') {u : UserId}
    (hrow : (db.users.row u).isSome = true) (hadmin : isAdmin db u = false) :
    anonymize cases db' u db'.now =
      if db.users.any fun i r => i != u && !done.contains i &&
          cases.lower r.email == cases.lower (anonymizedEmail u) then .error .conflict
      else .ok (anonymizationReport db' u, scrubbed db' u db'.now) := by
  rw [anonymize, lastAdminLocked_of_isAdmin (h.admins u hadmin), if_neg Bool.false_ne_true,
    h.present u, hrow, Bool.true_and, h.emailTaken_eq]

/-- The loop succeeds exactly when nobody stands in the way. -/
theorem anonymizeAll_ok_iff : ∀ (ids : List UserId) {done : List UserId} {db' : Db},
    ErasedOf db done db' → (∀ u ∈ ids, (db.users.row u).isSome = true ∧ isAdmin db u = false) →
      ((∃ count, ((anonymizeAll cases ids).run db').1 = .ok count) ↔
        vacant cases db.users done ids = true)
  | [], done, db', _, _ => by simp [anonymizeAll, vacant]
  | u :: rest, done, db', h, hids => by
    obtain ⟨hrow, hadmin⟩ := hids u (List.mem_cons_self ..)
    have hturn : anonymize cases db' u db'.now =
        if db.users.any fun i r => i != u && !done.contains i &&
            cases.lower r.email == cases.lower (anonymizedEmail u) then .error .conflict
        else .ok (anonymizationReport db' u, scrubbed db' u db'.now) :=
      anonymize_turn h hrow hadmin
    rw [anonymizeAll, vacant, Service.run_bind, repo, Service.run_request, hturn]
    cases db.users.any fun i r => i != u && !done.contains i &&
      cases.lower r.email == cases.lower (anonymizedEmail u) with
    | true => simp
    | false =>
      have hrest := anonymizeAll_ok_iff rest (h.scrubbed u db'.now) fun v hv =>
        hids v (List.mem_cons_of_mem u hv)
      rw [Bool.not_false, Bool.true_and, ← hrest]
      simp only [if_neg Bool.false_ne_true, Service.run_bind]
      rcases (anonymizeAll cases rest).run (scrubbed db' u db'.now) with ⟨_ | count, last⟩
      · simp
      · simp

theorem inactiveCandidates_spec {cutoff : Instant} {u : UserId}
    (h : u ∈ inactiveCandidates db cutoff) :
    (db.users.row u).isSome = true ∧ isAdmin db u = false := by
  obtain ⟨⟨i, r⟩, hmem, rfl⟩ := List.mem_map.mp h
  obtain ⟨hr, hcandidate⟩ := Table.mem_select.mp hmem
  simp only [Bool.and_eq_true, Bool.not_eq_true'] at hcandidate
  exact ⟨by rw [hr]; rfl, hcandidate.1.2⟩

/-- The state of the account. -/
def stateOf (db : Db) (u : UserId) : Option AccountState :=
  (db.users.row u).map User.accountState

theorem stateOf_deleted {u : UserId} (hrow : (db.users.row u).isSome = true) :
    stateOf (deleted db u) u = some .deleted := by
  obtain ⟨r, hr⟩ := Option.isSome_iff_exists.mp hrow
  simp [stateOf, deleted, revokeAllForUser, audited, fulfilled, scrubbed, requested, withRequest,
    User.scrubbed, hr]

/-- A deletion erases the account exactly when no other account holds its
replacement address, and the inactive-account step succeeds exactly when nobody
stands in the way of a candidate at its turn. -/
theorem erasable_iff {hasher : PasswordHasher} {user : AuthenticatedUser}
    {password : Option String} {confirmEmail : String} {arrange : List UserId → List UserId}
    (config : RetentionConfig)
    (hreauth : reauthenticated cases hasher db user password confirmEmail = true)
    (hadmin : isLastAdmin db user.id = false) (hrow : (db.users.row user.id).isSome = true)
    (harrange : ∀ ids, (arrange ids).Perm ids) :
    (((requestDeletion cases hasher user password confirmEmail).run db).1 = .ok () ∧
        stateOf ((requestDeletion cases hasher user password confirmEmail).run db).2 user.id =
          some .deleted ↔
      emailTaken cases db.users user.id (anonymizedEmail user.id) = false) ∧
    ((∃ count, ((inactiveAccountsStep cases arrange config db.now).run db).1 = .ok count) ↔
      config.inactiveAccountAnonymizeAfterDays = 0 ∨
        vacant cases db.users [] (arrange (inactiveCandidates db
          (db.now - config.inactiveAccountAnonymizeAfterDays * day))) = true) := by
  constructor
  · rw [requestDeletion_run hreauth hadmin hrow]
    cases emailTaken cases db.users user.id (anonymizedEmail user.id) with
    | true => simp
    | false => simp [stateOf_deleted hrow]
  · rw [inactiveAccountsStep]
    split
    · rename_i hdays
      have hall : (∃ count, ((anonymizeAll cases (arrange (inactiveCandidates db
            (db.now - config.inactiveAccountAnonymizeAfterDays * day)))).run db).1 = .ok count) ↔
          vacant cases db.users [] (arrange (inactiveCandidates db
            (db.now - config.inactiveAccountAnonymizeAfterDays * day))) = true :=
        anonymizeAll_ok_iff _ (ErasedOf.refl db) fun u hu =>
          inactiveCandidates_spec ((harrange _).mem_iff.mp hu)
      rw [← hall, or_iff_right (by omega), anonymizeInactiveAccounts, Service.run_bind,
        Service.run_bind_of_ok (Service.run_query ..)]
      rcases (anonymizeAll cases (arrange (inactiveCandidates db
        (db.now - config.inactiveAccountAnonymizeAfterDays * day)))).run db with ⟨_ | count, last⟩
      · simp
      · simp
    · rename_i hdays
      simp only [Service.run_pure, Except.ok.injEq, exists_eq']
      exact iff_of_true trivial (Or.inl (by omega))

/-- The rider who owns account 1, signed in. -/
def rider : AuthenticatedUser where
  id := 1
  email := "rider@example.com"
  accountState := .pendingEmailVerification
  isVerified := false
  roles := [.user]

/-- The database after the rider has registered. -/
def oneRider : Db :=
  ((register sampleDeps (samplePorts zeroToken) "203.0.113.7" "Rider@Example.com" none
    "correct horse" .en).run (Db.empty 0)).2

/-- The same half a year later. -/
def halfYearLater : Db := { oneRider with now := 180 * day }

/-- The database after somebody else has registered the address that the rider
would get. -/
def squatted : Db :=
  ((register sampleDeps (samplePorts oneToken) "203.0.113.9" "Deleted+1@bikesnest.invalid" none
    "correct horse" .en).run oneRider).2

/-- The rider can be erased while nobody holds the address, and a run of the
job half a year later would erase the rider too. -/
theorem erasable_iff_rider :
    (((requestDeletion .ascii (samplePorts zeroToken).hasher rider (some "correct horse")
        "rider@example.com").run oneRider).1 = .ok () ∧
      stateOf ((requestDeletion .ascii (samplePorts zeroToken).hasher rider
        (some "correct horse") "rider@example.com").run oneRider).2 1 = some .deleted) ∧
    ∃ count, ((inactiveAccountsStep .ascii id ⟨90⟩ halfYearLater.now).run halfYearLater).1 =
      .ok count := by
  have hnow : reauthenticated .ascii (samplePorts zeroToken).hasher oneRider rider
      (some "correct horse") "rider@example.com" = true := by decide +kernel
  have hlater : reauthenticated .ascii (samplePorts zeroToken).hasher halfYearLater rider
      (some "correct horse") "rider@example.com" = true := by decide +kernel
  have harrange : ∀ ids : List UserId, (id ids).Perm ids := fun _ => .rfl
  have hdeletion := (erasable_iff ⟨90⟩ hnow (by decide +kernel) (by decide +kernel) harrange).1
  have hinactive := (erasable_iff ⟨90⟩ hlater (by decide +kernel) (by decide +kernel) harrange).2
  exact ⟨hdeletion.mpr (by decide +kernel), hinactive.mpr (by decide +kernel)⟩

/-- The address of the rider is taken, so the rider cannot be erased. -/
theorem squatted_not_erasable :
    reauthenticated .ascii (samplePorts zeroToken).hasher squatted rider (some "correct horse")
        "rider@example.com" = true ∧
      isLastAdmin squatted 1 = false ∧
      ((requestDeletion .ascii (samplePorts zeroToken).hasher rider (some "correct horse")
        "rider@example.com").run squatted).1 = .error .conflict ∧
      stateOf ((requestDeletion .ascii (samplePorts zeroToken).hasher rider
        (some "correct horse") "rider@example.com").run squatted).2 1 =
          some .pendingEmailVerification := by
  refine ⟨?_, ?_, ?_, ?_⟩
  · decide +kernel
  · decide +kernel
  · decide +kernel
  · decide +kernel

end BikesNest.Privacy
