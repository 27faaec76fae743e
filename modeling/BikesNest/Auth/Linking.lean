import BikesNest.Auth.Writes
import BikesNest.Lib.Run

/-!
# Provider identities and passwords from before the link

`oauth_callback` links the identity of a provider to the account with the address that
the provider has verified.  Anyone can have registered that account with a password of
their own, and it need not have proved the address.

* `linkedTo` is the account that a callback links, and `oauthCallback_links` says that
  it does.
* `Bare` relates the database before and after a call that gives no existing account a
  password.
* `linksProved` is the condition on a step, and `unshared_throughout` the result: an
  account that was linked unproved cannot be opened with a password, unless that was set
  after the link.
-/

namespace BikesNest.Auth

open Domain Store Relational Runs

/-! ## Runs -/

/-- What anybody may ask for.  The process reads its own clock, `now`. -/
inductive LinkRequest where
  | register (ip rawEmail : String) (displayName : Option String) (rawPassword : String)
      (locale : LocaleCode)
  | login (ip rawEmail rawPassword : String)
  | verifyEmail (rawToken : String)
  | requestPasswordReset (ip rawEmail : String) (now : Instant)
  | resetPassword (rawToken rawPassword : String) (now : Instant)
  | oauthCallback (code : String)

/-- A step of a run: time passes, or somebody makes a request and loses at most one of its
store calls. -/
inductive LinkOp where
  | wait (d : Nat)
  | request (ports : Ports) (lost : Option Nat) (request : LinkRequest)

variable (deps : Deps) (ports : Ports) (lost : Option Nat)

/-- The database after a request. -/
def LinkRequest.run (db : Db) : LinkRequest → Db
  | .register ip rawEmail displayName rawPassword locale =>
    ((Auth.register deps ports ip rawEmail displayName rawPassword locale).runLosing lost db).2
  | .login ip rawEmail rawPassword =>
    ((Auth.login deps ports ip rawEmail rawPassword).runLosing lost db).2
  | .verifyEmail rawToken => ((Auth.verifyEmail deps rawToken).runLosing lost db).2
  | .requestPasswordReset ip rawEmail now =>
    match UserEmail.parse deps.cases rawEmail with
    | .error _ => db
    | .ok email => ((Auth.requestPasswordReset deps ports ip email now).runLosing lost db).2
  | .resetPassword rawToken rawPassword now =>
    ((Auth.resetPassword deps ports rawToken rawPassword now).runLosing lost db).2
  | .oauthCallback code => ((Auth.oauthCallback deps ports code).runLosing lost db).2

/-- The account that the callback links: no account has the identity, the provider has
verified the address of an account, and the calls up to the link are answered. -/
def LinkRequest.linkedTo (db : Db) : LinkRequest → Option UserId
  | .oauthCallback code => do
    let identity ← ports.exchange code
    let user ← (findByEmail deps.cases db identity.email).toOption.join
    if (findIdentity db identity.provider identity.subject).isNone && identity.emailVerified &&
        lost.all (3 ≤ ·) then
      some user.id
    else none
  | _ => none

/-- The account that gets a new password: the token is live, the password is accepted and
hashed, and the calls up to the update are answered. -/
def LinkRequest.resets (db : Db) : LinkRequest → Option UserId
  | .resetPassword rawToken rawPassword now => do
    let token ← decodeToken deps rawToken
    let row ← liveReset deps db token now
    if 8 ≤ rawPassword.length && (ports.hasher.hash rawPassword).isSome && lost.all (2 ≤ ·) then
      some row.userId
    else none
  | _ => none

/-- The address of the account was verified. -/
def isProved (db : Db) (u : UserId) : Bool := (db.users.row u).any (·.emailVerifiedAt.isSome)

/-- The database, with the accounts that were linked before their own address was verified
and whose password was not set since. -/
structure Links where
  db : Db
  unproved : List UserId := []

/-- One step of a run. -/
def Links.exec (s : Links) : LinkOp → Links
  | .wait d => { s with db := { s.db with now := s.db.now + d } }
  | .request ports lost request =>
    let kept := s.unproved.filter fun u => request.resets deps ports lost s.db != some u
    let linked := (request.linkedTo deps ports lost s.db).filter fun u => !isProved s.db u
    { db := request.run deps ports lost s.db, unproved := linked.toList ++ kept }

/-- The login with these answers of the ports signs in to the account. -/
def Opens (db : Db) (u : UserId) (ports : Ports) (ip rawEmail rawPassword : String) : Prop :=
  ∃ outcome db', (login deps ports ip rawEmail rawPassword).run db = (.ok outcome, db') ∧
    outcome.user.id = u

/-- No password opens an account that was linked unproved. -/
def Unshared (s : Links) : Prop :=
  ∀ u ∈ s.unproved, ∀ ports ip rawEmail rawPassword,
    ¬ Opens deps s.db u ports ip rawEmail rawPassword

/-- The account has a password. -/
def hasPassword (db : Db) (u : UserId) : Bool :=
  db.authenticationIdentities.any fun _ r =>
    r.userId == u && r.provider == .password && r.credentialHash.isSome

/-- The step links no account that has a password and no verified address. -/
def linksProved (s : Links) : LinkOp → Bool
  | .wait _ => true
  | .request ports lost request =>
    (request.linkedTo deps ports lost s.db).all fun u => isProved s.db u || !hasPassword s.db u

/-! ## Accounts without a password -/

/-- Accounts stay, and of those without a password only the ones of `T` may get one. -/
structure Bare (T : UserId → Prop) (db db' : Db) : Prop where
  users : ∀ u, (db.users.row u).isSome = true → (db'.users.row u).isSome = true
  bare : ∀ u, (db.users.row u).isSome = true → ¬ T u → hasPassword db u = false →
    hasPassword db' u = false

instance (T : UserId → Prop) : IsPreorder Db (Bare T) where
  refl _ := ⟨fun _ h => h, fun _ _ _ h => h⟩
  trans _ _ _ h h' := ⟨fun u hu => h'.users u (h.users u hu), fun u hu hT hbare =>
    h'.bare u (h.users u hu) hT (h.bare u hu hT hbare)⟩

variable {deps ports lost} {T : UserId → Prop} {db db' : Db} {u : UserId}

theorem hasPassword_eq_false : hasPassword db u = false ↔
    ∀ i r, db.authenticationIdentities.row i = some r → r.userId = u → r.provider = .password →
      r.credentialHash = none := by
  unfold hasPassword
  rw [Table.any_eq_false_iff]
  constructor
  · intro h i r hr huser hprovider
    have hrow := h i r hr
    simpa [huser, hprovider] using hrow
  · intro h i r hr
    by_contra hrow
    simp only [Bool.not_eq_false, Bool.and_eq_true, beq_iff_eq] at hrow
    have hnone := h i r hr hrow.1.1 hrow.1.2
    rw [hnone] at hrow
    cases hrow.2

/-- A call that writes neither accounts nor identities. -/
theorem Bare.of_eq (husers : db'.users = db.users)
    (hidentities : db'.authenticationIdentities = db.authenticationIdentities) : Bare T db db' := by
  refine ⟨fun u hu => by rwa [husers], fun u _ _ hbare => ?_⟩
  unfold hasPassword at hbare ⊢
  rwa [hidentities]

/-- An update of accounts. -/
theorem Bare.of_users {p : Nat → User → Bool} {f : User → User} :
    Bare T db { db with users := db.users.update p f } := by
  refine ⟨fun u hu => ?_, fun u _ _ hbare => hbare⟩
  obtain ⟨r, hr⟩ := Option.isSome_iff_exists.mp hu
  show ((db.users.update p f).row u).isSome = true
  rw [Table.row_update, hr]
  rfl

variable (deps) in
/-- Every statement on accounts and identities but a new password. -/
theorem accountWrites_bare : AccountWrites deps (fun _ => True) (Bare T) where
  other := Bare.of_eq
  accounts _ := Bare.of_users
  created {db new id db'} h := by
    unfold create at h
    split at h
    · cases h
    split at h
    · cases h
    cases h
    refine ⟨fun u hu => ?_, fun u hu _ hbare => ?_⟩
    · obtain ⟨r, hr⟩ := Option.isSome_iff_exists.mp hu
      show ((db.users.insert _).row u).isSome = true
      rw [Table.row_insert_of_some _ hr]
      rfl
    · obtain ⟨r, hr⟩ := Option.isSome_iff_exists.mp hu
      rw [hasPassword_eq_false] at hbare ⊢
      intro i row hrow huser hprovider
      dsimp only at hrow
      split at hrow
      · rcases Table.row_insert_eq_some.mp hrow with ⟨_, rfl⟩ | hold
        · exact absurd huser.symm (Nat.ne_of_lt (Table.lt_next hr))
        · exact hbare i row hold huser hprovider
      · exact hbare i row hrow huser hprovider
  -- the password identities of the account get another subject
  confirmed {db id email db'} h := by
    unfold confirmEmail at h
    split at h
    · cases h
    split at h
    · cases h
    cases h
    refine ⟨(Bare.of_users (T := T)).users, fun u _ _ hbare => ?_⟩
    rw [hasPassword_eq_false] at hbare ⊢
    intro i row hrow huser hprovider
    obtain ⟨r, hr, rfl⟩ := Table.row_update_eq_some.mp hrow
    split at huser
    · next hpassword =>
      rw [if_pos hpassword] at hprovider ⊢
      exact hbare i r hr huser hprovider
    · next hpassword =>
      rw [if_neg hpassword] at hprovider ⊢
      exact hbare i r hr huser hprovider
  -- an identity without a hash is no password
  linked {db id provider subject db'} _ h := by
    unfold linkIdentity at h
    split at h
    · cases h
      exact refl_of (Bare T) _
    split at h
    · cases h
    cases h
    refine ⟨fun u hu => hu, fun u _ _ hbare => ?_⟩
    rw [hasPassword_eq_false] at hbare ⊢
    intro i row hrow huser hprovider
    rcases Table.row_insert_eq_some.mp hrow with ⟨_, rfl⟩ | hold
    · rfl
    · exact hbare i row hold huser hprovider

theorem setPassword_bare {id : UserId} (hash : String) (hT : T id) :
    Bare T db (setPassword db id hash) := by
  refine ⟨fun u hu => hu, fun u _ hnot hbare => ?_⟩
  rw [hasPassword_eq_false] at hbare ⊢
  intro i row hrow huser hprovider
  obtain ⟨r, hr, rfl⟩ := Table.row_update_eq_some.mp hrow
  split at huser
  · next hpassword =>
    have hid : r.userId = id := by
      unfold isPasswordOf at hpassword
      simpa using (Bool.and_eq_true_iff.mp hpassword).1
    exact absurd (by rw [← huser, hid]; exact hT) hnot
  · next hpassword =>
    rw [if_neg hpassword] at hprovider ⊢
    exact hbare i r hr huser hprovider

/-- Only the account of the condition may get a password by a reset. -/
theorem resetPassword_bare (db : Db) (rawToken rawPassword : String) (now : Instant) :
    Bare (fun u => (LinkRequest.resetPassword rawToken rawPassword now).resets deps ports lost db =
        some u) db ((resetPassword deps ports rawToken rawPassword now).runLosing lost db).2 := by
  unfold resetPassword
  cases htoken : decodeToken deps rawToken with
  | none =>
    dsimp only
    rw [Service.runLosing_throw]
    exact refl_of (Bare _) db
  | some token =>
  dsimp only
  rw [repo, Service.runLosing_request]
  by_cases hfirst : lost = some 0
  · rw [if_pos hfirst]
    exact refl_of (Bare _) db
  rw [if_neg hfirst]
  have hconsumed : ∀ T, Bare T db (consumeReset deps db token now).2 :=
    fun T => .of_eq rfl rfl
  unfold consumeReset at hconsumed ⊢
  dsimp only at hconsumed ⊢
  cases hlive : liveReset deps db token now with
  | none =>
    dsimp only [Option.map_none]
    rw [Service.runLosing_throw]
    exact hconsumed _
  | some row =>
  dsimp only [Option.map_some]
  unfold replacePassword validatePassword
  rw [Service.runLosing_require]
  by_cases hlength : 8 ≤ rawPassword.length
  case neg =>
    rw [if_neg (by simpa using hlength)]
    exact hconsumed _
  rw [if_pos (by simpa using hlength)]
  cases hhash : ports.hasher.hash rawPassword with
  | none =>
    dsimp only
    rw [Service.runLosing_throw]
    exact hconsumed _
  | some hash =>
  dsimp only
  rw [Service.runLosing_execute]
  by_cases hsecond : lost.map (· - 1) = some 0
  · rw [if_pos hsecond]
    exact hconsumed _
  rw [if_neg hsecond]
  -- the calls up to the update are answered
  have hlost : lost.all (2 ≤ ·) = true := by
    cases lost with
    | none => rfl
    | some n =>
      simp only [Option.map_some, Option.some.injEq, Option.all_some, decide_eq_true_eq] at *
      omega
  have hresets : (LinkRequest.resetPassword rawToken rawPassword now).resets deps ports lost db =
      some row.userId := by
    simp [LinkRequest.resets, htoken, hlive, hlength, hhash, hlost]
  refine trans_of (Bare _) (hconsumed _) (trans_of (Bare _) (setPassword_bare hash hresets) ?_)
  refine Service.Respects.runLosing ?_ _ _
  exact .bind (.execute _ fun _ => .of_eq rfl rfl) fun _ => (accountWrites_bare deps).audit _ _

theorem refuse_error {α : Type} {key : UserEmail} {a : α} :
    (refuse key : Service Db AuthError α).run db ≠ (.ok a, db') := by
  intro h
  obtain ⟨_, _, _, hthrow⟩ := Service.run_bind_ok h
  cases hthrow

theorem read_ok {α : Type} {f : Db → Except AuthError α} {a : α}
    (h : (read f).run db = (.ok a, db')) : f db = .ok a ∧ db = db' := by
  have hf := Service.run_request_ok.mp h
  cases hdb : f db with
  | error e =>
    rw [hdb] at hf
    cases hf
  | ok x =>
    rw [hdb] at hf
    cases hf
    exact ⟨rfl, rfl⟩

theorem findById_id {cases' : Text.CaseMap} {user : LoadedUser}
    (h : findById cases' db u = .ok (some user)) : user.id = u := by
  unfold findById at h
  split at h
  · cases h
  · next row _ =>
    unfold loadUser at h
    split at h
    · cases h
    · cases h
      rfl

theorem signIn_ok {user : LoadedUser} {outcome : LoginOutcome}
    (h : (signIn deps ports user).run db = (.ok outcome, db')) : outcome.user.id = user.id := by
  obtain ⟨_, _, _, h⟩ := Service.run_bind_ok h
  obtain ⟨_, _, _, h⟩ := Service.run_bind_ok h
  obtain ⟨_, _, _, h⟩ := Service.run_bind_ok h
  cases h
  rfl

/-- A password login that succeeds opens an account with a password. -/
theorem hasPassword_of_opens {ip rawEmail rawPassword : String}
    (h : Opens deps db u ports ip rawEmail rawPassword) : hasPassword db u = true := by
  obtain ⟨outcome, db', hrun, rfl⟩ := h
  unfold login at hrun
  split at hrun
  · cases hrun
  next email _ =>
  obtain ⟨_, s₁, hallowed, hrun⟩ := Service.run_bind_ok hrun
  obtain ⟨_, rfl⟩ := Service.run_require_ok.mp hallowed
  obtain ⟨_, s₂, hallowed, hrun⟩ := Service.run_bind_ok hrun
  obtain ⟨_, rfl⟩ := Service.run_require_ok.mp hallowed
  obtain ⟨found, s₃, hquery, hrun⟩ := Service.run_bind_ok hrun
  obtain ⟨rfl, rfl⟩ := Service.run_query_ok.mp hquery
  cases hfound : findIdentity db .password email with
  | none =>
    rw [hfound] at hrun
    exact absurd hrun refuse_error
  | some identity =>
  rw [hfound] at hrun
  dsimp only at hrun
  split at hrun
  · exact absurd hrun refuse_error
  next hash hhash =>
  unfold loginHash at hrun
  split at hrun
  · cases hrun
  · exact absurd hrun refuse_error
  obtain ⟨user, s₄, hcall, hrun⟩ := Service.run_bind_ok hrun
  obtain ⟨hread, rfl⟩ := read_ok hcall
  cases user with
  | none => exact absurd hrun refuse_error
  | some user =>
  dsimp only at hrun
  split at hrun
  case isFalse => exact absurd hrun refuse_error
  rw [signIn_ok hrun, findById_id hread]
  obtain ⟨⟨i, r⟩, hhead, rfl⟩ := Option.map_eq_some_iff.mp hfound
  obtain ⟨hrow, hkey⟩ := Table.mem_select.mp (List.mem_of_head? hhead)
  refine Table.any_iff.mpr ⟨i, r, hrow, ?_⟩
  rw [Bool.and_eq_true, beq_iff_eq] at hkey
  have hsome : r.credentialHash.isSome = true := by
    rw [hhash]
    rfl
  simp [hkey.1, hsome]

/-! ## The law -/

/-- Every request leaves the accounts without a password as they are, but for the one that
it resets. -/
theorem LinkRequest.run_bare (deps : Deps) (ports : Ports) (lost : Option Nat) (db : Db)
    (request : LinkRequest) :
    Bare (fun u => request.resets deps ports lost db = some u) db
      (request.run deps ports lost db) := by
  cases request with
  | register ip rawEmail displayName rawPassword locale =>
    exact (register_respects (accountWrites_bare deps) ip rawEmail displayName rawPassword
      locale).runLosing lost db
  | login ip rawEmail rawPassword =>
    exact (login_respects (accountWrites_bare deps) ip rawEmail rawPassword).runLosing lost db
  | verifyEmail rawToken =>
    exact (verifyEmail_respects (accountWrites_bare deps) rawToken).runLosing lost db
  | requestPasswordReset ip rawEmail now =>
    simp only [LinkRequest.run]
    split
    · exact refl_of (Bare _) db
    · exact (requestPasswordReset_respects (accountWrites_bare deps) ip _ now).runLosing lost db
  | resetPassword rawToken rawPassword now => exact resetPassword_bare db rawToken rawPassword now
  | oauthCallback code =>
    exact (oauthCallback_respects (accountWrites_bare deps) fun _ _ => trivial).runLosing lost db

/-- The accounts that were linked unproved exist and have no password. -/
def UnprovedBare (s : Links) : Prop :=
  ∀ u ∈ s.unproved, (s.db.users.row u).isSome = true ∧ hasPassword s.db u = false

theorem findByEmail_row {cases' : Text.CaseMap} {email : UserEmail} {user : LoadedUser}
    (h : findByEmail cases' db email = .ok (some user)) : (db.users.row user.id).isSome = true := by
  unfold findByEmail at h
  split at h
  · cases h
  · next id row hhead =>
    have hrow := (Table.mem_select.mp (List.mem_of_head? hhead)).1
    unfold loadUser at h
    split at h
    · cases h
    · cases h
      show (db.users.row id).isSome = true
      rw [hrow]
      rfl

/-- What the condition of a link says. -/
theorem LinkRequest.linkedTo_oauthCallback {code : String}
    (h : (LinkRequest.oauthCallback code).linkedTo deps ports lost db = some u) :
    ∃ identity user, ports.exchange code = some identity ∧
      findByEmail deps.cases db identity.email = .ok (some user) ∧ user.id = u ∧
      findIdentity db identity.provider identity.subject = none ∧
      identity.emailVerified = true ∧ lost.all (3 ≤ ·) = true := by
  simp only [LinkRequest.linkedTo, Option.bind_eq_bind, Option.bind_eq_some_iff] at h
  obtain ⟨identity, hexchange, user, hfound, hguard⟩ := h
  split at hguard
  case isFalse => cases hguard
  next hlinks =>
  cases hguard
  rw [Bool.and_eq_true, Bool.and_eq_true, Option.isNone_iff_eq_none] at hlinks
  obtain ⟨⟨hknown, hverified⟩, hlost⟩ := hlinks
  refine ⟨identity, user, hexchange, ?_, rfl, hknown, hverified, hlost⟩
  cases hby : findByEmail deps.cases db identity.email with
  | error e =>
    rw [hby] at hfound
    cases hfound
  | ok found =>
    rw [hby] at hfound
    cases found with
    | none => cases hfound
    | some x =>
      cases hfound
      rfl

/-- An account that is linked exists. -/
theorem LinkRequest.isSome_of_linkedTo {request : LinkRequest}
    (h : request.linkedTo deps ports lost db = some u) : (db.users.row u).isSome = true := by
  cases request with
  | oauthCallback code =>
    obtain ⟨_, user, _, hfound, rfl, _⟩ := LinkRequest.linkedTo_oauthCallback h
    exact findByEmail_row hfound
  | _ => cases h

variable (deps ports) in
theorem signIn_identities (user : LoadedUser) :
    (signIn deps ports user).Respects (Service.Frame Db.authenticationIdentities) := by
  refine .bind (.require _ _) fun _ => .bind (.request (refl_of _) fun db _ db' h => ?_) fun _ =>
    .bind (audit_respects (refl_of _) (fun db db' h => ?_) _) fun _ => .pure _
  · obtain ⟨-, hmade⟩ := createSession_eq_ok h
    cases hmade
    rfl
  · obtain ⟨_, _, rfl⟩ := recordAudit_eq_some h
    rfl

/-- A callback that meets the condition of a link gives the identity of the provider to the
account, whose address is the one that the provider has verified. -/
theorem oauthCallback_links {code : String}
    (h : (LinkRequest.oauthCallback code).linkedTo deps ports lost db = some u) :
    ∃ identity i r, ports.exchange code = some identity ∧ identity.emailVerified = true ∧
      ((oauthCallback deps ports code).runLosing lost db).2.authenticationIdentities.row i =
        some r ∧
      r.userId = u ∧ r.provider = identity.provider ∧ r.providerSubject = identity.subject := by
  obtain ⟨identity, user, hexchange, hfound, rfl, hknown, hverified, hlost⟩ :=
    LinkRequest.linkedTo_oauthCallback h
  obtain ⟨hfirst, hsecond, hthird⟩ : lost ≠ some 0 ∧ lost.map (· - 1) ≠ some 0 ∧
      (lost.map (· - 1)).map (· - 1) ≠ some 0 := by
    cases lost with
    | none => simp
    | some n =>
      simp only [Option.all_some, decide_eq_true_eq, Option.map_some, ne_eq,
        Option.some.injEq] at hlost ⊢
      omega
  have hfree : hasIdentity db identity.provider identity.subject = false := by
    unfold findIdentity at hknown
    rw [Option.map_eq_none_iff, List.head?_eq_none_iff] at hknown
    refine Table.any_eq_false_iff.mpr fun i r hr => ?_
    by_contra hkey
    have hmem : (i, r) ∈ db.authenticationIdentities.select fun _ r =>
        r.provider == identity.provider && r.providerSubject == identity.subject :=
      Table.mem_select.mpr ⟨hr, Bool.eq_true_of_not_eq_false hkey⟩
    rw [hknown] at hmem
    cases hmem
  have hlinked : linkIdentity db user.id identity.provider identity.subject none =
      .ok ((), { db with
        authenticationIdentities := db.authenticationIdentities.insert
          { userId := user.id, provider := identity.provider
            providerSubject := identity.subject, credentialHash := none } }) := by
    unfold linkIdentity
    obtain ⟨row, hrow⟩ := Option.isSome_iff_exists.mp (findByEmail_row hfound)
    rw [hfree, hrow]
    rfl
  unfold oauthCallback findVerified
  rw [hexchange]
  dsimp only
  rw [Service.runLosing_query, if_neg hfirst, hknown]
  dsimp only
  rw [if_pos hverified, read, repo, Service.runLosing_request, if_neg hsecond, hfound]
  dsimp only [Except.map]
  rw [repo, Service.runLosing_request, if_neg hthird, hlinked]
  dsimp only
  have hkept := (signIn_identities deps ports user).runLosing
    (((lost.map (· - 1)).map (· - 1)).map (· - 1)) { db with
      authenticationIdentities := db.authenticationIdentities.insert
        { userId := user.id, provider := identity.provider
          providerSubject := identity.subject, credentialHash := none } }
  refine ⟨identity, db.authenticationIdentities.next,
    { userId := user.id, provider := identity.provider
      providerSubject := identity.subject, credentialHash := none }, rfl, hverified, ?_, rfl, rfl,
    rfl⟩
  rw [hkept]
  exact Table.row_insert_next ..

theorem UnprovedBare.exec {s : Links} (hs : UnprovedBare s) (op : LinkOp)
    (hop : linksProved deps s op = true) : UnprovedBare (s.exec deps op) := by
  cases op with
  | wait d => exact hs
  | request ports lost request =>
    have hbare := request.run_bare deps ports lost s.db
    have hkept : ∀ u, request.resets deps ports lost s.db ≠ some u →
        (s.db.users.row u).isSome = true → hasPassword s.db u = false →
        ((request.run deps ports lost s.db).users.row u).isSome = true ∧
          hasPassword (request.run deps ports lost s.db) u = false :=
      fun u hreset hrow hnone => ⟨hbare.users u hrow, hbare.bare u hrow hreset hnone⟩
    intro u hu
    rcases List.mem_append.mp hu with hlinked | hold
    · obtain ⟨hlink, hunproved⟩ := Option.filter_eq_some_iff.mp (Option.mem_toList.mp hlinked)
      have hproved : (isProved s.db u || !hasPassword s.db u) = true := by
        simpa [linksProved, hlink] using hop
      have hnone : hasPassword s.db u = false := by simp_all
      refine hkept u ?_ (LinkRequest.isSome_of_linkedTo hlink) hnone
      cases request with
      | oauthCallback code => exact fun hreset => by cases hreset
      | _ => cases hlink
    · obtain ⟨hmem, hreset⟩ := List.mem_filter.mp hold
      obtain ⟨hrow, hnone⟩ := hs u hmem
      exact hkept u (by simpa using hreset) hrow hnone

theorem UnprovedBare.unshared {s : Links} (hs : UnprovedBare s) : Unshared deps s := by
  intro u hu ports ip rawEmail rawPassword hopens
  have hpassword := hasPassword_of_opens hopens
  rw [(hs u hu).2] at hpassword
  cases hpassword

/-- In a run from any database that links no account with a password and without a verified
address, no password opens an account that was linked unproved, unless it was set after the
link. -/
theorem unshared_throughout (deps : Deps) (db : Db) (ops : List LinkOp)
    (h : Along (Links.exec deps) (fun s op => linksProved deps s op = true) ⟨db, []⟩ ops) :
    Throughout (Links.exec deps) (Unshared deps) ⟨db, []⟩ ops :=
  h.throughout (J := UnprovedBare) (fun _ op hs hop => hs.exec op hop) (fun _ hs => hs.unshared)
    fun _ hu => absurd hu List.not_mem_nil

/-! ## A rider who signs in with a provider -/

/-- The provider has verified the address of the rider. -/
def riderGoogle : Ports :=
  { samplePorts oneToken with
    exchange := fun _ => some
      { provider := .google, subject := "108", email := "rider@example.com"
        emailVerified := true } }

/-- Somebody registers the address of the rider. -/
def signUpRequest : LinkOp :=
  .request (samplePorts zeroToken) none
    (.register "203.0.113.7" "Rider@Example.com" none "correct horse" .en)

/-- The rider comes back from the provider. -/
def googleSignIn : LinkOp := .request riderGoogle none (.oauthCallback "code")

/-- The address is verified before the link. -/
theorem unshared_throughout_verified :
    Throughout (Links.exec sampleDeps) (Unshared sampleDeps) ⟨Db.empty 0, []⟩
      [signUpRequest,
        .request (samplePorts zeroToken) none
          (.verifyEmail (sampleDeps.base64url zeroToken.bytes)),
        googleSignIn] := by
  refine unshared_throughout sampleDeps (Db.empty 0) _ ⟨?_, ?_, ?_, trivial⟩
  · decide +kernel
  · decide +kernel
  · decide +kernel

/-- A login that answers an account, as a test. -/
theorem opens_of_any {ip rawEmail rawPassword : String}
    (h : ((login deps ports ip rawEmail rawPassword).run db).1.toOption.any
      (fun outcome => outcome.user.id == u) = true) :
    Opens deps db u ports ip rawEmail rawPassword := by
  cases hrun : (login deps ports ip rawEmail rawPassword).run db with
  | mk result db' =>
    rw [hrun] at h
    cases result with
    | error e => cases h
    | ok outcome => exact ⟨outcome, db', hrun, by simpa [Except.toOption] using h⟩

/-- Nobody verifies the address: the callback links the account, and the password of the
registration still opens it. -/
theorem not_unshared_preregistered :
    ¬ Throughout (Links.exec sampleDeps) (Unshared sampleDeps) ⟨Db.empty 0, []⟩
      [signUpRequest, googleSignIn] := by
  rintro ⟨_, _, hunshared⟩
  have hlinked : ([signUpRequest, googleSignIn].foldl (Links.exec sampleDeps)
      ⟨Db.empty 0, []⟩).unproved = [1] := by decide +kernel
  refine hunshared 1 ?_ (samplePorts zeroToken) "198.51.100.9" "rider@example.com"
    "correct horse" (opens_of_any ?_)
  · show 1 ∈ ([signUpRequest, googleSignIn].foldl (Links.exec sampleDeps)
      ⟨Db.empty 0, []⟩).unproved
    rw [hlinked]
    exact List.mem_singleton_self 1
  · decide +kernel

end BikesNest.Auth
