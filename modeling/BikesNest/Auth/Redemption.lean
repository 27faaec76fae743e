import BikesNest.Auth.PasswordChange
import BikesNest.Auth.PasswordIdentity

/-!
# Redeeming a mailed token

A reset of a password and a verification of an address consume their token in the first
call, and each later step is a call of its own.

* `resetPassword_done` is what a reset that has succeeded has done: the account of the
  token has the new hash where it has a password identity, and nowhere else.
* `redemption_fails` is what one that has failed has done: the token is consumed unless
  the first call did not find it live.
-/

namespace BikesNest.Auth

open Domain Store Relational Privacy Runs Threads

variable {deps : Deps}

/-! ## A lost call ends every operation -/

theorem register_strict (ports : Ports) (ip rawEmail : String) (displayName : Option String)
    (rawPassword : String) (locale : LocaleCode) :
    (register deps ports ip rawEmail displayName rawPassword locale).Strict := by
  refine .bind (.require _ _) fun _ => ?_
  split
  · exact .throw _
  refine .bind (.require _ _) fun _ => .bind (.request _ _) fun taken => ?_
  split
  · exact .require _ _
  split
  · exact .throw _
  exact .bind (.request _ _) fun _ => .bind (.request _ _) fun _ =>
    .bind (.execute _ _) fun _ => .request _ _

theorem resendVerification_strict (ports : Ports) (ip : String) (email : UserEmail) :
    (resendVerification deps ports ip email).Strict := by
  refine .bind (.request _ _) fun found => ?_
  split
  · exact .pure _
  · exact .bind (.require _ _) fun _ => .bind (.require _ _) fun _ => .bind (.request _ _)
      fun _ => .bind (.execute _ _) fun _ => .pure _

theorem verifyConsumed_strict (userId : UserId) (email : String) :
    (verifyConsumed deps userId email).Strict := by
  refine .bind (.request _ _) fun found => ?_
  split
  · exact .throw _
  split
  · exact .throw _
  refine .bind (.mapErr (.request _ _)) fun _ => ?_
  unfold finishVerification
  dsimp only
  split
  · exact .bind (.execute _ _) fun _ => .request _ _
  · exact .request _ _

theorem verifyEmail_strict (rawToken : String) : (verifyEmail deps rawToken).Strict := by
  unfold verifyEmail
  split
  · exact .throw _
  refine .bind (.request _ _) fun consumed => ?_
  split
  · exact .throw _
  · exact verifyConsumed_strict _ _

theorem changeEmail_strict (ports : Ports) (userId : UserId) (currentPassword : String)
    (newEmail : UserEmail) : (changeEmail deps ports userId currentPassword newEmail).Strict := by
  refine .bind (.request _ _) fun found => ?_
  split
  · exact .throw _
  · exact .bind (checkPassword_strict ..) fun _ => .bind (.request _ _) fun _ =>
      .bind (.require _ _) fun _ => .bind (.request _ _) fun _ => .bind (.execute _ _) fun _ =>
      .request _ _

theorem login_strict (ports : Ports) (ip rawEmail rawPassword : String) :
    (login deps ports ip rawEmail rawPassword).Strict := by
  unfold login
  split
  · exact .throw _
  refine .bind (.require _ _) fun _ => .bind (.require _ _) fun _ =>
    .bind (.query _ _) fun found => ?_
  split
  · exact refuse_strict _
  split
  · exact refuse_strict _
  unfold loginHash
  split
  · exact .throw _
  · exact refuse_strict _
  · exact loginVerified_strict ..

theorem requestPasswordReset_strict (ports : Ports) (ip : String) (email : UserEmail)
    (now : Instant) : (requestPasswordReset deps ports ip email now).Strict := by
  refine .bind (.require _ _) fun _ => .bind (.require _ _) fun _ => .bind (.request _ _)
    fun found => ?_
  split
  · exact .pure _
  · exact .bind (.request _ _) fun _ => .execute _ _

/-- The account after a provider was linked to it. -/
theorem loadLinked_strict (deps : Deps) (userId : Nat) : (do
    let found ← read fun db => findById deps.cases db userId
    match found with
    | none => Service.throw .providerFailed
    | some user =>
      audit .internal (succeeded userId "auth.oauth_linked" userId)
      return user : Service Db AuthError LoadedUser).Strict := by
  refine .bind (.request _ _) fun found => ?_
  cases found with
  | none => exact .throw _
  | some user => exact .bind (.request _ _) fun _ => .pure _

theorem oauthCallback_strict (ports : Ports) (code : String) :
    (oauthCallback deps ports code).Strict := by
  unfold oauthCallback
  split
  · exact .throw _
  refine .bind (.query _ _) fun known => ?_
  split
  · refine .bind (.request _ _) fun found => ?_
    cases found with
    | none => exact .throw _
    | some user => exact signIn_strict ..
  · refine .bind ?_ fun existing => ?_
    · unfold findVerified
      split
      · exact .request _ _
      · exact .pure _
    cases existing with
    | some user => exact .bind (.request _ _) fun _ => signIn_strict ..
    | none =>
      refine .bind (.bind (.request _ _) fun userId => .bind (.request _ _) fun _ => ?_)
        fun user => signIn_strict ..
      have hload := loadLinked_strict deps userId
      split
      · exact .bind (.execute _ _) fun _ => hload
      · exact hload

theorem accountScript_strict (deps : Deps) (c : AccountCall) : (c.script deps).Strict := by
  cases c with
  | wait duration => exact .execute _ _
  | register ports ip rawEmail displayName rawPassword locale =>
    exact (register_strict ..).mapErr
  | resendVerification ports ip email => exact (resendVerification_strict ..).mapErr
  | verifyEmail rawToken => exact (verifyEmail_strict _).mapErr
  | changeEmail ports userId currentPassword newEmail => exact (changeEmail_strict ..).mapErr
  | login ports ip rawEmail rawPassword =>
    exact .bind (login_strict ..).mapErr fun _ => .pure _
  | requestPasswordReset ports ip email now => exact (requestPasswordReset_strict ..).mapErr
  | resetPassword ports rawToken rawPassword now =>
    exact (passwordScript_strict deps (.resetPassword ports rawToken rawPassword now)).mapErr
  | changePassword ports userId current new currentSession =>
    have h := passwordScript_strict deps (.changePassword ports userId current new currentSession)
    exact h.mapErr
  | oauthCallback ports provider code =>
    exact .bind (oauthCallback_strict ..).mapErr fun _ => .pure _
  | suspendUser actor target =>
    exact (Service.Strict.bind (.require _ _) fun _ => .bind (.execute _ _) fun _ =>
      .bind (.execute _ _) fun _ => .request _ _).mapErr
  | restoreUser actor target =>
    exact (Service.Strict.bind (.require _ _) fun _ => .bind (.execute _ _) fun _ =>
      .request _ _).mapErr
  | requestDeletion hasher user password confirmEmail => exact (requestDeletion_strict ..).mapErr
  | anonymizeInactive arrange config now =>
    exact .bind inactiveAccountsStep_strict.mapErr fun _ => .pure _
  | purgeDeleted job now => exact .bind deletedAccountsStep_strict.mapErr fun _ => .pure _

/-! ## A reset that succeeds -/

/-- The credential check of `login`, for the account at its current address. -/
def passesLogin (ports : Ports) (db : Db) (id : UserId) (rawPassword : String) : Bool :=
  (db.users.row id).any fun user =>
    (findIdentity db .password user.email).any fun identity =>
      identity.userId == id && identity.credentialHash.any fun hash =>
        ports.hasher.verify rawPassword hash == some true

/-- What the check reads of an account: its address and its password identities. -/
def loginKey (id : UserId) (db : Db) : Option String × List AuthenticationIdentity :=
  ((db.users.row id).map User.email,
    (db.authenticationIdentities.select fun _ r => isPasswordOf id r).map Prod.snd)

def hasPasswordIdentity (db : Db) (id : UserId) : Bool :=
  db.authenticationIdentities.any fun _ r => isPasswordOf id r

/-- A login at the address of the account goes on behind the check. -/
theorem passesLogin_login {ports : Ports} {db : Db} {id : UserId} {rawPassword : String}
    (hpasses : passesLogin ports db id rawPassword = true) {ip rawEmail : String} {user : User}
    {email : UserEmail} (huser : db.users.row id = some user)
    (hparse : UserEmail.parse deps.cases rawEmail = .ok email) (hemail : user.email = email)
    (hpair : ports.allow ("login:" ++ ip ++ ":" ++ email) 5 (15 * minute) = true)
    (hip : ports.allow ("login:ip:" ++ ip) 10 (15 * minute) = true) :
    (login deps ports ip rawEmail rawPassword).run db =
      (loginVerified deps ports email id).run db := by
  unfold passesLogin at hpasses
  rw [huser, Option.any_some, hemail, Option.any_eq_true] at hpasses
  obtain ⟨identity, hfind, hchecked⟩ := hpasses
  obtain ⟨hid, hhash⟩ := (Bool.and_eq_true ..).mp hchecked
  obtain ⟨hash, hcredential, hverify⟩ := (Option.any_eq_true ..).mp hhash
  have hverified : ports.hasher.verify rawPassword hash = some true := eq_of_beq hverify
  obtain rfl : identity.userId = id := eq_of_beq hid
  unfold login
  rw [hparse]
  dsimp only
  rw [loginAllowed, hpair, loginAllowed, hip]
  show (Service.query _ _ >>= _).run db = _
  rw [Service.run_bind, Service.run_query]
  dsimp only
  rw [hfind]
  dsimp only
  rw [hcredential]
  dsimp only
  rw [loginHash, hverified]

/-- A replacement that has succeeded has put the new hash in its first call. -/
theorem replacePassword_ok {ports : Ports} {userId : UserId} {rawPassword : String} {keep : Token}
    {found : List Db}
    (h : (replacePassword deps ports userId rawPassword keep).resume found = .done (.ok ())) :
    ∃ hash s calls, ports.hasher.hash rawPassword = some hash ∧
      (replacePassword deps ports userId rawPassword keep).writes found =
        (s, setPassword s userId hash) :: calls := by
  unfold replacePassword validatePassword at h ⊢
  cases hlong : decide (8 ≤ rawPassword.length) with
  | false =>
    rw [hlong] at h
    change (Service.throw _).resume found = _ at h
    rw [Service.throw, Service.resume_done] at h
    cases h
  | true =>
    rw [hlong] at h
    cases hhash : ports.hasher.hash rawPassword with
    | none =>
      rw [hhash] at h
      change (Service.throw _).resume found = _ at h
      rw [Service.throw, Service.resume_done] at h
      cases h
    | some hash =>
      rw [hhash] at h
      cases found with
      | nil => cases h
      | cons s found => exact ⟨hash, s, _, rfl, rfl⟩

/-- What a reset that has succeeded has done: it consumed its token, and then put the new
hash. -/
theorem resetPassword_done {ports : Ports} {rawToken rawPassword : String} {now : Instant}
    {found : List Db}
    (h : (resetPassword deps ports rawToken rawPassword now).resume found = .done (.ok ())) :
    ∃ token row hash s₁ s calls, decodeToken deps rawToken = some token ∧
      liveReset deps s₁ token now = some row ∧ ports.hasher.hash rawPassword = some hash ∧
      (resetPassword deps ports rawToken rawPassword now).writes found =
        (s₁, (consumeReset deps s₁ token now).2) ::
          (s, setPassword s row.userId hash) :: calls := by
  cases htoken : decodeToken deps rawToken with
  | none =>
    rw [resetPassword, htoken] at h
    change (Service.throw _).resume found = _ at h
    rw [Service.throw, Service.resume_done] at h
    cases h
  | some token =>
    rcases found with _ | ⟨s₁, found⟩
    · rw [resetPassword, htoken] at h
      cases h
    have hresume : (resetPassword deps ports rawToken rawPassword now).resume (s₁ :: found) = _ :=
      reset_resume
    rw [hresume, htoken] at h
    dsimp only at h
    cases hlive : liveReset deps s₁ token now with
    | none =>
      rw [hlive] at h
      cases h
    | some row =>
      rw [hlive] at h
      obtain ⟨hash, s, calls, hhash, hwrites⟩ := replacePassword_ok h
      refine ⟨token, row, hash, s₁, s, calls, rfl, hlive, hhash, ?_⟩
      rw [resetPassword, htoken]
      dsimp only
      rw [repo, Service.writes_request]
      dsimp only [consumeReset]
      rw [hlive]
      exact congrArg _ hwrites

theorem mem_loginKey {db : Db} {id : UserId} {r : AuthenticationIdentity} :
    r ∈ (loginKey id db).2 ↔
      ∃ i, db.authenticationIdentities.row i = some r ∧ isPasswordOf id r = true := by
  simp [loginKey, List.mem_map, Table.mem_select]

/-- The password identities after `set_password` are those before it, with the new hash. -/
theorem mem_loginKey_setPassword {s : Db} {id : UserId} {hash : String}
    {r : AuthenticationIdentity} :
    r ∈ (loginKey id (setPassword s id hash)).2 ↔
      ∃ x ∈ (loginKey id s).2, r = { x with credentialHash := some hash } := by
  rw [mem_loginKey]
  constructor
  · rintro ⟨i, hr, hown⟩
    obtain ⟨x, hx, rfl⟩ := Table.row_update_eq_some.mp hr
    cases hold : isPasswordOf id x with
    | true => exact ⟨x, mem_loginKey.mpr ⟨i, hx, hold⟩, rfl⟩
    | false =>
      rw [hold, if_neg Bool.false_ne_true] at hown
      rw [hold] at hown
      cases hown
  · rintro ⟨x, hmem, rfl⟩
    obtain ⟨i, hx, hold⟩ := mem_loginKey.mp hmem
    refine ⟨i, Table.row_update_eq_some.mpr ⟨x, hx, ?_⟩, hold⟩
    rw [if_pos hold]

/-- A login finds the password identity of the account at its address. -/
theorem findIdentity_own {db : Db} (h : Follows db) {i : Nat} {id : UserId}
    {r : AuthenticationIdentity} (hr : db.authenticationIdentities.row i = some r)
    (hown : isPasswordOf id r = true) :
    ∃ user, db.users.row id = some user ∧ findIdentity db .password user.email = some r := by
  obtain ⟨hid, hprovider⟩ : r.userId = id ∧ r.provider = .password := by
    simpa [isPasswordOf] using hown
  obtain ⟨user, huser, hemail⟩ := h.owned hr hprovider
  rw [hid] at huser
  refine ⟨user, huser, ?_⟩
  have hhead := Table.head?_select (p := fun (_ : Nat) (r : AuthenticationIdentity) =>
    r.provider == .password && r.providerSubject == user.email) hr (by simp [hprovider, hemail])
    fun j x hx hmatch => by
      simp only [Bool.and_eq_true, beq_iff_eq] at hmatch
      exact h.unique hx hr hmatch.1 hprovider (hmatch.2.trans hemail)
  rw [findIdentity, hhead]
  rfl

/-- An account whose password identities have the new hash passes the check when it has
one. -/
theorem passesLogin_iff {ports : Ports} {rawPassword hash : String} {s db : Db} {id : UserId}
    (hverify : ports.hasher.verify rawPassword hash = some true) (hfollows : Follows db)
    (hkey : loginKey id db = loginKey id (setPassword s id hash)) :
    passesLogin ports db id rawPassword = true ↔ hasPasswordIdentity s id = true := by
  unfold hasPasswordIdentity
  rw [Table.any_iff]
  constructor
  · intro hpasses
    obtain ⟨user, _, hchecked⟩ := (Option.any_eq_true ..).mp hpasses
    obtain ⟨identity, hfind, hmatch⟩ := (Option.any_eq_true ..).mp hchecked
    obtain ⟨hid, _⟩ := (Bool.and_eq_true ..).mp hmatch
    obtain ⟨⟨i, r⟩, hhead, rfl⟩ := Option.map_eq_some_iff.mp hfind
    obtain ⟨hr, hfound⟩ := Table.mem_select.mp (List.mem_of_head? hhead)
    have hown : isPasswordOf id r = true := by
      simp only [Bool.and_eq_true] at hfound
      rw [isPasswordOf, hid, hfound.1, Bool.true_and]
    have hmem : r ∈ (loginKey id db).2 := mem_loginKey.mpr ⟨i, hr, hown⟩
    rw [hkey, mem_loginKey_setPassword] at hmem
    obtain ⟨x, hx, _⟩ := hmem
    obtain ⟨j, hrow, hold⟩ := mem_loginKey.mp hx
    exact ⟨j, x, hrow, hold⟩
  · rintro ⟨j, x, hx, hold⟩
    have hmem : { x with credentialHash := some hash } ∈ (loginKey id db).2 := by
      rw [hkey, mem_loginKey_setPassword]
      exact ⟨x, mem_loginKey.mpr ⟨j, hx, hold⟩, rfl⟩
    obtain ⟨i, hr, hown⟩ := mem_loginKey.mp hmem
    obtain ⟨user, huser, hfind⟩ := findIdentity_own hfollows hr hown
    have hid : x.userId = id := (isPasswordOf_iff.mp hold).1
    unfold passesLogin
    rw [huser, Option.any_some, hfind, Option.any_some, Option.any_some, hverify, hid]
    simp

/-- After a reset has succeeded, in every run of calls of the auth service and of erasures
of accounts: while the address of the account and its password identities are as the new
hash left them, a login with the new password passes the check exactly when the account had
a password identity. -/
theorem reset_password_works {deps : Deps} {db₀ : Db} {es : List (Event AccountCall)}
    {p : AccountPool} (hstart : Follows db₀)
    (hrun : PoolRun (AccountCall.script deps) (Pool.init db₀) es p) {t : AccountThread}
    (ht : t ∈ p.threads) {ports : Ports} {rawToken rawPassword : String} {now : Instant}
    (hop : t.op = .resetPassword ports rawToken rawPassword now) (hdone : t.rest = .done (.ok ()))
    (hverify : ∀ hash, ports.hasher.hash rawPassword = some hash →
      ports.hasher.verify rawPassword hash = some true) :
    ∃ token row hash s₁ s, decodeToken deps rawToken = some token ∧
      (s₁, (consumeReset deps s₁ token now).2) ∈ t.calls (AccountCall.script deps) ∧
      liveReset deps s₁ token now = some row ∧
      (s, setPassword s row.userId hash) ∈ t.calls (AccountCall.script deps) ∧
      (loginKey row.userId p.store = loginKey row.userId (setPassword s row.userId hash) →
        (passesLogin ports p.store row.userId rawPassword = true ↔
          hasPasswordIdentity s row.userId = true)) := by
  have hresume := (traced_run (accountScript_strict deps) hrun).succeeded ht hdone
  rw [hop, AccountCall.script, Service.resume_mapErr] at hresume
  obtain ⟨token, row, hash, s₁, s, calls, htoken, hlive, hhash, hwrites⟩ :=
    resetPassword_done (Service.mapErr_eq_ok hresume)
  have hcalls : t.calls (AccountCall.script deps) =
      (s₁, (consumeReset deps s₁ token now).2) :: (s, setPassword s row.userId hash) :: calls := by
    rw [Thread.calls, hop, AccountCall.script, Service.writes_mapErr, hwrites]
  have hfollows : Follows p.store := respects_run accountScript_follows hrun hstart
  refine ⟨token, row, hash, s₁, s, htoken, ?_, hlive, ?_, passesLogin_iff (hverify hash hhash)
    hfollows⟩
  · simp [hcalls]
  · simp [hcalls]

/-- The rider resets the password with the mailed token. -/
def resetsPassword (rawPassword : String) : AccountCall :=
  .resetPassword (samplePorts oneToken) (sampleDeps.base64url oneToken.bytes) rawPassword 0

/-- The rider registers and asks for a reset. -/
def riderAsks : List (Event AccountCall) :=
  [.start (.register (samplePorts zeroToken) "203.0.113.7" "rider@example.com" none
      "battery staple" .en),
    .answer 0, .answer 0, .answer 0, .answer 0, .answer 0,
    .start (.requestPasswordReset (samplePorts oneToken) "203.0.113.7" "rider@example.com" 0),
    .answer 1, .answer 1, .answer 1]

/-- The rider resets the password with the token of the message. -/
def riderResets : List (Event AccountCall) :=
  riderAsks ++
    [.start (resetsPassword "correct horse"), .answer 2, .answer 2, .answer 2, .answer 2]

deriving instance DecidableEq for AuthenticationIdentity

/-- The token is that of the first account, and a call that consumes none leaves the password
identities as they are in the end. -/
def keepsPassword (last : Db) (c : Db × Db) : Bool :=
  (liveReset sampleDeps c.1 oneToken 0).all (fun row => row.userId = 1) &&
    ((c.1.passwordResetTokens.row 1).map PasswordResetToken.usedAt ≠
        (c.2.passwordResetTokens.row 1).map PasswordResetToken.usedAt ||
      loginKey 1 last = loginKey 1 c.2)

theorem reset_password_works_rider :
    ∃ p s hash, PoolRun (AccountCall.script sampleDeps) (Pool.init (Db.empty 0)) riderResets p ∧
      loginKey 1 p.store = loginKey 1 (setPassword s 1 hash) ∧
      (passesLogin (samplePorts oneToken) p.store 1 "correct horse" = true ↔
        hasPasswordIdentity s 1 = true) := by
  have hend : (riderResets.foldlM (Pool.next (AccountCall.script sampleDeps))
      (Pool.init (Db.empty 0))).any (fun p => p.outcome 2 == some (.ok ()) &&
        p.threads[2]?.all fun t =>
          (t.calls (AccountCall.script sampleDeps)).all (keepsPassword p.store)) = true := by
    decide +kernel
  obtain ⟨p, hp, hend⟩ := (Option.any_eq_true ..).mp hend
  simp only [Bool.and_eq_true, beq_iff_eq] at hend
  obtain ⟨hok, hcalls⟩ := hend
  have hrun := Run.of_foldlM hp
  have hstarted : (riderResets.filterMap Event.started)[2]? =
      some (resetsPassword "correct horse") := rfl
  obtain ⟨t, ht, hop, hdone⟩ := getElem?_of_outcome hrun hstarted hok
  rw [ht, Option.all_some, List.all_eq_true] at hcalls
  obtain ⟨token, row, hash, s₁, s, htoken, hconsume, hlive, hwrite, hworks⟩ :=
    reset_password_works (follows_empty 0) hrun (List.mem_of_getElem? ht) hop hdone fun _ _ => rfl
  have hdecode : decodeToken sampleDeps (sampleDeps.base64url oneToken.bytes) = some oneToken := by
    decide +kernel
  rw [hdecode] at htoken
  cases htoken
  have hconsume := hcalls _ hconsume
  have hwrite := hcalls _ hwrite
  simp only [keepsPassword, hlive, Option.all_some, Bool.and_eq_true, decide_eq_true_eq]
    at hconsume
  rw [hconsume.1] at hwrite hworks
  simp only [keepsPassword, Bool.and_eq_true, Bool.or_eq_true, decide_eq_true_eq] at hwrite
  have hkey : loginKey 1 p.store = loginKey 1 (setPassword s 1 hash) :=
    hwrite.2.resolve_left fun hne => hne rfl
  exact ⟨p, s, hash, hrun, hkey, hworks hkey⟩

/-- The rider joins by Google, asks for a reset and resets the password. -/
def providerResets : List (Event AccountCall) :=
  [.start (.oauthCallback (samplePorts zeroToken)
      (FakeOAuthProvider.port .ascii ⟨"rider@example.com", "108"⟩) "code"),
    .answer 0, .answer 0, .answer 0, .answer 0, .answer 0, .answer 0, .answer 0, .answer 0,
    .answer 0,
    .start (.requestPasswordReset (samplePorts oneToken) "203.0.113.7" "rider@example.com" 0),
    .answer 1, .answer 1, .answer 1,
    .start (resetsPassword "correct horse"), .answer 2, .answer 2, .answer 2, .answer 2]

/-- An account of a provider has no password identity: the reset mails it a token and
succeeds, and a login with the new password does not pass. -/
theorem reset_password_of_provider_account :
    ∃ p t, PoolRun (AccountCall.script sampleDeps) (Pool.init (Db.empty 0)) providerResets p ∧
      t ∈ p.threads ∧ t.op = resetsPassword "correct horse" ∧ t.rest = .done (.ok ()) ∧
      (∃ user, p.store.users.row 1 = some user ∧ user.email = "rider@example.com" ∧
        user.accountState.canLogIn = true) ∧
      (∃ msg ∈ p.store.outbox, msg.recipient = "rider@example.com" ∧
        msg.kind.link = resetLink sampleDeps oneToken) ∧
      passesLogin (samplePorts oneToken) p.store 1 "correct horse" = false := by
  have hend : (providerResets.foldlM (Pool.next (AccountCall.script sampleDeps))
      (Pool.init (Db.empty 0))).any (fun p => p.outcome 2 == some (.ok ()) &&
        ((p.store.users.row 1).any fun user =>
          user.email == "rider@example.com" && user.accountState.canLogIn) &&
        (p.store.outbox.any fun msg => msg.recipient == "rider@example.com" &&
          msg.kind.link == resetLink sampleDeps oneToken) &&
        !passesLogin (samplePorts oneToken) p.store 1 "correct horse") = true := by
    decide +kernel
  obtain ⟨p, hp, hend⟩ := (Option.any_eq_true ..).mp hend
  simp only [Bool.and_eq_true, Bool.not_eq_true', Option.any_eq_true, List.any_eq_true,
    beq_iff_eq] at hend
  obtain ⟨⟨⟨hok, hactive⟩, hmailed⟩, hrefused⟩ := hend
  have hrun := Run.of_foldlM hp
  have hstarted : (providerResets.filterMap Event.started)[2]? =
      some (resetsPassword "correct horse") := rfl
  obtain ⟨t, ht, hop, hdone⟩ := exists_outcome hrun hstarted hok
  exact ⟨p, t, hrun, ht, hop, hdone, hactive, hmailed, hrefused⟩

/-! ## A redemption that fails -/

/-- The two calls that redeem a token. -/
inductive Redemption where
  | verifyEmail (rawToken : String)
  | resetPassword (ports : Ports) (rawToken rawPassword : String) (now : Instant)

def Redemption.call : Redemption → AccountCall
  | .verifyEmail rawToken => .verifyEmail rawToken
  | .resetPassword ports rawToken rawPassword now => .resetPassword ports rawToken rawPassword now

/-- The token that it decodes. -/
def Redemption.token (deps : Deps) : Redemption → Option Token
  | .verifyEmail rawToken => decodeToken deps rawToken
  | .resetPassword _ rawToken _ _ => decodeToken deps rawToken

/-- The consuming statement finds the token. -/
def Redemption.isLive (deps : Deps) (db : Db) (token : Token) : Redemption → Bool
  | .verifyEmail _ => (liveVerification deps db token).isSome
  | .resetPassword _ _ _ now => (liveReset deps db token now).isSome

/-- The token is as redeemable as before, whenever it is tried, and passwords, addresses,
account states and sessions are the same. -/
structure Intact (deps : Deps) (token : Token) (db db' : Db) : Prop where
  resets : ∀ now, liveReset deps db' token now = liveReset deps db token now
  verifications : ∀ now,
    liveVerification deps { db' with now } token = liveVerification deps { db with now } token
  users : db'.users = db.users
  identities : db'.authenticationIdentities = db.authenticationIdentities
  sessions : db'.sessions = db.sessions

theorem Intact.refl (token : Token) (db : Db) : Intact deps token db db :=
  ⟨fun _ => rfl, fun _ => rfl, rfl, rfl, rfl⟩

/-! ### The consuming statement -/

theorem consumeReset_dead {db : Db} {token : Token} {now : Instant}
    (h : liveReset deps db token now = none) : consumeReset deps db token now = (none, db) := by
  have hnone := h
  rw [liveReset, Option.map_eq_none_iff, List.head?_eq_none_iff] at hnone
  rw [consumeReset, h, Table.update_of_select_nil _ hnone]
  rfl

theorem consumeVerification_dead {db : Db} {token : Token}
    (h : liveVerification deps db token = none) :
    consumeVerification deps db token = (none, db) := by
  have hnone := h
  rw [liveVerification, Option.map_eq_none_iff, List.head?_eq_none_iff] at hnone
  rw [consumeVerification, h, Table.update_of_select_nil _ hnone]
  rfl

/-- A consumed token is not live again. -/
theorem liveReset_consumed (db : Db) (token : Token) (now : Instant) :
    liveReset deps (consumeReset deps db token now).2 token now = none := by
  rw [liveReset, consumeReset, Table.select_update_nil]
  · rfl
  · intro i r
    simp [isLiveReset]

theorem liveVerification_consumed (db : Db) (token : Token) :
    liveVerification deps (consumeVerification deps db token).2 token = none := by
  rw [liveVerification, consumeVerification, Table.select_update_nil]
  · rfl
  · intro i r
    simp [isLive]

/-- A redemption refuses what is no token, or its first call is the consuming statement.  That
one changes nothing and ends the redemption when it does not find the token live, and
burns the token when it does. -/
theorem redemption_script (deps : Deps) (r : Redemption) :
    (r.token deps = none ∧ r.call.script deps = Service.throw (.inl .tokenInvalid)) ∨
      ∃ token write next, r.token deps = some token ∧
        r.call.script deps = .call write next (Service.throw (.inl .unavailable)) ∧
        (∀ db, r.isLive deps db token = false →
          write db = db ∧ next db = Service.throw (.inl .tokenInvalid)) ∧
        ∀ db, r.isLive deps db token = true → ¬ Intact deps token db (write db) := by
  cases r with
  | verifyEmail rawToken =>
    simp only [Redemption.call, Redemption.token, AccountCall.script, verifyEmail]
    cases decodeToken deps rawToken with
    | none => exact .inl ⟨rfl, rfl⟩
    | some token =>
      refine .inr ⟨token, _, _, rfl, rfl, fun db hdead => ?_, fun db hlive h => ?_⟩
      · have hnone : liveVerification deps db token = none := by
          simpa [Redemption.isLive] using hdead
        dsimp only
        rw [consumeVerification_dead hnone]
        exact ⟨rfl, rfl⟩
      · have hsame : liveVerification deps (consumeVerification deps db token).2 token =
            liveVerification deps db token := h.verifications db.now
        rw [liveVerification_consumed] at hsame
        rw [Redemption.isLive, ← hsame] at hlive
        cases hlive
  | resetPassword ports rawToken rawPassword now =>
    simp only [Redemption.call, Redemption.token, AccountCall.script, resetPassword]
    cases decodeToken deps rawToken with
    | none => exact .inl ⟨rfl, rfl⟩
    | some token =>
      refine .inr ⟨token, _, _, rfl, rfl, fun db hdead => ?_, fun db hlive h => ?_⟩
      · have hnone : liveReset deps db token now = none := by
          simpa [Redemption.isLive] using hdead
        dsimp only
        rw [consumeReset_dead hnone]
        exact ⟨rfl, rfl⟩
      · have hsame : liveReset deps (consumeReset deps db token now).2 token now =
            liveReset deps db token now := h.resets now
        rw [liveReset_consumed] at hsame
        rw [Redemption.isLive, ← hsame] at hlive
        cases hlive

/-- The calls of a redemption leave everything alone exactly when the first of them does not
find the token live. -/
theorem intact_iff (r : Redemption) (found : List Db) :
    (∀ c ∈ (r.call.script deps).writes found, ∀ token ∈ r.token deps, Intact deps token c.1 c.2) ↔
      ∀ c ∈ ((r.call.script deps).writes found).head?, ∀ token ∈ r.token deps,
        r.isLive deps c.1 token = false := by
  rcases redemption_script deps r with
    ⟨htoken, _⟩ | ⟨token, write, next, htoken, hscript, hdead, hlive⟩
  · simp [htoken]
  cases found with
  | nil => simp
  | cons s found =>
    have hwrites : (r.call.script deps).writes (s :: found) =
        (s, write s) :: (next s).writes found := by
      rw [hscript]
      rfl
    rw [hwrites]
    refine ⟨fun h c hc tok htok => ?_, fun h c hc tok htok => ?_⟩
    · obtain rfl : token = tok := Option.some.inj (htoken.symm.trans htok)
      obtain rfl := Option.some.inj hc
      by_contra hburned
      exact hlive s (by simpa using hburned) (h _ List.mem_cons_self token htok)
    · obtain rfl : token = tok := Option.some.inj (htoken.symm.trans htok)
      obtain ⟨hsame, hends⟩ := hdead s (h (s, write s) rfl token htok)
      have hlast : (Service.throw (.inl .tokenInvalid) :
          Service Db (AuthError ⊕ PrivacyError) Unit).writes found = [] := by
        cases found <;> rfl
      rw [hends, hlast, List.mem_singleton] at hc
      rw [hc, hsame]
      exact .refl token s

/-- A redemption that goes on behind its first call, or fails there with another error than
a bad token, has found its token live. -/
theorem isLive_of_resume {r : Redemption} {s : Db} {found : List Db}
    {rest : Service Db (AuthError ⊕ PrivacyError) Unit}
    (h : (r.call.script deps).resume (s :: found) = rest)
    (hrest : rest ≠ Service.throw (.inl .tokenInvalid)) :
    ∃ token ∈ r.token deps, r.isLive deps s token = true := by
  rcases redemption_script deps r with
    ⟨_, hscript⟩ | ⟨token, write, next, htoken, hscript, hdead, _⟩
  · rw [hscript, Service.throw, Service.resume_done] at h
    exact absurd h.symm hrest
  · refine ⟨token, htoken, ?_⟩
    by_contra hnot
    have hends := (hdead s (by simpa using hnot)).2
    rw [hscript, Service.resume_call_cons, hends, Service.throw, Service.resume_done] at h
    exact hrest h.symm

theorem isLive_of_failed {t : AccountThread} (hstands : t.Stands (AccountCall.script deps))
    {r : Redemption} (hop : t.op = r.call) {e : AuthError ⊕ PrivacyError}
    (hfailed : t.rest = .done (.error e)) (hinvalid : e ≠ .inl .tokenInvalid)
    (hreached : e ≠ .inl .unavailable) :
    ∃ s found, t.found.map Prod.snd = s :: found ∧
      ∃ token ∈ r.token deps, r.isLive deps s token = true := by
  have hother : (.done (.error e) : Service Db (AuthError ⊕ PrivacyError) Unit) ≠
      Service.throw (.inl .tokenInvalid) := by
    intro h
    cases h
    exact hinvalid rfl
  cases hstands with
  | led hled =>
    rw [hop, hfailed] at hled
    cases hfound : t.found.map Prod.snd with
    | nil =>
      rw [hfound, Service.resume_nil] at hled
      rcases redemption_script deps r with ⟨_, hscript⟩ | ⟨_, _, _, _, hscript, _⟩
      · exact absurd (hled.trans hscript) hother
      · rw [hscript] at hled
        cases hled
    | cons s found =>
      rw [hfound] at hled
      exact ⟨s, found, rfl, isLive_of_resume hled.symm hother⟩
  | @lost before _ _ failed hcall hrest hfound =>
    rw [hop] at hcall
    cases before with
    | nil =>
      -- the first call was lost, so the database was not reached
      rw [Service.resume_nil] at hcall
      rcases redemption_script deps r with ⟨_, hscript⟩ | ⟨_, _, _, _, hscript, _⟩
      · rw [hscript] at hcall
        cases hcall
      · rw [hscript] at hcall
        cases hcall
        rw [hfailed] at hrest
        cases hrest
        exact absurd rfl hreached
    | cons s before =>
      have hs := isLive_of_resume hcall nofun
      rcases hfound with hsame | ⟨x, hmore⟩
      · exact ⟨s, before, hsame, hs⟩
      · exact ⟨s, before ++ [x], hmore, hs⟩

/-- The first call of the redemption has found its token live. -/
theorem firstLive_of_failed {t : AccountThread} (hstands : t.Stands (AccountCall.script deps))
    {r : Redemption} (hop : t.op = r.call) {e : AuthError ⊕ PrivacyError}
    (hfailed : t.rest = .done (.error e)) (hinvalid : e ≠ .inl .tokenInvalid)
    (hreached : e ≠ .inl .unavailable) :
    ∃ c ∈ (t.calls (AccountCall.script deps)).head?, ∃ token ∈ r.token deps,
      r.isLive deps c.1 token = true := by
  obtain ⟨s, found, hfound, hlive⟩ := isLive_of_failed hstands hop hfailed hinvalid hreached
  rw [Thread.calls, hop, hfound]
  rcases redemption_script deps r with ⟨htoken, _⟩ | ⟨_, write, _, _, hscript, _⟩
  · obtain ⟨token, hmem, _⟩ := hlive
    rw [htoken] at hmem
    cases hmem
  · rw [hscript]
    exact ⟨(s, write s), rfl, hlive⟩

/-- A call of the redemption has changed what it should have left alone. -/
theorem burns_of_failed {t : AccountThread} (hstands : t.Stands (AccountCall.script deps))
    {r : Redemption} (hop : t.op = r.call) {e : AuthError ⊕ PrivacyError}
    (hfailed : t.rest = .done (.error e)) (hinvalid : e ≠ .inl .tokenInvalid)
    (hreached : e ≠ .inl .unavailable) :
    ∃ c ∈ t.calls (AccountCall.script deps), ∃ token ∈ r.token deps,
      ¬ Intact deps token c.1 c.2 := by
  by_contra hnone
  push Not at hnone
  rw [Thread.calls, hop] at hnone
  obtain ⟨c, hc, token, htoken, hlive⟩ := firstLive_of_failed hstands hop hfailed hinvalid hreached
  rw [Thread.calls, hop] at hc
  rw [(intact_iff r _).mp hnone c hc token htoken] at hlive
  cases hlive

/-- A redemption that has failed has left the token, the passwords, the addresses, the
account states and the sessions alone exactly when its first call did not find the token
live.  After any error but a bad token and an unreachable database it did find it. -/
theorem redemption_fails {deps : Deps} {db₀ : Db} {es : List (Event AccountCall)}
    {p : AccountPool} (hrun : PoolRun (AccountCall.script deps) (Pool.init db₀) es p)
    {t : AccountThread} (ht : t ∈ p.threads) {r : Redemption} (hop : t.op = r.call)
    {e : AuthError ⊕ PrivacyError} (hfailed : t.rest = .done (.error e)) :
    ((∀ c ∈ t.calls (AccountCall.script deps), ∀ token ∈ r.token deps,
        Intact deps token c.1 c.2) ↔
      ∀ c ∈ (t.calls (AccountCall.script deps)).head?, ∀ token ∈ r.token deps,
        r.isLive deps c.1 token = false) ∧
    (e ≠ .inl .tokenInvalid → e ≠ .inl .unavailable →
      ∃ c ∈ (t.calls (AccountCall.script deps)).head?, ∃ token ∈ r.token deps,
        r.isLive deps c.1 token = true) := by
  refine ⟨?_, firstLive_of_failed (stands_run (accountScript_strict deps) hrun ht) hop hfailed⟩
  rw [Thread.calls, hop]
  exact intact_iff r _

/-- The new password of the reset is too short. -/
def weakReset : Redemption :=
  .resetPassword (samplePorts oneToken) (sampleDeps.base64url oneToken.bytes) "horse" 0

def weakPassword : List (Event AccountCall) := riderAsks ++ [.start weakReset.call, .answer 2]

/-- The reset with the short password fails. -/
theorem weakPassword_fails :
    ∃ p, PoolRun (AccountCall.script sampleDeps) (Pool.init (Db.empty 0)) weakPassword p ∧
      p.outcome 2 = some (.error (.inl .weakPassword)) := by
  have hend : (weakPassword.foldlM (Pool.next (AccountCall.script sampleDeps))
      (Pool.init (Db.empty 0))).any
      (fun p => p.outcome 2 == some (.error (.inl .weakPassword))) = true := by decide +kernel
  obtain ⟨p, hp, hfailed⟩ := (Option.any_eq_true ..).mp hend
  exact ⟨p, Run.of_foldlM hp, eq_of_beq hfailed⟩

theorem redemption_fails_weak :
    ∃ p t, PoolRun (AccountCall.script sampleDeps) (Pool.init (Db.empty 0)) weakPassword p ∧
      t ∈ p.threads ∧ t.rest = .done (.error (.inl .weakPassword)) ∧
      ∃ c ∈ (t.calls (AccountCall.script sampleDeps)).head?, ∃ token ∈ weakReset.token sampleDeps,
        weakReset.isLive sampleDeps c.1 token = true := by
  obtain ⟨p, hrun, hfailed⟩ := weakPassword_fails
  have hstarted : (weakPassword.filterMap Event.started)[2]? = some weakReset.call := rfl
  obtain ⟨t, ht, hop, hrest⟩ := exists_outcome hrun hstarted hfailed
  exact ⟨p, t, hrun, ht, hrest, (redemption_fails hrun ht hop hrest).2 nofun nofun⟩

/-- The token of the message to the new address. -/
def confirmsAddress : Redemption := .verifyEmail (sampleDeps.base64url oneToken.bytes)

/-- Someone joins by Google with the address that the rider is about to confirm. -/
def addressTaken : List (Event AccountCall) :=
  [.start (.register (samplePorts zeroToken) "203.0.113.7" "rider@example.com" none
      "correct horse" .en),
    .answer 0, .answer 0, .answer 0, .answer 0, .answer 0,
    .start (.changeEmail (samplePorts oneToken) 1 "correct horse" "new@example.com"),
    .answer 1, .answer 1, .answer 1, .answer 1, .answer 1, .answer 1,
    .start (.oauthCallback (samplePorts zeroToken)
      (FakeOAuthProvider.port .ascii ⟨"new@example.com", "108"⟩) "code"),
    .answer 2, .answer 2, .answer 2, .answer 2, .answer 2, .answer 2, .answer 2, .answer 2,
    .answer 2, .start confirmsAddress.call, .answer 3, .answer 3, .answer 3]

/-- A password that is too short and an address that is taken meanwhile burn the token. -/
theorem failed_redemption_burns :
    (∃ p t, PoolRun (AccountCall.script sampleDeps) (Pool.init (Db.empty 0)) weakPassword p ∧
      t ∈ p.threads ∧ t.op = weakReset.call ∧ t.rest = .done (.error (.inl .weakPassword)) ∧
      ∃ c ∈ t.calls (AccountCall.script sampleDeps), ∃ token ∈ weakReset.token sampleDeps,
        ¬ Intact sampleDeps token c.1 c.2) ∧
    ∃ p t, PoolRun (AccountCall.script sampleDeps) (Pool.init (Db.empty 0)) addressTaken p ∧
      t ∈ p.threads ∧ t.op = confirmsAddress.call ∧ t.rest = .done (.error (.inl .emailTaken)) ∧
      ∃ c ∈ t.calls (AccountCall.script sampleDeps), ∃ token ∈ confirmsAddress.token sampleDeps,
        ¬ Intact sampleDeps token c.1 c.2 := by
  constructor
  · obtain ⟨p, hrun, hfailed⟩ := weakPassword_fails
    have hstarted : (weakPassword.filterMap Event.started)[2]? = some weakReset.call := rfl
    obtain ⟨t, ht, hop, hrest⟩ := exists_outcome hrun hstarted hfailed
    have hstands := stands_run (accountScript_strict sampleDeps) hrun ht
    exact ⟨p, t, hrun, ht, hop, hrest, burns_of_failed hstands hop hrest nofun nofun⟩
  · have hend : (addressTaken.foldlM (Pool.next (AccountCall.script sampleDeps))
        (Pool.init (Db.empty 0))).any
        (fun p => p.outcome 3 == some (.error (.inl .emailTaken))) = true := by decide +kernel
    obtain ⟨p, hp, hfailed⟩ := (Option.any_eq_true ..).mp hend
    have hrun := Run.of_foldlM hp
    have hstarted : (addressTaken.filterMap Event.started)[3]? = some confirmsAddress.call := rfl
    obtain ⟨t, ht, hop, hrest⟩ := exists_outcome hrun hstarted (eq_of_beq hfailed)
    have hstands := stands_run (accountScript_strict sampleDeps) hrun ht
    exact ⟨p, t, hrun, ht, hop, hrest, burns_of_failed hstands hop hrest nofun nofun⟩

end BikesNest.Auth
