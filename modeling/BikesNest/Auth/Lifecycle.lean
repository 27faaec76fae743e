import BikesNest.Auth.Service
import BikesNest.Lib.Run
import BikesNest.Privacy.Deletion

/-!
# The life cycle of an account

`Lawful` is the law of one step: who may leave `SUSPENDED`, that nobody leaves
`DELETED`, and that `PENDING_EMAIL_VERIFICATION` becomes `ACTIVE` only through a
token that was mailed to the address the account then carries.

* `TokensMailed` is the invariant behind the last part: every stored token was
  mailed to the address that its row names.
* `Calm` relates the database before and after a call that changes no state of
  an account and keeps the invariant.  All operations but four make calm calls
  only.
* `permitted` is the condition on a step, and `lawful_along_iff` the result.
-/

namespace BikesNest.Auth

open Domain Store Relational Privacy

variable {deps : Deps} {db db' : Db}

/-! ## Mailed tokens -/

/-- A token with the same hash was mailed to the address. -/
def Mailed (deps : Deps) (outbox : List EmailMessage) (tokenHash : String)
    (address : String) : Prop :=
  ∃ msg ∈ outbox, msg.recipient = address ∧
    ∃ token : Token, msg.kind.link = verificationLink deps token ∧
      deps.sha256Hex token.bytes = tokenHash

/-- Every stored token names a normalised address and was mailed to it. -/
def TokensMailed (deps : Deps) (db : Db) : Prop :=
  db.emailVerificationTokens.All fun t =>
    UserEmail.parse deps.cases t.email = .ok t.email ∧ Mailed deps db.outbox t.tokenHash t.email

theorem Mailed.append {outbox more : List EmailMessage} {tokenHash address : String}
    (h : Mailed deps outbox tokenHash address) : Mailed deps (outbox ++ more) tokenHash address := by
  obtain ⟨msg, hmsg, hrest⟩ := h
  exact ⟨msg, List.mem_append_left _ hmsg, hrest⟩

/-- The invariant reads the tokens and the mailed messages only. -/
theorem TokensMailed.of_eq (h : TokensMailed deps db)
    (htokens : db'.emailVerificationTokens = db.emailVerificationTokens)
    (houtbox : db'.outbox = db.outbox) : TokensMailed deps db' := by
  rw [TokensMailed, htokens, houtbox]
  exact h

/-! ## Calm calls -/

/-- No account changes its state or its address, and the stored tokens stay
mailed. -/
structure Calm (deps : Deps) (db db' : Db) : Prop where
  accounts : ∀ i r, db.users.row i = some r →
    ∃ r', db'.users.row i = some r' ∧ r'.accountState = r.accountState ∧ r'.email = r.email
  mailed : TokensMailed deps db → TokensMailed deps db'

instance : IsPreorder Db (Calm deps) where
  refl _ := ⟨fun _ r hr => ⟨r, hr, rfl, rfl⟩, id⟩
  trans _ _ _ h h' := by
    refine ⟨fun i r hr => ?_, h'.mailed ∘ h.mailed⟩
    obtain ⟨r', hr', hstate, hemail⟩ := h.accounts i r hr
    obtain ⟨r'', hr'', hstate', hemail'⟩ := h'.accounts i r' hr'
    exact ⟨r'', hr'', hstate'.trans hstate, hemail'.trans hemail⟩

/-- A call that touches neither accounts nor tokens nor messages is calm. -/
theorem Calm.of_eq (husers : db'.users = db.users)
    (htokens : db'.emailVerificationTokens = db.emailVerificationTokens)
    (houtbox : db'.outbox = db.outbox) : Calm deps db db' :=
  ⟨fun _ r hr => ⟨r, by rw [husers, hr], rfl, rfl⟩, fun h => h.of_eq htokens houtbox⟩

theorem audit_calm {ε : Type} (internal : ε) (event : NewAuditEvent) :
    Service.Within (Calm deps) (audit internal event) :=
  audit_within (fun _ _ => .of_eq rfl rfl rfl) internal event

theorem create_calm (new : NewAccount) :
    Service.Within (Calm deps) (repo fun db => create deps.cases db new) := by
  refine Service.Within.request fun db _ db' h => ?_
  unfold create at h
  split at h
  · cases h
  split at h
  · cases h
  cases h
  exact ⟨fun i r hr => ⟨r, Table.row_insert_of_some _ hr, rfl, rfl⟩, fun h => h.of_eq rfl rfl⟩

theorem linkIdentity_calm (id : UserId) (provider : AuthenticationProvider) (subject : String)
    (hash : Option String) :
    Service.Within (Calm deps) (repo fun db => linkIdentity db id provider subject hash) := by
  refine Service.Within.request fun db _ db' h => ?_
  unfold linkIdentity at h
  split at h
  · cases h
    exact refl_of (Calm deps) _
  split at h
  · cases h
  cases h
  exact .of_eq rfl rfl rfl

theorem createSession_calm (id : UserId) (raw csrf : Token) :
    Service.Within (Calm deps) (repo fun db => createSession deps db id raw csrf) := by
  refine Service.Within.request fun db _ db' h => ?_
  obtain ⟨-, hmade⟩ := createSession_eq_ok h
  cases hmade
  exact .of_eq rfl rfl rfl

theorem grantRole_calm (id : UserId) (role : Role) (by' : UserId) :
    Service.Within (Calm deps) (repo fun db => grantRole db id role by') := by
  refine Service.Within.request fun db _ db' h => ?_
  unfold grantRole at h
  split at h
  · cases h
    exact refl_of (Calm deps) _
  split at h
  · cases h
  cases h
  exact .of_eq rfl rfl rfl

theorem revokeRoleGuarded_calm (id : UserId) (role : Role) :
    Service.Within (Calm deps) (repo fun db => revokeRoleGuarded db id role) := by
  refine Service.Within.request fun db _ db' h => ?_
  unfold revokeRoleGuarded at h
  simp only at h
  split at h
  · cases h
  cases h
  exact .of_eq rfl rfl rfl

theorem markEmailVerified_calm {ε : Type} (unreachable : ε) (id : UserId) :
    Service.Within (Calm deps)
      (Service.execute unreachable fun db => markEmailVerified db id db.now) := by
  intro db
  refine ⟨fun i r hr => ?_, fun h => h.of_eq rfl rfl⟩
  simp only [Service.run_execute, markEmailVerified, Table.row_update, hr, Option.map_some,
    Option.some.injEq, exists_eq_left']
  split <;> exact ⟨rfl, rfl⟩

theorem revokeAllForUserExcept_calm {ε : Type} (unreachable : ε) (id : UserId) (keep : Token) :
    Service.Within (Calm deps)
      (Service.execute unreachable fun db => revokeAllForUserExcept deps db id keep) :=
  fun _ => .of_eq rfl rfl rfl

theorem issueVerification_eq_ok {id : UserId} {email : String} {token : Token}
    (h : issueVerification deps db id email token = .ok ((), db')) :
    db' = { db with
      emailVerificationTokens := db.emailVerificationTokens.insert
        { tokenHash := deps.sha256Hex token.bytes, userId := id, email, createdAt := db.now
          expiresAt := db.now + verificationTtl } } := by
  unfold issueVerification at h
  simp only at h
  split at h
  · cases h
  split at h
  · cases h
  cases h
  rfl

/-- A token that is issued and then mailed to its address. -/
theorem issue_enqueue_calm {α : Type} {k : Service Db AuthError α} {email : String}
    {token : Token} {msg : EmailMessage} (id : UserId)
    (hemail : UserEmail.parse deps.cases email = .ok email) (hrecipient : msg.recipient = email)
    (hlink : msg.kind.link = verificationLink deps token) (hk : Service.Within (Calm deps) k) :
    Service.Within (Calm deps) (do
      repo fun db => issueVerification deps db id email token
      enqueue deps msg
      k) := by
  intro db
  rw [Service.run_bind, repo, Service.run_request]
  cases hissue : issueVerification deps db id email token with
  | error e => exact refl_of (Calm deps) db
  | ok result =>
    have hissued := issueVerification_eq_ok hissue
    have hqueued : Calm deps db (enqueued deps msg result.2) := by
      rw [hissued]
      refine ⟨fun i r hr => ⟨r, hr, rfl, rfl⟩, fun hmailed => ?_⟩
      refine Table.All.insert (hmailed.mono fun t ht => ⟨ht.1, ht.2.append⟩) ⟨hemail, ?_⟩
      exact ⟨msg, List.mem_append_right _ (List.mem_singleton_self msg), hrecipient, token,
        hlink, rfl⟩
    exact trans_of (Calm deps) hqueued (hk _)

/-! ## Calm operations -/

theorem register_calm (ports : Ports) (ip rawEmail : String) (displayName : Option String)
    (rawPassword : String) (locale : LocaleCode) :
    Service.Within (Calm deps) (register deps ports ip rawEmail displayName rawPassword locale) := by
  refine .bind (.require _ _) fun _ => ?_
  split
  · exact .throw _
  rename_i email hparse
  refine .bind (.require _ _) fun _ => .bind (read_within _) fun taken => ?_
  split
  · exact .require _ _
  split
  · exact .throw _
  refine .bind (create_calm _) fun userId => ?_
  exact issue_enqueue_calm userId (UserEmail.parse_parse hparse) rfl rfl (audit_calm _ _)

theorem resendVerification_calm (ports : Ports) (ip : String) {email : UserEmail}
    (hemail : UserEmail.parse deps.cases email = .ok email) :
    Service.Within (Calm deps) (resendVerification deps ports ip email) := by
  refine .bind (read_within _) fun found => ?_
  split
  · exact .pure _
  rename_i user
  refine .bind (.require _ _) fun _ => .bind (.require _ _) fun _ => ?_
  exact issue_enqueue_calm user.id hemail rfl rfl (.pure _)

theorem checkPassword_calm (ports : Ports) (email : UserEmail) (password : String) :
    Service.Within (Calm deps) (checkPassword ports email password) := by
  refine .bind (.query _ _) fun identity => ?_
  split
  · exact .throw _
  split
  · exact .throw _
  · exact .require _ _

theorem changeEmail_calm (ports : Ports) (userId : UserId) (currentPassword : String)
    {newEmail : UserEmail} (hemail : UserEmail.parse deps.cases newEmail = .ok newEmail) :
    Service.Within (Calm deps) (changeEmail deps ports userId currentPassword newEmail) := by
  refine .bind (read_within _) fun found => ?_
  split
  · exact .throw _
  refine .bind (checkPassword_calm _ _ _) fun _ => .bind (read_within _) fun taken =>
    .bind (.require _ _) fun _ => ?_
  exact issue_enqueue_calm userId hemail rfl rfl (audit_calm _ _)

theorem signIn_calm (ports : Ports) (user : LoadedUser) :
    Service.Within (Calm deps) (signIn deps ports user) :=
  .bind (.require _ _) fun _ => .bind (createSession_calm _ _ _) fun _ =>
    .bind (audit_calm _ _) fun _ => .pure _

theorem newProviderAccount_calm (identity : ProviderIdentity) :
    Service.Within (Calm deps) (newProviderAccount deps identity) := by
  refine .bind (create_calm _) fun userId => .bind (linkIdentity_calm _ _ _ _) fun _ => ?_
  split
  · refine .bind (markEmailVerified_calm _ _) fun _ => .bind (read_within _) fun found => ?_
    cases found with
    | none => exact .throw _
    | some user => exact .bind (audit_calm _ _) fun _ => .pure _
  · refine .bind (read_within _) fun found => ?_
    cases found with
    | none => exact .throw _
    | some user => exact .bind (audit_calm _ _) fun _ => .pure _

theorem findVerified_calm (identity : ProviderIdentity) :
    Service.Within (Calm deps) (findVerified deps identity) := by
  unfold findVerified
  split
  · exact read_within _
  · exact .pure _

theorem oauthCallback_calm (ports : Ports) (code : String) :
    Service.Within (Calm deps) (oauthCallback deps ports code) := by
  unfold oauthCallback
  split
  · exact .throw _
  rename_i identity hexchange
  refine .bind (.query _ _) fun known => ?_
  split
  · refine .bind (read_within _) fun found => ?_
    split
    · exact .throw _
    · exact signIn_calm _ _
  · refine .bind (findVerified_calm _) fun existing => ?_
    split
    · exact .bind (linkIdentity_calm _ _ _ _) fun _ => signIn_calm _ _
    · exact .bind (newProviderAccount_calm _) fun _ => signIn_calm _ _

theorem grantRoleAs_calm (actor : AuthenticatedUser) (target : UserId) (role : Role) :
    Service.Within (Calm deps) (grantRoleAs actor target role) :=
  .bind (.require _ _) fun _ => .bind (.require _ _) fun _ => .bind (grantRole_calm _ _ _) fun _ =>
    audit_calm _ _

theorem revokeRoleAs_calm (actor : AuthenticatedUser) (target : UserId) (role : Role) :
    Service.Within (Calm deps) (revokeRoleAs actor target role) := by
  refine .bind (.require _ _) fun _ => .bind (.require _ _) fun _ =>
    .bind (revokeRoleGuarded_calm _ _) fun removed => ?_
  split
  · exact audit_calm _ _
  · exact .pure _

/-! ## The step that confirms an address -/

/-- The address that `confirm_email` gives to an account, unless something on
the way to it fails. -/
def confirmable (deps : Deps) (db : Db) (userId : UserId) (email : String) : Option UserEmail := do
  let row ← db.users.row userId
  let _ ← (UserEmail.parse deps.cases row.email).toOption
  let newEmail ← (UserEmail.parse deps.cases email).toOption
  if emailTaken deps.cases db.users userId newEmail || subjectTaken db userId newEmail then none
  else some newEmail

/-- The account that `verify_email` makes `ACTIVE` with the address it gets. -/
def confirmed (deps : Deps) (db : Db) (rawToken : String) : Option (UserId × UserEmail) := do
  let token ← decodeToken deps rawToken
  let t ← liveVerification deps db token
  let newEmail ← confirmable deps db t.userId t.email
  some (t.userId, newEmail)

theorem consume_calm (deps : Deps) (db : Db) (token : Token) :
    Calm deps db (consumeVerification deps db token).2 :=
  ⟨fun _ r hr => ⟨r, hr, rfl, rfl⟩, fun h => Table.All.update h fun _ _ ht _ => ht⟩

theorem finishVerification_calm (user : LoadedUser) (email : String) :
    Service.Within (Calm deps) (finishVerification deps user email) := by
  unfold finishVerification
  dsimp only
  split
  · exact .bind (revokeAllForUserExcept_calm _ _ _) fun _ => audit_calm _ _
  · exact audit_calm _ _

/-- What `confirm_email` and the steps around it do to the accounts. -/
theorem verifyConsumed_run (deps : Deps) (db : Db) (userId : UserId) (email : String) :
    match confirmable deps db userId email with
    | none => ((verifyConsumed deps userId email).run db).2 = db
    | some newEmail => Calm deps (emailConfirmed db userId db.now newEmail)
        ((verifyConsumed deps userId email).run db).2 := by
  rw [verifyConsumed, Service.run_bind, read, repo, Service.run_request, confirmable, findById]
  cases hrow : db.users.row userId with
  | none => rfl
  | some row =>
  simp only [loadUser, Option.bind_eq_bind, Option.bind_some]
  cases hload : UserEmail.parse deps.cases row.email with
  | error e => rfl
  | ok loaded =>
  simp only [Except.toOption, Option.bind_some]
  cases hparse : UserEmail.parse deps.cases email with
  | error e => rfl
  | ok newEmail =>
  simp only [Except.map, Option.bind_some]
  rw [Service.run_bind, Service.run_mapErr, repo, Service.run_request, confirmEmail, hrow,
    Option.isSome_some, Bool.true_and]
  cases htaken : emailTaken deps.cases db.users userId newEmail with
  | true => rfl
  | false =>
  cases hsubject : subjectTaken db userId newEmail with
  | true => rfl
  | false =>
  exact finishVerification_calm _ _ _

/-- What `verify_email` does to the accounts: it confirms the address of a live
token after it has marked the token as used. -/
theorem verifyEmail_run (deps : Deps) (db : Db) (rawToken : String) :
    match confirmed deps db rawToken with
    | none => Calm deps db ((verifyEmail deps rawToken).run db).2
    | some (id, newEmail) => ∃ mid, mid.users = db.users ∧
        (TokensMailed deps db → TokensMailed deps mid) ∧
        Calm deps (emailConfirmed mid id mid.now newEmail)
          ((verifyEmail deps rawToken).run db).2 := by
  rw [verifyEmail, confirmed]
  cases decodeToken deps rawToken with
  | none => exact refl_of (Calm deps) db
  | some token =>
  rw [Option.bind_eq_bind, Option.bind_some]
  dsimp only
  rw [Service.run_bind, repo, Service.run_request]
  have hconsume := consume_calm deps db token
  cases hlive : liveVerification deps db token with
  | none => simpa [consumeVerification, hlive] using hconsume
  | some t =>
  have hrun := verifyConsumed_run deps (consumeVerification deps db token).2 t.userId
    t.email
  have hsame : confirmable deps (consumeVerification deps db token).2 t.userId t.email =
      confirmable deps db t.userId t.email := rfl
  rw [hsame] at hrun
  simp only [consumeVerification, hlive, Option.map_some] at hrun hconsume ⊢
  cases hconfirm : confirmable deps db t.userId t.email with
  | none =>
    simp only [Option.bind_eq_bind, Option.bind_some, hconfirm, Option.bind_none]
    rw [hconfirm] at hrun
    rw [hrun]
    exact hconsume
  | some newEmail =>
    simp only [Option.bind_eq_bind, Option.bind_some, hconfirm]
    rw [hconfirm] at hrun
    exact ⟨(consumeVerification deps db token).2, rfl, hconsume.mailed, hrun⟩

/-- The address that is confirmed is that of a live token. -/
theorem confirmed_eq_some {rawToken : String} {id : UserId} {newEmail : UserEmail}
    (h : confirmed deps db rawToken = some (id, newEmail)) :
    ∃ token t, decodeToken deps rawToken = some token ∧
      liveVerification deps db token = some t ∧ t.userId = id ∧
      UserEmail.parse deps.cases t.email = .ok newEmail := by
  simp only [confirmed, Option.bind_eq_bind, Option.bind_eq_some_iff, Option.some.injEq,
    Prod.mk.injEq] at h
  obtain ⟨token, htoken, t, hlive, email, hconfirm, hid, rfl⟩ := h
  refine ⟨token, t, htoken, hlive, hid, ?_⟩
  simp only [confirmable, Option.bind_eq_bind, Option.bind_eq_some_iff] at hconfirm
  obtain ⟨_, _, _, _, parsed, hparse, hguard⟩ := hconfirm
  split at hguard
  · cases hguard
  · cases hguard
    cases hemail : UserEmail.parse deps.cases t.email with
    | error e => rw [hemail] at hparse; cases hparse
    | ok e =>
      rw [hemail] at hparse
      exact congrArg _ (Option.some.inj hparse)

/-- A live token is a stored token with the hash. -/
theorem liveVerification_eq_some {token : Token} {t : EmailVerificationToken}
    (h : liveVerification deps db token = some t) :
    t.tokenHash = deps.sha256Hex token.bytes ∧
      ∃ i, db.emailVerificationTokens.row i = some t := by
  obtain ⟨⟨i, t'⟩, hhead, rfl⟩ := Option.map_eq_some_iff.mp h
  obtain ⟨hrow, hlive⟩ := Table.mem_select.mp (List.mem_of_head? hhead)
  simp only [isLive, Bool.and_eq_true, beq_iff_eq] at hlive
  exact ⟨hlive.1.1, i, hrow⟩

/-! ## Operations and the law -/

/-- One operation on accounts, with what the ports answer during it.  Raw
addresses are parsed by the caller of the service. -/
inductive AccountOp where
  | wait (d : Nat)
  | register (ports : Ports) (ip rawEmail : String) (displayName : Option String)
      (rawPassword : String) (locale : LocaleCode)
  | verifyEmail (rawToken : String)
  | resendVerification (ports : Ports) (ip rawEmail : String)
  | changeEmail (ports : Ports) (userId : UserId) (currentPassword rawEmail : String)
  | oauthCallback (ports : Ports) (code : String)
  | suspendUser (actor : AuthenticatedUser) (target : UserId)
  | restoreUser (actor : AuthenticatedUser) (target : UserId)
  | grantRole (actor : AuthenticatedUser) (target : UserId) (role : Role)
  | revokeRole (actor : AuthenticatedUser) (target : UserId) (role : Role)
  | requestDeletion (hasher : PasswordHasher) (user : AuthenticatedUser)
      (password : Option String) (confirmEmail : String)

/-- The database after an operation. -/
def AccountOp.exec (deps : Deps) (db : Db) : AccountOp → Db
  | .wait d => { db with now := db.now + d }
  | .register ports ip rawEmail displayName rawPassword locale =>
    ((Auth.register deps ports ip rawEmail displayName rawPassword locale).run db).2
  | .verifyEmail rawToken => ((Auth.verifyEmail deps rawToken).run db).2
  | .resendVerification ports ip rawEmail =>
    match UserEmail.parse deps.cases rawEmail with
    | .error _ => db
    | .ok email => ((Auth.resendVerification deps ports ip email).run db).2
  | .changeEmail ports userId currentPassword rawEmail =>
    match UserEmail.parse deps.cases rawEmail with
    | .error _ => db
    | .ok email => ((Auth.changeEmail deps ports userId currentPassword email).run db).2
  | .oauthCallback ports code => ((Auth.oauthCallback deps ports code).run db).2
  | .suspendUser actor target => ((Auth.suspendUser deps actor target).run db).2
  | .restoreUser actor target => ((Auth.restoreUser actor target).run db).2
  | .grantRole actor target role => ((grantRoleAs actor target role).run db).2
  | .revokeRole actor target role => ((revokeRoleAs actor target role).run db).2
  | .requestDeletion hasher user password confirmEmail =>
    ((Privacy.requestDeletion deps.cases hasher user password confirmEmail).run db).2

/-- The operation is an ADMIN's `restore_user` of the account. -/
def AccountOp.Restores (op : AccountOp) (i : UserId) : Prop :=
  ∃ actor, op = .restoreUser actor i ∧ actor.hasRole .admin = true

/-- The operation is the deletion of the account. -/
def AccountOp.Deletes (op : AccountOp) (i : UserId) : Prop :=
  ∃ hasher user password confirmEmail,
    op = .requestDeletion hasher user password confirmEmail ∧ user.id = i

/-- The operation consumes a token that was mailed to the address. -/
def AccountOp.ConsumesMailed (deps : Deps) (db : Db) (op : AccountOp) (address : String) : Prop :=
  ∃ rawToken token, op = .verifyEmail rawToken ∧ decodeToken deps rawToken = some token ∧
    (liveVerification deps db token).isSome = true ∧
    Mailed deps db.outbox (deps.sha256Hex token.bytes) address

/-- The law of one step from `db` to `db'`: what happens to each account. -/
def Lawful (deps : Deps) (db : Db) (op : AccountOp) (db' : Db) : Prop :=
  ∀ i r, db.users.row i = some r → ∃ r', db'.users.row i = some r' ∧
    (r.accountState = .suspended → r'.accountState = .suspended ∨ op.Restores i ∨
      (op.Deletes i ∧ r'.accountState = .deleted)) ∧
    (r.accountState = .deleted → r'.accountState = .deleted) ∧
    (r.accountState = .pendingEmailVerification → r'.accountState = .active →
      op.ConsumesMailed deps db r'.email)

/-- The account is in one of the states. -/
def inState (db : Db) (i : UserId) (states : List AccountState) : Bool :=
  (db.users.row i).any fun r => states.contains r.accountState

/-- The condition on a step: no address of a suspended or deleted account is
confirmed, no deleted account is suspended, and no deleted or pending account is
restored. -/
def permitted (deps : Deps) (db : Db) : AccountOp → Bool
  | .verifyEmail rawToken =>
    !(confirmed deps db rawToken).any fun x => inState db x.1 [.suspended, .deleted]
  | .suspendUser actor target => !(actor.hasRole .admin && inState db target [.deleted])
  | .restoreUser actor target =>
    !(actor.hasRole .admin && inState db target [.pendingEmailVerification, .deleted])
  | _ => true

/-! ## Steps -/

/-- An account that keeps its state is treated lawfully. -/
theorem states_of_same {r r' : User} {P Q : Prop} (h : r'.accountState = r.accountState) :
    (r.accountState = .suspended → r'.accountState = .suspended ∨ P) ∧
      (r.accountState = .deleted → r'.accountState = .deleted) ∧
      (r.accountState = .pendingEmailVerification → r'.accountState = .active → Q) := by
  refine ⟨fun hs => Or.inl (h.trans hs), fun hs => h.trans hs, fun hs ha => ?_⟩
  rw [h, hs] at ha
  cases ha

theorem Calm.lawful {op : AccountOp} (h : Calm deps db db') : Lawful deps db op db' := by
  intro i r hr
  obtain ⟨r', hr', hstate, _⟩ := h.accounts i r hr
  exact ⟨r', hr', states_of_same hstate⟩

/-- A step that sets the state of one account and is calm otherwise. -/
theorem setState_states {target : UserId} {state : AccountState}
    (h : Calm deps (setState db target state) db') {i : UserId} {r : User}
    (hr : db.users.row i = some r) : ∃ r', db'.users.row i = some r' ∧
      r'.accountState = if i = target then state else r.accountState := by
  have hmid : (setState db target state).users.row i =
      some (if i == target then { r with accountState := state, updatedAt := db.now } else r) := by
    simp [setState, hr]
  obtain ⟨r', hr', hstate, _⟩ := h.accounts i _ hmid
  refine ⟨r', hr', hstate.trans ?_⟩
  by_cases hi : i = target <;> simp [hi]

/-- What `suspend_user` does to the accounts. -/
theorem suspendUser_run (deps : Deps) (db : Db) (actor : AuthenticatedUser) (target : UserId) :
    Calm deps (if actor.hasRole .admin then setState db target .suspended else db)
      ((suspendUser deps actor target).run db).2 := by
  rw [suspendUser, requireAdmin, Service.run_bind, Service.run_require]
  cases actor.hasRole .admin with
  | false => exact refl_of (Calm deps) db
  | true =>
    have hrest : Service.Within (Calm deps) (do
        Service.execute .unavailable fun db => revokeAllForUserExcept deps db target noSession
        audit .internal (succeeded actor.id "user.suspended" target) :
          Service Db AuthError Unit) :=
      .bind (revokeAllForUserExcept_calm _ _ _) fun _ => audit_calm _ _
    exact hrest _

/-- What `restore_user` does to the accounts. -/
theorem restoreUser_run (deps : Deps) (db : Db) (actor : AuthenticatedUser) (target : UserId) :
    Calm deps (if actor.hasRole .admin then setState db target .active else db)
      ((restoreUser actor target).run db).2 := by
  rw [restoreUser, requireAdmin, Service.run_bind, Service.run_require]
  cases actor.hasRole .admin with
  | false => exact refl_of (Calm deps) db
  | true => exact audit_calm _ _ _

theorem not_mem_of_inState {i : UserId} {states : List AccountState} {r : User}
    (h : inState db i states = false) (hr : db.users.row i = some r) :
    r.accountState ∉ states := by
  simpa [inState, hr] using h

theorem inState_of_mem {i : UserId} {states : List AccountState} (h : inState db i states = true) :
    ∃ r, db.users.row i = some r ∧ r.accountState ∈ states := by
  obtain ⟨r, hr, hmem⟩ := (Option.any_eq_true ..).mp h
  exact ⟨r, hr, by simpa using hmem⟩

theorem lawful_suspendUser_iff (db : Db) (actor : AuthenticatedUser) (target : UserId) :
    Lawful deps db (.suspendUser actor target)
        ((AccountOp.suspendUser actor target).exec deps db) ↔
      permitted deps db (.suspendUser actor target) = true := by
  have hrun := suspendUser_run deps db actor target
  simp only [AccountOp.exec, permitted]
  cases hadmin : actor.hasRole .admin with
  | false =>
    rw [hadmin, if_neg Bool.false_ne_true] at hrun
    simpa using hrun.lawful
  | true =>
    rw [hadmin, if_pos rfl] at hrun
    rw [Bool.true_and, Bool.not_eq_true']
    constructor
    · intro hlawful
      by_contra hdeleted
      obtain ⟨r, hr, hstate⟩ := inState_of_mem (by simpa using hdeleted)
      obtain ⟨r', hr', _, hstay, _⟩ := hlawful target r hr
      obtain ⟨r'', hr'', hset⟩ := setState_states hrun hr
      obtain rfl := Option.some.inj (hr'.symm.trans hr'')
      rw [hstay (by simpa using hstate), if_pos rfl] at hset
      cases hset
    · intro hstate i r hr
      obtain ⟨r', hr', hset⟩ := setState_states hrun hr
      refine ⟨r', hr', ?_⟩
      by_cases hi : i = target
      · subst hi
        have hnot := not_mem_of_inState hstate hr
        rw [if_pos rfl] at hset
        exact ⟨fun _ => Or.inl hset, fun hs => absurd (by simp [hs]) hnot, fun _ ha => by
          rw [hset] at ha
          cases ha⟩
      · rw [if_neg hi] at hset
        exact states_of_same hset

theorem lawful_restoreUser_iff (db : Db) (actor : AuthenticatedUser) (target : UserId) :
    Lawful deps db (.restoreUser actor target)
        ((AccountOp.restoreUser actor target).exec deps db) ↔
      permitted deps db (.restoreUser actor target) = true := by
  have hrun := restoreUser_run deps db actor target
  simp only [AccountOp.exec, permitted]
  cases hadmin : actor.hasRole .admin with
  | false =>
    rw [hadmin, if_neg Bool.false_ne_true] at hrun
    simpa using hrun.lawful
  | true =>
    rw [hadmin, if_pos rfl] at hrun
    rw [Bool.true_and, Bool.not_eq_true']
    constructor
    · intro hlawful
      by_contra hbarred
      obtain ⟨r, hr, hstate⟩ := inState_of_mem (by simpa using hbarred)
      obtain ⟨r', hr', _, hstay, hactive⟩ := hlawful target r hr
      obtain ⟨r'', hr'', hset⟩ := setState_states hrun hr
      obtain rfl := Option.some.inj (hr'.symm.trans hr'')
      rw [if_pos rfl] at hset
      rcases List.mem_pair.mp hstate with hpending | hdeleted
      · obtain ⟨_, _, hop, _⟩ := hactive hpending hset
        cases hop
      · rw [hstay hdeleted] at hset
        cases hset
    · intro hstate i r hr
      obtain ⟨r', hr', hset⟩ := setState_states hrun hr
      refine ⟨r', hr', ?_⟩
      by_cases hi : i = target
      · subst hi
        have hnot := not_mem_of_inState hstate hr
        exact ⟨fun _ => Or.inr (Or.inl ⟨actor, rfl, hadmin⟩),
          fun hs => absurd (by simp [hs]) hnot, fun hs => absurd (by simp [hs]) hnot⟩
      · rw [if_neg hi] at hset
        exact states_of_same hset

/-- The accounts after a confirmed address. -/
theorem emailConfirmed_accounts {mid : Db} {id : UserId} {newEmail : UserEmail}
    (husers : mid.users = db.users)
    (h : Calm deps (emailConfirmed mid id mid.now newEmail) db') {i : UserId} {r : User}
    (hr : db.users.row i = some r) : ∃ r', db'.users.row i = some r' ∧
      (i = id → r'.accountState = .active ∧ r'.email = newEmail) ∧
      (i ≠ id → r'.accountState = r.accountState) := by
  have hmid : (emailConfirmed mid id mid.now newEmail).users.row i =
      some (if i == id then User.confirmed r mid.now mid.now newEmail else r) := by
    simp [emailConfirmed, husers, hr]
  obtain ⟨r', hr', hstate, hemail⟩ := h.accounts i _ hmid
  refine ⟨r', hr', fun hi => ?_, fun hi => ?_⟩
  · rw [hstate, hemail, if_pos (by simpa using hi)]
    exact ⟨rfl, rfl⟩
  · rw [hstate, if_neg (by simpa using hi)]

theorem lawful_verifyEmail_iff (hmailed : TokensMailed deps db) (rawToken : String) :
    Lawful deps db (.verifyEmail rawToken) ((AccountOp.verifyEmail rawToken).exec deps db) ↔
      permitted deps db (.verifyEmail rawToken) = true := by
  have hrun := verifyEmail_run deps db rawToken
  simp only [AccountOp.exec, permitted]
  cases hconfirmed : confirmed deps db rawToken with
  | none =>
    rw [hconfirmed] at hrun
    simpa using Calm.lawful hrun
  | some x =>
    obtain ⟨id, newEmail⟩ := x
    rw [hconfirmed] at hrun
    obtain ⟨mid, husers, _, hcalm⟩ := hrun
    rw [Option.any_some, Bool.not_eq_true']
    constructor
    · intro hlawful
      by_contra hbarred
      obtain ⟨r, hr, hstate⟩ := inState_of_mem (by simpa using hbarred)
      obtain ⟨r', hr', hleave, hstay, _⟩ := hlawful id r hr
      obtain ⟨r'', hr'', hset, _⟩ := emailConfirmed_accounts husers hcalm hr
      obtain rfl := Option.some.inj (hr'.symm.trans hr'')
      have hactive := (hset rfl).1
      rcases List.mem_pair.mp hstate with hsuspended | hdeleted
      · rcases hleave hsuspended with hsame | ⟨_, hop, _⟩ | ⟨_, hgone⟩
        · rw [hactive] at hsame
          cases hsame
        · cases hop
        · rw [hactive] at hgone
          cases hgone
      · rw [hactive] at hstay
        cases hstay hdeleted
    · intro hstate i r hr
      obtain ⟨r', hr', hset, hkeep⟩ := emailConfirmed_accounts husers hcalm hr
      refine ⟨r', hr', ?_⟩
      by_cases hi : i = id
      · subst hi
        have hnot := not_mem_of_inState hstate hr
        refine ⟨fun hs => absurd (by simp [hs]) hnot, fun hs => absurd (by simp [hs]) hnot,
          fun _ _ => ?_⟩
        obtain ⟨token, t, htoken, hlive, _, hparse⟩ := confirmed_eq_some hconfirmed
        obtain ⟨hhash, k, hk⟩ := liveVerification_eq_some hlive
        obtain ⟨hnormal, hsent⟩ := hmailed k t hk
        obtain rfl : t.email = newEmail := Except.ok.inj (hnormal.symm.trans hparse)
        refine ⟨rawToken, token, rfl, htoken, by rw [hlive]; rfl, ?_⟩
        rw [(hset rfl).2, ← hhash]
        exact hsent
      · exact states_of_same (hkeep hi)

/-! ## The deletion -/

/-- No account changes its state but `u`, which may become `DELETED`. -/
structure Erases (deps : Deps) (u : UserId) (db db' : Db) : Prop where
  accounts : ∀ i r, db.users.row i = some r → ∃ r', db'.users.row i = some r' ∧
    (r'.accountState = r.accountState ∨ (u = i ∧ r'.accountState = .deleted))
  mailed : TokensMailed deps db → TokensMailed deps db'

instance (u : UserId) : IsPreorder Db (Erases deps u) where
  refl _ := ⟨fun _ r hr => ⟨r, hr, Or.inl rfl⟩, id⟩
  trans _ _ _ h h' := by
    refine ⟨fun i r hr => ?_, h'.mailed ∘ h.mailed⟩
    obtain ⟨r', hr', hstate⟩ := h.accounts i r hr
    obtain ⟨r'', hr'', hstate'⟩ := h'.accounts i r' hr'
    refine ⟨r'', hr'', ?_⟩
    rcases hstate' with hsame | hgone
    · rw [hsame]
      exact hstate
    · exact Or.inr hgone

theorem Calm.erases (h : Calm deps db db') (u : UserId) : Erases deps u db db' := by
  refine ⟨fun i r hr => ?_, h.mailed⟩
  obtain ⟨r', hr', hstate, _⟩ := h.accounts i r hr
  exact ⟨r', hr', Or.inl hstate⟩

theorem Erases.of_eq {u : UserId} (husers : db'.users = db.users)
    (htokens : db'.emailVerificationTokens = db.emailVerificationTokens)
    (houtbox : db'.outbox = db.outbox) : Erases deps u db db' :=
  (Calm.of_eq husers htokens houtbox).erases u

theorem scrubbed_erases (db : Db) (u : UserId) (now : Instant) :
    Erases deps u db (scrubbed db u now) := by
  refine ⟨fun i r hr => ?_, fun h => Table.All.delete h⟩
  refine ⟨if i == u then User.scrubbed r u now else r, by simp [scrubbed, hr], ?_⟩
  by_cases hi : i = u
  · subst hi
    simp [User.scrubbed]
  · simp [hi]

theorem reauthenticate_erases {cases' : Text.CaseMap} (hasher : PasswordHasher)
    (user : AuthenticatedUser) (password : Option String) (confirmEmail : String) :
    Service.Within (Erases deps user.id)
      (reauthenticate cases' hasher user password confirmEmail) := by
  refine .bind (.require _ _) fun _ => .bind (.query _ _) fun identity => ?_
  split
  · exact .pure _
  split
  · exact .throw _
  split
  · exact .throw _
  · exact .require _ _

theorem requestDeletion_erases (hasher : PasswordHasher) (user : AuthenticatedUser)
    (password : Option String) (confirmEmail : String) :
    Service.Within (Erases deps user.id)
      (requestDeletion deps.cases hasher user password confirmEmail) := by
  have haudit : ∀ event, Service.Within (Erases deps user.id)
      (audit PrivacyError.internal event) := fun event db => (audit_calm _ event db).erases _
  refine .bind (reauthenticate_erases _ _ _ _) fun _ => .bind (.query _ _) fun last =>
    .bind (.require _ _) fun _ => .bind (.request fun db _ db' h => ?_) fun requestId =>
    .bind (haudit _) fun _ => .bind (.request fun db _ db' h => ?_) fun _ =>
    .bind (.request fun db _ db' h => ?_) fun _ => .bind (haudit _) fun _ db => ?_
  · unfold createRequest at h
    split at h
    · cases h
    · cases h
      exact Erases.of_eq rfl rfl rfl
  · rw [(anonymize_eq_ok h).1]
    exact scrubbed_erases db user.id db.now
  · unfold fulfill at h
    simp only at h
    split at h
    · cases h
    split at h
    · cases h
    cases h
    exact Erases.of_eq rfl rfl rfl
  · exact Erases.of_eq rfl rfl rfl

theorem lawful_requestDeletion (db : Db) (hasher : PasswordHasher) (user : AuthenticatedUser)
    (password : Option String) (confirmEmail : String) :
    Lawful deps db (.requestDeletion hasher user password confirmEmail)
      ((AccountOp.requestDeletion hasher user password confirmEmail).exec deps db) := by
  intro i r hr
  obtain ⟨r', hr', hstate⟩ :=
    (requestDeletion_erases hasher user password confirmEmail db).accounts i r hr
  rcases hstate with hsame | ⟨hid, hgone⟩
  · exact ⟨r', hr', states_of_same hsame⟩
  · refine ⟨r', hr', fun _ => Or.inr (Or.inr ?_), fun _ => hgone, fun _ ha => ?_⟩
    · exact ⟨⟨hasher, user, password, confirmEmail, rfl, hid⟩, hgone⟩
    · rw [hgone] at ha
      cases ha

/-! ## Runs -/

/-- Every operation keeps the stored tokens mailed. -/
theorem AccountOp.exec_mailed (db : Db) (op : AccountOp) (h : TokensMailed deps db) :
    TokensMailed deps (op.exec deps db) := by
  cases op with
  | wait d => exact h.of_eq rfl rfl
  | register ports ip rawEmail displayName rawPassword locale =>
    exact (register_calm ports ip rawEmail displayName rawPassword locale db).mailed h
  | verifyEmail rawToken =>
    have hrun := verifyEmail_run deps db rawToken
    cases hconfirmed : confirmed deps db rawToken with
    | none =>
      rw [hconfirmed] at hrun
      exact hrun.mailed h
    | some x =>
      rw [hconfirmed] at hrun
      obtain ⟨mid, _, hkeep, hcalm⟩ := hrun
      exact hcalm.mailed ((hkeep h).of_eq rfl rfl)
  | resendVerification ports ip rawEmail =>
    simp only [exec]
    split
    · exact h
    · rename_i email hparse
      exact (resendVerification_calm ports ip (UserEmail.parse_parse hparse) db).mailed h
  | changeEmail ports userId currentPassword rawEmail =>
    simp only [exec]
    split
    · exact h
    · rename_i email hparse
      exact (changeEmail_calm ports userId currentPassword (UserEmail.parse_parse hparse) db).mailed h
  | oauthCallback ports code => exact (oauthCallback_calm ports code db).mailed h
  | suspendUser actor target =>
    refine (suspendUser_run deps db actor target).mailed ?_
    split
    · exact h.of_eq rfl rfl
    · exact h
  | restoreUser actor target =>
    refine (restoreUser_run deps db actor target).mailed ?_
    split
    · exact h.of_eq rfl rfl
    · exact h
  | grantRole actor target role => exact (grantRoleAs_calm actor target role db).mailed h
  | revokeRole actor target role => exact (revokeRoleAs_calm actor target role db).mailed h
  | requestDeletion hasher user password confirmEmail =>
    exact (requestDeletion_erases hasher user password confirmEmail db).mailed h

/-- A step is lawful exactly when it is permitted. -/
theorem AccountOp.lawful_iff (db : Db) (op : AccountOp) (h : TokensMailed deps db) :
    Lawful deps db op (op.exec deps db) ↔ permitted deps db op = true := by
  cases op with
  | wait d => exact iff_of_true (Calm.of_eq rfl rfl rfl).lawful rfl
  | register ports ip rawEmail displayName rawPassword locale =>
    exact iff_of_true (register_calm ports ip rawEmail displayName rawPassword locale db).lawful rfl
  | verifyEmail rawToken => exact lawful_verifyEmail_iff h rawToken
  | resendVerification ports ip rawEmail =>
    refine iff_of_true ?_ rfl
    simp only [exec]
    split
    · exact (refl_of (Calm deps) db).lawful
    · rename_i email hparse
      exact (resendVerification_calm ports ip (UserEmail.parse_parse hparse) db).lawful
  | changeEmail ports userId currentPassword rawEmail =>
    refine iff_of_true ?_ rfl
    simp only [exec]
    split
    · exact (refl_of (Calm deps) db).lawful
    · rename_i email hparse
      exact (changeEmail_calm ports userId currentPassword (UserEmail.parse_parse hparse) db).lawful
  | oauthCallback ports code => exact iff_of_true (oauthCallback_calm ports code db).lawful rfl
  | suspendUser actor target => exact lawful_suspendUser_iff db actor target
  | restoreUser actor target => exact lawful_restoreUser_iff db actor target
  | grantRole actor target role =>
    exact iff_of_true (grantRoleAs_calm actor target role db).lawful rfl
  | revokeRole actor target role =>
    exact iff_of_true (revokeRoleAs_calm actor target role db).lawful rfl
  | requestDeletion hasher user password confirmEmail =>
    exact iff_of_true (lawful_requestDeletion db hasher user password confirmEmail) rfl

/-- Every step of a run obeys the law of the account life cycle exactly when
every step is permitted. -/
theorem lawful_along_iff (ops : List AccountOp) (h : TokensMailed deps db) :
    Runs.Along (fun db op => AccountOp.exec deps db op)
        (fun db op => Lawful deps db op (op.exec deps db)) db ops ↔
      Runs.Along (fun db op => AccountOp.exec deps db op)
        (fun db op => permitted deps db op = true) db ops :=
  Runs.along_congr (fun db op => AccountOp.exec_mailed db op)
    (fun db op => AccountOp.lawful_iff db op) h

/-- A rider registers. -/
def signUp : AccountOp :=
  .register (samplePorts zeroToken) "203.0.113.7" "Rider@Example.com" none "correct horse" .en

/-- The admin of `adminOnly`, signed in. -/
def sampleAdmin : AuthenticatedUser where
  id := 1
  email := "admin@example.com"
  accountState := .active
  isVerified := true
  roles := [.user, .admin]

/-- A database with one account, the first admin. -/
def adminOnly : Db :=
  { Db.empty 0 with
    users := Table.empty.insert
      { email := "admin@example.com", displayName := none, accountState := .active
        emailVerifiedAt := some 0, locale := .en, createdAt := 0 }
    userRoles := (Table.empty.insert
      { userId := 1, role := .user, grantedBy := none, grantedAt := 0 }).insert
      { userId := 1, role := .admin, grantedBy := none, grantedAt := 0 } }

theorem adminOnly_tokensMailed : TokensMailed deps adminOnly := Table.All.empty

/-- A rider signs up, confirms the address and is suspended and restored. -/
theorem lawful_along_iff_signUp :
    Runs.Along (fun db op => AccountOp.exec sampleDeps db op)
      (fun db op => Lawful sampleDeps db op (op.exec sampleDeps db)) adminOnly
      [signUp, .verifyEmail (sampleDeps.base64url zeroToken.bytes), .suspendUser sampleAdmin 2, .restoreUser sampleAdmin 2] :=
  (lawful_along_iff _ adminOnly_tokensMailed).mpr
    ⟨rfl, by decide +kernel, by decide +kernel, by decide +kernel, trivial⟩

/-- A suspended account that becomes active breaks the law unless it is
restored. -/
theorem not_lawful_of_reactivated {op : AccountOp} {i : UserId}
    (hbefore : (db.users.row i).map User.accountState = some .suspended)
    (hafter : ((op.exec deps db).users.row i).map User.accountState = some .active)
    (hop : ¬ op.Restores i) : ¬ Lawful deps db op (op.exec deps db) := by
  intro hlawful
  obtain ⟨r, hr, hsuspended⟩ := Option.map_eq_some_iff.mp hbefore
  obtain ⟨r', hr', hleave, _⟩ := hlawful i r hr
  rw [hr'] at hafter
  have hactive : r'.accountState = .active := Option.some.inj hafter
  rcases hleave hsuspended with hsame | hrestores | ⟨_, hgone⟩
  · rw [hactive] at hsame
    cases hsame
  · exact hop hrestores
  · rw [hactive] at hgone
    cases hgone

/-- The token of the registration brings a suspended account back. -/
theorem suspended_reactivates :
    ¬ Runs.Along (fun db op => AccountOp.exec sampleDeps db op)
      (fun db op => Lawful sampleDeps db op (op.exec sampleDeps db)) adminOnly
      [signUp, .suspendUser sampleAdmin 2, .verifyEmail (sampleDeps.base64url zeroToken.bytes)] := by
  rintro ⟨_, _, hlawful, _⟩
  refine absurd hlawful (not_lawful_of_reactivated (i := 2) ?_ ?_ ?_)
  · decide +kernel
  · decide +kernel
  · rintro ⟨_, hop, _⟩
    cases hop

end BikesNest.Auth
