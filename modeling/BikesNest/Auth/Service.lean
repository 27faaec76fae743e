import BikesNest.Auth.Accounts

/-!
# The auth service

The use cases of `AuthService` that write accounts: registration and
verification, the change of an address, the provider callback, roles and
suspension.

`Ports` holds what the service asks of the world other than the database, as it
answers during one operation: the password hasher, the rate limiter, the token
generator and the identity provider.
-/

namespace BikesNest.Auth

open Domain Store Relational

/-- `ProviderIdentity`: what an identity provider asserts. -/
structure ProviderIdentity where
  provider : AuthenticationProvider
  subject : String
  email : UserEmail
  emailVerified : Bool

/-- The ports of the service during one operation.  `allow` is the answer of the
rate limiter to a key, a limit and a window, and `generate n` the token that the
generator answers to the call number `n`. -/
structure Ports where
  hasher : PasswordHasher
  allow : String → Nat → Int → Bool
  generate : Nat → Token
  exchange : String → Option ProviderIdentity

/-- The outcome of a sign-in. -/
structure LoginOutcome where
  session : Token
  csrf : Token
  user : AuthenticatedUser

/-! ## Calls -/

/-- One call of a repository. -/
def repo {α : Type} (f : Db → Except AuthError (α × Db)) : Service Db AuthError α :=
  .request .unavailable f

/-- One call of a repository that only reads. -/
def read {α : Type} (f : Db → Except AuthError α) : Service Db AuthError α :=
  repo fun db => (f db).map fun a => (a, db)

/-- A call that only reads stays within every preorder. -/
theorem read_within {α : Type} {R : Db → Db → Prop} [IsPreorder Db R]
    (f : Db → Except AuthError α) : Service.Within R (read f) := by
  refine Service.Within.request fun db a db' h => ?_
  cases hf : f db with
  | error e =>
    rw [hf] at h
    cases h
  | ok x =>
    rw [hf] at h
    cases h
    exact refl_of R _

/-- `allowed`, with the window of an hour that every caller here asks for. -/
def allowed (ports : Ports) (key : String) (limit : Nat) : Service Db AuthError Unit :=
  Service.require (ports.allow key limit hour) .rateLimited

/-- `AuditEvent::success` about a user. -/
def succeeded (actor : UserId) (action : String) (target : UserId) : NewAuditEvent where
  actor := some actor
  action := action
  targetType := "user"
  targetId := toString target

/-- `JobEmailQueue::enqueue`: one `email.send` job for each message about a
token. -/
def enqueued (deps : Deps) (msg : EmailMessage) (db : Db) : Db :=
  let key := "email:" ++ msg.kind.code ++ ":" ++ deps.sha256Hex msg.kind.link.toUTF8.toList
  { db with
    backgroundJob := (Jobs.enqueue db.backgroundJob "email.send" msg.toValue db.now
      (some deps.emailMaxAttempts) (some key)).2
    outbox := db.outbox ++ [msg] }

/-- One call of the email queue. -/
def enqueue (deps : Deps) (msg : EmailMessage) : Service Db AuthError Unit :=
  .execute .internal (enqueued deps msg)

/-- `verification_link`. -/
def verificationLink (deps : Deps) (token : Token) : String :=
  String.ofList (deps.baseUrl.toList.rdropWhile (· == '/')) ++ "/verify-email?token=" ++
    deps.base64url token.bytes

/-- `verification_email`. -/
def verificationEmail (deps : Deps) (recipient : UserEmail) (locale : LocaleCode)
    (token : Token) : EmailMessage where
  recipient := recipient
  locale := locale
  kind := .verifyEmail (verificationLink deps token)

/-- `change_email_message`. -/
def changeEmailMessage (deps : Deps) (recipient : UserEmail) (locale : LocaleCode)
    (token : Token) : EmailMessage where
  recipient := recipient
  locale := locale
  kind := .confirmEmailChange (verificationLink deps token)

/-- `decode_token`. -/
def decodeToken (deps : Deps) (raw : String) : Option Token :=
  match deps.fromBase64url raw with
  | none => none
  | some bytes => if h : bytes.length = 32 then some ⟨bytes, h⟩ else none

/-- 32 zero bytes, the session that a revocation keeps when it keeps none. -/
def noSession : Token := ⟨List.replicate 32 0, rfl⟩

/-- `DUMMY_HASH`. -/
def dummyHash : String :=
  "$argon2id$v=19$m=19456,t=2,p=1$AAAAAAAAAAAAAAAAAAAAAA$" ++
    "AAAAAAAAAAAAAAAAAAAAAAAAAAAAAAAAAAAAAAAAAAA"

/-! ## Registration and verification -/

/-- `register`.  A taken address answers as a fresh one does, after the same
work. -/
def register (deps : Deps) (ports : Ports) (ip rawEmail : String) (displayName : Option String)
    (rawPassword : String) (locale : LocaleCode) : Service Db AuthError Unit := do
  allowed ports ("register:ip:" ++ ip) 3
  match UserEmail.parse deps.cases rawEmail with
  | .error _ => Service.throw .invalidEmail
  | .ok email =>
    Service.require (8 ≤ rawPassword.length) .weakPassword
    let taken ← read fun db => findByEmail deps.cases db email
    if taken.isSome then
      Service.require (ports.hasher.verify rawPassword dummyHash).isSome .internal
    else
      match ports.hasher.hash rawPassword with
      | none => Service.throw .internal
      | some passwordHash =>
        let userId ← repo fun db => create deps.cases db
          { email, displayName, passwordHash, state := .pendingEmailVerification, locale }
        let token := ports.generate 0
        repo fun db => issueVerification deps db userId email token
        enqueue deps (verificationEmail deps email locale token)
        audit .internal (succeeded userId "auth.register" userId)

/-- The end of `verify_email`: a changed address ends every session. -/
def finishVerification (deps : Deps) (user : LoadedUser) (email : String) :
    Service Db AuthError Unit := do
  let isChangeEmail := user.email != email
  if isChangeEmail then
    Service.execute .unavailable fun db => revokeAllForUserExcept deps db user.id noSession
  audit .internal (succeeded user.id
    (if isChangeEmail then "auth.email_changed" else "auth.email_verified") user.id)

/-- `verify_email` with the account and the address of the consumed token. -/
def verifyConsumed (deps : Deps) (userId : UserId) (email : String) :
    Service Db AuthError Unit := do
  let found ← read fun db => findById deps.cases db userId
  match found with
  | none => Service.throw .tokenInvalid
  | some user =>
    match UserEmail.parse deps.cases email with
    | .error _ => Service.throw .invalidEmail
    | .ok newEmail =>
      (repo fun db => confirmEmail deps.cases db userId db.now newEmail).mapErr fun e =>
        if e = .conflict then .emailTaken else e
      finishVerification deps user email

/-- `verify_email`: it confirms the address of a new account, and the new address
of a change. -/
def verifyEmail (deps : Deps) (rawToken : String) : Service Db AuthError Unit := do
  match decodeToken deps rawToken with
  | none => Service.throw .tokenInvalid
  | some token =>
    let consumed ← repo fun db => .ok (consumeVerification deps db token)
    match consumed with
    | none => Service.throw .tokenInvalid
    | some (userId, email) => verifyConsumed deps userId email

/-- `resend_verification`. -/
def resendVerification (deps : Deps) (ports : Ports) (ip : String) (email : UserEmail) :
    Service Db AuthError Unit := do
  let found ← read fun db => findByEmail deps.cases db email
  match found with
  | none => pure ()
  | some user =>
    allowed ports ("verif:user:" ++ toString user.id) 3
    allowed ports ("verif:ip:" ++ ip) 5
    let token := ports.generate 0
    repo fun db => issueVerification deps db user.id email token
    enqueue deps (verificationEmail deps email user.locale token)
    return ()

/-- The check of the current password. -/
def checkPassword (ports : Ports) (email : UserEmail) (password : String) :
    Service Db AuthError Unit := do
  let identity ← Service.query .unavailable fun db => findIdentity db .password email
  match identity.bind AuthenticationIdentity.credentialHash with
  | none => Service.throw .invalidCredentials
  | some hash =>
    match ports.hasher.verify password hash with
    | none => Service.throw .internal
    | some verified => Service.require verified .invalidCredentials

/-- `change_email`. -/
def changeEmail (deps : Deps) (ports : Ports) (userId : UserId) (currentPassword : String)
    (newEmail : UserEmail) : Service Db AuthError Unit := do
  let found ← read fun db => findById deps.cases db userId
  match found with
  | none => Service.throw .invalidCredentials
  | some user =>
    checkPassword ports user.email currentPassword
    let taken ← read fun db => findByEmail deps.cases db newEmail
    Service.require taken.isNone .emailTaken
    let token := ports.generate 0
    repo fun db => issueVerification deps db userId newEmail token
    enqueue deps (changeEmailMessage deps newEmail user.locale token)
    audit .internal (succeeded userId "auth.email_change_requested" userId)

/-! ## The provider callback -/

/-- `sign_in`. -/
def signIn (deps : Deps) (ports : Ports) (user : LoadedUser) :
    Service Db AuthError LoginOutcome := do
  Service.require user.accountState.canLogIn .invalidCredentials
  repo fun db => createSession deps db user.id (ports.generate 0) (ports.generate 1)
  audit .internal (succeeded user.id "auth.login" user.id)
  return { session := ports.generate 0, csrf := ports.generate 1, user := fromUser user }

/-- The account of a provider identity that matches no account. -/
def newProviderAccount (deps : Deps) (identity : ProviderIdentity) :
    Service Db AuthError LoadedUser := do
  let userId ← repo fun db => create deps.cases db
    { email := identity.email, displayName := none, passwordHash := ""
      state := if identity.emailVerified then .active else .pendingEmailVerification
      locale := .ptBr }
  repo fun db => linkIdentity db userId identity.provider identity.subject none
  if identity.emailVerified then
    Service.execute .unavailable fun db => markEmailVerified db userId db.now
  let found ← read fun db => findById deps.cases db userId
  match found with
  | none => Service.throw .providerFailed
  | some user =>
    audit .internal (succeeded userId "auth.oauth_linked" userId)
    return user

/-- The account with the address that the provider has verified. -/
def findVerified (deps : Deps) (identity : ProviderIdentity) :
    Service Db AuthError (Option LoadedUser) :=
  if identity.emailVerified then read fun db => findByEmail deps.cases db identity.email
  else pure none

/-- `oauth_callback`: by the identity, by a verified address, or a new account. -/
def oauthCallback (deps : Deps) (ports : Ports) (code : String) :
    Service Db AuthError LoginOutcome := do
  match ports.exchange code with
  | none => Service.throw .providerFailed
  | some identity =>
    let known ← Service.query .unavailable fun db =>
      findIdentity db identity.provider identity.subject
    match known with
    | some record =>
      let found ← read fun db => findById deps.cases db record.userId
      match found with
      | none => Service.throw .providerFailed
      | some user => signIn deps ports user
    | none =>
      let existing ← findVerified deps identity
      match existing with
      | some user =>
        repo fun db => linkIdentity db user.id identity.provider identity.subject none
        signIn deps ports user
      | none =>
        let user ← newProviderAccount deps identity
        signIn deps ports user

/-! ## Roles and suspension -/

/-- Only an ADMIN goes on. -/
def requireAdmin (actor : AuthenticatedUser) : Service Db AuthError Unit :=
  Service.require (actor.hasRole .admin) .unauthorized

/-- `AuthService::grant_role`. -/
def grantRoleAs (actor : AuthenticatedUser) (target : UserId) (role : Role) :
    Service Db AuthError Unit := do
  requireAdmin actor
  Service.require (role != .user) .unauthorized
  repo fun db => grantRole db target role actor.id
  audit .internal (succeeded actor.id "role.granted" target)

/-- `AuthService::revoke_role`. -/
def revokeRoleAs (actor : AuthenticatedUser) (target : UserId) (role : Role) :
    Service Db AuthError Unit := do
  requireAdmin actor
  Service.require (role != .user) .unauthorized
  let removed ← repo fun db => revokeRoleGuarded db target role
  if removed then audit .internal (succeeded actor.id "role.revoked" target)

/-- `suspend_user`. -/
def suspendUser (deps : Deps) (actor : AuthenticatedUser) (target : UserId) :
    Service Db AuthError Unit := do
  requireAdmin actor
  Service.execute .unavailable fun db => setState db target .suspended
  Service.execute .unavailable fun db => revokeAllForUserExcept deps db target noSession
  audit .internal (succeeded actor.id "user.suspended" target)

/-- `restore_user`. -/
def restoreUser (actor : AuthenticatedUser) (target : UserId) : Service Db AuthError Unit := do
  requireAdmin actor
  Service.execute .unavailable fun db => setState db target .active
  audit .internal (succeeded actor.id "user.restored" target)

/-! ## A deployment for runs on fixed inputs -/

/-- 32 bytes of zero. -/
def zeroToken : Token := ⟨List.replicate 32 0, rfl⟩

/-- 32 bytes of one. -/
def oneToken : Token := ⟨List.replicate 32 1, rfl⟩

/-- URL-safe base64 of the two tokens. -/
def sampleBase64 : List (List UInt8 × String) :=
  [(zeroToken.bytes, "AAAAAAAAAAAAAAAAAAAAAAAAAAAAAAAAAAAAAAAAAAA"),
    (oneToken.bytes, "AQEBAQEBAQEBAQEBAQEBAQEBAQEBAQEBAQEBAQEBAQE")]

/-- SHA-256 of the two tokens and of their verification links. -/
def sampleSha256 : List (List UInt8 × String) :=
  [(zeroToken.bytes, "66687aadf862bd776c8fc18b8e9f8e20089714856ee233b3902a591d0d5f2925"),
    (oneToken.bytes, "72cd6e8422c407fb6d098690f1130b7ded7ec2f7f5e1d30bd9d521f015363793"),
    ("https://bikesnest.example/verify-email?token=AAAAAAAAAAAAAAAAAAAAAAAAAAAAAAAAAAAAAAAAAAA".toUTF8.toList,
      "3fb17f7f4e33abf26bc6b40e2bf743989eabc47f626bd3a20cfa6a051732606e"),
    ("https://bikesnest.example/verify-email?token=AQEBAQEBAQEBAQEBAQEBAQEBAQEBAQEBAQEBAQEBAQE".toUTF8.toList,
      "baddb0ca46152fc6b3eebfebe0f72fd87691fd6f448d22e3d5ed094f4bfdae87")]

/-- A deployment whose hashes and codes are right on the two tokens. -/
def sampleDeps : Deps where
  cases := .ascii
  sha256Hex bytes := ((sampleSha256.find? fun x => x.1 == bytes).map Prod.snd).getD ""
  base64url bytes := ((sampleBase64.find? fun x => x.1 == bytes).map Prod.snd).getD ""
  fromBase64url s := (sampleBase64.find? fun x => x.2 == s).map Prod.fst
  baseUrl := "https://bikesnest.example/"
  emailMaxAttempts := 5

/-- Ports with one password and one token. -/
def samplePorts (token : Token) : Ports where
  hasher :=
    { hash := fun _ => some "$argon2id$v=19$m=19456,t=2,p=1$c2FsdA$aGFzaA"
      verify := fun password _ => some (password == "correct horse") }
  allow _ _ _ := true
  generate _ := token
  exchange _ := none

end BikesNest.Auth
