import BikesNest.Auth.Service

/-!
# Sessions and passwords

The rest of `AuthService`: signing in and out, the reset and the change of a
password, and the session behind a request.  `SqlxTokenStore` has the reset
tokens, and `SqlxSessionStore` the statements on a single session.

The clock of the process is read at the start of a use case, so the operations
that compare with it take it as `now`.
-/

namespace BikesNest.Auth

open Domain Store Relational

/-- One minute. -/
def minute : Int := 60 * second

/-! ## Reset tokens -/

/-- `RESET_TTL`. -/
def resetTtl : Int := hour

/-- `issue_reset`. -/
def issueReset (deps : Deps) (db : Db) (id : UserId) (raw : Token) (now : Instant) :
    Except AuthError (Unit × Db) :=
  let tokenHash := deps.sha256Hex raw.bytes
  if db.passwordResetTokens.any fun _ r => r.tokenHash == tokenHash then .error .conflict
  else if (db.users.row id).isNone then .error .internal
  else .ok ((), { db with
    passwordResetTokens := db.passwordResetTokens.insert
      { tokenHash, userId := id, createdAt := db.now, expiresAt := now + resetTtl } })

/-- The `WHERE` clause of `consume_reset`. -/
def isLiveReset (tokenHash : String) (now : Instant) (r : PasswordResetToken) : Bool :=
  r.tokenHash == tokenHash && r.usedAt.isNone && now < r.expiresAt

/-- The row that `consume_reset` returns. -/
def liveReset (deps : Deps) (db : Db) (raw : Token) (now : Instant) :
    Option PasswordResetToken :=
  (db.passwordResetTokens.select fun _ r =>
    isLiveReset (deps.sha256Hex raw.bytes) now r).head?.map Prod.snd

/-- `consume_reset`. -/
def consumeReset (deps : Deps) (db : Db) (raw : Token) (now : Instant) : Option UserId × Db :=
  ((liveReset deps db raw now).map PasswordResetToken.userId,
    { db with
      passwordResetTokens := db.passwordResetTokens.update
        (fun _ r => isLiveReset (deps.sha256Hex raw.bytes) now r)
        fun r => { r with usedAt := some now } })

/-- `set_password`. -/
def setPassword (db : Db) (id : UserId) (hash : String) : Db :=
  { db with
    authenticationIdentities :=
      db.authenticationIdentities.update (fun _ r => isPasswordOf id r) fun r =>
        { r with credentialHash := some hash } }

/-! ## Single sessions -/

/-- `INACTIVE_IDLE`. -/
def inactiveIdle : Int := 30 * day

/-- `LAST_SEEN_REFRESH`. -/
def lastSeenRefresh : Int := 5 * minute

/-- The row of a raw session id.  The unique key on `token_hash` leaves one row
at most. -/
def sessionOf (deps : Deps) (db : Db) (raw : Token) : Option Session :=
  (db.sessions.select fun _ r => r.tokenHash == deps.sha256Hex raw.bytes).head?.map Prod.snd

/-- The `WHERE` clause of the update in `resolve`: the session is valid, and its
`last_seen_at` is stale. -/
def isStale (now : Instant) (r : Session) : Bool :=
  r.revokedAt.isNone && now ≤ r.expiresAt && now - inactiveIdle < r.lastSeenAt &&
    r.lastSeenAt < now - lastSeenRefresh

/-- The database after the statement of `resolve`. -/
def touched (deps : Deps) (db : Db) (raw : Token) (now : Instant) : Db :=
  { db with
    sessions := db.sessions.update
      (fun _ r => r.tokenHash == deps.sha256Hex raw.bytes && isStale now r)
      fun r => { r with lastSeenAt := now } }

/-- The checks of `resolve` on the row it read. -/
def isValid (now : Instant) (r : Session) : Bool :=
  r.revokedAt.isNone && now ≤ r.expiresAt && now - r.lastSeenAt ≤ inactiveIdle

/-- `SessionStore::resolve`: the row as it was before `last_seen_at` moved. -/
def resolve (deps : Deps) (raw : Token) (now : Instant) :
    Service Db AuthError (Option Session) := do
  let row ← repo fun db => .ok (sessionOf deps db raw, touched deps db raw now)
  match row with
  | none => return none
  | some r =>
    if isValid now r then
      Service.require (decodeToken deps r.csrfToken).isSome .internal
      return some r
    else return none

/-- A use writes the rows that are stale, whether or not it is accepted. -/
theorem resolve_run (deps : Deps) (raw : Token) (now : Instant) (db : Db) :
    ((resolve deps raw now).run db).2 = touched deps db raw now := by
  rw [resolve, Service.run_bind, repo, Service.run_request]
  dsimp only
  split
  · rfl
  · rename_i r _
    split
    · rw [Service.run_bind, Service.run_require]
      cases (decodeToken deps r.csrfToken).isSome <;> rfl
    · rfl

/-- `SessionStore::revoke`. -/
def revoke (deps : Deps) (db : Db) (raw : Token) : Db :=
  { db with
    sessions := db.sessions.update
      (fun _ r => r.tokenHash == deps.sha256Hex raw.bytes && r.revokedAt.isNone)
      fun r => { r with revokedAt := some db.now } }

/-! ## Signing in and out -/

/-- `AuditEvent::failure` of a sign-in. -/
def loginFailed (key : UserEmail) : NewAuditEvent where
  actor := none
  action := "auth.login"
  targetType := "user"
  targetId := key
  result := "failure"

/-- Audit the failure and answer it. -/
def refuse {α : Type} (key : UserEmail) : Service Db AuthError α := do
  audit .internal (loginFailed key)
  Service.throw .invalidCredentials

/-- `allowed`, with the window of a quarter of an hour that a sign-in asks for. -/
def loginAllowed (ports : Ports) (key : String) (limit : Nat) : Service Db AuthError Unit :=
  Service.require (ports.allow key limit (15 * minute)) .rateLimited

/-- `login` after the password has been verified. -/
def loginVerified (deps : Deps) (ports : Ports) (email : UserEmail) (userId : UserId) :
    Service Db AuthError LoginOutcome := do
  let found ← read fun db => findById deps.cases db userId
  match found with
  | none => refuse email
  | some user => if user.accountState.canLogIn then signIn deps ports user else refuse email

/-- `login` with the hash of the identity it found. -/
def loginHash (deps : Deps) (ports : Ports) (email : UserEmail) (rawPassword hash : String)
    (userId : UserId) : Service Db AuthError LoginOutcome :=
  match ports.hasher.verify rawPassword hash with
  | none => Service.throw .internal
  | some false => refuse email
  | some true => loginVerified deps ports email userId

/-- `login`. -/
def login (deps : Deps) (ports : Ports) (ip rawEmail rawPassword : String) :
    Service Db AuthError LoginOutcome := do
  match UserEmail.parse deps.cases rawEmail with
  | .error _ => Service.throw .invalidCredentials
  | .ok email =>
    loginAllowed ports ("login:" ++ ip ++ ":" ++ email) 5
    loginAllowed ports ("login:ip:" ++ ip) 10
    let found ← Service.query .unavailable fun db => findIdentity db .password email
    match found with
    | none => refuse email
    | some identity =>
      match identity.credentialHash with
      | none => refuse email
      | some hash => loginHash deps ports email rawPassword hash identity.userId

/-- `resolve_session`: the principal of a request. -/
def resolveSession (deps : Deps) (raw : Token) (now : Instant) :
    Service Db AuthError (Option AuthenticatedUser) := do
  let session ← resolve deps raw now
  match session with
  | none => return none
  | some session =>
    let found ← read fun db => findById deps.cases db session.userId
    match found with
    | none => return none
    | some user =>
      return if user.accountState.canAccessAccount then some (fromUser user) else none

/-! ## Passwords -/

/-- `PasswordPolicy::validate`. -/
def validatePassword (raw : String) : Service Db AuthError Unit :=
  Service.require (8 ≤ raw.length) .weakPassword

/-- `reset_link`. -/
def resetLink (deps : Deps) (token : Token) : String :=
  String.ofList (deps.baseUrl.toList.rdropWhile (· == '/')) ++ "/password-reset/new?token=" ++
    deps.base64url token.bytes

/-- `reset_email`. -/
def resetEmail (deps : Deps) (recipient : UserEmail) (locale : LocaleCode) (token : Token) :
    EmailMessage where
  recipient := recipient
  locale := locale
  kind := .resetPassword (resetLink deps token)

/-- `request_password_reset`. -/
def requestPasswordReset (deps : Deps) (ports : Ports) (ip : String) (email : UserEmail)
    (now : Instant) : Service Db AuthError Unit := do
  allowed ports ("reset:ip:" ++ ip) 3
  allowed ports ("reset:email:" ++ email) 3
  let found ← read fun db => findByEmail deps.cases db email
  match found with
  | none => pure ()
  | some user =>
    let token := ports.generate 0
    repo fun db => issueReset deps db user.id token now
    enqueue deps (resetEmail deps email user.locale token)

/-- The end of a reset and of a change: the new hash, the sessions other than
`keep`, and the audit event. -/
def replacePassword (deps : Deps) (ports : Ports) (userId : UserId) (rawPassword : String)
    (keep : Token) : Service Db AuthError Unit := do
  validatePassword rawPassword
  match ports.hasher.hash rawPassword with
  | none => Service.throw .internal
  | some hash =>
    Service.execute .unavailable fun db => setPassword db userId hash
    Service.execute .unavailable fun db => revokeAllForUserExcept deps db userId keep
    audit .internal (succeeded userId "auth.password_changed" userId)

/-- `reset_password`: there is no session to keep. -/
def resetPassword (deps : Deps) (ports : Ports) (rawToken rawPassword : String)
    (now : Instant) : Service Db AuthError Unit := do
  match decodeToken deps rawToken with
  | none => Service.throw .tokenInvalid
  | some token =>
    let consumed ← repo fun db => .ok (consumeReset deps db token now)
    match consumed with
    | none => Service.throw .tokenInvalid
    | some userId => replacePassword deps ports userId rawPassword noSession

/-- `change_password`: the session of the caller stays. -/
def changePassword (deps : Deps) (ports : Ports) (userId : UserId) (current new : String)
    (currentSession : Token) : Service Db AuthError Unit := do
  let found ← read fun db => findById deps.cases db userId
  match found with
  | none => Service.throw .invalidCredentials
  | some user =>
    checkPassword ports user.email current
    replacePassword deps ports userId new currentSession

end BikesNest.Auth
