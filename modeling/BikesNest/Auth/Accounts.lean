import BikesNest.Store.Schema

/-!
# Accounts, sessions and tokens in the database

The statements of `SqlxAccountRepository`, `SqlxTokenStore` and
`SqlxSessionStore`.  Each method is one statement or one transaction, so each is
a function on the database.  A violated unique constraint answers `conflict`
and a violated foreign key answers `internal`.

`Deps` holds what a deployment fixes and what third-party crates compute: the
case mappings, SHA-256 in hexadecimal and URL-safe base64.
-/

namespace BikesNest.Auth

open Domain Store Relational

inductive AuthError where
  | invalidCredentials
  | emailTaken
  | weakPassword
  | invalidEmail
  | tokenExpired
  | tokenUsed
  | tokenInvalid
  | rateLimited
  | accountSuspended
  | accountDeleted
  | providerFailed
  | unauthorized
  | refuseAdminSelfRevoke
  | conflict
  | unavailable
  | internal
deriving DecidableEq

/-- 32 random bytes: a `VerificationToken`, a `SessionId` or a `CsrfToken`. -/
structure Token where
  bytes : List UInt8
  length_eq : bytes.length = 32
deriving DecidableEq

/-- What every operation shares. -/
structure Deps where
  cases : Text.CaseMap
  sha256Hex : List UInt8 → String
  base64url : List UInt8 → String
  fromBase64url : String → Option (List UInt8)
  baseUrl : String
  emailMaxAttempts : Int

/-- Port: hash and verify a password.  None stands for an internal error of the
hasher. -/
structure PasswordHasher where
  hash : String → Option String
  verify : String → String → Option Bool

/-! ## Accounts -/

/-- The `User` aggregate that `load_user` answers. -/
structure LoadedUser where
  id : UserId
  email : UserEmail
  displayName : Option String
  accountState : AccountState
  emailVerifiedAt : Option Instant
  roles : List Role
  locale : LocaleCode

/-- `AuthenticatedUser::from_user`. -/
def fromUser (u : LoadedUser) : AuthenticatedUser where
  id := u.id
  email := u.email
  accountState := u.accountState
  isVerified := u.emailVerifiedAt.isSome
  roles := u.roles

/-- `roles_bysql`. -/
def rolesOf (db : Db) (id : UserId) : List Role :=
  (db.userRoles.select fun _ r => r.userId == id).map fun x => x.2.role

/-- `load_user`: the baseline role `USER` is always there. -/
def loadUser (cases : Text.CaseMap) (db : Db) (id : UserId) (row : User) :
    Except AuthError LoadedUser :=
  match UserEmail.parse cases row.email with
  | .error _ => .error .internal
  | .ok email =>
    let roles := rolesOf db id
    .ok
      { id, email, displayName := row.displayName, accountState := row.accountState
        emailVerifiedAt := row.emailVerifiedAt
        roles := if roles.contains .user then roles else roles ++ [.user]
        locale := row.locale }

/-- `find_by_email`.  The unique index on `lower(email)` leaves one row at
most. -/
def findByEmail (cases : Text.CaseMap) (db : Db) (email : UserEmail) :
    Except AuthError (Option LoadedUser) :=
  match (db.users.select fun _ r => cases.lower r.email == cases.toLowercase email).head? with
  | none => .ok none
  | some (id, row) => (loadUser cases db id row).map some

/-- `find_by_id`. -/
def findById (cases : Text.CaseMap) (db : Db) (id : UserId) :
    Except AuthError (Option LoadedUser) :=
  match db.users.row id with
  | none => .ok none
  | some row => (loadUser cases db id row).map some

structure NewAccount where
  email : UserEmail
  displayName : Option String
  passwordHash : String
  state : AccountState
  locale : LocaleCode

/-- The unique key `(provider, provider_subject)`. -/
def hasIdentity (db : Db) (provider : AuthenticationProvider) (subject : String) : Bool :=
  db.authenticationIdentities.any fun _ r =>
    r.provider == provider && r.providerSubject == subject

/-- `create`: the `users` row, a password identity when there is a hash, and the
role `USER`. -/
def create (cases : Text.CaseMap) (db : Db) (new : NewAccount) :
    Except AuthError (UserId × Db) :=
  if db.users.any fun _ r => cases.lower r.email == cases.lower new.email then .error .conflict
  else if new.passwordHash != "" && hasIdentity db .password new.email then .error .conflict
  else
    let id := db.users.next
    .ok (id, { db with
      users := db.users.insert
        { email := new.email, displayName := new.displayName, accountState := new.state
          locale := new.locale, createdAt := db.now, updatedAt := db.now }
      authenticationIdentities :=
        if new.passwordHash != "" then
          db.authenticationIdentities.insert
            { userId := id, provider := .password, providerSubject := new.email
              credentialHash := some new.passwordHash }
        else db.authenticationIdentities
      userRoles := db.userRoles.insert
        { userId := id, role := .user, grantedBy := none, grantedAt := db.now } })

/-- `set_state`. -/
def setState (db : Db) (id : UserId) (state : AccountState) : Db :=
  { db with users := db.users.update (fun i _ => i == id) fun r =>
      { r with accountState := state, updatedAt := db.now } }

/-- `mark_email_verified`. -/
def markEmailVerified (db : Db) (id : UserId) (at' : Instant) : Db :=
  { db with users := db.users.update (fun i _ => i == id) fun r =>
      { r with emailVerifiedAt := some at', updatedAt := db.now } }

/-- The rows that keep the password login of `id` in step with its address. -/
def isPasswordOf (id : UserId) (r : AuthenticationIdentity) : Bool :=
  r.userId == id && r.provider == .password

/-- The update of the password identities would break the unique key: another
identity has the subject, or two rows would get it. -/
def subjectTaken (db : Db) (id : UserId) (email : String) : Bool :=
  (db.authenticationIdentities.any fun _ r => isPasswordOf id r) &&
    ((db.authenticationIdentities.any fun _ r =>
        !isPasswordOf id r && r.provider == .password && r.providerSubject == email) ||
      1 < db.authenticationIdentities.affected fun _ r => isPasswordOf id r)

/-- The `SET` list of `confirm_email`. -/
def User.confirmed (r : User) (now at' : Instant) (email : UserEmail) : User :=
  { r with
    email := email, emailVerifiedAt := some at', accountState := .active, updatedAt := now }

/-- The database after the two statements of `confirm_email`. -/
def emailConfirmed (db : Db) (id : UserId) (at' : Instant) (email : UserEmail) : Db :=
  { db with
    users := db.users.update (fun i _ => i == id) fun r => User.confirmed r db.now at' email
    authenticationIdentities :=
      db.authenticationIdentities.update (fun _ r => isPasswordOf id r) fun r =>
        { r with providerSubject := email } }

/-- `confirm_email`: the address, the time and the state `ACTIVE` in one
transaction, and the subject of the password login. -/
def confirmEmail (cases : Text.CaseMap) (db : Db) (id : UserId) (at' : Instant)
    (email : UserEmail) : Except AuthError (Unit × Db) :=
  if (db.users.row id).isSome && emailTaken cases db.users id email then .error .conflict
  else if subjectTaken db id email then .error .conflict
  else .ok ((), emailConfirmed db id at' email)

/-- `link_identity`: `ON CONFLICT DO NOTHING`. -/
def linkIdentity (db : Db) (id : UserId) (provider : AuthenticationProvider) (subject : String)
    (hash : Option String) : Except AuthError (Unit × Db) :=
  if hasIdentity db provider subject then .ok ((), db)
  else if (db.users.row id).isNone then .error .internal
  else .ok ((), { db with
    authenticationIdentities := db.authenticationIdentities.insert
      { userId := id, provider, providerSubject := subject, credentialHash := hash } })

/-- `find_identity`. -/
def findIdentity (db : Db) (provider : AuthenticationProvider) (subject : String) :
    Option AuthenticationIdentity :=
  (db.authenticationIdentities.select fun _ r =>
    r.provider == provider && r.providerSubject == subject).head?.map Prod.snd

/-- `grant_role`. -/
def grantRole (db : Db) (id : UserId) (role : Role) (by' : UserId) :
    Except AuthError (Unit × Db) :=
  if db.userRoles.any fun _ r => r.userId == id && r.role == role then .ok ((), db)
  else if (db.users.row id).isNone || (db.users.row by').isNone then .error .internal
  else .ok ((), { db with
    userRoles := db.userRoles.insert
      { userId := id, role, grantedBy := some by', grantedAt := db.now } })

/-- `revoke_role_guarded`: the last ADMIN stays. -/
def revokeRoleGuarded (db : Db) (id : UserId) (role : Role) : Except AuthError (Bool × Db) :=
  let admins := (db.userRoles.select fun _ r => r.role == .admin).map fun x => x.2.userId
  if role = .admin ∧ admins.length ≤ 1 ∧ admins.contains id then .error .refuseAdminSelfRevoke
  else
    let held (_ : Nat) (r : UserRole) : Bool := r.userId == id && r.role == role
    .ok (0 < db.userRoles.affected held, { db with userRoles := db.userRoles.delete held })

/-! ## Tokens -/

/-- `VERIFICATION_TTL`. -/
def verificationTtl : Int := 24 * hour

/-- `issue_verification`. -/
def issueVerification (deps : Deps) (db : Db) (id : UserId) (email : String) (raw : Token) :
    Except AuthError (Unit × Db) :=
  let tokenHash := deps.sha256Hex raw.bytes
  if db.emailVerificationTokens.any fun _ r => r.tokenHash == tokenHash then .error .conflict
  else if (db.users.row id).isNone then .error .internal
  else .ok ((), { db with
    emailVerificationTokens := db.emailVerificationTokens.insert
      { tokenHash, userId := id, email, createdAt := db.now
        expiresAt := db.now + verificationTtl } })

/-- The `WHERE` clause of `consume_verification`. -/
def isLive (tokenHash : String) (now : Instant) (r : EmailVerificationToken) : Bool :=
  r.tokenHash == tokenHash && r.usedAt.isNone && now < r.expiresAt

/-- The row that `consume_verification` returns. -/
def liveVerification (deps : Deps) (db : Db) (raw : Token) : Option EmailVerificationToken :=
  (db.emailVerificationTokens.select fun _ r =>
    isLive (deps.sha256Hex raw.bytes) db.now r).head?.map Prod.snd

/-- `consume_verification`. -/
def consumeVerification (deps : Deps) (db : Db) (raw : Token) :
    Option (UserId × String) × Db :=
  ((liveVerification deps db raw).map fun r => (r.userId, r.email),
    { db with
      emailVerificationTokens := db.emailVerificationTokens.update
        (fun _ r => isLive (deps.sha256Hex raw.bytes) db.now r)
        fun r => { r with usedAt := some db.now } })

/-! ## Sessions -/

/-- `ABSOLUTE_CAP`. -/
def absoluteCap : Int := 90 * day

/-- `SessionStore::create`. -/
def createSession (deps : Deps) (db : Db) (id : UserId) (raw csrf : Token) :
    Except AuthError (Unit × Db) :=
  let tokenHash := deps.sha256Hex raw.bytes
  if db.sessions.any fun _ r => r.tokenHash == tokenHash then .error .conflict
  else if (db.users.row id).isNone then .error .internal
  else .ok ((), { db with
    sessions := db.sessions.insert
      { tokenHash, userId := id, csrfToken := deps.base64url csrf.bytes, createdAt := db.now
        lastSeenAt := db.now, expiresAt := db.now + absoluteCap } })

/-- A session is created with a hash that no row has. -/
theorem createSession_eq_ok {deps : Deps} {db : Db} {id : UserId} {raw csrf : Token}
    {made : Unit × Db} (h : createSession deps db id raw csrf = .ok made) :
    (∀ j x, db.sessions.row j = some x → x.tokenHash ≠ deps.sha256Hex raw.bytes) ∧
      made = ((), { db with
        sessions := db.sessions.insert
          { tokenHash := deps.sha256Hex raw.bytes, userId := id
            csrfToken := deps.base64url csrf.bytes, createdAt := db.now
            lastSeenAt := db.now, expiresAt := db.now + absoluteCap } }) := by
  unfold createSession at h
  dsimp only at h
  split at h
  · cases h
  rename_i hused
  split at h
  · cases h
  refine ⟨fun j x hx => ?_, (Except.ok.inj h).symm⟩
  have hunused := Table.any_eq_false_iff.mp (Bool.eq_false_of_not_eq_true hused) j x hx
  simpa using hunused

/-- `revoke_all_for_user_except`. -/
def revokeAllForUserExcept (deps : Deps) (db : Db) (id : UserId) (keep : Token) : Db :=
  { db with
    sessions := db.sessions.update
      (fun _ r => r.userId == id && r.tokenHash != deps.sha256Hex keep.bytes &&
        r.revokedAt.isNone)
      fun r => { r with revokedAt := some db.now } }

/-- `revoke_all_for_user`. -/
def revokeAllForUser (db : Db) (id : UserId) : Db :=
  { db with
    sessions := db.sessions.update (fun _ r => r.userId == id && r.revokedAt.isNone)
      fun r => { r with revokedAt := some db.now } }

end BikesNest.Auth
