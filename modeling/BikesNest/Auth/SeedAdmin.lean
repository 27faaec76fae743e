import BikesNest.Auth.Linking
import BikesNest.Auth.Redemption

/-!
# The first administrator

`seed-admin` makes the configured address an active account with a password and the role
`ADMIN`.  It runs call by call and not in a transaction, and on an address that somebody has
registered it takes the account over.

`seedAdmin_ok` is what a run that succeeds leaves: the account can be entered with the
configured password and is an administrator, nothing else about accounts has changed, and no
session has ended.  So a session that was opened before goes on, as an administrator.
-/

namespace BikesNest.Auth

open Domain Store Relational

/-! ## The command -/

structure AdminSeedConfig where
  email : Option String
  password : Option String

inductive SeedOutcome where
  | created
  | updated
deriving DecidableEq

inductive SeedAdminError where
  | missingEmail
  | missingPassword
  | auth (e : AuthError)
  | audit

/-- The password identity of an account: a new hash for it, or a new one. -/
def putPassword (id : UserId) (email : UserEmail) (hash : String) :
    Service Db AuthError Unit := do
  let identity ← Service.query .unavailable fun db => findIdentity db .password email
  if identity.isSome then Service.execute .unavailable fun db => setPassword db id hash
  else repo fun db => linkIdentity db id .password email (some hash)

/-- `seed_admin`, where the address has an account. -/
def updateAdmin (id : UserId) (email : UserEmail) (hash : String) (now : Instant) :
    Service Db AuthError Unit := do
  Service.execute .unavailable fun db => setState db id .active
  Service.execute .unavailable fun db => markEmailVerified db id now
  putPassword id email hash
  repo fun db => grantRole db id .user id
  repo fun db => grantRole db id .admin id

/-- `seed_admin`, where the address is free. -/
def createAdmin (deps : Deps) (email : UserEmail) (hash : String) (now : Instant) :
    Service Db AuthError Unit := do
  let id ← repo fun db => create deps.cases db
    { email, displayName := some "Administrator", passwordHash := hash, state := .active
      locale := .ptBr }
  Service.execute .unavailable fun db => markEmailVerified db id now
  repo fun db => grantRole db id .admin id

/-- `seed_admin` with the address and the hash of the password. -/
def seedAccount (deps : Deps) (email : UserEmail) (hash : String) (now : Instant) :
    Service Db AuthError SeedOutcome := do
  let existing ← read fun db => findByEmail deps.cases db email
  match existing with
  | some user =>
    updateAdmin user.id email hash now
    return .updated
  | none =>
    createAdmin deps email hash now
    return .created

/-- `seed_admin`. -/
def seedAdmin (deps : Deps) (hasher : PasswordHasher) (seed : AdminSeedConfig) (now : Instant) :
    Service Db SeedAdminError SeedOutcome := do
  match seed.email.map (UserEmail.parse deps.cases) with
  | some (.ok email) =>
    match seed.password with
    | none => Service.throw .missingPassword
    | some password =>
      Service.require (8 ≤ password.length) .missingPassword
      match hasher.hash password with
      | none => Service.throw (.auth .internal)
      | some hash =>
        let outcome ← (seedAccount deps email hash now).mapErr .auth
        let user ← (read fun db => findByEmail deps.cases db email).mapErr .auth
        match user with
        | none => Service.throw .missingEmail
        | some user =>
          audit .audit (succeeded user.id "admin.seeded" user.id)
          return outcome
  | _ => Service.throw .missingEmail

/-! ## What the calls write -/

variable {deps : Deps} {db db' : Db} {id : UserId} {email : UserEmail} {hash : String}
  {now : Instant}

theorem mem_rolesOf {role : Role} :
    role ∈ rolesOf db id ↔ ∃ i r, db.userRoles.row i = some r ∧ r.userId = id ∧ r.role = role := by
  simp only [rolesOf, List.mem_map, Prod.exists, Table.mem_select, beq_iff_eq]
  constructor
  · rintro ⟨i, r, ⟨hr, huser⟩, hrole⟩
    exact ⟨i, r, hr, huser, hrole⟩
  · rintro ⟨i, r, hr, huser, hrole⟩
    exact ⟨i, r, ⟨hr, huser⟩, hrole⟩

/-- A grant adds the role, and nothing else. -/
theorem grantRole_ok {role : Role} {by' : UserId}
    (h : grantRole db id role by' = .ok ((), db')) :
    (∃ roles, db' = { db with userRoles := roles }) ∧ role ∈ rolesOf db' id ∧
      ∀ j r, r ∈ rolesOf db' j ↔ r ∈ rolesOf db j ∨ (j = id ∧ r = role) := by
  unfold grantRole at h
  split at h
  · rename_i hheld
    cases h
    obtain ⟨i, r, hr, hmatch⟩ := Table.any_iff.mp hheld
    simp only [Bool.and_eq_true, beq_iff_eq] at hmatch
    have hrole : role ∈ rolesOf db id := mem_rolesOf.mpr ⟨i, r, hr, hmatch.1, hmatch.2⟩
    refine ⟨⟨db.userRoles, rfl⟩, hrole, fun j x => ⟨.inl, ?_⟩⟩
    rintro (hold | ⟨rfl, rfl⟩)
    · exact hold
    · exact hrole
  · split at h
    · cases h
    cases h
    refine ⟨⟨_, rfl⟩, ?_, fun j x => ⟨fun hx => ?_, ?_⟩⟩
    · exact mem_rolesOf.mpr ⟨_, _, Table.row_insert_next .., rfl, rfl⟩
    · obtain ⟨i, r, hr, huser, hrole⟩ := mem_rolesOf.mp hx
      rcases Table.row_insert_eq_some.mp hr with ⟨_, rfl⟩ | hold
      · exact .inr ⟨huser.symm, hrole.symm⟩
      · exact .inl (mem_rolesOf.mpr ⟨i, r, hold, huser, hrole⟩)
    · rintro (hold | ⟨rfl, rfl⟩)
      · obtain ⟨i, r, hr, huser, hrole⟩ := mem_rolesOf.mp hold
        exact mem_rolesOf.mpr ⟨i, r, Table.row_insert_of_some _ hr, huser, hrole⟩
      · exact mem_rolesOf.mpr ⟨_, _, Table.row_insert_next .., rfl, rfl⟩

/-- The sessions are as they were, and so is everything about the other accounts. -/
structure KeepsOthers (id : UserId) (db db' : Db) : Prop where
  sessions : db'.sessions = db.sessions
  users : ∀ j, j ≠ id → db'.users.row j = db.users.row j
  identities : ∀ r : AuthenticationIdentity, r.userId ≠ id →
    ((∃ i, db'.authenticationIdentities.row i = some r) ↔
      ∃ i, db.authenticationIdentities.row i = some r)
  roles : ∀ j, j ≠ id → ∀ role, role ∈ rolesOf db' j ↔ role ∈ rolesOf db j

namespace KeepsOthers

theorem refl (id : UserId) (db : Db) : KeepsOthers id db db :=
  ⟨rfl, fun _ _ => rfl, fun _ _ => Iff.rfl, fun _ _ _ => Iff.rfl⟩

theorem trans {db'' : Db} (h : KeepsOthers id db db') (h' : KeepsOthers id db' db'') :
    KeepsOthers id db db'' where
  sessions := h'.sessions.trans h.sessions
  users j hj := (h'.users j hj).trans (h.users j hj)
  identities r hr := (h'.identities r hr).trans (h.identities r hr)
  roles j hj role := (h'.roles j hj role).trans (h.roles j hj role)

theorem update (f : User → User) :
    KeepsOthers id db { db with users := db.users.update (fun i _ => i == id) f } where
  sessions := rfl
  users j hj := by
    rw [Table.row_update]
    cases hrow : db.users.row j with
    | none => rfl
    | some r => simp [hj]
  identities _ _ := Iff.rfl
  roles _ _ _ := Iff.rfl

theorem setPassword : KeepsOthers id db (setPassword db id hash) where
  sessions := rfl
  users _ _ := rfl
  identities r hr := by
    have hother : isPasswordOf id r = false := by simp [isPasswordOf, hr]
    constructor
    · rintro ⟨i, hrow⟩
      obtain ⟨x, hx, rfl⟩ := Table.row_update_eq_some.mp hrow
      cases hmine : isPasswordOf id x with
      | true =>
        rw [hmine, if_pos rfl] at hr
        exact absurd (isPasswordOf_iff.mp hmine).1 hr
      | false =>
        rw [if_neg Bool.false_ne_true]
        exact ⟨i, hx⟩
    · rintro ⟨i, hrow⟩
      refine ⟨i, Table.row_update_eq_some.mpr ⟨r, hrow, ?_⟩⟩
      rw [hother, if_neg Bool.false_ne_true]
  roles _ _ _ := Iff.rfl

/-- An identity of the account more. -/
theorem insertIdentity {r : AuthenticationIdentity} (hr : r.userId = id) :
    KeepsOthers id db
      { db with authenticationIdentities := db.authenticationIdentities.insert r } where
  sessions := rfl
  users _ _ := rfl
  identities x hx := by
    constructor
    · rintro ⟨i, hrow⟩
      rcases Table.row_insert_eq_some.mp hrow with ⟨_, rfl⟩ | hold
      · exact absurd hr hx
      · exact ⟨i, hold⟩
    · rintro ⟨i, hrow⟩
      exact ⟨i, Table.row_insert_of_some _ hrow⟩
  roles _ _ _ := Iff.rfl

theorem grantRole {role : Role} {by' : UserId}
    (h : grantRole db id role by' = .ok ((), db')) : KeepsOthers id db db' := by
  obtain ⟨⟨roles, rfl⟩, _, hroles⟩ := grantRole_ok h
  refine ⟨rfl, fun _ _ => rfl, fun _ _ => Iff.rfl, fun j hj role' => ?_⟩
  rw [hroles]
  exact or_iff_left fun hsame => hj hsame.1

/-- A new account touches no other. -/
theorem create {new : NewAccount} (h : create deps.cases db new = .ok (id, db')) :
    KeepsOthers id db db' := by
  unfold Auth.create at h
  split at h
  · cases h
  split at h
  · cases h
  cases h
  refine ⟨rfl, fun j hj => ?_, fun r hr => ?_, fun j hj role => ?_⟩
  · rw [Table.row_insert, if_neg hj]
  · dsimp only
    split
    · exact (insertIdentity rfl).identities r hr
    · exact Iff.rfl
  · rw [mem_rolesOf, mem_rolesOf]
    constructor
    · rintro ⟨i, r, hr, huser, hrole⟩
      rcases Table.row_insert_eq_some.mp hr with ⟨_, rfl⟩ | hold
      · exact absurd huser.symm hj
      · exact ⟨i, r, hold, huser, hrole⟩
    · rintro ⟨i, r, hr, huser, hrole⟩
      exact ⟨i, r, Table.row_insert_of_some _ hr, huser, hrole⟩

end KeepsOthers

/-! ## What the command leaves -/

/-- An account that is an administrator, with the address and the password. -/
structure Seeded (email : UserEmail) (hash : String) (now : Instant) (id : UserId) (db : Db) :
    Prop where
  user : ∃ user, db.users.row id = some user ∧ user.email = email ∧
    user.accountState = .active ∧ user.emailVerifiedAt = some now
  identity : ∃ i r, db.authenticationIdentities.row i = some r ∧ isPasswordOf id r = true ∧
    r.credentialHash = some hash
  baseline : .user ∈ rolesOf db id
  admin : .admin ∈ rolesOf db id

/-- The unique index on `lower(email)`. -/
def UniqueAddresses (cases : Text.CaseMap) (db : Db) : Prop :=
  ∀ {i j r r'}, db.users.row i = some r → db.users.row j = some r' →
    cases.lower r.email = cases.lower r'.email → i = j

/-- An account that is found by the address has it, in this spelling. -/
def SoleSpelling (cases : Text.CaseMap) (email : UserEmail) (db : Db) : Prop :=
  ∀ i r, db.users.row i = some r → cases.lower r.email = cases.toLowercase email →
    r.email = email

theorem findByEmail_some {user : LoadedUser}
    (h : findByEmail deps.cases db email = .ok (some user)) :
    ∃ r, db.users.row user.id = some r ∧
      deps.cases.lower r.email = deps.cases.toLowercase email := by
  unfold findByEmail at h
  split at h
  · cases h
  · rename_i id row hhead
    obtain ⟨hrow, hmatch⟩ := Table.mem_select.mp (List.mem_of_head? hhead)
    unfold loadUser at h
    split at h
    · cases h
    · cases h
      exact ⟨row, hrow, by simpa using hmatch⟩

/-- A password identity with the address of its account follows it. -/
theorem linkPassword_follows {user : User} (hfollows : Follows db)
    (huser : db.users.row id = some user) (hfree : findIdentity db .password user.email = none)
    {hash : Option String}
    (hlink : linkIdentity db id .password user.email hash = .ok ((), db')) :
    Follows db' ∧ db' = { db with
      authenticationIdentities := db.authenticationIdentities.insert
        { userId := id, provider := .password, providerSubject := user.email
          credentialHash := hash } } := by
  have hunused : ∀ {i r}, db.authenticationIdentities.row i = some r → r.provider = .password →
      r.providerSubject ≠ user.email := by
    intro i r hr hprovider hsubject
    have hnil : (db.authenticationIdentities.select fun _ r =>
        r.provider == .password && r.providerSubject == user.email) = [] := by
      simpa [findIdentity] using hfree
    have hmem : (i, r) ∈ db.authenticationIdentities.select fun _ r =>
        r.provider == .password && r.providerSubject == user.email :=
      Table.mem_select.mpr ⟨hr, by simp [hprovider, hsubject]⟩
    rw [hnil] at hmem
    cases hmem
  have hnone : hasIdentity db .password user.email = false := by
    refine Table.any_eq_false_iff.mpr fun i r hr => ?_
    rw [Bool.and_eq_false_iff]
    by_cases hprovider : r.provider = .password
    · exact .inr (beq_eq_false_iff_ne.mpr (hunused hr hprovider))
    · exact .inl (beq_eq_false_iff_ne.mpr hprovider)
  rw [linkIdentity, hnone, if_neg Bool.false_ne_true, huser] at hlink
  cases hlink
  refine ⟨⟨fun {i r} hr hprovider => ?_,
    fun {i j r r'} hr hr' hprovider hprovider' hsame => ?_⟩, rfl⟩
  · rcases Table.row_insert_eq_some.mp hr with ⟨_, rfl⟩ | hold
    · exact ⟨user, huser, rfl⟩
    · exact hfollows.owned hold hprovider
  · rcases Table.row_insert_eq_some.mp hr with ⟨rfl, rfl⟩ | hold
    · rcases Table.row_insert_eq_some.mp hr' with ⟨rfl, _⟩ | hold'
      · rfl
      · exact absurd hsame.symm (hunused hold' hprovider')
    · rcases Table.row_insert_eq_some.mp hr' with ⟨_, rfl⟩ | hold'
      · exact absurd hsame (hunused hold hprovider)
      · exact hfollows.unique hold hold' hprovider hprovider' hsame

/-- A grant keeps what follows an address. -/
theorem grantRole_follows {role : Role} {by' : UserId} (hfollows : Follows db)
    (h : grantRole db id role by' = .ok ((), db')) : Follows db' := by
  obtain ⟨⟨roles, rfl⟩, _, _⟩ := grantRole_ok h
  exact hfollows.of_rows (fun hr hprovider => ⟨_, hr, hprovider, rfl, rfl⟩)
    fun _ _ huser => ⟨_, huser, rfl⟩

/-- The last grant. -/
theorem seeded_of_grant {user : User} (huser : db.users.row id = some user)
    (hactive : user.accountState = .active) (hverified : user.emailVerifiedAt = some now)
    (hidentity : ∃ i r, db.authenticationIdentities.row i = some r ∧ isPasswordOf id r = true ∧
      r.credentialHash = some hash) (hbaseline : .user ∈ rolesOf db id)
    (hadmin : grantRole db id .admin id = .ok ((), db')) :
    Seeded user.email hash now id db' := by
  obtain ⟨⟨roles, rfl⟩, hgranted, hroles⟩ := grantRole_ok hadmin
  exact ⟨⟨user, huser, rfl, hactive, hverified⟩, hidentity, (hroles id .user).mpr (.inl hbaseline),
    hgranted⟩

/-- The row of the account after the first two statements. -/
def activated (user : User) (now clock : Instant) : User :=
  { user with accountState := .active, emailVerifiedAt := some now, updatedAt := clock }

theorem activate_row {user : User} (huser : db.users.row id = some user) :
    (markEmailVerified (setState db id .active) id now).users.row id =
      some (activated user now db.now) := by
  simp [markEmailVerified, setState, huser, activated]

/-- The password goes to the account that has the address. -/
theorem putPassword_ok {user : User} (hfollows : Follows db)
    (hunique : UniqueAddresses deps.cases db) (huser : db.users.row id = some user)
    (h : (putPassword id user.email hash).run db = (.ok (), db')) :
    db'.users = db.users ∧ Follows db' ∧ KeepsOthers id db db' ∧
      ∃ i r, db'.authenticationIdentities.row i = some r ∧ isPasswordOf id r = true ∧
        r.credentialHash = some hash := by
  rw [putPassword, Service.run_of_query] at h
  cases hfound : findIdentity db .password user.email with
  | some identity =>
    rw [hfound, Option.isSome_some, if_pos rfl] at h
    cases h
    obtain ⟨⟨i, r⟩, hhead, rfl⟩ := Option.map_eq_some_iff.mp hfound
    obtain ⟨hr, hmatch⟩ := Table.mem_select.mp (List.mem_of_head? hhead)
    simp only [Bool.and_eq_true, beq_iff_eq] at hmatch
    -- Only one account has the address, so the identity is the one of this account.
    obtain ⟨owner, howner, hemail⟩ := hfollows.owned hr hmatch.1
    have hmine : r.userId = id := hunique howner huser (by rw [hemail, hmatch.2])
    have hown : isPasswordOf id r = true := isPasswordOf_iff.mpr ⟨hmine, hmatch.1⟩
    refine ⟨rfl, setPassword_follows id hash hfollows, .setPassword, i, _,
      Table.row_update_of_some _ _ hr, ?_, ?_⟩
    · rw [hown]
      exact hown
    · rw [hown]
      rfl
  | none =>
    rw [hfound, if_neg (by simp)] at h
    obtain ⟨hlinked, rfl⟩ := linkPassword_follows hfollows huser hfound
      (Service.run_request_ok.mp h)
    exact ⟨rfl, hlinked, .insertIdentity rfl, _, _, Table.row_insert_next ..,
      isPasswordOf_iff.mpr ⟨rfl, rfl⟩, rfl⟩

theorem updateAdmin_ok {user : User} (hfollows : Follows db)
    (hunique : UniqueAddresses deps.cases db) (huser : db.users.row id = some user)
    (h : (updateAdmin id user.email hash now).run db = (.ok (), db')) :
    Seeded user.email hash now id db' ∧ Follows db' ∧ KeepsOthers id db db' := by
  let active := markEmailVerified (setState db id .active) id now
  have hrow : active.users.row id = some (activated user now db.now) := activate_row huser
  have hkeeps : KeepsOthers id db active :=
    (KeepsOthers.update fun r => { r with accountState := .active, updatedAt := db.now }).trans
      (.update fun r => { r with emailVerifiedAt := some now, updatedAt := db.now })
  have hactive : Follows active :=
    (accountWrites_follows deps).accounts (fun _ => rfl)
      ((accountWrites_follows deps).accounts (fun _ => rfl) hfollows)
  have hsame : UniqueAddresses deps.cases active := by
    intro i j r r' hr hr' hlower
    obtain ⟨s, hs, rfl⟩ := Table.row_update_eq_some.mp hr
    obtain ⟨s', hs', rfl⟩ := Table.row_update_eq_some.mp hr'
    obtain ⟨t, ht, rfl⟩ := Table.row_update_eq_some.mp hs
    obtain ⟨t', ht', rfl⟩ := Table.row_update_eq_some.mp hs'
    refine hunique ht ht' ?_
    split at hlower <;> split at hlower <;> exact hlower
  change (putPassword id user.email hash >>= _).run active = _ at h
  obtain ⟨_, db₁, hpassword, h⟩ := Service.run_bind_ok h
  obtain ⟨_, db₂, hbaseline, hadmin⟩ := Service.run_bind_ok h
  obtain ⟨husers, hfollows₁, hkeeps₁, hidentity⟩ :=
    putPassword_ok hactive hsame hrow hpassword
  have hbaseline := Service.run_request_ok.mp hbaseline
  have hadmin := Service.run_request_ok.mp hadmin
  obtain ⟨⟨roles, hdb₂⟩, hheld, _⟩ := grantRole_ok hbaseline
  refine ⟨?_, grantRole_follows (grantRole_follows hfollows₁ hbaseline) hadmin,
    hkeeps.trans (hkeeps₁.trans (.trans (.grantRole hbaseline) (.grantRole hadmin)))⟩
  have hrow₂ : db₂.users.row id = some (activated user now db.now) := by
    rw [hdb₂, ← hrow, ← husers]
  have hidentity₂ : ∃ i r, db₂.authenticationIdentities.row i = some r ∧
      isPasswordOf id r = true ∧ r.credentialHash = some hash := by
    rw [hdb₂]
    exact hidentity
  have hseeded : Seeded (activated user now db.now).email hash now id db' :=
    seeded_of_grant hrow₂ rfl rfl hidentity₂ hheld hadmin
  exact hseeded

/-- What a new account has. -/
theorem create_ok {new : NewAccount} (h : create deps.cases db new = .ok (id, db')) :
    db.users.row id = none ∧
      db'.users.row id = some { email := new.email, displayName := new.displayName
                                accountState := new.state, locale := new.locale
                                createdAt := db.now, updatedAt := db.now } ∧
      .user ∈ rolesOf db' id ∧
      (new.passwordHash ≠ "" → ∃ i r, db'.authenticationIdentities.row i = some r ∧
        isPasswordOf id r = true ∧ r.credentialHash = some new.passwordHash) := by
  unfold create at h
  split at h
  · cases h
  split at h
  · cases h
  cases h
  refine ⟨db.users.fresh _ le_rfl, Table.row_insert_next .., ?_, fun hhash => ?_⟩
  · exact mem_rolesOf.mpr ⟨_, _, Table.row_insert_next .., rfl, rfl⟩
  · dsimp only
    rw [if_pos (bne_iff_ne.mpr hhash)]
    exact ⟨_, _, Table.row_insert_next .., isPasswordOf_iff.mpr ⟨rfl, rfl⟩, rfl⟩

/-- A new account is the one that the address has. -/
theorem createAdmin_ok (hfollows : Follows db) (hhash : hash ≠ "")
    (h : (createAdmin deps email hash now).run db = (.ok (), db')) :
    ∃ id, db.users.row id = none ∧ Seeded email hash now id db' ∧ Follows db' ∧
      KeepsOthers id db db' := by
  obtain ⟨id, db₁, hcreate, h⟩ := Service.run_bind_ok h
  obtain ⟨_, db₂, hverify, hadmin⟩ := Service.run_bind_ok h
  have hcreate := Service.run_request_ok.mp hcreate
  have hadmin := Service.run_request_ok.mp hadmin
  cases hverify
  have hverified : Follows (markEmailVerified db₁ id now) :=
    (accountWrites_follows deps).accounts (fun _ => rfl) (create_follows hcreate hfollows)
  have hkeeps : KeepsOthers id db (markEmailVerified db₁ id now) :=
    (KeepsOthers.create hcreate).trans
      (.update fun r => { r with emailVerifiedAt := some now, updatedAt := db₁.now })
  obtain ⟨hfresh, hrow, hbaseline, hidentity⟩ := create_ok hcreate
  have hrow := Table.row_update_of_some (fun i (_ : User) => i == id)
    (fun r => { r with emailVerifiedAt := some now, updatedAt := db₁.now }) hrow
  rw [beq_self_eq_true, if_pos rfl] at hrow
  have hbaseline : .user ∈ rolesOf (markEmailVerified db₁ id now) id := hbaseline
  have hidentity : ∃ i r, (markEmailVerified db₁ id now).authenticationIdentities.row i = some r ∧
      isPasswordOf id r = true ∧ r.credentialHash = some hash := hidentity hhash
  exact ⟨id, hfresh, seeded_of_grant hrow rfl rfl hidentity hbaseline hadmin,
    grantRole_follows hverified hadmin, hkeeps.trans (.grantRole hadmin)⟩

theorem seedAccount_ok {outcome : SeedOutcome} (hfollows : Follows db)
    (hunique : UniqueAddresses deps.cases db) (hspelling : SoleSpelling deps.cases email db)
    (hhash : hash ≠ "") (h : (seedAccount deps email hash now).run db = (.ok outcome, db')) :
    ∃ id, Seeded email hash now id db' ∧ Follows db' ∧ KeepsOthers id db db' ∧
      (outcome = .created ↔ db.users.row id = none) := by
  obtain ⟨existing, db₁, hread, h⟩ := Service.run_bind_ok h
  obtain ⟨hfound, rfl⟩ := read_ok hread
  cases existing with
  | some found =>
    obtain ⟨_, db₂, hupdate, h⟩ := Service.run_bind_ok h
    cases h
    obtain ⟨user, huser, hlower⟩ := findByEmail_some hfound
    obtain rfl := hspelling _ _ huser hlower
    obtain ⟨hseeded, hdone, hkeeps⟩ := updateAdmin_ok hfollows hunique huser hupdate
    exact ⟨found.id, hseeded, hdone, hkeeps, by simp [huser]⟩
  | none =>
    obtain ⟨_, db₂, hcreate, h⟩ := Service.run_bind_ok h
    cases h
    obtain ⟨id, hfresh, hseeded, hdone, hkeeps⟩ := createAdmin_ok hfollows hhash hcreate
    exact ⟨id, hseeded, hdone, hkeeps, by simp [hfresh]⟩

/-! ## The account afterwards -/

theorem passesLogin_of_seeded {ports : Ports} {password : String}
    (hseeded : Seeded email hash now id db) (hfollows : Follows db)
    (hverify : ports.hasher.verify password hash = some true) :
    passesLogin ports db id password = true := by
  obtain ⟨i, r, hr, hown, hcredential⟩ := hseeded.identity
  obtain ⟨user, huser, hfind⟩ := findIdentity_own hfollows hr hown
  rw [passesLogin, huser, Option.any_some, hfind, Option.any_some, hcredential, Option.any_some,
    hverify, (isPasswordOf_iff.mp hown).1]
  simp

/-- A session of the account resolves to an administrator. -/
theorem resolveSession_of_seeded {raw : Token} {session : Session} {later : Instant}
    (hseeded : Seeded email hash now id db) (hparse : UserEmail.parse deps.cases email = .ok email)
    (hsession : sessionOf deps db raw = some session) (hid : session.userId = id)
    (hvalid : isValid later session = true)
    (hcsrf : (decodeToken deps session.csrfToken).isSome = true) :
    ∃ principal, ((resolveSession deps raw later).run db).1 = .ok (some principal) ∧
      principal.id = id ∧ principal.hasRole .admin = true := by
  obtain ⟨user, huser, hemail, hactive, _⟩ := hseeded.user
  have hresolve : (resolve deps raw later).run db =
      (.ok (some session), touched deps db raw later) := by
    rw [resolve, repo, Service.run_bind, Service.run_request]
    dsimp only
    rw [hsession]
    dsimp only
    rw [if_pos hvalid, Service.run_of_require hcsrf]
    rfl
  have hload : ∃ loaded, findById deps.cases (touched deps db raw later) id = .ok (some loaded) ∧
      loaded.id = id ∧ loaded.accountState = .active ∧ .admin ∈ loaded.roles := by
    have hrow : (touched deps db raw later).users.row id = some user := huser
    have hadmin : .admin ∈ rolesOf (touched deps db raw later) id := hseeded.admin
    rw [findById, hrow]
    dsimp only
    rw [loadUser, hemail, hparse]
    refine ⟨_, rfl, rfl, hactive, ?_⟩
    dsimp only
    split
    · exact hadmin
    · exact List.mem_append_left _ hadmin
  obtain ⟨loaded, hfound, hsame, hstate, hroles⟩ := hload
  rw [resolveSession, Service.run_bind_of_ok hresolve]
  dsimp only
  rw [hid, Service.run_bind, read, repo, Service.run_request, hfound]
  refine ⟨fromUser loaded, ?_, hsame, List.contains_iff_mem.mpr hroles⟩
  show Except.ok (if loaded.accountState.canAccessAccount then some (fromUser loaded) else none) = _
  rw [hstate]
  rfl

/-- A run of the command that succeeds: the account is seeded, and the rest reads it and records
an event. -/
theorem seedAdmin_account {hasher : PasswordHasher} {seed : AdminSeedConfig}
    {outcome : SeedOutcome} (h : (seedAdmin deps hasher seed now).run db = (.ok outcome, db')) :
    ∃ rawEmail ∈ seed.email, ∃ password ∈ seed.password, ∃ email hash db₁ events,
      UserEmail.parse deps.cases rawEmail = .ok email ∧ hasher.hash password = some hash ∧
      (seedAccount deps email hash now).run db = (.ok outcome, db₁) ∧
      db' = { db₁ with auditEvents := events } := by
  cases hemail : seed.email with
  | none =>
    rw [seedAdmin, hemail] at h
    cases h
  | some rawEmail =>
  cases hparse : UserEmail.parse deps.cases rawEmail with
  | error e =>
    rw [seedAdmin, hemail, Option.map_some, hparse] at h
    cases h
  | ok email =>
  cases hpassword : seed.password with
  | none =>
    rw [seedAdmin, hemail, Option.map_some, hparse, hpassword] at h
    cases h
  | some password =>
  rw [seedAdmin, hemail, Option.map_some, hparse, hpassword] at h
  obtain ⟨_, _, hlong, h⟩ := Service.run_bind_ok h
  obtain ⟨_, rfl⟩ := Service.run_require_ok.mp hlong
  cases hhash : hasher.hash password with
  | none =>
    rw [hhash] at h
    cases h
  | some hash =>
  rw [hhash] at h
  obtain ⟨made, db₁, hseed, h⟩ := Service.run_bind_ok h
  obtain ⟨found, db₂, hread, h⟩ := Service.run_bind_ok h
  obtain ⟨_, rfl⟩ := read_ok (Service.run_mapErr_ok.mp hread)
  cases found with
  | none => cases h
  | some user =>
    obtain ⟨_, db₃, haudit, h⟩ := Service.run_bind_ok h
    obtain ⟨_, _, rfl⟩ := recordAudit_eq_some (recordAudit_of_ok (Service.run_request_ok.mp haudit))
    cases h
    exact ⟨rawEmail, rfl, password, rfl, email, hash, _, _, hparse, hhash,
      Service.run_mapErr_ok.mp hseed, rfl⟩

/-- In every state that calls of the auth service and erasures reach, in any interleaving: a
run of `seed-admin` that succeeds leaves an account with the configured address that is active,
verified and an administrator and that a login with the configured password enters, and it
changes nothing about another account.  It ends no session: one that the account had before
goes on, now as an administrator.  The state obeys the unique index on `lower(email)`, and an
account that the configured address finds has it in that spelling. -/
theorem seedAdmin_ok {db₀ : Db} {es : List (Threads.Event AccountCall)} {p : AccountPool}
    (hstart : Follows db₀)
    (hreached : Threads.PoolRun (AccountCall.script deps) (Threads.Pool.init db₀) es p)
    {ports : Ports} {seed : AdminSeedConfig} {outcome : SeedOutcome}
    (hhasher : ∀ password ∈ seed.password, ∀ hash, ports.hasher.hash password = some hash →
      hash ≠ "" ∧ ports.hasher.verify password hash = some true)
    (hunique : UniqueAddresses deps.cases p.store)
    (hspelling : ∀ rawEmail ∈ seed.email, ∀ email, UserEmail.parse deps.cases rawEmail = .ok email →
      SoleSpelling deps.cases email p.store)
    (hrun : (seedAdmin deps ports.hasher seed now).run p.store = (.ok outcome, db')) :
    ∃ rawEmail ∈ seed.email, ∃ password ∈ seed.password, ∃ email id user,
      UserEmail.parse deps.cases rawEmail = .ok email ∧ db'.users.row id = some user ∧
      user.email = email ∧ user.accountState = .active ∧ user.emailVerifiedAt = some now ∧
      .user ∈ rolesOf db' id ∧ .admin ∈ rolesOf db' id ∧
      passesLogin ports db' id password = true ∧
      (outcome = .created ↔ p.store.users.row id = none) ∧ KeepsOthers id p.store db' ∧
      ∀ raw session later, sessionOf deps p.store raw = some session → session.userId = id →
        isValid later session = true → (decodeToken deps session.csrfToken).isSome = true →
        ∃ principal, ((resolveSession deps raw later).run db').1 = .ok (some principal) ∧
          principal.id = id ∧ principal.hasRole .admin = true := by
  have hfollows : Follows p.store := Threads.respects_run accountScript_follows hreached hstart
  obtain ⟨rawEmail, hemail, password, hpassword, email, hash, db₁, events, hparse, hhash, hseed,
    rfl⟩ := seedAdmin_account hrun
  obtain ⟨hsome, hverify⟩ := hhasher password hpassword hash hhash
  obtain ⟨id, hseeded, hdone, hkeeps, houtcome⟩ :=
    seedAccount_ok hfollows hunique (hspelling rawEmail hemail email hparse) hsome hseed
  have hseeded : Seeded email hash now id { db₁ with auditEvents := events } :=
    ⟨hseeded.user, hseeded.identity, hseeded.baseline, hseeded.admin⟩
  have hdone : Follows { db₁ with auditEvents := events } :=
    hdone.of_rows (fun hr hprovider => ⟨_, hr, hprovider, rfl, rfl⟩)
      fun _ _ huser => ⟨_, huser, rfl⟩
  obtain ⟨user, huser, hsame, hactive, hverified⟩ := hseeded.user
  refine ⟨rawEmail, hemail, password, hpassword, email, id, user, hparse, huser, hsame, hactive,
    hverified, hseeded.baseline, hseeded.admin, passesLogin_of_seeded hseeded hdone hverify,
    houtcome, ⟨hkeeps.sessions, hkeeps.users, hkeeps.identities, hkeeps.roles⟩, ?_⟩
  intro raw session later hsession hid hvalid hcsrf
  refine resolveSession_of_seeded hseeded (UserEmail.parse_parse hparse) ?_ hid hvalid hcsrf
  rw [← hsession]
  show sessionOf deps { db₁ with auditEvents := events } raw = _
  unfold sessionOf
  rw [← hkeeps.sessions]

/-- A stranger registers the address of the operator and signs in. -/
def strangerJoins : List (Threads.Event AccountCall) :=
  [.start (.register (samplePorts zeroToken) "203.0.113.7" "admin@example.com" none
      "correct horse" .en),
    .answer 0, .answer 0, .answer 0, .answer 0, .answer 0,
    .start (.login (samplePorts oneToken) "203.0.113.7" "admin@example.com" "correct horse"),
    .answer 1, .answer 1, .answer 1, .answer 1]

def operatorSeed : AdminSeedConfig := ⟨some "admin@example.com", some "correct horse"⟩

/-- The stranger has the only account and a session, and the command succeeds. -/
def isTakenOver (db : Db) : Bool :=
  db.users.rows.all (fun x => x.1 == 1 && x.2.email == "admin@example.com") &&
    ((sessionOf sampleDeps db oneToken).any fun session =>
      session.userId == 1 && isValid 0 session &&
        (decodeToken sampleDeps session.csrfToken).isSome) &&
    match ((seedAdmin sampleDeps (samplePorts oneToken).hasher operatorSeed 0).run db).1 with
    | .ok .updated => true
    | _ => false

/-- The session of the stranger is one of an administrator. -/
theorem seedAdmin_ok_stranger :
    ∃ p db', Threads.PoolRun (AccountCall.script sampleDeps) (Threads.Pool.init (Db.empty 0))
        strangerJoins p ∧
      (seedAdmin sampleDeps (samplePorts oneToken).hasher operatorSeed 0).run p.store =
        (.ok .updated, db') ∧
      ∃ principal, ((resolveSession sampleDeps oneToken 0).run db').1 = .ok (some principal) ∧
        principal.hasRole .admin = true := by
  have hend : (strangerJoins.foldlM (Threads.Pool.next (AccountCall.script sampleDeps))
      (Threads.Pool.init (Db.empty 0))).any (fun p => isTakenOver p.store) = true := by
    decide +kernel
  obtain ⟨p, hp, htaken⟩ := (Option.any_eq_true ..).mp hend
  have hreached := Runs.Run.of_foldlM hp
  rw [isTakenOver, Bool.and_eq_true, Bool.and_eq_true] at htaken
  obtain ⟨⟨hrows, hsession⟩, hrun⟩ := htaken
  have hsole : ∀ {i r}, p.store.users.row i = some r → i = 1 ∧ r.email = "admin@example.com" := by
    intro i r hr
    simpa using List.all_eq_true.mp hrows (i, r) (Table.mem_rows.mpr hr)
  obtain ⟨session, hfound, hvalid⟩ := (Option.any_eq_true ..).mp hsession
  simp only [Bool.and_eq_true, beq_iff_eq] at hvalid
  have hdone : ∃ db', (seedAdmin sampleDeps (samplePorts oneToken).hasher operatorSeed 0).run
      p.store = (.ok .updated, db') := by
    split at hrun
    · rename_i hok
      exact ⟨_, Prod.ext hok rfl⟩
    · cases hrun
  obtain ⟨db', hdone⟩ := hdone
  obtain ⟨_, _, _, _, _, id, _, _, _, _, _, _, _, _, _, houtcome, _, hgoes⟩ :=
    seedAdmin_ok (follows_empty 0) hreached
      (fun password hpassword hash hhash => by
        cases hpassword
        cases hhash
        exact ⟨by decide, by decide⟩)
      (fun hr hr' _ => (hsole hr).1.trans (hsole hr').1.symm)
      (fun rawEmail hraw email hparse i r hr _ => by
        cases hraw
        rw [(hsole hr).2]
        have hemail : UserEmail.parse sampleDeps.cases "admin@example.com" =
            .ok "admin@example.com" := by decide +kernel
        exact Except.ok.inj (hemail.symm.trans hparse))
      hdone
  obtain ⟨user, huser⟩ : ∃ user, p.store.users.row id = some user := by
    refine Option.ne_none_iff_exists'.mp fun hnone => ?_
    cases houtcome.mpr hnone
  obtain ⟨principal, hresolved, _, hadmin⟩ :=
    hgoes oneToken session 0 hfound (hvalid.1.1.trans (hsole huser).1.symm) hvalid.1.2 hvalid.2
  exact ⟨p, db', hreached, hdone, principal, hresolved, hadmin⟩

end BikesNest.Auth
