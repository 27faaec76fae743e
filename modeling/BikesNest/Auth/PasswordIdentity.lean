import BikesNest.Auth.Writes
import BikesNest.Privacy.DeletionOutcome
import BikesNest.Privacy.RetentionJob

/-!
# The password identity follows the address

The address of an account stands in `users.email`, and once more as the subject of its
password identity.  Any number of calls of the auth service and of erasures of accounts run
at the same time, call by call, and any call may be lost; `Follows` holds throughout.
-/

namespace BikesNest.Auth

open Domain Store Relational Privacy Runs Threads

/-! ## The provider -/

/-- The port `OAuthProvider`: the identities that it answers are not passwords. -/
structure OAuthProvider where
  exchange : String → Option ProviderIdentity
  foreign : ∀ code identity, exchange code = some identity → identity.provider ≠ .password

/-- `FakeOAuthProvider`, which answers one identity to every code. -/
structure FakeOAuthProvider where
  email : String
  subject : String

/-- `FakeOAuthProvider::exchange`. -/
def FakeOAuthProvider.exchange (cases : Text.CaseMap) (fake : FakeOAuthProvider) (_code : String) :
    Option ProviderIdentity :=
  match UserEmail.parse cases fake.email with
  | .error _ => none
  | .ok email =>
    some { provider := .google, subject := fake.subject, email, emailVerified := true }

def FakeOAuthProvider.port (cases : Text.CaseMap) (fake : FakeOAuthProvider) : OAuthProvider where
  exchange := fake.exchange cases
  foreign code identity h := by
    unfold FakeOAuthProvider.exchange at h
    split at h
    · cases h
    · cases h
      exact nofun

/-! ## The calls -/

/-- A call of the auth service, an erasure of accounts, or time that passes. -/
inductive AccountCall where
  | wait (duration : Nat)
  | register (ports : Ports) (ip rawEmail : String) (displayName : Option String)
      (rawPassword : String) (locale : LocaleCode)
  | resendVerification (ports : Ports) (ip : String) (email : UserEmail)
  | verifyEmail (rawToken : String)
  | changeEmail (ports : Ports) (userId : UserId) (currentPassword : String)
      (newEmail : UserEmail)
  | login (ports : Ports) (ip rawEmail rawPassword : String)
  | requestPasswordReset (ports : Ports) (ip : String) (email : UserEmail) (now : Instant)
  | resetPassword (ports : Ports) (rawToken rawPassword : String) (now : Instant)
  | changePassword (ports : Ports) (userId : UserId) (current new : String)
      (currentSession : Token)
  | oauthCallback (ports : Ports) (provider : OAuthProvider) (code : String)
  | suspendUser (actor : AuthenticatedUser) (target : UserId)
  | restoreUser (actor : AuthenticatedUser) (target : UserId)
  | requestDeletion (hasher : PasswordHasher) (user : AuthenticatedUser)
      (password : Option String) (confirmEmail : String)
  /-- The step of the retention job that anonymizes inactive accounts. -/
  | anonymizeInactive (arrange : List UserId → List UserId) (config : RetentionConfig)
      (now : Instant)
  /-- The step that deletes the shells of deleted accounts. -/
  | purgeDeleted (job : RetentionJob) (now : Instant)

/-- The service of a call.  What a sign-in answers is left out. -/
def AccountCall.script (deps : Deps) :
    AccountCall → Service Db (AuthError ⊕ PrivacyError) Unit
  | .wait duration =>
    Service.execute (.inl .unavailable) fun db => { db with now := db.now + duration }
  | .register ports ip rawEmail displayName rawPassword locale =>
    (Auth.register deps ports ip rawEmail displayName rawPassword locale).mapErr .inl
  | .resendVerification ports ip email =>
    (Auth.resendVerification deps ports ip email).mapErr .inl
  | .verifyEmail rawToken => (Auth.verifyEmail deps rawToken).mapErr .inl
  | .changeEmail ports userId currentPassword newEmail =>
    (Auth.changeEmail deps ports userId currentPassword newEmail).mapErr .inl
  | .login ports ip rawEmail rawPassword => do
    let _ ← (Auth.login deps ports ip rawEmail rawPassword).mapErr .inl
    return ()
  | .requestPasswordReset ports ip email now =>
    (Auth.requestPasswordReset deps ports ip email now).mapErr .inl
  | .resetPassword ports rawToken rawPassword now =>
    (Auth.resetPassword deps ports rawToken rawPassword now).mapErr .inl
  | .changePassword ports userId current new currentSession =>
    (Auth.changePassword deps ports userId current new currentSession).mapErr .inl
  | .oauthCallback ports provider code => do
    let _ ← (Auth.oauthCallback deps { ports with exchange := provider.exchange } code).mapErr .inl
    return ()
  | .suspendUser actor target => (Auth.suspendUser deps actor target).mapErr .inl
  | .restoreUser actor target => (Auth.restoreUser actor target).mapErr .inl
  | .requestDeletion hasher user password confirmEmail =>
    (Privacy.requestDeletion deps.cases hasher user password confirmEmail).mapErr .inr
  | .anonymizeInactive arrange config now => do
    let _ ← (inactiveAccountsStep deps.cases arrange config now).mapErr .inr
    return ()
  | .purgeDeleted job now => do
    let _ ← (job.deletedAccountsStep now).mapErr .inr
    return ()

abbrev AccountPool := Pool Db (AuthError ⊕ PrivacyError) Unit AccountCall

abbrev AccountThread := Thread Db (AuthError ⊕ PrivacyError) Unit AccountCall

section Script

variable {deps : Deps} {R : Db → Db → Prop}

/-- Every call is a move by `R`, when every statement on accounts and identities is. -/
theorem accountScript_respects (h : AccountWrites deps (· ≠ .password) R)
    (hset : ∀ db id hash, R db (setPassword db id hash))
    (hscrub : ∀ db u now, R db (scrubbed db u now)) (hdelete : ∀ db p, R db (deleteUsers db p))
    (c : AccountCall) : (c.script deps).Respects R := by
  cases c with
  | wait duration => exact .execute _ fun _ => h.other rfl rfl
  | register ports ip rawEmail displayName rawPassword locale =>
    exact (register_respects h ip rawEmail displayName rawPassword locale).mapErr
  | resendVerification ports ip email => exact (resendVerification_respects h ip email).mapErr
  | verifyEmail rawToken => exact (verifyEmail_respects h rawToken).mapErr
  | changeEmail ports userId currentPassword newEmail =>
    exact (changeEmail_respects h userId currentPassword newEmail).mapErr
  | login ports ip rawEmail rawPassword =>
    exact .bind (login_respects h ip rawEmail rawPassword).mapErr fun _ => .pure _
  | requestPasswordReset ports ip email now =>
    exact (requestPasswordReset_respects h ip email now).mapErr
  | resetPassword ports rawToken rawPassword now =>
    exact (resetPassword_respects h hset rawToken rawPassword now).mapErr
  | changePassword ports userId current new currentSession =>
    exact (changePassword_respects h hset userId current new currentSession).mapErr
  | oauthCallback ports provider code =>
    exact .bind (oauthCallback_respects h (provider.foreign code)).mapErr fun _ => .pure _
  | suspendUser actor target => exact (suspendUser_respects h actor target).mapErr
  | restoreUser actor target => exact (restoreUser_respects h actor target).mapErr
  | requestDeletion hasher user password confirmEmail =>
    refine .mapErr (requestDeletion_respects h.refl (fun hcreate => ?_) (fun _ db db' hrecord => ?_)
      (fun db now => hscrub db user.id now) (fun hfulfill => ?_) fun db => h.other rfl rfl)
    · unfold createRequest at hcreate
      split at hcreate
      · cases hcreate
      · cases hcreate
        exact h.other rfl rfl
    · obtain ⟨_, _, rfl⟩ := recordAudit_eq_some hrecord
      exact h.other rfl rfl
    · obtain ⟨rfl, _⟩ := fulfill_ok hfulfill
      exact h.other rfl rfl
  | anonymizeInactive arrange config now =>
    exact .bind (inactiveAccountsStep_respects h.refl hscrub).mapErr fun _ => .pure _
  | purgeDeleted job now =>
    exact .bind (deletedAccountsStep_respects h.refl hdelete).mapErr fun _ => .pure _

end Script

/-! ## The invariant -/

/-- The subject of a password identity is the address of its account, and no two password
identities share one. -/
structure Follows (db : Db) : Prop where
  owned : ∀ {i r}, db.authenticationIdentities.row i = some r → r.provider = .password →
    ∃ user, db.users.row r.userId = some user ∧ user.email = r.providerSubject
  unique : ∀ {i j r r'}, db.authenticationIdentities.row i = some r →
    db.authenticationIdentities.row j = some r' → r.provider = .password →
    r'.provider = .password → r.providerSubject = r'.providerSubject → i = j

theorem follows_empty (now : Instant) : Follows (Db.empty now) where
  owned h := by cases h
  unique h := by cases h

section Moves

variable {deps : Deps} {db db' : Db}

/-- A call that adds no password identity, and keeps the addresses of the accounts that have
one. -/
theorem Follows.of_rows
    (h : Follows db) (hidentities : ∀ {i r'}, db'.authenticationIdentities.row i = some r' →
      r'.provider = .password → ∃ r, db.authenticationIdentities.row i = some r ∧
        r.provider = .password ∧ r.userId = r'.userId ∧ r.providerSubject = r'.providerSubject)
    (husers : ∀ {i r' user}, db'.authenticationIdentities.row i = some r' →
      r'.provider = .password → db.users.row r'.userId = some user →
      ∃ user', db'.users.row r'.userId = some user' ∧ user'.email = user.email) :
    Follows db' where
  owned hr' hprovider := by
    obtain ⟨r, hr, hpassword, huser, hsubject⟩ := hidentities hr' hprovider
    obtain ⟨user, hrow, hemail⟩ := h.owned hr hpassword
    rw [huser] at hrow
    obtain ⟨user', hrow', hemail'⟩ := husers hr' hprovider hrow
    exact ⟨user', hrow', by rw [hemail', hemail, hsubject]⟩
  unique hi hj hprovider hprovider' hsame := by
    obtain ⟨r, hr, hpassword, _, hsubject⟩ := hidentities hi hprovider
    obtain ⟨r', hr', hpassword', _, hsubject'⟩ := hidentities hj hprovider'
    exact h.unique hr hr' hpassword hpassword' (by rw [hsubject, hsubject', hsame])

theorem create_follows {new : NewAccount} {id : UserId}
    (hcreate : create deps.cases db new = .ok (id, db')) (h : Follows db) : Follows db' := by
  unfold create at hcreate
  split at hcreate
  · cases hcreate
  split at hcreate
  · cases hcreate
  rename_i hfree
  cases hcreate
  have hkept : ∀ {u user x}, db.users.row u = some user →
      (db.users.insert x).row u = some user := Table.row_insert_of_some _
  refine ⟨fun {i r} hr hprovider => ?_, fun {i j r r'} hr hr' hprovider hprovider' hsame => ?_⟩
  · dsimp only at hr ⊢
    split at hr
    · rcases Table.row_insert_eq_some.mp hr with ⟨_, rfl⟩ | hold
      · exact ⟨_, Table.row_insert_next .., rfl⟩
      · obtain ⟨user, huser, hemail⟩ := h.owned hold hprovider
        exact ⟨user, hkept huser, hemail⟩
    · obtain ⟨user, huser, hemail⟩ := h.owned hr hprovider
      exact ⟨user, hkept huser, hemail⟩
  · dsimp only at hr hr'
    split at hr
    · rename_i hhash
      rw [if_pos hhash] at hr'
      -- the unique key keeps the new subject apart from the old ones
      have hnew : ∀ {k x}, db.authenticationIdentities.row k = some x → x.provider = .password →
          x.providerSubject ≠ new.email := by
        intro k x hx hpassword hsubject
        refine hfree ?_
        rw [hhash, Bool.true_and]
        exact Table.any_iff.mpr ⟨k, x, hx, by simp [hpassword, hsubject]⟩
      rcases Table.row_insert_eq_some.mp hr with ⟨rfl, rfl⟩ | hold
      · rcases Table.row_insert_eq_some.mp hr' with ⟨rfl, _⟩ | hold'
        · rfl
        · exact absurd hsame.symm (hnew hold' hprovider')
      · rcases Table.row_insert_eq_some.mp hr' with ⟨_, rfl⟩ | hold'
        · exact absurd hsame (hnew hold hprovider)
        · exact h.unique hold hold' hprovider hprovider' hsame
    · rename_i hhash
      rw [if_neg hhash] at hr'
      exact h.unique hr hr' hprovider hprovider' hsame

theorem isPasswordOf_iff {id : UserId} {r : AuthenticationIdentity} :
    isPasswordOf id r = true ↔ r.userId = id ∧ r.provider = .password := by
  simp [isPasswordOf]

/-- An account has one password identity at most. -/
theorem Follows.sole (h : Follows db) {id : UserId} {i j : Nat} {r r' : AuthenticationIdentity}
    (hr : db.authenticationIdentities.row i = some r) (hmine : isPasswordOf id r = true)
    (hr' : db.authenticationIdentities.row j = some r') (hmine' : isPasswordOf id r' = true) :
    i = j := by
  obtain ⟨hid, hpassword⟩ := isPasswordOf_iff.mp hmine
  obtain ⟨hid', hpassword'⟩ := isPasswordOf_iff.mp hmine'
  obtain ⟨user, huser, hemail⟩ := h.owned hr hpassword
  obtain ⟨user', huser', hemail'⟩ := h.owned hr' hpassword'
  rw [hid] at huser
  rw [hid'] at huser'
  obtain rfl := Option.some.inj (huser.symm.trans huser')
  exact h.unique hr hr' hpassword hpassword' (hemail.symm.trans hemail')

/-- A free address is the subject of no password identity of another account. -/
theorem subject_ne_of_free {id : UserId} {email : String}
    (hfree : ¬ subjectTaken db id email = true) {i j : Nat} {r x : AuthenticationIdentity}
    (hr : db.authenticationIdentities.row i = some r) (hmine : isPasswordOf id r = true)
    (hx : db.authenticationIdentities.row j = some x)
    (hnot : isPasswordOf id x = false) (hprovider : x.provider = .password) :
    x.providerSubject ≠ email := by
  intro hsubject
  refine hfree ?_
  unfold subjectTaken
  rw [Bool.and_eq_true, Bool.or_eq_true]
  refine ⟨Table.any_iff.mpr ⟨i, r, hr, hmine⟩, .inl (Table.any_iff.mpr ⟨j, x, hx, ?_⟩)⟩
  simp [hnot, hprovider, hsubject]

/-- The identity that a change of address updates is the one of the account. -/
theorem confirmEmail_follows {id : UserId} {at' : Instant} {email : UserEmail}
    (hconfirm : confirmEmail deps.cases db id at' email = .ok ((), db')) (h : Follows db) :
    Follows db' := by
  unfold confirmEmail at hconfirm
  split at hconfirm
  · cases hconfirm
  split at hconfirm
  · cases hconfirm
  rename_i hfree
  cases hconfirm
  refine ⟨fun {i r'} hr' hprovider => ?_, fun {i j x y} hx hy hprovider hprovider' hsame => ?_⟩
  · obtain ⟨r, hr, rfl⟩ := Table.row_update_eq_some.mp hr'
    cases hmine : isPasswordOf id r with
    | true =>
      obtain ⟨hid, hpassword⟩ := isPasswordOf_iff.mp hmine
      obtain ⟨user, huser, _⟩ := h.owned hr hpassword
      rw [if_pos rfl]
      refine ⟨User.confirmed user db.now at' email, ?_, rfl⟩
      rw [hid] at huser
      simp [emailConfirmed, hid, huser]
    | false =>
      rw [hmine, if_neg Bool.false_ne_true] at hprovider
      rw [if_neg Bool.false_ne_true]
      obtain ⟨user, huser, hemail⟩ := h.owned hr hprovider
      have hne : r.userId ≠ id := by
        rintro rfl
        simp [isPasswordOf, hprovider] at hmine
      exact ⟨user, by simp [emailConfirmed, huser, hne], hemail⟩
  · obtain ⟨r, hr, rfl⟩ := Table.row_update_eq_some.mp hx
    obtain ⟨r', hr', rfl⟩ := Table.row_update_eq_some.mp hy
    cases hmine : isPasswordOf id r with
    | true =>
      rw [hmine, if_pos rfl] at hsame
      cases hmine' : isPasswordOf id r' with
      | true => exact h.sole hr hmine hr' hmine'
      | false =>
        rw [hmine', if_neg Bool.false_ne_true] at hsame hprovider'
        exact absurd hsame.symm (subject_ne_of_free hfree hr hmine hr' hmine' hprovider')
    | false =>
      rw [hmine, if_neg Bool.false_ne_true] at hsame hprovider
      cases hmine' : isPasswordOf id r' with
      | true =>
        rw [hmine', if_pos rfl] at hsame
        exact absurd hsame (subject_ne_of_free hfree hr' hmine' hr hmine hprovider)
      | false =>
        rw [hmine', if_neg Bool.false_ne_true] at hsame hprovider'
        exact h.unique hr hr' hprovider hprovider' hsame

theorem linkIdentity_follows {id : UserId} {provider : AuthenticationProvider} {subject : String}
    (hprovider : provider ≠ .password)
    (hlink : linkIdentity db id provider subject none = .ok ((), db')) (h : Follows db) :
    Follows db' := by
  unfold linkIdentity at hlink
  split at hlink
  · cases hlink
    exact h
  split at hlink
  · cases hlink
  cases hlink
  refine h.of_rows (fun {i r'} hr' hpassword => ?_) (fun {i r' user} _ _ huser => ?_)
  · rcases Table.row_insert_eq_some.mp hr' with ⟨_, rfl⟩ | hold
    · exact absurd hpassword hprovider
    · exact ⟨r', hold, hpassword, rfl, rfl⟩
  · exact ⟨user, huser, rfl⟩

theorem setPassword_follows (id : UserId) (hash : String) (h : Follows db) :
    Follows (setPassword db id hash) := by
  refine h.of_rows (fun {i r'} hr' hpassword => ?_) (fun {i r' user} _ _ huser => ?_)
  · obtain ⟨r, hr, rfl⟩ := Table.row_update_eq_some.mp hr'
    refine ⟨r, hr, ?_⟩
    split at hpassword <;> exact ⟨hpassword, by split <;> rfl, by split <;> rfl⟩
  · exact ⟨user, huser, rfl⟩

/-- The identities of an anonymized account are gone. -/
theorem scrubbed_follows (u : UserId) (now : Instant) (h : Follows db) :
    Follows (scrubbed db u now) := by
  refine h.of_rows (fun {i r'} hr' hpassword => ?_) (fun {i r' user} hr' _ huser => ?_)
  · exact ⟨r', (Table.row_delete_eq_some.mp hr').1, hpassword, rfl, rfl⟩
  · have hne : r'.userId ≠ u := by simpa using (Table.row_delete_eq_some.mp hr').2
    exact ⟨user, by simp [scrubbed, huser, hne], rfl⟩

/-- The identities of a deleted account are gone. -/
theorem deleteUsers_follows (p : UserId → User → Bool) (h : Follows db) :
    Follows (deleteUsers db p) := by
  refine h.of_rows (fun {i r'} hr' hpassword => ?_) (fun {i r' user} hr' _ huser => ?_)
  · exact ⟨r', (Table.row_delete_eq_some.mp hr').1, hpassword, rfl, rfl⟩
  · obtain ⟨_, hstays⟩ := Table.row_delete_eq_some.mp hr'
    dsimp only at hstays
    rw [huser, Option.any_some] at hstays
    exact ⟨user, Table.row_delete_eq_some.mpr ⟨huser, hstays⟩, rfl⟩

variable (deps) in
theorem accountWrites_follows :
    AccountWrites deps (· ≠ .password) (Service.Stable Follows) where
  other {db db'} husers hidentities h := by
    refine h.of_rows (fun {i r'} hr' hpassword => ?_) (fun {i r' user} _ _ huser => ?_)
    · rw [hidentities] at hr'
      exact ⟨r', hr', hpassword, rfl, rfl⟩
    · rw [husers]
      exact ⟨user, huser, rfl⟩
  accounts {db p f} hemail h := by
    refine h.of_rows (fun {i r'} hr' hpassword => ⟨r', hr', hpassword, rfl, rfl⟩)
      (fun {i r' user} _ _ huser => ?_)
    refine ⟨_, Table.row_update_of_some p f huser, ?_⟩
    split
    · exact hemail user
    · rfl
  created := create_follows
  confirmed := confirmEmail_follows
  linked := linkIdentity_follows

theorem accountScript_follows (c : AccountCall) :
    (c.script deps).Respects (Service.Stable Follows) :=
  accountScript_respects (accountWrites_follows deps) (fun _ => setPassword_follows)
    (fun _ => scrubbed_follows) (fun _ => deleteUsers_follows) c

/-- A user has one password identity at most. -/
theorem Follows.one (h : Follows db) {i j : Nat} {r r' : AuthenticationIdentity}
    (hr : db.authenticationIdentities.row i = some r)
    (hr' : db.authenticationIdentities.row j = some r') (hprovider : r.provider = .password)
    (hprovider' : r'.provider = .password) (huser : r.userId = r'.userId) : i = j := by
  obtain ⟨user, hrow, hemail⟩ := h.owned hr hprovider
  obtain ⟨user', hrow', hemail'⟩ := h.owned hr' hprovider'
  rw [huser] at hrow
  obtain rfl := Option.some.inj (hrow.symm.trans hrow')
  exact h.unique hr hr' hprovider hprovider' (hemail.symm.trans hemail')

/-- The identity that a login finds by an address is one of the account that has it. -/
theorem Follows.findIdentity (h : Follows db) {email : String} {identity : AuthenticationIdentity}
    (hfind : Auth.findIdentity db .password email = some identity) :
    ∃ user, db.users.row identity.userId = some user ∧ user.email = email := by
  obtain ⟨⟨i, r⟩, hhead, rfl⟩ := Option.map_eq_some_iff.mp hfind
  obtain ⟨hr, hmatch⟩ := Table.mem_select.mp (List.mem_of_head? hhead)
  simp only [Bool.and_eq_true, beq_iff_eq] at hmatch
  obtain ⟨user, huser, hemail⟩ := h.owned hr hmatch.1
  exact ⟨user, huser, hemail.trans hmatch.2⟩

end Moves

/-! ## Any number of calls -/

/-- Whatever the interleaving of registrations, verifications, changes of address and of
passwords, provider callbacks and erasures: the subject of a password identity is the
address of the account that owns it, no two password identities share a subject, and a user
has one at most; so a login by an address finds no identity of an account without it. -/
theorem password_identity_follows {deps : Deps} {db₀ : Db} {es : List (Event AccountCall)}
    {p : AccountPool} (hstart : Follows db₀)
    (hrun : PoolRun (AccountCall.script deps) (Pool.init db₀) es p) :
    (∀ i r, p.store.authenticationIdentities.row i = some r → r.provider = .password →
      ∃ user, p.store.users.row r.userId = some user ∧ user.email = r.providerSubject) ∧
    (∀ i j r r', p.store.authenticationIdentities.row i = some r →
      p.store.authenticationIdentities.row j = some r' → r.provider = .password →
      r'.provider = .password → r.providerSubject = r'.providerSubject → i = j) ∧
    (∀ i j r r', p.store.authenticationIdentities.row i = some r →
      p.store.authenticationIdentities.row j = some r' → r.provider = .password →
      r'.provider = .password → r.userId = r'.userId → i = j) ∧
    ∀ email identity, findIdentity p.store .password email = some identity →
      ∃ user, p.store.users.row identity.userId = some user ∧ user.email = email := by
  have h : Follows p.store := respects_run accountScript_follows hrun hstart
  exact ⟨fun _ _ => h.owned, fun _ _ _ _ => h.unique, fun _ _ _ _ => h.one, fun _ _ =>
    h.findIdentity⟩

/-- The rider registers, follows the link of the message, and signs in with Google. -/
def riderJoins : List (Event AccountCall) :=
  [.start (.register (samplePorts zeroToken) "203.0.113.7" "rider@example.com" none
      "correct horse" .en),
    .answer 0, .answer 0, .answer 0, .answer 0, .answer 0,
    .start (.verifyEmail (sampleDeps.base64url zeroToken.bytes)),
    .start (.oauthCallback (samplePorts oneToken)
      (FakeOAuthProvider.port .ascii ⟨"rider@example.com", "108"⟩) "code"),
    .answer 1, .answer 2, .answer 1, .answer 2, .answer 1, .answer 2, .answer 2, .answer 1,
    .answer 2]

theorem password_identity_follows_rider :
    ∃ p, PoolRun (AccountCall.script sampleDeps) (Pool.init (Db.empty 0)) riderJoins p ∧
      ∃ r user, p.store.authenticationIdentities.row 1 = some r ∧ r.provider = .password ∧
        p.store.users.row r.userId = some user ∧ user.email = r.providerSubject := by
  have hend : (riderJoins.foldlM (Pool.next (AccountCall.script sampleDeps))
      (Pool.init (Db.empty 0))).any (fun p =>
        (p.store.authenticationIdentities.row 1).any (·.provider == .password)) = true := by
    decide +kernel
  obtain ⟨p, hp, hidentity⟩ := (Option.any_eq_true ..).mp hend
  obtain ⟨r, hr, hpassword⟩ := (Option.any_eq_true ..).mp hidentity
  have hprovider : r.provider = .password := eq_of_beq hpassword
  obtain ⟨howned, _⟩ := password_identity_follows (follows_empty 0) (Run.of_foldlM hp)
  obtain ⟨user, huser, hemail⟩ := howned 1 r hr hprovider
  exact ⟨p, Run.of_foldlM hp, r, user, hr, hprovider, huser, hemail⟩

end BikesNest.Auth
