import BikesNest.Auth.Sessions
import BikesNest.Lib.Threads

/-!
# What the calls of the auth service write

`AccountWrites` is what a relation on databases has to survive so that every call of the
auth service moves the database by it: a new account, a confirmed address, a linked
identity, an update of accounts that keeps their addresses, and any statement that writes
neither accounts nor identities.  Each use case then stays within the relation; those that
set a password ask for that statement too.
-/

namespace BikesNest.Auth

open Domain Store Relational

/-- The statements on accounts and identities are moves by `R`.  `Linkable` holds of the
providers whose identities are linked. -/
structure AccountWrites (deps : Deps) (Linkable : AuthenticationProvider → Prop)
    (R : Db → Db → Prop) : Prop where
  other : ∀ {db db'}, db'.users = db.users →
    db'.authenticationIdentities = db.authenticationIdentities → R db db'
  accounts : ∀ {db} {p : Nat → User → Bool} {f : User → User},
    (∀ r, (f r).email = r.email) → R db { db with users := db.users.update p f }
  created : ∀ {db new id db'}, create deps.cases db new = .ok (id, db') → R db db'
  confirmed : ∀ {db id email db'}, confirmEmail deps.cases db id db.now email = .ok ((), db') →
    R db db'
  linked : ∀ {db id provider subject db'}, Linkable provider →
    linkIdentity db id provider subject none = .ok ((), db') → R db db'

variable {deps : Deps} {ports : Ports} {Linkable : AuthenticationProvider → Prop}
  {R : Db → Db → Prop}

section Calls

variable (h : AccountWrites deps Linkable R)

include h

theorem AccountWrites.refl (db : Db) : R db db := h.other rfl rfl

theorem AccountWrites.audit {ε : Type} (internal : ε) (event : NewAuditEvent) :
    (Store.audit internal event).Respects R := by
  refine audit_respects h.refl (fun db db' hrecord => ?_) internal
  obtain ⟨_, _, rfl⟩ := recordAudit_eq_some hrecord
  exact h.other rfl rfl

theorem AccountWrites.read {α : Type} (f : Db → Except AuthError α) :
    (Auth.read f).Respects R := by
  refine .request h.refl fun db a db' hok => ?_
  cases hf : f db with
  | error e =>
    rw [hf] at hok
    cases hok
  | ok x =>
    rw [hf] at hok
    cases hok
    exact h.refl db

theorem AccountWrites.enqueue (msg : EmailMessage) : (Auth.enqueue deps msg).Respects R :=
  .execute _ fun _ => h.other rfl rfl

theorem AccountWrites.create (new : NewAccount) :
    (repo fun db => Auth.create deps.cases db new).Respects R :=
  .request h.refl fun _ _ _ => h.created

theorem AccountWrites.confirmEmail (id : UserId) (email : UserEmail) :
    (repo fun db => Auth.confirmEmail deps.cases db id db.now email).Respects R :=
  .request h.refl fun _ _ _ => h.confirmed

theorem AccountWrites.linkIdentity (id : UserId) {provider : AuthenticationProvider}
    (hlinkable : Linkable provider) (subject : String) :
    (repo fun db => Auth.linkIdentity db id provider subject none).Respects R :=
  .request h.refl fun _ _ _ => h.linked hlinkable

theorem AccountWrites.issueVerification (id : UserId) (email : String) (token : Token) :
    (repo fun db => Auth.issueVerification deps db id email token).Respects R := by
  refine .request h.refl fun db _ db' hok => ?_
  unfold Auth.issueVerification at hok
  dsimp only at hok
  split at hok
  · cases hok
  split at hok
  · cases hok
  cases hok
  exact h.other rfl rfl

theorem AccountWrites.issueReset (id : UserId) (token : Token) (now : Instant) :
    (repo fun db => Auth.issueReset deps db id token now).Respects R := by
  refine .request h.refl fun db _ db' hok => ?_
  unfold Auth.issueReset at hok
  dsimp only at hok
  split at hok
  · cases hok
  split at hok
  · cases hok
  cases hok
  exact h.other rfl rfl

theorem AccountWrites.createSession (id : UserId) (raw csrf : Token) :
    (repo fun db => Auth.createSession deps db id raw csrf).Respects R := by
  refine .request h.refl fun db _ db' hok => ?_
  obtain ⟨-, hmade⟩ := createSession_eq_ok hok
  cases hmade
  exact h.other rfl rfl

/-! ## The use cases -/

theorem register_respects (ip rawEmail : String) (displayName : Option String)
    (rawPassword : String) (locale : LocaleCode) :
    (register deps ports ip rawEmail displayName rawPassword locale).Respects R := by
  refine .bind (.require _ _) fun _ => ?_
  split
  · exact .throw _
  refine .bind (.require _ _) fun _ => .bind (h.read _) fun taken => ?_
  split
  · exact .require _ _
  split
  · exact .throw _
  exact .bind (h.create _) fun userId => .bind (h.issueVerification _ _ _) fun _ =>
    .bind (h.enqueue _) fun _ => h.audit _ _

theorem resendVerification_respects (ip : String) (email : UserEmail) :
    (resendVerification deps ports ip email).Respects R := by
  refine .bind (h.read _) fun found => ?_
  split
  · exact .pure _
  · exact .bind (.require _ _) fun _ => .bind (.require _ _) fun _ =>
      .bind (h.issueVerification _ _ _) fun _ => .bind (h.enqueue _) fun _ => .pure _

theorem verifyEmail_respects (rawToken : String) : (verifyEmail deps rawToken).Respects R := by
  unfold verifyEmail
  split
  · exact .throw _
  refine .bind (.request h.refl fun db _ db' hok => ?_) fun consumed => ?_
  · cases hok
    exact h.other rfl rfl
  split
  · exact .throw _
  refine .bind (h.read _) fun found => ?_
  split
  · exact .throw _
  split
  · exact .throw _
  refine .bind (.mapErr (h.confirmEmail _ _)) fun _ => ?_
  unfold finishVerification
  dsimp only
  split
  · exact .bind (.execute _ fun _ => h.other rfl rfl) fun _ => h.audit _ _
  · exact h.audit _ _

theorem checkPassword_respects (email : UserEmail) (password : String) :
    (checkPassword ports email password).Respects R := by
  refine .bind (.query _ _ h.refl) fun identity => ?_
  split
  · exact .throw _
  · split
    · exact .throw _
    · exact .require _ _

theorem changeEmail_respects (userId : UserId) (currentPassword : String) (newEmail : UserEmail) :
    (changeEmail deps ports userId currentPassword newEmail).Respects R := by
  refine .bind (h.read _) fun found => ?_
  split
  · exact .throw _
  · exact .bind (checkPassword_respects h _ _) fun _ => .bind (h.read _) fun _ =>
      .bind (.require _ _) fun _ => .bind (h.issueVerification _ _ _) fun _ =>
      .bind (h.enqueue _) fun _ => h.audit _ _

theorem signIn_respects (user : LoadedUser) : (signIn deps ports user).Respects R :=
  .bind (.require _ _) fun _ => .bind (h.createSession _ _ _) fun _ =>
    .bind (h.audit _ _) fun _ => .pure _

theorem refuse_respects {α : Type} (key : UserEmail) :
    (refuse key : Service Db AuthError α).Respects R :=
  .bind (h.audit _ _) fun _ => .throw _

theorem login_respects (ip rawEmail rawPassword : String) :
    (login deps ports ip rawEmail rawPassword).Respects R := by
  unfold login
  split
  · exact .throw _
  refine .bind (.require _ _) fun _ => .bind (.require _ _) fun _ =>
    .bind (.query _ _ h.refl) fun found => ?_
  split
  · exact refuse_respects h _
  split
  · exact refuse_respects h _
  unfold loginHash
  split
  · exact .throw _
  · exact refuse_respects h _
  refine .bind (h.read _) fun found => ?_
  split
  · exact refuse_respects h _
  · split
    · exact signIn_respects h _
    · exact refuse_respects h _

theorem requestPasswordReset_respects (ip : String) (email : UserEmail) (now : Instant) :
    (requestPasswordReset deps ports ip email now).Respects R := by
  refine .bind (.require _ _) fun _ => .bind (.require _ _) fun _ =>
    .bind (h.read _) fun found => ?_
  split
  · exact .pure _
  · exact .bind (h.issueReset _ _ _) fun _ => h.enqueue _

theorem replacePassword_respects {userId : UserId}
    (hset : ∀ db hash, R db (setPassword db userId hash)) (rawPassword : String) (keep : Token) :
    (replacePassword deps ports userId rawPassword keep).Respects R := by
  refine .bind (.require _ _) fun _ => ?_
  split
  · exact .throw _
  · exact .bind (.execute _ fun db => hset db _) fun _ =>
      .bind (.execute _ fun _ => h.other rfl rfl) fun _ => h.audit _ _

theorem resetPassword_respects (hset : ∀ db id hash, R db (setPassword db id hash))
    (rawToken rawPassword : String) (now : Instant) :
    (resetPassword deps ports rawToken rawPassword now).Respects R := by
  unfold resetPassword
  split
  · exact .throw _
  refine .bind (.request h.refl fun db _ db' hok => ?_) fun consumed => ?_
  · cases hok
    exact h.other rfl rfl
  split
  · exact .throw _
  · exact replacePassword_respects h (fun db => hset db _) _ _

theorem changePassword_respects (hset : ∀ db id hash, R db (setPassword db id hash))
    (userId : UserId) (current new : String) (currentSession : Token) :
    (changePassword deps ports userId current new currentSession).Respects R := by
  refine .bind (h.read _) fun found => ?_
  split
  · exact .throw _
  · exact .bind (checkPassword_respects h _ _) fun _ =>
      replacePassword_respects h (fun db => hset db _) _ _

theorem newProviderAccount_respects {identity : ProviderIdentity}
    (hlinkable : Linkable identity.provider) :
    (newProviderAccount deps identity).Respects R := by
  refine .bind (h.create _) fun userId => .bind (h.linkIdentity _ hlinkable _) fun _ => ?_
  split
  · refine .bind (.execute _ fun _ => h.accounts fun _ => rfl) fun _ =>
      .bind (h.read _) fun found => ?_
    cases found with
    | none => exact .throw _
    | some user => exact .bind (h.audit _ _) fun _ => .pure _
  · refine .bind (h.read _) fun found => ?_
    cases found with
    | none => exact .throw _
    | some user => exact .bind (h.audit _ _) fun _ => .pure _

theorem oauthCallback_respects {code : String}
    (hlinkable : ∀ identity, ports.exchange code = some identity → Linkable identity.provider) :
    (oauthCallback deps ports code).Respects R := by
  unfold oauthCallback
  split
  · exact .throw _
  rename_i identity hexchange
  have hprovider := hlinkable identity hexchange
  refine .bind (.query _ _ h.refl) fun known => ?_
  split
  · refine .bind (h.read _) fun found => ?_
    split
    · exact .throw _
    · exact signIn_respects h _
  · refine .bind ?_ fun existing => ?_
    · unfold findVerified
      split
      · exact h.read _
      · exact .pure _
    split
    · exact .bind (h.linkIdentity _ hprovider _) fun _ => signIn_respects h _
    · exact .bind (newProviderAccount_respects h hprovider) fun _ => signIn_respects h _

theorem suspendUser_respects (actor : AuthenticatedUser) (target : UserId) :
    (suspendUser deps actor target).Respects R :=
  .bind (.require _ _) fun _ => .bind (.execute _ fun _ => h.accounts fun _ => rfl) fun _ =>
    .bind (.execute _ fun _ => h.other rfl rfl) fun _ => h.audit _ _

theorem restoreUser_respects (actor : AuthenticatedUser) (target : UserId) :
    (restoreUser actor target).Respects R :=
  .bind (.require _ _) fun _ => .bind (.execute _ fun _ => h.accounts fun _ => rfl) fun _ =>
    h.audit _ _

end Calls

end BikesNest.Auth
