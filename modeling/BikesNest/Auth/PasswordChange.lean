import BikesNest.Auth.Sessions
import BikesNest.Lib.Threads

/-!
# A changed password against logins on their way

A login reads the identity, verifies the hash and creates the session in
separate calls, and so do a reset and a change of the password with the new hash
and the revocation of the sessions.  Nothing locks the account between the
calls.

* `created`, `replaced` and `revoked` read from the stores that a thread found how
  far it has come.
* `call_does` says what each call of a thread does to the sessions.
* `sparing` is the condition on a step, `Revoking` the invariant and `ShutsOut` the
  law.
-/

namespace BikesNest.Auth

open Domain Store Relational Threads

/-! ## The threads -/

/-- One operation on the password of an account, with what its ports answer. -/
inductive PasswordOp where
  | login (ports : Ports) (ip rawEmail rawPassword : String)
  | resetPassword (ports : Ports) (rawToken rawPassword : String) (now : Instant)
  | changePassword (ports : Ports) (userId : UserId) (current new : String)
      (currentSession : Token)

/-- The service of an operation. -/
def PasswordOp.script (deps : Deps) : PasswordOp → Service Db AuthError Unit
  | .login ports ip rawEmail rawPassword => do
    let _ ← Auth.login deps ports ip rawEmail rawPassword
    return ()
  | .resetPassword ports rawToken rawPassword now =>
    Auth.resetPassword deps ports rawToken rawPassword now
  | .changePassword ports userId current new currentSession =>
    Auth.changePassword deps ports userId current new currentSession

abbrev PasswordPool := Pool Db AuthError Unit PasswordOp

/-- The stores that one thread found, each with the time of the call. -/
abbrev Found := List (Nat × Db)

/-- The account that a login with a verified password signs in, when its load has
found `db`. -/
def signedIn (deps : Deps) (db : Db) (id : UserId) : Option LoadedUser :=
  (findById deps.cases db id).toOption.join.filter fun user => user.accountState.canLogIn

/-- The account that a login signs in after its look-up has found `db₀` and its
load of the account `db₁`. -/
def verifiedLogin (deps : Deps) (ports : Ports) (rawEmail rawPassword : String)
    (db₀ db₁ : Db) : Option LoadedUser := do
  let email ← (UserEmail.parse deps.cases rawEmail).toOption
  let identity ← findIdentity db₀ .password email
  let hash ← identity.credentialHash
  if ports.hasher.verify rawPassword hash = some true then signedIn deps db₁ identity.userId
  else none

/-- The session that the revocation of the operation keeps. -/
def PasswordOp.keeps : PasswordOp → Token
  | .changePassword _ _ _ _ currentSession => currentSession
  | _ => noSession

/-- When the operation replaced the password of which account. -/
def replaced (deps : Deps) : PasswordOp → Found → Option (Nat × UserId)
  | .resetPassword _ rawToken _ now, (_, db) :: (at', _) :: _ => do
    let token ← decodeToken deps rawToken
    let row ← liveReset deps db token now
    some (at', row.userId)
  | .changePassword _ userId _ _ _, _ :: _ :: (at', _) :: _ => some (at', userId)
  | _, _ => none

/-- The same, while the operation is about to revoke the sessions. -/
def revoking (deps : Deps) : PasswordOp → Found → Option (Nat × UserId)
  | .resetPassword ports rawToken rawPassword now, [x, y] =>
    replaced deps (.resetPassword ports rawToken rawPassword now) [x, y]
  | .changePassword ports userId current new session, [x, y, z] =>
    replaced deps (.changePassword ports userId current new session) [x, y, z]
  | _, _ => none

/-- The same, once the operation has revoked the sessions. -/
def revoked (deps : Deps) : PasswordOp → Found → Option (Nat × UserId)
  | .resetPassword ports rawToken rawPassword now, x :: y :: _ :: _ =>
    replaced deps (.resetPassword ports rawToken rawPassword now) [x, y]
  | .changePassword ports userId current new session, x :: y :: z :: _ :: _ =>
    replaced deps (.changePassword ports userId current new session) [x, y, z]
  | _, _ => none

/-- A session that a login creates, with the time of its look-up. -/
structure Opened where
  looked : Nat
  userId : UserId
  session : Token
  csrf : Token

/-- The session that a login is about to create. -/
def creating (deps : Deps) : PasswordOp → Found → Option Opened
  | .login ports _ rawEmail rawPassword, [(looked, db₀), (_, db₁)] => do
    let user ← verifiedLogin deps ports rawEmail rawPassword db₀ db₁
    some ⟨looked, user.id, ports.generate 0, ports.generate 1⟩
  | _, _ => none

/-- The session that a login has created. -/
def created (deps : Deps) : PasswordOp → Found → Option Opened
  | .login ports ip rawEmail rawPassword, x :: y :: (_, db) :: _ => do
    let opened ← creating deps (.login ports ip rawEmail rawPassword) [x, y]
    let _ ← (createSession deps db opened.userId opened.session opened.csrf).toOption
    some opened
  | _, _ => none

/-! ## What a call does to the sessions -/

variable {deps : Deps} {db db' : Db} {op : PasswordOp} {found : Found} {write : Db → Db}
  {next : Db → Service Db AuthError Unit} {failed : Service Db AuthError Unit}

/-- The call leaves the sessions as they are. -/
abbrev Quiet : Db → Db → Prop := Service.Frame Db.sessions

theorem audit_quiet {ε : Type} (internal : ε) (event : NewAuditEvent) :
    (audit internal event : Service Db ε Unit).Respects Quiet := by
  refine audit_respects (refl_of Quiet) (fun db db' h => ?_) internal
  obtain ⟨_, _, rfl⟩ := recordAudit_eq_some h
  rfl

theorem read_quiet {α : Type} (f : Db → Except AuthError α) : (read f).Respects Quiet := by
  refine Service.Respects.request (fun _ => rfl) fun db a db' h => ?_
  cases hf : f db with
  | error e =>
    rw [hf] at h
    cases h
  | ok x =>
    rw [hf] at h
    cases h
    rfl

theorem refuse_quiet {α : Type} (key : UserEmail) :
    (refuse key : Service Db AuthError α).Respects Quiet :=
  .bind (audit_quiet _ _) fun _ => .throw _

theorem refuse_strict {α : Type} (key : UserEmail) :
    (refuse key : Service Db AuthError α).Strict :=
  .bind (.request _ _) fun _ => .throw _

/-- A call of the rest of a quiet service is quiet. -/
theorem quiet_of_respects {m : Service Db AuthError Unit} (hm : m.Respects Quiet)
    (found : List Db) (h : m.resume found = .call write next failed) :
    ∀ s, (write s).sessions = s.sessions := by
  have hrest := hm.resume found
  rw [h] at hrest
  exact hrest.1

/-- The store after a call that creates a session. -/
def afterCreate (deps : Deps) (opened : Opened) (s : Db) : Db :=
  match createSession deps s opened.userId opened.session opened.csrf with
  | .ok (_, s') => s'
  | .error _ => s

/-- What the next call of a thread does to the sessions. -/
inductive Does (deps : Deps) (op : PasswordOp) (found : Found) (write : Db → Db) : Prop where
  | create {opened : Opened} (hcreating : creating deps op found = some opened)
      (hrevoking : revoking deps op found = none) (hwrite : write = afterCreate deps opened)
  | revoke {at' : Nat} {id : UserId} (hcreating : creating deps op found = none)
      (hrevoking : revoking deps op found = some (at', id))
      (hwrite : write = fun s => revokeAllForUserExcept deps s id op.keeps)
  | quiet (hcreating : creating deps op found = none)
      (hrevoking : revoking deps op found = none)
      (hwrite : ∀ s, (write s).sessions = s.sessions)

/-- The rest of a login after the look-up has found `db₀`. -/
def loginFound (deps : Deps) (ports : Ports) (email : UserEmail) (rawPassword : String)
    (db₀ : Db) : Service Db AuthError LoginOutcome :=
  match findIdentity db₀ .password email with
  | none => refuse email
  | some identity =>
    match identity.credentialHash with
    | none => refuse email
    | some hash => loginHash deps ports email rawPassword hash identity.userId

/-- A login refuses to start, or looks the identity up. -/
theorem login_script (deps : Deps) (ports : Ports) (ip rawEmail rawPassword : String) :
    (∃ e, (PasswordOp.login ports ip rawEmail rawPassword).script deps = Service.throw e) ∨
      ∃ email, UserEmail.parse deps.cases rawEmail = .ok email ∧
        (PasswordOp.login ports ip rawEmail rawPassword).script deps =
          .call id (fun db₀ => do
            let _ ← loginFound deps ports email rawPassword db₀
            return ()) (Service.throw .unavailable) := by
  simp only [PasswordOp.script, login, loginAllowed]
  cases UserEmail.parse deps.cases rawEmail with
  | error e => exact Or.inl ⟨_, rfl⟩
  | ok email =>
    dsimp only
    cases ports.allow ("login:" ++ ip ++ ":" ++ email) 5 (15 * minute) with
    | false => exact Or.inl ⟨_, rfl⟩
    | true =>
      cases ports.allow ("login:ip:" ++ ip) 10 (15 * minute) with
      | false => exact Or.inl ⟨_, rfl⟩
      | true => exact Or.inr ⟨email, rfl, rfl⟩

/-- The rest of a login after the look-up is quiet, or loads the account of an
identity whose hash the password has passed. -/
theorem loginFound_cases (deps : Deps) (ports : Ports) (email : UserEmail)
    (rawPassword : String) (db₀ : Db) :
    (loginFound deps ports email rawPassword db₀).Respects Quiet ∧
        (loginFound deps ports email rawPassword db₀).Strict ∧
        (∀ db₁ rawEmail, UserEmail.parse deps.cases rawEmail = .ok email →
          verifiedLogin deps ports rawEmail rawPassword db₀ db₁ = none) ∨
      ∃ identity : AuthenticationIdentity, loginFound deps ports email rawPassword db₀ =
          loginVerified deps ports email identity.userId ∧
        ∀ db₁ rawEmail, UserEmail.parse deps.cases rawEmail = .ok email →
          verifiedLogin deps ports rawEmail rawPassword db₀ db₁ =
            signedIn deps db₁ identity.userId := by
  unfold loginFound
  cases hidentity : findIdentity db₀ .password email with
  | none => exact Or.inl ⟨refuse_quiet _, refuse_strict _, fun db₁ rawEmail hparse => by
      simp [verifiedLogin, hparse, hidentity, Except.toOption]⟩
  | some identity =>
    dsimp only
    cases hhash : identity.credentialHash with
    | none => exact Or.inl ⟨refuse_quiet _, refuse_strict _, fun db₁ rawEmail hparse => by
        simp [verifiedLogin, hparse, hidentity, hhash, Except.toOption]⟩
    | some hash =>
      simp only [loginHash]
      cases hverify : ports.hasher.verify rawPassword hash with
      | none => exact Or.inl ⟨.throw _, .throw _, fun db₁ rawEmail hparse => by
          simp [verifiedLogin, hparse, hidentity, hhash, hverify, Except.toOption]⟩
      | some verified =>
        cases verified with
        | false => exact Or.inl ⟨refuse_quiet _, refuse_strict _, fun db₁ rawEmail hparse => by
            simp [verifiedLogin, hparse, hidentity, hhash, hverify, Except.toOption]⟩
        | true =>
          refine Or.inr ⟨identity, rfl, fun db₁ rawEmail hparse => ?_⟩
          simp [verifiedLogin, hparse, hidentity, hhash, hverify, Except.toOption]

/-- The rest of a sequence whose first call has read `s`. -/
theorem resume_read {α β : Type} (f : Db → Except AuthError α)
    (k : α → Service Db AuthError β) (s : Db) (found : List Db) :
    (read f >>= k).resume (s :: found) =
      match f s with
      | .ok a => (k a).resume found
      | .error e => Service.throw e := by
  unfold read repo
  rw [Service.resume_request]
  cases f s <;> rfl

/-- A user who can log in gets a session and an audit event. -/
theorem signIn_of_canLogIn {ports : Ports} {user : LoadedUser}
    (h : user.accountState.canLogIn = true) :
    signIn deps ports user = (do
      repo fun db => createSession deps db user.id (ports.generate 0) (ports.generate 1)
      audit .internal (succeeded user.id "auth.login" user.id)
      return ⟨ports.generate 0, ports.generate 1, fromUser user⟩) := by
  rw [signIn, h]
  rfl

theorem refused_quiet (email : UserEmail) : (do
    let _ ← (refuse email : Service Db AuthError LoginOutcome)
    return () : Service Db AuthError Unit).Respects Quiet :=
  .bind (refuse_quiet email) fun _ => .pure ()

/-- The calls of a login whose password has been verified. -/
theorem loginVerified_call {ports : Ports} {email : UserEmail} {userId : UserId}
    {found : List Db}
    (h : (do
      let _ ← loginVerified deps ports email userId
      return () : Service Db AuthError Unit).resume found = .call write next failed) :
    (∀ s, (write s).sessions = s.sessions) ∧
        (∀ db₁, found = [db₁] → signedIn deps db₁ userId = none) ∨
      ∃ db₁ user, found = [db₁] ∧
        signedIn deps db₁ userId = some user ∧
        ∀ looked, write =
          afterCreate deps ⟨looked, user.id, ports.generate 0, ports.generate 1⟩ := by
  cases found with
  | nil =>
    have hread := (read_quiet fun db => findById deps.cases db userId).resume []
    refine Or.inl ⟨?_, fun db₁ hfound => by cases hfound⟩
    cases h
    exact hread.1
  | cons db₁ found =>
    rw [loginVerified, Service.bind_assoc, resume_read] at h
    cases hfind : findById deps.cases db₁ userId with
    | error e =>
      rw [hfind] at h
      cases h
    | ok loaded =>
      rw [hfind] at h
      cases loaded with
      | none =>
        refine Or.inl ⟨quiet_of_respects (refused_quiet email) _ h, fun db₂ hfound => ?_⟩
        cases hfound
        rw [signedIn, hfind]
        rfl
      | some user =>
        dsimp only at h
        by_cases hlogin : user.accountState.canLogIn = true
        · rw [if_pos hlogin, signIn_of_canLogIn hlogin, Service.bind_assoc] at h
          cases found with
          | nil =>
            refine Or.inr ⟨db₁, user, rfl, ?_, fun looked => ?_⟩
            · simp [signedIn, hfind, Except.toOption, Option.filter_some, hlogin]
            · cases h
              funext s
              dsimp only [afterCreate]
              cases createSession deps s user.id (ports.generate 0) (ports.generate 1) <;> rfl
          | cons db₂ found =>
            refine Or.inl ⟨?_, fun db₃ hfound => by cases hfound⟩
            rw [repo, Service.resume_request] at h
            split at h
            · have hrest : (do
                  audit .internal (succeeded user.id "auth.login" user.id)
                  return ⟨ports.generate 0, ports.generate 1, fromUser user⟩ :
                    Service Db AuthError LoginOutcome).Respects Quiet :=
                (audit_quiet _ _).bind fun _ => .pure _
              exact quiet_of_respects (hrest.bind fun _ => .pure _) _ h
            · cases h
        · rw [if_neg hlogin] at h
          refine Or.inl ⟨quiet_of_respects (refused_quiet email) _ h, fun db₂ hfound => ?_⟩
          cases hfound
          simp [signedIn, hfind, Except.toOption, Option.filter_some, hlogin]

theorem login_does {ports : Ports} {ip rawEmail rawPassword : String}
    (h : ((PasswordOp.login ports ip rawEmail rawPassword).script deps).resume
      (found.map Prod.snd) = .call write next failed) :
    Does deps (.login ports ip rawEmail rawPassword) found write := by
  rcases login_script deps ports ip rawEmail rawPassword with ⟨e, hthrow⟩ | ⟨email, hparse, hscript⟩
  · rw [hthrow, Service.throw, Service.resume_done] at h
    cases h
  rw [hscript] at h
  cases found with
  | nil =>
    cases h
    exact .quiet rfl rfl fun _ => rfl
  | cons x found =>
    rw [List.map_cons, Service.resume_call_cons] at h
    rcases loginFound_cases deps ports email rawPassword x.2 with
      ⟨hquiet, _, hnone⟩ | ⟨identity, hfound, hverified⟩
    · refine .quiet ?_ rfl (quiet_of_respects (hquiet.bind fun _ => .pure _) _ h)
      rcases found with _ | ⟨y, _ | ⟨z, found⟩⟩
      · rfl
      · simp [creating, hnone y.2 rawEmail hparse]
      · rfl
    · rw [hfound] at h
      rcases loginVerified_call h with ⟨hquiet, hnone⟩ | ⟨db₁, user, hlist, hsigned, hwrite⟩
      · refine .quiet ?_ rfl hquiet
        rcases found with _ | ⟨y, _ | ⟨z, found⟩⟩
        · rfl
        · simp [creating, hverified y.2 rawEmail hparse, hnone y.2 rfl]
        · rfl
      · rcases found with _ | ⟨y, _ | ⟨z, found⟩⟩
        · cases hlist
        · cases hlist
          refine .create ?_ rfl (hwrite x.1)
          simp [creating, hverified y.2 rawEmail hparse, hsigned]
        · cases hlist

/-- A password is refused, or replaced in three calls. -/
theorem replacePassword_cases (deps : Deps) (ports : Ports) (userId : UserId)
    (rawPassword : String) (keep : Token) :
    (∃ e, replacePassword deps ports userId rawPassword keep = Service.throw e) ∨
      ∃ hash, replacePassword deps ports userId rawPassword keep = (do
        Service.execute .unavailable fun db => setPassword db userId hash
        Service.execute .unavailable fun db => revokeAllForUserExcept deps db userId keep
        audit .internal (succeeded userId "auth.password_changed" userId)) := by
  unfold replacePassword validatePassword
  cases hlong : decide (8 ≤ rawPassword.length) with
  | false => exact Or.inl ⟨_, rfl⟩
  | true =>
    cases hhash : ports.hasher.hash rawPassword with
    | none => exact Or.inl ⟨_, rfl⟩
    | some hash => exact Or.inr ⟨hash, rfl⟩

/-- The second call of a replacement revokes the sessions, and the others leave them
alone. -/
theorem replacePassword_call {ports : Ports} {userId : UserId} {rawPassword : String}
    {keep : Token} {found : List Db}
    (h : (replacePassword deps ports userId rawPassword keep).resume found =
      .call write next failed) :
    (∀ s, (write s).sessions = s.sessions) ∧ found.length ≠ 1 ∨
      found.length = 1 ∧ write = fun s => revokeAllForUserExcept deps s userId keep := by
  rcases replacePassword_cases deps ports userId rawPassword keep with
    ⟨e, hthrow⟩ | ⟨hash, hcalls⟩
  · rw [hthrow, Service.throw, Service.resume_done] at h
    cases h
  · rw [hcalls] at h
    rcases found with _ | ⟨x, _ | ⟨y, found⟩⟩
    · cases h
      exact Or.inl ⟨fun s => rfl, by simp⟩
    · cases h
      exact Or.inr ⟨rfl, rfl⟩
    · exact Or.inl ⟨quiet_of_respects (audit_quiet _ _) found h, by simp⟩

/-- A replacement that has succeeded has made its second call. -/
theorem replacePassword_done {ports : Ports} {userId : UserId} {rawPassword : String}
    {keep : Token} {found : List Db}
    (h : (replacePassword deps ports userId rawPassword keep).resume found = .done (.ok ())) :
    2 ≤ found.length := by
  rcases replacePassword_cases deps ports userId rawPassword keep with
    ⟨e, hthrow⟩ | ⟨hash, hcalls⟩
  · rw [hthrow, Service.throw, Service.resume_done] at h
    cases h
  · rw [hcalls] at h
    rcases found with _ | ⟨x, _ | ⟨y, found⟩⟩
    · cases h
    · cases h
    · simp

/-- The rest of a reset after its first call has found `db`. -/
theorem reset_resume {ports : Ports} {rawToken rawPassword : String} {now : Instant}
    {found : List Db} :
    ((PasswordOp.resetPassword ports rawToken rawPassword now).script deps).resume
        (db :: found) =
      match decodeToken deps rawToken with
      | none => Service.throw .tokenInvalid
      | some token =>
        match liveReset deps db token now with
        | none => Service.throw .tokenInvalid
        | some row =>
          (replacePassword deps ports row.userId rawPassword noSession).resume found := by
  simp only [PasswordOp.script, resetPassword]
  cases decodeToken deps rawToken with
  | none => rfl
  | some token =>
    dsimp only
    rw [repo, Service.resume_request]
    simp only [consumeReset]
    cases liveReset deps db token now with
    | none => exact Service.resume_done ..
    | some row => rfl

theorem reset_does {ports : Ports} {rawToken rawPassword : String} {now : Instant}
    (h : ((PasswordOp.resetPassword ports rawToken rawPassword now).script deps).resume
      (found.map Prod.snd) = .call write next failed) :
    Does deps (.resetPassword ports rawToken rawPassword now) found write := by
  cases found with
  | nil =>
    refine .quiet rfl rfl ?_
    simp only [PasswordOp.script, resetPassword] at h
    cases htoken : decodeToken deps rawToken with
    | none =>
      rw [htoken] at h
      cases h
    | some token =>
      rw [htoken] at h
      cases h
      exact fun s => rfl
  | cons x found =>
    rw [List.map_cons, reset_resume] at h
    cases htoken : decodeToken deps rawToken with
    | none =>
      rw [htoken] at h
      cases h
    | some token =>
      cases hlive : liveReset deps x.2 token now with
      | none =>
        simp only [htoken, hlive] at h
        cases h
      | some row =>
        simp only [htoken, hlive] at h
        rcases replacePassword_call h with ⟨hquiet, hlength⟩ | ⟨hlength, hwrite⟩
        · refine .quiet rfl ?_ hquiet
          rcases found with _ | ⟨y, _ | ⟨z, found⟩⟩
          · rfl
          · simp at hlength
          · rfl
        · rcases found with _ | ⟨y, _ | ⟨z, found⟩⟩
          · simp at hlength
          · have hrevoking : revoking deps (.resetPassword ports rawToken rawPassword now) [x, y] =
                some (y.1, row.userId) := by simp [revoking, replaced, htoken, hlive]
            exact .revoke rfl hrevoking hwrite
          · simp at hlength

/-- The rest of a change after its first two calls. -/
theorem change_resume (deps : Deps) (ports : Ports) (userId : UserId) (current new : String)
    (currentSession : Token) (db₀ db₁ : Db) (found : List Db) :
    (∃ e, ((PasswordOp.changePassword ports userId current new currentSession).script
        deps).resume (db₀ :: db₁ :: found) = Service.throw e) ∨
      ((PasswordOp.changePassword ports userId current new currentSession).script
          deps).resume (db₀ :: db₁ :: found) =
        (replacePassword deps ports userId new currentSession).resume found := by
  simp only [PasswordOp.script, changePassword]
  rw [resume_read]
  cases findById deps.cases db₀ userId with
  | error e => exact Or.inl ⟨e, rfl⟩
  | ok loaded =>
    cases loaded with
    | none => exact Or.inl ⟨_, rfl⟩
    | some user =>
      dsimp only [checkPassword]
      rw [Service.bind_assoc, Service.resume_query]
      cases (findIdentity db₁ .password user.email).bind
        AuthenticationIdentity.credentialHash with
      | none => exact Or.inl ⟨_, Service.resume_done ..⟩
      | some hash =>
        dsimp only
        cases ports.hasher.verify current hash with
        | none => exact Or.inl ⟨_, Service.resume_done ..⟩
        | some verified =>
          cases verified with
          | false => exact Or.inl ⟨_, Service.resume_done ..⟩
          | true => exact Or.inr rfl

/-- The first two calls of a change only read. -/
theorem change_reads (ports : Ports) (userId : UserId) (current new : String)
    (currentSession : Token) {found : List Db} (hlength : found.length < 2)
    (h : ((PasswordOp.changePassword ports userId current new currentSession).script
      deps).resume found = .call write next failed) : ∀ s, (write s).sessions = s.sessions := by
  rcases found with _ | ⟨db₀, _ | ⟨db₁, found⟩⟩
  · have hread := (read_quiet fun db => findById deps.cases db userId).resume []
    cases h
    exact hread.1
  · simp only [PasswordOp.script, changePassword] at h
    rw [resume_read] at h
    cases hfind : findById deps.cases db₀ userId with
    | error e =>
      rw [hfind] at h
      cases h
    | ok loaded =>
      rw [hfind] at h
      cases loaded with
      | none => cases h
      | some user =>
        dsimp only [checkPassword] at h
        rw [Service.bind_assoc] at h
        cases h
        exact fun s => rfl
  · simp only [List.length_cons] at hlength
    omega

theorem change_does {ports : Ports} {userId : UserId} {current new : String}
    {currentSession : Token}
    (h : ((PasswordOp.changePassword ports userId current new currentSession).script
      deps).resume (found.map Prod.snd) = .call write next failed) :
    Does deps (.changePassword ports userId current new currentSession) found write := by
  rcases found with _ | ⟨x, _ | ⟨y, found⟩⟩
  · exact .quiet rfl rfl (change_reads ports userId current new currentSession (by simp) h)
  · exact .quiet rfl rfl (change_reads ports userId current new currentSession (by simp) h)
  · simp only [List.map_cons] at h
    rcases change_resume deps ports userId current new currentSession x.2 y.2
      (found.map Prod.snd) with ⟨e, hthrow⟩ | hreplace
    · rw [hthrow] at h
      cases h
    · rw [hreplace] at h
      rcases replacePassword_call h with ⟨hquiet, hlength⟩ | ⟨hlength, hwrite⟩
      · refine .quiet rfl ?_ hquiet
        rcases found with _ | ⟨z, _ | ⟨t, found⟩⟩
        · rfl
        · simp at hlength
        · rfl
      · rcases found with _ | ⟨z, _ | ⟨t, found⟩⟩
        · simp at hlength
        · exact .revoke rfl rfl hwrite
        · simp at hlength

/-- What every call of a thread does to the sessions. -/
theorem call_does (h : (op.script deps).resume (found.map Prod.snd) =
    .call write next failed) : Does deps op found write := by
  cases op with
  | login ports ip rawEmail rawPassword => exact login_does h
  | resetPassword ports rawToken rawPassword now => exact reset_does h
  | changePassword ports userId current new currentSession => exact change_does h

/-! ## How far a thread has come -/

theorem created_snoc {x : Nat × Db} {opened : Opened}
    (h : created deps op (found ++ [x]) = some opened) :
    created deps op found = some opened ∨
      creating deps op found = some opened ∧
        ∃ s', createSession deps x.2 opened.userId opened.session opened.csrf = .ok ((), s') := by
  cases op with
  | resetPassword => cases h
  | changePassword => cases h
  | login ports ip rawEmail rawPassword =>
    rcases found with _ | ⟨y, _ | ⟨z, _ | ⟨t, found⟩⟩⟩
    · cases h
    · cases h
    · refine Or.inr ?_
      obtain ⟨n, s⟩ := x
      simp only [created, List.cons_append, List.nil_append, Option.bind_eq_bind,
        Option.bind_eq_some_iff] at h
      obtain ⟨opened', hcreating, _, hok, heq⟩ := h
      cases heq
      refine ⟨hcreating, ?_⟩
      cases hcreate : createSession deps s opened.userId opened.session opened.csrf with
      | error e =>
        rw [hcreate] at hok
        cases hok
      | ok made => exact ⟨made.2, rfl⟩
    · exact Or.inl h

theorem revoked_snoc {x : Nat × Db} {v : Nat × UserId}
    (h : revoked deps op (found ++ [x]) = some v) :
    revoked deps op found = some v ∨ revoking deps op found = some v := by
  cases op with
  | login => cases h
  | resetPassword =>
    rcases found with _ | ⟨y, _ | ⟨z, _ | ⟨t, found⟩⟩⟩
    · cases h
    · cases h
    · exact Or.inr h
    · exact Or.inl h
  | changePassword =>
    rcases found with _ | ⟨y, _ | ⟨z, _ | ⟨t, _ | ⟨u, found⟩⟩⟩⟩
    · cases h
    · cases h
    · cases h
    · exact Or.inr h
    · exact Or.inl h

/-- An operation that has succeeded in replacing a password has revoked the sessions. -/
theorem revoked_of_done {v : Nat × UserId} (hreplaced : replaced deps op found = some v)
    (h : (op.script deps).resume (found.map Prod.snd) = .done (.ok ())) :
    revoked deps op found = some v := by
  cases op with
  | login => cases hreplaced
  | resetPassword ports rawToken rawPassword now =>
    rcases found with _ | ⟨x, _ | ⟨y, found⟩⟩
    · cases hreplaced
    · cases hreplaced
    · rw [List.map_cons, reset_resume] at h
      cases htoken : decodeToken deps rawToken with
      | none =>
        rw [htoken] at h
        cases h
      | some token =>
        cases hlive : liveReset deps x.2 token now with
        | none =>
          simp only [htoken, hlive] at h
          cases h
        | some row =>
          simp only [htoken, hlive] at h
          have hlength := replacePassword_done h
          rcases found with _ | ⟨z, found⟩
          · simp at hlength
          · exact hreplaced
  | changePassword ports userId current new currentSession =>
    rcases found with _ | ⟨x, _ | ⟨y, _ | ⟨z, found⟩⟩⟩
    · cases hreplaced
    · cases hreplaced
    · cases hreplaced
    · simp only [List.map_cons] at h
      rcases change_resume deps ports userId current new currentSession x.2 y.2
        ((z :: found).map Prod.snd) with ⟨e, hthrow⟩ | hreplace
      · rw [List.map_cons] at hthrow
        rw [hthrow] at h
        cases h
      · rw [List.map_cons] at hreplace
        rw [hreplace] at h
        have hlength := replacePassword_done h
        rcases found with _ | ⟨t, found⟩
        · simp at hlength
        · exact hreplaced

/-! ## The condition and the law -/

/-- The session was opened for the account, by a login that had looked the hash up
before it was replaced. -/
def Opened.isOld (opened : Opened) (at' : Nat) (id : UserId) : Bool :=
  opened.userId == id && decide (opened.looked < at')

/-- A call of thread `i` creates no session with a hash whose replacement has
revoked the sessions already, and not the session that stands for none. -/
def sparesRevoked (deps : Deps) (h : History PasswordOp Db) (i : Nat) : Bool :=
  match h[i]?.bind fun t => creating deps t.1 t.2 with
  | none => true
  | some opened =>
    deps.sha256Hex opened.session.bytes != deps.sha256Hex noSession.bytes &&
      h.all fun t => (revoked deps t.1 t.2).all fun x => !opened.isOld x.1 x.2

/-- The condition on a step. -/
def sparing (deps : Deps) (p : PasswordPool) (e : Event PasswordOp) : Bool :=
  e.calls.all fun i => sparesRevoked deps p.history i

/-- The session that makes the change. -/
def PasswordOp.isCaller (deps : Deps) : PasswordOp → Token → Bool
  | .changePassword _ _ _ _ currentSession, raw =>
    deps.sha256Hex raw.bytes == deps.sha256Hex currentSession.bytes
  | _, _ => false

/-- Once a reset or a change has succeeded, no session is accepted that a login has
opened with the password from before, except the one that made the change. -/
def ShutsOut (deps : Deps) (p : PasswordPool) : Prop :=
  ∀ t ∈ p.threads, t.rest = .done (.ok ()) →
    ∀ at' id, replaced deps t.op t.found = some (at', id) →
      ∀ l ∈ p.threads, ∀ opened, created deps l.op l.found = some opened →
        opened.isOld at' id = true → t.op.isCaller deps opened.session = false →
          ∀ now, ((resolve deps opened.session now).run p.store).1 = .ok none

/-! ## The invariant -/

/-- A thread has created the session. -/
def Made (deps : Deps) (h : History PasswordOp Db) (opened : Opened) : Prop :=
  ∃ t ∈ h, created deps t.1 t.2 = some opened

/-- A thread has replaced the password of `id` at `at'` and revoked every session
but `keep`. -/
def Revoked (deps : Deps) (h : History PasswordOp Db) (at' : Nat) (id : UserId)
    (keep : Token) : Prop :=
  ∃ t ∈ h, revoked deps t.1 t.2 = some (at', id) ∧ t.1.keeps = keep

/-- The rows of a raw session id satisfy `P`. -/
def Rows (deps : Deps) (db : Db) (raw : Token) (P : Session → Prop) : Prop :=
  db.sessions.All fun r => r.tokenHash = deps.sha256Hex raw.bytes → P r

/-- What holds in every run whose steps spare the revoked. -/
structure Revoking (deps : Deps) (db : Db) (h : History PasswordOp Db) : Prop where
  named : ∀ opened, Made deps h opened →
    deps.sha256Hex opened.session.bytes ≠ deps.sha256Hex noSession.bytes
  present : ∀ opened, Made deps h opened →
    ∃ i r, db.sessions.row i = some r ∧ r.tokenHash = deps.sha256Hex opened.session.bytes
  owned : ∀ opened, Made deps h opened →
    Rows deps db opened.session fun r => r.userId = opened.userId
  dead : ∀ opened, Made deps h opened → ∀ at' id keep, Revoked deps h at' id keep →
    opened.isOld at' id = true →
      deps.sha256Hex opened.session.bytes ≠ deps.sha256Hex keep.bytes →
        Rows deps db opened.session fun r => r.revokedAt.isSome = true

variable {h : History PasswordOp Db} {i : Nat} {x : Nat × Db} {opened : Opened} {at' : Nat}
  {id : UserId} {keep : Token}

theorem made_set (hi : h[i]? = some (op, found))
    (hmade : Made deps (h.set i (op, found ++ [x])) opened) :
    Made deps h opened ∨ creating deps op found = some opened ∧
      ∃ s', createSession deps x.2 opened.userId opened.session opened.csrf = .ok ((), s') := by
  obtain ⟨t, hmem, hcreated⟩ := hmade
  rcases List.mem_or_eq_of_mem_set hmem with hold | rfl
  · exact Or.inl ⟨t, hold, hcreated⟩
  · rcases created_snoc hcreated with hcreated | hcreating
    · exact Or.inl ⟨_, List.mem_of_getElem? hi, hcreated⟩
    · exact Or.inr hcreating

/-- A call that creates no session makes none. -/
theorem made_of_not_creating (hi : h[i]? = some (op, found))
    (hcreating : creating deps op found = none)
    (hmade : Made deps (h.set i (op, found ++ [x])) opened) : Made deps h opened := by
  rcases made_set hi hmade with hold | ⟨hnew, _⟩
  · exact hold
  · rw [hcreating] at hnew
    cases hnew

theorem revoked_set (hi : h[i]? = some (op, found))
    (hrevoked : Revoked deps (h.set i (op, found ++ [x])) at' id keep) :
    Revoked deps h at' id keep ∨
      revoking deps op found = some (at', id) ∧ op.keeps = keep := by
  obtain ⟨t, hmem, hrevoked, hkeep⟩ := hrevoked
  rcases List.mem_or_eq_of_mem_set hmem with hold | rfl
  · exact Or.inl ⟨t, hold, hrevoked, hkeep⟩
  · rcases revoked_snoc hrevoked with hrevoked | hrevoking
    · exact Or.inl ⟨_, List.mem_of_getElem? hi, hrevoked, hkeep⟩
    · exact Or.inr ⟨hrevoking, hkeep⟩

/-- A start adds a thread that has done nothing. -/
theorem made_start (hmade : Made deps (h ++ [(op, [])]) opened) : Made deps h opened := by
  obtain ⟨t, hmem, hcreated⟩ := hmade
  rcases List.mem_append.mp hmem with hold | hnew
  · exact ⟨t, hold, hcreated⟩
  · rw [List.mem_singleton.mp hnew] at hcreated
    cases op <;> cases hcreated

theorem revoked_start (hrevoked : Revoked deps (h ++ [(op, [])]) at' id keep) :
    Revoked deps h at' id keep := by
  obtain ⟨t, hmem, hrevoked, hkeep⟩ := hrevoked
  rcases List.mem_append.mp hmem with hold | hnew
  · exact ⟨t, hold, hrevoked, hkeep⟩
  · rw [List.mem_singleton.mp hnew] at hrevoked
    cases op <;> cases hrevoked

/-- A call that leaves the sessions alone. -/
theorem Revoking.quiet (hinv : Revoking deps db h) (hi : h[i]? = some (op, found))
    (hcreating : creating deps op found = none) (hrevoking : revoking deps op found = none)
    (hsessions : db'.sessions = db.sessions) :
    Revoking deps db' (h.set i (op, found ++ [x])) := by
  have hmade : ∀ opened, Made deps (h.set i (op, found ++ [x])) opened →
      Made deps h opened :=
    fun opened hmade => made_of_not_creating hi hcreating hmade
  constructor
  · intro opened hm
    exact hinv.named opened (hmade opened hm)
  · intro opened hm
    rw [hsessions]
    exact hinv.present opened (hmade opened hm)
  · intro opened hm
    unfold Rows
    rw [hsessions]
    exact hinv.owned opened (hmade opened hm)
  · intro opened hm at' id keep hrevoked
    unfold Rows
    rw [hsessions]
    rcases revoked_set hi hrevoked with hold | ⟨hnew, _⟩
    · exact hinv.dead opened (hmade opened hm) at' id keep hold
    · rw [hrevoking] at hnew
      cases hnew

/-- A revocation. -/
theorem Revoking.revoke (hinv : Revoking deps db h) (hi : h[i]? = some (op, found))
    (hcreating : creating deps op found = none)
    (hrevoking : revoking deps op found = some (at', id)) :
    Revoking deps (revokeAllForUserExcept deps db id op.keeps)
      (h.set i (op, found ++ [x])) := by
  have hmade : ∀ opened, Made deps (h.set i (op, found ++ [x])) opened →
      Made deps h opened :=
    fun opened hmade => made_of_not_creating hi hcreating hmade
  constructor
  · intro opened hm
    exact hinv.named opened (hmade opened hm)
  · intro opened hm
    obtain ⟨j, r, hrow, hhash⟩ := hinv.present opened (hmade opened hm)
    refine ⟨j, _, Table.row_update_eq_some.mpr ⟨r, hrow, rfl⟩, ?_⟩
    split
    · exact hhash
    · exact hhash
  · intro opened hm
    exact (hinv.owned opened (hmade opened hm)).update fun j r hr _ => hr
  · intro opened hm at₁ id₁ keep hrevoked hold hkeep
    rcases revoked_set hi hrevoked with hbefore | ⟨hnow, hkeeps⟩
    · exact (hinv.dead opened (hmade opened hm) at₁ id₁ keep hbefore hold hkeep).update
        fun j r _ _ _ => rfl
    · rw [hrevoking] at hnow
      cases hnow
      intro j r hrow hhash
      obtain ⟨r, hr, rfl⟩ := Table.row_update_eq_some.mp hrow
      split
      · rfl
      · rename_i hskip
        rw [if_neg hskip] at hhash
        have huser := hinv.owned opened (hmade opened hm) j r hr hhash
        simp only [Opened.isOld, Bool.and_eq_true, beq_iff_eq] at hold
        rw [← hkeeps] at hkeep
        simp only [huser, hold.1, hhash, Bool.and_eq_true, beq_iff_eq, bne_iff_ne, ne_eq,
          true_and, not_and] at hskip
        cases hrevoked : r.revokedAt with
        | none => exact absurd hrevoked (by simpa using hskip hkeep)
        | some at₂ => rfl

/-- A session is created as a row with a hash of its own. -/
theorem createSession_ok {raw csrf : Token} {made : Unit × Db}
    (h : createSession deps db id raw csrf = .ok made) :
    (∀ j x, db.sessions.row j = some x → x.tokenHash ≠ deps.sha256Hex raw.bytes) ∧
      ∃ r, made.2.sessions = db.sessions.insert r ∧
        r.tokenHash = deps.sha256Hex raw.bytes ∧ r.userId = id := by
  obtain ⟨hfree, rfl⟩ := createSession_eq_ok h
  exact ⟨hfree, _, rfl, rfl, rfl⟩

/-- A created session leaves the rows of every other session as they are. -/
theorem Rows.insert {P : Session → Prop} {raw : Token} {r : Session}
    (hrows : Rows deps db raw P) (hsessions : db'.sessions = db.sessions.insert r)
    (hr : r.tokenHash = deps.sha256Hex raw.bytes → P r) : Rows deps db' raw P := by
  unfold Rows
  rw [hsessions]
  exact Table.All.insert hrows hr

/-- A login that creates its session. -/
theorem Revoking.create (hinv : Revoking deps db h) (hi : h[i]? = some (op, found))
    (hspares : sparesRevoked deps h i = true)
    (hcreating : creating deps op found = some opened)
    (hrevoking : revoking deps op found = none) {n : Nat} :
    Revoking deps (afterCreate deps opened db) (h.set i (op, found ++ [(n, db)])) := by
  rw [sparesRevoked, hi] at hspares
  simp only [Option.bind_some, hcreating, Bool.and_eq_true, bne_iff_ne, ne_eq,
    List.all_eq_true] at hspares
  have hrevoked : ∀ {at' id keep}, Revoked deps (h.set i (op, found ++ [(n, db)])) at' id keep →
      Revoked deps h at' id keep := by
    intro at' id keep hrevoked
    rcases revoked_set hi hrevoked with hold | ⟨hnew, _⟩
    · exact hold
    · rw [hrevoking] at hnew
      cases hnew
  cases hcreate : createSession deps db opened.userId opened.session opened.csrf with
  | error e =>
    have hsame : afterCreate deps opened db = db := by rw [afterCreate, hcreate]
    rw [hsame]
    have hmade : ∀ {opened'}, Made deps (h.set i (op, found ++ [(n, db)])) opened' →
        Made deps h opened' := by
      intro opened' hmade
      rcases made_set hi hmade with hold | ⟨hnew, s', hok⟩
      · exact hold
      · rw [hcreating] at hnew
        cases hnew
        rw [hcreate] at hok
        cases hok
    exact ⟨fun opened' hm => hinv.named opened' (hmade hm),
      fun opened' hm => hinv.present opened' (hmade hm),
      fun opened' hm => hinv.owned opened' (hmade hm),
      fun opened' hm at' id keep hrev => hinv.dead opened' (hmade hm) at' id keep (hrevoked hrev)⟩
  | ok made =>
    -- the new row has a hash of its own, so it is no row of an earlier session
    obtain ⟨hfresh, r, hinsert, hhash, huser⟩ := createSession_ok hcreate
    have hsessions : (afterCreate deps opened db).sessions = db.sessions.insert r := by
      rw [afterCreate, hcreate]
      exact hinsert
    have hother : ∀ {opened'}, Made deps h opened' →
        r.tokenHash ≠ deps.sha256Hex opened'.session.bytes := by
      intro opened' hmade heq
      obtain ⟨j, y, hy, hyhash⟩ := hinv.present opened' hmade
      exact hfresh j y hy (by rw [hyhash, ← heq, hhash])
    have hnone : ∀ {P : Session → Prop}, Rows deps db opened.session P :=
      fun j y hy hyhash => absurd hyhash (hfresh j y hy)
    constructor
    · intro opened' hmade
      rcases made_set hi hmade with hold | ⟨hnew, _⟩
      · exact hinv.named opened' hold
      · rw [hcreating] at hnew
        cases hnew
        exact hspares.1
    · intro opened' hmade
      rw [hsessions]
      rcases made_set hi hmade with hold | ⟨hnew, _⟩
      · obtain ⟨j, y, hy, hyhash⟩ := hinv.present opened' hold
        exact ⟨j, y, Table.row_insert_of_some r hy, hyhash⟩
      · rw [hcreating] at hnew
        cases hnew
        exact ⟨_, r, Table.row_insert_next .., hhash⟩
    · intro opened' hmade
      rcases made_set hi hmade with hold | ⟨hnew, _⟩
      · exact (hinv.owned opened' hold).insert hsessions fun heq =>
          absurd heq (hother hold)
      · rw [hcreating] at hnew
        cases hnew
        exact hnone.insert hsessions fun _ => huser
    · intro opened' hmade at' id keep hrev hold hkeep
      rcases made_set hi hmade with hbefore | ⟨hnew, _⟩
      · exact (hinv.dead opened' hbefore at' id keep (hrevoked hrev) hold hkeep).insert
          hsessions fun heq => absurd heq (hother hbefore)
      · rw [hcreating] at hnew
        cases hnew
        obtain ⟨t, hmem, ht, _⟩ := hrevoked hrev
        have hspared := hspares.2 t hmem
        rw [ht] at hspared
        simp [hold] at hspared

theorem revoking_init (deps : Deps) (db : Db) : Revoking deps db [] := by
  have hnone : ∀ opened, ¬ Made deps [] opened := by
    rintro opened ⟨t, hmem, _⟩
    cases hmem
  constructor
  · exact fun opened hmade => absurd hmade (hnone opened)
  · exact fun opened hmade => absurd hmade (hnone opened)
  · exact fun opened hmade => absurd hmade (hnone opened)
  · exact fun opened hmade => absurd hmade (hnone opened)

/-- Every call that spares the revoked keeps the invariant, and so does every start. -/
theorem revoking_keeps (deps : Deps) :
    Keeps (PasswordOp.script deps) (fun h i => sparesRevoked deps h i = true)
      (fun _ db h => Revoking deps db h) where
  start op hinv :=
    ⟨fun opened hm => hinv.named opened (made_start hm),
      fun opened hm => hinv.present opened (made_start hm),
      fun opened hm => hinv.owned opened (made_start hm),
      fun opened hm at' id keep hrev =>
        hinv.dead opened (made_start hm) at' id keep (revoked_start hrev)⟩
  idle hinv := hinv
  call := by
    intro n s h i op found write next failed hinv hspares hi hcall
    cases call_does hcall with
    | create hcreating hrevoking hwrite =>
      rw [hwrite]
      exact hinv.create hi hspares hcreating hrevoking
    | revoke hcreating hrevoking hwrite =>
      rw [hwrite]
      exact hinv.revoke hi hcreating hrevoking
    | quiet hcreating hrevoking hwrite => exact hinv.quiet hi hcreating hrevoking (hwrite s)

/-! ## The law -/

theorem signIn_strict (deps : Deps) (ports : Ports) (user : LoadedUser) :
    (signIn deps ports user).Strict :=
  .bind (.require _ _) fun _ => .bind (.request _ _) fun _ => .bind (.request _ _) fun _ =>
    .pure _

theorem loginVerified_strict (deps : Deps) (ports : Ports) (email : UserEmail)
    (userId : UserId) : (loginVerified deps ports email userId).Strict := by
  refine .bind (.request _ _) fun found => ?_
  cases found with
  | none => exact refuse_strict email
  | some user =>
    dsimp only
    split
    · exact signIn_strict deps ports user
    · exact refuse_strict email

theorem loginFound_strict (deps : Deps) (ports : Ports) (email : UserEmail)
    (rawPassword : String) (db₀ : Db) : (loginFound deps ports email rawPassword db₀).Strict := by
  rcases loginFound_cases deps ports email rawPassword db₀ with
    ⟨_, hstrict, _⟩ | ⟨identity, hfound, _⟩
  · exact hstrict
  · rw [hfound]
    exact loginVerified_strict ..

theorem replacePassword_strict (deps : Deps) (ports : Ports) (userId : UserId)
    (rawPassword : String) (keep : Token) :
    (replacePassword deps ports userId rawPassword keep).Strict := by
  rcases replacePassword_cases deps ports userId rawPassword keep with
    ⟨e, hthrow⟩ | ⟨hash, hcalls⟩
  · rw [hthrow]
    exact .throw e
  · rw [hcalls]
    exact .bind (.execute _ _) fun _ => .bind (.execute _ _) fun _ => .request _ _

theorem checkPassword_strict (ports : Ports) (email : UserEmail) (password : String) :
    (checkPassword ports email password).Strict := by
  refine ⟨⟨_, rfl⟩, fun db => ?_⟩
  show Service.Strict (match (findIdentity db .password email).bind
      AuthenticationIdentity.credentialHash with
    | none => _
    | some hash => _ : Service Db AuthError Unit)
  split
  · exact .throw _
  · split
    · exact .throw _
    · exact .require _ _

/-- A lost call ends every operation with an error. -/
theorem passwordScript_strict (deps : Deps) (op : PasswordOp) : (op.script deps).Strict := by
  cases op with
  | login ports ip rawEmail rawPassword =>
    rcases login_script deps ports ip rawEmail rawPassword with
      ⟨e, hthrow⟩ | ⟨email, _, hscript⟩
    · rw [hthrow]
      exact .throw e
    · rw [hscript]
      exact ⟨⟨_, rfl⟩, fun db => .bind (loginFound_strict ..) fun _ => .pure _⟩
  | resetPassword ports rawToken rawPassword now =>
    simp only [PasswordOp.script, resetPassword]
    split
    · exact .throw _
    · refine .bind (.request _ _) fun consumed => ?_
      split
      · exact .throw _
      · exact replacePassword_strict ..
  | changePassword ports userId current new currentSession =>
    simp only [PasswordOp.script, changePassword]
    refine .bind (.request _ _) fun found => ?_
    split
    · exact .throw _
    · exact .bind (checkPassword_strict ..) fun _ => replacePassword_strict ..

/-- A session whose rows are all revoked is not accepted. -/
theorem resolve_dead {raw : Token}
    (hdead : Rows deps db raw fun r => r.revokedAt.isSome = true) (now : Instant) :
    ((resolve deps raw now).run db).1 = .ok none := by
  unfold resolve repo
  rw [Service.run_bind, Service.run_request]
  cases hrow : sessionOf deps db raw with
  | none => simp
  | some r =>
    obtain ⟨x, hx, rfl⟩ := Option.map_eq_some_iff.mp hrow
    obtain ⟨hmem, hhash⟩ := Table.mem_select.mp (List.mem_of_head? hx)
    have hrevoked := hdead x.1 x.2 hmem (by simpa using hhash)
    simp [isValid, Option.isSome_iff_ne_none.mp hrevoked]

/-- A reset or a change that has succeeded shuts out every login that had verified
the password from before, in every run in which no login creates its session
after the revocation. -/
theorem password_shuts_out {deps : Deps} {db : Db} {es : List (Event PasswordOp)}
    {p : PasswordPool}
    (hrun : Runs.Run (Runs.Guarded (fun p e => sparing deps p e = true)
      fun p e p' => p.next (PasswordOp.script deps) e = some p') (Pool.init db) es p) :
    ShutsOut deps p := by
  have hspares : Runs.Run (Runs.Guarded
      (fun p e => ∀ i, e.calls = some i → sparesRevoked deps p.history i = true)
      fun p e p' => p.next (PasswordOp.script deps) e = some p') (Pool.init db) es p := by
    refine hrun.mono fun p e p' hstep => ⟨fun i hi => ?_, hstep.2⟩
    have hsparing : sparing deps p e = true := hstep.1
    unfold sparing at hsparing
    rw [hi] at hsparing
    exact hsparing
  obtain ⟨htraced, hinv⟩ := (revoking_keeps deps).run (passwordScript_strict deps)
    (revoking_init deps db) hspares
  intro t ht hdone at' id hreplaced l hl opened hcreated hold hcaller now
  have hrevoked := revoked_of_done hreplaced (htraced.succeeded ht hdone)
  have hmade : Made deps p.history opened :=
    ⟨(l.op, l.found), List.mem_map_of_mem (f := fun t => (t.op, t.found)) hl, hcreated⟩
  have hkeep : deps.sha256Hex opened.session.bytes ≠ deps.sha256Hex t.op.keeps.bytes := by
    have hnamed := hinv.named opened hmade
    cases hop : t.op with
    | login => exact hnamed
    | resetPassword => exact hnamed
    | changePassword ports userId current new currentSession =>
      rw [hop] at hcaller
      simpa [PasswordOp.isCaller, PasswordOp.keeps] using hcaller
  refine resolve_dead (hinv.dead opened hmade at' id t.op.keeps ?_ hold hkeep) now
  exact ⟨(t.op, t.found), List.mem_map_of_mem (f := fun t => (t.op, t.found)) ht, hrevoked, rfl⟩

/-! ## Runs on fixed inputs -/

/-- Ports whose hasher tells two passwords apart. -/
def twoPasswords : Ports :=
  let hash (password : String) : String :=
    if password == "correct horse" then "$argon2id$v=19$m=19456,t=2,p=1$c2FsdA$aGFzaA"
    else "$argon2id$v=19$m=19456,t=2,p=1$c2FsdA$bmV3"
  { samplePorts oneToken with
    hasher :=
      { hash := fun password => some (hash password)
        verify := fun password stored => some (hash password == stored) } }

/-- The database after the rider has registered and asked for a reset. -/
def resetMailed : Db :=
  ((requestPasswordReset sampleDeps (samplePorts oneToken) "203.0.113.7" "rider@example.com"
    0).run ((register sampleDeps (samplePorts zeroToken) "203.0.113.7" "Rider@Example.com" none
      "correct horse" .en).run (Db.empty 0)).2).2

/-- The rider signs in with the first password. -/
def riderLogin : PasswordOp :=
  .login twoPasswords "203.0.113.7" "rider@example.com" "correct horse"

/-- The rider resets it with the mailed token. -/
def riderReset : PasswordOp :=
  .resetPassword twoPasswords (sampleDeps.base64url oneToken.bytes) "battery staple" 0

/-- The reset comes between the look-ups of the login and its session. -/
def pendingLogin : List (Event PasswordOp) :=
  [.start riderLogin, .answer 0, .answer 0, .start riderReset, .answer 1, .answer 1, .answer 1,
    .answer 1, .answer 0, .answer 0]

/-- The login has its session before the reset looks for sessions. -/
def earlyLogin : List (Event PasswordOp) :=
  [.start riderLogin, .answer 0, .answer 0, .start riderReset, .answer 1, .answer 0, .answer 1,
    .answer 1, .answer 1, .answer 0]

/-- A session of thread 0 that thread 1 should have shut out, and whether the store
accepts it at `now`. -/
def staleSession (deps : Deps) (p : PasswordPool) (now : Instant) : Option Bool := do
  let l ← p.threads[0]?
  let t ← p.threads[1]?
  let opened ← created deps l.op l.found
  let (at', id) ← replaced deps t.op t.found
  match t.rest with
  | .done (.ok ()) =>
    if opened.isOld at' id && !t.op.isCaller deps opened.session then
      match ((resolve deps opened.session now).run p.store).1 with
      | .ok none => some false
      | _ => some true
    else none
  | _ => none

theorem not_shutsOut_of_staleSession {deps : Deps} {p : PasswordPool} {now : Instant}
    (h : staleSession deps p now = some true) : ¬ ShutsOut deps p := by
  intro hshuts
  simp only [staleSession, Option.bind_eq_bind, Option.bind_eq_some_iff] at h
  obtain ⟨l, hl, t, ht, opened, hcreated, ⟨at', id⟩, hreplaced, h⟩ := h
  split at h
  · rename_i hdone
    split at h
    · rename_i hstale
      simp only [Bool.and_eq_true, Bool.not_eq_true'] at hstale
      have hnone := hshuts t (List.mem_of_getElem? ht) hdone at' id hreplaced l
        (List.mem_of_getElem? hl) opened hcreated hstale.1 hstale.2 now
      rw [hnone] at h
      cases h
    · cases h
  · cases h

/-- A session that was opened with the replaced password is accepted after the
reset. -/
theorem not_shutsOut_pendingLogin :
    ∃ p, PoolRun (PasswordOp.script sampleDeps) (Pool.init resetMailed) pendingLogin p ∧
      ¬ ShutsOut sampleDeps p := by
  have hstale : (pendingLogin.foldlM (Pool.next (PasswordOp.script sampleDeps))
      (Pool.init resetMailed)).bind (staleSession sampleDeps · 1) = some true := by
    decide +kernel
  obtain ⟨p, hp, hstale⟩ := Option.bind_eq_some_iff.mp hstale
  exact ⟨p, Runs.Run.of_foldlM hp, not_shutsOut_of_staleSession hstale⟩

/-- The reset shuts out a login that has its session by then. -/
theorem password_shuts_out_earlyLogin :
    ∃ p, Runs.Run (Runs.Guarded (fun p e => sparing sampleDeps p e = true)
        fun p e p' => p.next (PasswordOp.script sampleDeps) e = some p')
        (Pool.init resetMailed) earlyLogin p ∧
      (staleSession sampleDeps p 1).isSome = true ∧ ShutsOut sampleDeps p := by
  have hearly : (earlyLogin.foldlM (fun p e => if sparing sampleDeps p e then
      p.next (PasswordOp.script sampleDeps) e else none) (Pool.init resetMailed)).any
      (fun p => (staleSession sampleDeps p 1).isSome) = true := by decide +kernel
  obtain ⟨p, hp, hsome⟩ := (Option.any_eq_true _ _).mp hearly
  have hrun := Runs.Run.guarded_of_foldlM hp
  exact ⟨p, hrun, hsome, password_shuts_out hrun⟩

end BikesNest.Auth
