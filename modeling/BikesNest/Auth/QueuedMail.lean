import BikesNest.Auth.Sessions

/-!
# The language of queued mail

Three use cases mail a link to an account that exists: a new verification, a password reset
and a change of address.  Each of them reads the account first and takes the language of the
message from its row, whichever page the request came from.

`queued_locale` says that all messages that such a request hands to the queue have the
language of the row, also when a call of it is lost.
-/

namespace BikesNest.Auth

open Domain Store Relational

/-- A request that is answered with a mail about an account. -/
inductive MailRequest where
  | resendVerification (ip : String) (email : UserEmail)
  | requestPasswordReset (ip : String) (email : UserEmail) (now : Instant)
  | changeEmail (userId : UserId) (currentPassword : String) (newEmail : UserEmail)

def MailRequest.run (deps : Deps) (ports : Ports) : MailRequest → Service Db AuthError Unit
  | .resendVerification ip email => Auth.resendVerification deps ports ip email
  | .requestPasswordReset ip email now => Auth.requestPasswordReset deps ports ip email now
  | .changeEmail userId currentPassword newEmail =>
    Auth.changeEmail deps ports userId currentPassword newEmail

/-- The account that a request is about. -/
def MailRequest.account (deps : Deps) (db : Db) : MailRequest → Option UserId
  | .resendVerification _ email | .requestPasswordReset _ email _ =>
    (db.users.select fun _ r =>
      deps.cases.lower r.email == deps.cases.toLowercase email).head?.map Prod.fst
  | .changeEmail userId _ _ => some userId

/-- The queue gets messages in a language, and nothing else. -/
def Queues (locale : LocaleCode) (db db' : Db) : Prop :=
  ∃ queued, db'.outbox = db.outbox ++ queued ∧ ∀ msg ∈ queued, msg.locale = locale

variable {deps : Deps} {ports : Ports} {locale : LocaleCode} {db db' : Db}

theorem Queues.of_eq (h : db'.outbox = db.outbox) : Queues locale db db' := by
  refine ⟨[], ?_, ?_⟩
  · rw [h, List.append_nil]
  · simp

theorem Queues.refl (db : Db) : Queues locale db db := .of_eq rfl

instance (locale : LocaleCode) : IsPreorder Db (Queues locale) where
  refl := .refl
  trans db₁ db₂ db₃ h₁ h₂ := by
    obtain ⟨first, hfirst, hlocale₁⟩ := h₁
    obtain ⟨second, hsecond, hlocale₂⟩ := h₂
    refine ⟨first ++ second, ?_, ?_⟩
    · rw [hsecond, hfirst, List.append_assoc]
    · intro msg hmsg
      rcases List.mem_append.mp hmsg with hmsg | hmsg
      · exact hlocale₁ msg hmsg
      · exact hlocale₂ msg hmsg

/-! ## Calls -/

theorem read_queues {α : Type} (f : Db → Except AuthError α) :
    (read f).Respects (Queues locale) := by
  refine .request Queues.refl fun db a db' h => ?_
  cases hf : f db with
  | error e => rw [hf] at h; cases h
  | ok x =>
    rw [hf] at h
    cases h
    exact .refl db

theorem enqueue_queues (msg : EmailMessage) :
    (enqueue deps msg).Respects (Queues msg.locale) :=
  .execute _ fun db => ⟨[msg], rfl, fun msg' h => by rw [List.mem_singleton.mp h]⟩

theorem issueVerification_queues (id : UserId) (email : String) (token : Token) :
    (repo fun db => issueVerification deps db id email token).Respects (Queues locale) := by
  refine .request Queues.refl fun db _ db' h => ?_
  unfold issueVerification at h
  dsimp only at h
  split_ifs at h
  cases h
  exact .of_eq rfl

theorem issueReset_queues (id : UserId) (token : Token) (now : Instant) :
    (repo fun db => issueReset deps db id token now).Respects (Queues locale) := by
  refine .request Queues.refl fun db _ db' h => ?_
  unfold issueReset at h
  dsimp only at h
  split_ifs at h
  cases h
  exact .of_eq rfl

theorem checkPassword_queues (email : UserEmail) (password : String) :
    (checkPassword ports email password).Respects (Queues locale) := by
  refine .bind (.query _ _ Queues.refl) fun identity => ?_
  cases identity.bind AuthenticationIdentity.credentialHash with
  | none => exact .throw _
  | some hash =>
    dsimp only
    cases ports.hasher.verify password hash with
    | none => exact .throw _
    | some verified => exact .require _ _

theorem audit_queues (event : NewAuditEvent) :
    (audit .internal event : Service Db AuthError Unit).Respects (Queues locale) := by
  refine audit_respects Queues.refl (fun db db' h => ?_) _
  obtain ⟨_, _, rfl⟩ := recordAudit_eq_some h
  exact .of_eq rfl

/-! ## The account that was read -/

theorem loadUser_locale {id : UserId} {row : User} {user : LoadedUser}
    (h : loadUser deps.cases db id row = .ok user) : user.locale = row.locale := by
  unfold loadUser at h
  split at h
  · cases h
  · cases h
    rfl

/-- The request reads the row of its account. -/
theorem findByEmail_locale {email : UserEmail} {id : UserId} {row : User} {user : LoadedUser}
    (hrow : db.users.row id = some row)
    (haccount : (db.users.select fun _ r =>
      deps.cases.lower r.email == deps.cases.toLowercase email).head?.map Prod.fst = some id)
    (h : findByEmail deps.cases db email = .ok (some user)) : user.locale = row.locale := by
  unfold findByEmail at h
  split at h
  · cases h
  · rename_i i r hhead
    have hr := (Table.mem_select.mp (List.mem_of_head? hhead)).1
    rw [hhead, Option.map_some, Option.some.injEq] at haccount
    subst haccount
    rw [hrow] at hr
    cases hr
    cases hload : loadUser deps.cases db i row with
    | error e => rw [hload] at h; cases h
    | ok loaded =>
      rw [hload] at h
      cases h
      exact loadUser_locale hload

theorem findById_locale {id : UserId} {row : User} {user : LoadedUser}
    (hrow : db.users.row id = some row) (h : findById deps.cases db id = .ok (some user)) :
    user.locale = row.locale := by
  unfold findById at h
  rw [hrow] at h
  dsimp only at h
  cases hload : loadUser deps.cases db id row with
  | error e => rw [hload] at h; cases h
  | ok loaded =>
    rw [hload] at h
    cases h
    exact loadUser_locale hload

/-! ## The requests -/

/-- A service that reads first goes on with what it has read. -/
theorem queues_of_read {α β : Type} {f : Db → Except AuthError α}
    {k : α → Service Db AuthError β} (lost : Option Nat)
    (h : ∀ a, f db = .ok a → (k a).Respects (Queues locale)) :
    Queues locale db ((read f >>= k).runLosing lost db).2 := by
  rw [read, repo, Service.runLosing_request]
  split
  · exact .refl db
  · cases hf : f db with
    | error e => exact .refl db
    | ok a => exact (h a hf).runLosing _ db

/-- The messages of a request have the language of the row of its account. -/
theorem queued_locale {request : MailRequest} {id : UserId} {row : User}
    (haccount : request.account deps db = some id) (hrow : db.users.row id = some row)
    (ports : Ports) (lost : Option Nat) :
    Queues row.locale db ((request.run deps ports).runLosing lost db).2 := by
  cases request with
  | resendVerification ip email =>
    refine queues_of_read lost fun found hfound => ?_
    cases found with
    | none => exact .pure _
    | some user =>
      rw [← findByEmail_locale hrow haccount hfound]
      refine .bind (.require _ _) fun _ => .bind (.require _ _) fun _ => ?_
      refine .bind (issueVerification_queues _ _ _) fun _ => ?_
      exact .bind (enqueue_queues (verificationEmail deps email user.locale _)) fun _ => .pure _
  | requestPasswordReset ip email now =>
    show Queues _ _ ((allowed ports _ _ >>= _).runLosing lost db).2
    rw [allowed, Service.runLosing_require]
    split
    · rw [allowed, Service.runLosing_require]
      split
      · refine queues_of_read lost fun found hfound => ?_
        cases found with
        | none => exact .pure _
        | some user =>
          rw [← findByEmail_locale hrow haccount hfound]
          refine .bind (issueReset_queues _ _ _) fun _ => ?_
          exact enqueue_queues (resetEmail deps email user.locale _)
      · exact .refl db
    · exact .refl db
  | changeEmail userId currentPassword newEmail =>
    obtain rfl : userId = id := Option.some.inj haccount
    refine queues_of_read lost fun found hfound => ?_
    cases found with
    | none => exact .throw _
    | some user =>
      rw [← findById_locale hrow hfound]
      refine .bind (checkPassword_queues _ _) fun _ => .bind (read_queues _) fun _ => ?_
      refine .bind (.require _ _) fun _ => .bind (issueVerification_queues _ _ _) fun _ => ?_
      refine .bind (enqueue_queues (changeEmailMessage deps newEmail user.locale _)) fun _ => ?_
      exact audit_queues _

end BikesNest.Auth
