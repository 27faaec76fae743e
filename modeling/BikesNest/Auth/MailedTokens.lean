import BikesNest.Auth.Lifecycle
import BikesNest.Auth.Sessions

/-!
# Mailed tokens and a changed address

A token is mailed to the address of an account, or to the address that the
account is about to get, and stays live for a while.  A token from before a
change of address should not act on the account after it.

* `Slip` is what the two tables of tokens have in common.
* `Posted` is the invariant: a hash names one slip, and every mailed token has
  its slip.  `Posts` relates the database before and after a call that keeps it
  and revives no slip.
* `Outdated` is the condition on a change of address, and `Bound` the law.
-/

namespace BikesNest.Auth

open Domain Store Relational

variable {deps : Deps} {db db' : Db}

/-! ## Slips -/

inductive TokenKind where
  | verification | reset
deriving DecidableEq

/-- A row of one of the two tables. -/
structure Slip where
  tokenHash : String
  userId : UserId
  expiresAt : Instant
  usedAt : Option Instant

def EmailVerificationToken.slip (r : EmailVerificationToken) : Slip :=
  ⟨r.tokenHash, r.userId, r.expiresAt, r.usedAt⟩

def PasswordResetToken.slip (r : PasswordResetToken) : Slip :=
  ⟨r.tokenHash, r.userId, r.expiresAt, r.usedAt⟩

def slip (db : Db) : TokenKind → Nat → Option Slip
  | .verification, i => (db.emailVerificationTokens.row i).map EmailVerificationToken.slip
  | .reset, i => (db.passwordResetTokens.row i).map PasswordResetToken.slip

/-- A use of the token at `now` finds the slip. -/
def Slip.isLive (now : Instant) (s : Slip) : Bool := s.usedAt.isNone && now < s.expiresAt

/-- The later slip is the same token, and not unused again. -/
structure Slip.Leads (s s' : Slip) : Prop where
  tokenHash : s'.tokenHash = s.tokenHash
  userId : s'.userId = s.userId
  expiresAt : s'.expiresAt = s.expiresAt
  used : s.usedAt.isSome = true → s'.usedAt.isSome = true

theorem Slip.Leads.refl (s : Slip) : s.Leads s := ⟨rfl, rfl, rfl, id⟩

/-- A dead slip stays dead. -/
theorem Slip.Leads.dead {s s' : Slip} {now now' : Instant} (h : s.Leads s') (hnow : now ≤ now')
    (hdead : s.isLive now = false) : s'.isLive now' = false := by
  unfold Slip.isLive at hdead ⊢
  rw [Bool.and_eq_false_iff] at hdead ⊢
  rcases hdead with hused | hexpired
  · left
    have hsome := h.used (by simpa [Option.isSome_iff_ne_none] using hused)
    simpa [Option.isSome_iff_ne_none] using hsome
  · right
    simp only [decide_eq_false_iff_not, not_lt] at hexpired ⊢
    rw [h.expiresAt]
    exact hexpired.trans hnow

/-! ## What is posted -/

/-- The message carries the token. -/
def Mails (deps : Deps) (msg : EmailMessage) : TokenKind → Token → Prop
  | .verification, token =>
    msg.kind = .verifyEmail (verificationLink deps token) ∨
      msg.kind = .confirmEmailChange (verificationLink deps token)
  | .reset, token => msg.kind = .resetPassword (resetLink deps token)

/-- A hash names one slip, and a mailed token has its slip. -/
structure Posted (deps : Deps) (db : Db) : Prop where
  unique : ∀ k i j s s', slip db k i = some s → slip db k j = some s' →
    s.tokenHash = s'.tokenHash → i = j
  issued : ∀ msg ∈ db.outbox, ∀ k token, Mails deps msg k token →
    ∃ i s, slip db k i = some s ∧ s.tokenHash = deps.sha256Hex token.bytes

/-- The slips stay, none is revived, and what is mailed has its slip. -/
structure Posts (deps : Deps) (db db' : Db) : Prop where
  now : db.now ≤ db'.now
  slips : ∀ k i s, slip db k i = some s → ∃ s', slip db' k i = some s' ∧ s.Leads s'
  posted : Posted deps db → Posted deps db'

instance : IsPreorder Db (Posts deps) where
  refl _ := ⟨le_rfl, fun _ _ s hs => ⟨s, hs, .refl s⟩, id⟩
  trans _ _ _ h h' := by
    refine ⟨h.now.trans h'.now, fun k i s hs => ?_, h'.posted ∘ h.posted⟩
    obtain ⟨s', hs', hleads⟩ := h.slips k i s hs
    obtain ⟨s'', hs'', hleads'⟩ := h'.slips k i s' hs'
    exact ⟨s'', hs'', hleads'.tokenHash.trans hleads.tokenHash,
      hleads'.userId.trans hleads.userId, hleads'.expiresAt.trans hleads.expiresAt,
      fun hused => hleads'.used (hleads.used hused)⟩

/-- A call that touches neither tokens nor messages. -/
theorem Posts.of_eq (hnow : db.now ≤ db'.now)
    (hverification : db'.emailVerificationTokens = db.emailVerificationTokens)
    (hreset : db'.passwordResetTokens = db.passwordResetTokens)
    (houtbox : db'.outbox = db.outbox) : Posts deps db db' := by
  have hslip : ∀ k i, slip db' k i = slip db k i := by
    intro k i
    cases k with
    | verification => rw [slip, hverification, slip]
    | reset => rw [slip, hreset, slip]
  refine ⟨hnow, fun k i s hs => ⟨s, by rw [hslip, hs], .refl s⟩, fun h => ⟨?_, ?_⟩⟩
  · intro k i j s s' hs hs'
    rw [hslip] at hs hs'
    exact h.unique k i j s s' hs hs'
  · intro msg hmsg k token hmails
    rw [houtbox] at hmsg
    obtain ⟨i, s, hs, hhash⟩ := h.issued msg hmsg k token hmails
    exact ⟨i, s, by rw [hslip, hs], hhash⟩

theorem audit_posts {ε : Type} (internal : ε) (event : NewAuditEvent) :
    Service.Within (Posts deps) (audit internal event) :=
  audit_within (fun _ _ => .of_eq le_rfl rfl rfl rfl) internal event

theorem create_posts (new : NewAccount) :
    Service.Within (Posts deps) (repo fun db => create deps.cases db new) := by
  refine Service.Within.request fun db _ db' h => ?_
  unfold create at h
  split at h
  · cases h
  split at h
  · cases h
  cases h
  exact .of_eq le_rfl rfl rfl rfl

theorem confirmEmail_posts (id : UserId) (email : UserEmail) :
    Service.Within (Posts deps) (repo fun db => confirmEmail deps.cases db id db.now email) := by
  refine Service.Within.request fun db _ db' h => ?_
  unfold confirmEmail at h
  split at h
  · cases h
  split at h
  · cases h
  cases h
  exact .of_eq le_rfl rfl rfl rfl

theorem checkPassword_posts (ports : Ports) (email : UserEmail) (password : String) :
    Service.Within (Posts deps) (checkPassword ports email password) := by
  refine .bind (.query _ _) fun identity => ?_
  split
  · exact .throw _
  split
  · exact .throw _
  · exact .require _ _

theorem revokeAllForUserExcept_posts {ε : Type} (unreachable : ε) (id : UserId) (keep : Token) :
    Service.Within (Posts deps)
      (Service.execute unreachable fun db => revokeAllForUserExcept deps db id keep) :=
  fun _ => .of_eq le_rfl rfl rfl rfl

theorem setPassword_posts {ε : Type} (unreachable : ε) (id : UserId) (hash : String) :
    Service.Within (Posts deps)
      (Service.execute unreachable fun db => setPassword db id hash) :=
  fun _ => .of_eq le_rfl rfl rfl rfl

/-! ## Issuing and using a token -/

/-- A slip under each key after an update that changes no token. -/
theorem Posts.of_update {db' : Db} (hnow : db'.now = db.now) (houtbox : db'.outbox = db.outbox)
    (h : ∀ k i, (slip db k i = none ∧ slip db' k i = none) ∨
      ∃ s s', slip db k i = some s ∧ slip db' k i = some s' ∧ s.Leads s') : Posts deps db db' := by
  refine ⟨hnow.ge, fun k i s hs => ?_, fun hposted => ⟨?_, ?_⟩⟩
  · rcases h k i with ⟨hnone, _⟩ | ⟨t, t', ht, ht', hleads⟩
    · rw [hs] at hnone
      cases hnone
    · rw [hs] at ht
      cases ht
      exact ⟨t', ht', hleads⟩
  · intro k i j s s' hs hs' hhash
    rcases h k i with ⟨_, hnone⟩ | ⟨t, t', ht, ht', hleads⟩
    · rw [hs] at hnone
      cases hnone
    · rcases h k j with ⟨_, hnone⟩ | ⟨u, u', hu, hu', hleads'⟩
      · rw [hs'] at hnone
        cases hnone
      · rw [ht'] at hs
        rw [hu'] at hs'
        cases hs
        cases hs'
        rw [hleads.tokenHash, hleads'.tokenHash] at hhash
        exact hposted.unique k i j t u ht hu hhash
  · intro msg hmsg k token hmails
    rw [houtbox] at hmsg
    obtain ⟨i, s, hs, hhash⟩ := hposted.issued msg hmsg k token hmails
    rcases h k i with ⟨hnone, _⟩ | ⟨t, t', ht, ht', hleads⟩
    · rw [hs] at hnone
      cases hnone
    · rw [hs] at ht
      cases ht
      exact ⟨i, t', ht', hleads.tokenHash.trans hhash⟩

theorem consumeVerification_posts (deps : Deps) (db : Db) (token : Token) :
    Posts deps db (consumeVerification deps db token).2 := by
  refine .of_update rfl rfl fun k i => ?_
  cases k with
  | reset =>
    cases hslip : slip db .reset i with
    | none => exact Or.inl ⟨rfl, hslip⟩
    | some s => exact Or.inr ⟨s, s, rfl, hslip, .refl s⟩
  | verification =>
    simp only [slip, consumeVerification, Table.row_update]
    cases hrow : db.emailVerificationTokens.row i with
    | none => exact Or.inl ⟨rfl, rfl⟩
    | some r =>
      refine Or.inr ⟨_, _, rfl, rfl, ?_⟩
      dsimp only
      split
      · exact ⟨rfl, rfl, rfl, fun _ => rfl⟩
      · exact .refl _

theorem consumeReset_posts (deps : Deps) (db : Db) (token : Token) (now : Instant) :
    Posts deps db (consumeReset deps db token now).2 := by
  refine .of_update rfl rfl fun k i => ?_
  cases k with
  | verification =>
    cases hslip : slip db .verification i with
    | none => exact Or.inl ⟨rfl, hslip⟩
    | some s => exact Or.inr ⟨s, s, rfl, hslip, .refl s⟩
  | reset =>
    simp only [slip, consumeReset, Table.row_update]
    cases hrow : db.passwordResetTokens.row i with
    | none => exact Or.inl ⟨rfl, rfl⟩
    | some r =>
      refine Or.inr ⟨_, _, rfl, rfl, ?_⟩
      dsimp only
      split
      · exact ⟨rfl, rfl, rfl, fun _ => rfl⟩
      · exact .refl _

/-- A new slip with a hash of its own. -/
theorem Posts.of_issue {k₀ : TokenKind} {n : Nat} {s₀ : Slip} (hnow : db'.now = db.now)
    (houtbox : db'.outbox = db.outbox) (hnone : slip db k₀ n = none)
    (hnew : slip db' k₀ n = some s₀)
    (hother : ∀ k i, (k, i) ≠ (k₀, n) → slip db' k i = slip db k i)
    (hfresh : ∀ i s, slip db k₀ i = some s → s.tokenHash ≠ s₀.tokenHash) : Posts deps db db' := by
  have hkeep : ∀ k i s, slip db k i = some s → slip db' k i = some s := by
    intro k i s hs
    rw [hother k i fun heq => ?_]
    · exact hs
    · cases heq
      rw [hs] at hnone
      cases hnone
  have hcases : ∀ k i s, slip db' k i = some s → slip db k i = some s ∨ (k, i) = (k₀, n) ∧ s = s₀ := by
    intro k i s hs
    by_cases heq : (k, i) = (k₀, n)
    · refine Or.inr ⟨heq, ?_⟩
      cases heq
      rw [hnew] at hs
      exact (Option.some.inj hs).symm
    · rw [hother k i heq] at hs
      exact Or.inl hs
  refine ⟨hnow.ge, fun k i s hs => ⟨s, hkeep k i s hs, .refl s⟩, fun hposted => ⟨?_, ?_⟩⟩
  · intro k i j s s' hs hs' hhash
    rcases hcases k i s hs with hs | ⟨heq, rfl⟩
    · rcases hcases k j s' hs' with hs' | ⟨heq', rfl⟩
      · exact hposted.unique k i j s s' hs hs' hhash
      · cases heq'
        exact absurd hhash (hfresh i s hs)
    · cases heq
      rcases hcases k₀ j s' hs' with hs' | ⟨heq', _⟩
      · exact absurd hhash.symm (hfresh j s' hs')
      · cases heq'
        rfl
  · intro msg hmsg k token hmails
    rw [houtbox] at hmsg
    obtain ⟨i, s, hs, hhash⟩ := hposted.issued msg hmsg k token hmails
    exact ⟨i, s, hkeep k i s hs, hhash⟩

/-- A message about tokens that have their slips. -/
theorem Posts.enqueued {msg : EmailMessage} (h : Posts deps db db')
    (hissued : ∀ k token, Mails deps msg k token →
      ∃ i s, slip db' k i = some s ∧ s.tokenHash = deps.sha256Hex token.bytes) :
    Posts deps db (enqueued deps msg db') := by
  refine ⟨h.now, h.slips, fun hposted => ⟨(h.posted hposted).unique, ?_⟩⟩
  intro msg' hmsg k token hmails
  rcases List.mem_append.mp hmsg with hold | hnew
  · exact (h.posted hposted).issued msg' hold k token hmails
  · cases List.mem_singleton.mp hnew
    exact hissued k token hmails

/-- URL-safe base64 tells two tokens apart. -/
def Legible (deps : Deps) : Prop :=
  Function.Injective fun token : Token => deps.base64url token.bytes

theorem verificationLink_injective (hlegible : Legible deps) {token token' : Token}
    (h : verificationLink deps token = verificationLink deps token') : token = token' := by
  unfold verificationLink at h
  exact hlegible (String.append_right_inj _ |>.mp h)

theorem resetLink_injective (hlegible : Legible deps) {token token' : Token}
    (h : resetLink deps token = resetLink deps token') : token = token' := by
  unfold resetLink at h
  exact hlegible (String.append_right_inj _ |>.mp h)

/-- A token is issued as a slip with a hash of its own. -/
theorem issueVerification_slip {id : UserId} {email : String} {token : Token} {u : Unit}
    (h : issueVerification deps db id email token = .ok (u, db')) :
    Posts deps db db' ∧ ∃ i s, slip db' .verification i = some s ∧
      s.tokenHash = deps.sha256Hex token.bytes := by
  dsimp only [issueVerification] at h
  split at h
  · cases h
  · rename_i hused
    split at h
    · cases h
    · have hnew : slip db' .verification db.emailVerificationTokens.next =
          some ⟨deps.sha256Hex token.bytes, id, db.now + verificationTtl, none⟩ := by
        cases h
        simp [slip, EmailVerificationToken.slip]
      cases h
      refine ⟨.of_issue rfl rfl ?_ hnew (fun k i hne => ?_) fun i s hs => ?_, _, _, hnew, rfl⟩
      · simp [slip, Table.fresh]
      · cases k with
        | reset => rfl
        | verification =>
          have hi : i ≠ db.emailVerificationTokens.next := fun heq => hne (by rw [heq])
          simp [slip, Table.row_insert, hi]
      · obtain ⟨r, hr, rfl⟩ := Option.map_eq_some_iff.mp hs
        have hunused := Table.any_eq_false_iff.mp (Bool.eq_false_of_not_eq_true hused) i r hr
        simpa [EmailVerificationToken.slip] using hunused

theorem issueReset_slip {id : UserId} {token : Token} {now : Instant} {u : Unit}
    (h : issueReset deps db id token now = .ok (u, db')) :
    Posts deps db db' ∧ ∃ i s, slip db' .reset i = some s ∧
      s.tokenHash = deps.sha256Hex token.bytes := by
  dsimp only [issueReset] at h
  split at h
  · cases h
  · rename_i hused
    split at h
    · cases h
    · have hnew : slip db' .reset db.passwordResetTokens.next =
          some ⟨deps.sha256Hex token.bytes, id, now + resetTtl, none⟩ := by
        cases h
        simp [slip, PasswordResetToken.slip]
      cases h
      refine ⟨.of_issue rfl rfl ?_ hnew (fun k i hne => ?_) fun i s hs => ?_, _, _, hnew, rfl⟩
      · simp [slip, Table.fresh]
      · cases k with
        | verification => rfl
        | reset =>
          have hi : i ≠ db.passwordResetTokens.next := fun heq => hne (by rw [heq])
          simp [slip, Table.row_insert, hi]
      · obtain ⟨r, hr, rfl⟩ := Option.map_eq_some_iff.mp hs
        have hunused := Table.any_eq_false_iff.mp (Bool.eq_false_of_not_eq_true hused) i r hr
        simpa [PasswordResetToken.slip] using hunused

/-- A token that is issued and then mailed. -/
theorem issue_posts {issue : Db → Except AuthError (Unit × Db)} {token : Token}
    {kind : TokenKind} {msg : EmailMessage}
    (hissue : ∀ db u db', issue db = .ok (u, db') → Posts deps db db' ∧
      ∃ i s, slip db' kind i = some s ∧ s.tokenHash = deps.sha256Hex token.bytes)
    (hmsg : ∀ k token', Mails deps msg k token' → k = kind ∧ token' = token) :
    Service.Within (Posts deps) (do
      repo issue
      enqueue deps msg) := by
  intro db
  rw [Service.run_bind, repo, Service.run_request]
  cases hissued : issue db with
  | error e => exact refl_of (Posts deps) db
  | ok result =>
    obtain ⟨hposts, hslip⟩ := hissue db result.1 result.2 hissued
    refine hposts.enqueued fun k token' hmails => ?_
    obtain ⟨rfl, rfl⟩ := hmsg k token' hmails
    exact hslip

/-- The same with more to do. -/
theorem issue_posts_then {α : Type} {issue : Db → Except AuthError (Unit × Db)} {token : Token}
    {kind : TokenKind} {msg : EmailMessage} {m : Service Db AuthError α}
    (hissue : ∀ db u db', issue db = .ok (u, db') → Posts deps db db' ∧
      ∃ i s, slip db' kind i = some s ∧ s.tokenHash = deps.sha256Hex token.bytes)
    (hmsg : ∀ k token', Mails deps msg k token' → k = kind ∧ token' = token)
    (hm : Service.Within (Posts deps) m) :
    Service.Within (Posts deps) (do
      repo issue
      enqueue deps msg
      m) := by
  rw [← Service.bind_assoc]
  exact .bind (issue_posts hissue hmsg) fun _ => hm

/-- A message with a verification link carries that token only. -/
theorem mails_verification (hlegible : Legible deps) {msg : EmailMessage} {token token' : Token}
    {k : TokenKind} (hmsg : Mails deps msg .verification token) (h : Mails deps msg k token') :
    k = .verification ∧ token' = token := by
  cases k with
  | verification =>
    refine ⟨rfl, verificationLink_injective hlegible ?_⟩
    rcases hmsg with hkind | hkind
    · rcases h with hkind' | hkind'
      · exact (EmailKind.verifyEmail.inj (hkind.symm.trans hkind')).symm
      · cases hkind.symm.trans hkind'
    · rcases h with hkind' | hkind'
      · cases hkind.symm.trans hkind'
      · exact (EmailKind.confirmEmailChange.inj (hkind.symm.trans hkind')).symm
  | reset =>
    rcases hmsg with hkind | hkind
    · rw [Mails, hkind] at h
      cases h
    · rw [Mails, hkind] at h
      cases h

theorem mails_reset (hlegible : Legible deps) {msg : EmailMessage} {token token' : Token}
    {k : TokenKind} (hmsg : Mails deps msg .reset token) (h : Mails deps msg k token') :
    k = .reset ∧ token' = token := by
  have hkind : msg.kind = .resetPassword (resetLink deps token) := hmsg
  cases k with
  | verification =>
    rcases h with hkind' | hkind'
    · rw [hkind] at hkind'
      cases hkind'
    · rw [hkind] at hkind'
      cases hkind'
  | reset =>
    refine ⟨rfl, resetLink_injective hlegible ?_⟩
    have hkind' : msg.kind = .resetPassword (resetLink deps token') := h
    rw [hkind] at hkind'
    exact (EmailKind.resetPassword.inj hkind').symm

/-! ## The operations -/

section Operations

variable (hlegible : Legible deps)

include hlegible

theorem register_posts (ports : Ports) (ip rawEmail : String) (displayName : Option String)
    (rawPassword : String) (locale : LocaleCode) :
    Service.Within (Posts deps)
      (register deps ports ip rawEmail displayName rawPassword locale) := by
  refine .bind (.require _ _) fun _ => ?_
  split
  · exact .throw _
  refine .bind (.require _ _) fun _ => .bind (read_within _) fun taken => ?_
  split
  · exact .require _ _
  split
  · exact .throw _
  refine .bind (create_posts _) fun userId => ?_
  exact issue_posts_then (fun db u db' h => issueVerification_slip h)
    (fun k token' h => mails_verification hlegible (Or.inl rfl) h) (audit_posts _ _)

theorem resendVerification_posts (ports : Ports) (ip : String) (email : UserEmail) :
    Service.Within (Posts deps) (resendVerification deps ports ip email) := by
  refine .bind (read_within _) fun found => ?_
  split
  · exact .pure _
  refine .bind (.require _ _) fun _ => .bind (.require _ _) fun _ => ?_
  exact issue_posts_then (fun db u db' h => issueVerification_slip h)
    (fun k token' h => mails_verification hlegible (Or.inl rfl) h) (.pure _)

theorem requestPasswordReset_posts (ports : Ports) (ip : String) (email : UserEmail)
    (now : Instant) :
    Service.Within (Posts deps) (requestPasswordReset deps ports ip email now) := by
  refine .bind (.require _ _) fun _ => .bind (.require _ _) fun _ =>
    .bind (read_within _) fun found => ?_
  split
  · exact .pure _
  · refine issue_posts (fun db u db' h => issueReset_slip h) fun k token' h =>
      mails_reset hlegible ?_ h
    exact rfl

theorem changeEmail_posts (ports : Ports) (userId : UserId) (currentPassword : String)
    (newEmail : UserEmail) :
    Service.Within (Posts deps) (changeEmail deps ports userId currentPassword newEmail) := by
  refine .bind (read_within _) fun found => ?_
  split
  · exact .throw _
  refine .bind (checkPassword_posts _ _ _) fun _ => .bind (read_within _) fun taken =>
    .bind (.require _ _) fun _ => ?_
  exact issue_posts_then (fun db u db' h => issueVerification_slip h)
    (fun k token' h => mails_verification hlegible (Or.inr rfl) h) (audit_posts _ _)

end Operations

theorem verifyEmail_posts (rawToken : String) :
    Service.Within (Posts deps) (verifyEmail deps rawToken) := by
  unfold verifyEmail
  split
  · exact .throw _
  rename_i token htoken
  refine .bind (fun db => consumeVerification_posts deps db token) fun consumed => ?_
  split
  · exact .throw _
  refine .bind (read_within _) fun found => ?_
  split
  · exact .throw _
  split
  · exact .throw _
  refine .bind (.mapErr (confirmEmail_posts _ _)) fun _ => ?_
  unfold finishVerification
  dsimp only
  split
  · exact .bind (revokeAllForUserExcept_posts _ _ _) fun _ => audit_posts _ _
  · exact audit_posts _ _

theorem replacePassword_posts (ports : Ports) (userId : UserId) (rawPassword : String)
    (keep : Token) :
    Service.Within (Posts deps) (replacePassword deps ports userId rawPassword keep) := by
  refine .bind (.require _ _) fun _ => ?_
  split
  · exact .throw _
  · exact .bind (setPassword_posts _ _ _) fun _ =>
      .bind (revokeAllForUserExcept_posts _ _ _) fun _ => audit_posts _ _

theorem resetPassword_posts (ports : Ports) (rawToken rawPassword : String) (now : Instant) :
    Service.Within (Posts deps) (resetPassword deps ports rawToken rawPassword now) := by
  unfold resetPassword
  split
  · exact .throw _
  rename_i token htoken
  refine .bind (fun db => consumeReset_posts deps db token now) fun consumed => ?_
  split
  · exact .throw _
  · exact replacePassword_posts _ _ _ _

/-! ## Runs with the changes of address -/

/-- The operations that issue or use tokens, and time. -/
inductive MailOp where
  | wait (d : Nat)
  | register (ports : Ports) (ip rawEmail : String) (displayName : Option String)
      (rawPassword : String) (locale : LocaleCode)
  | verifyEmail (rawToken : String)
  | resendVerification (ports : Ports) (ip rawEmail : String)
  | requestPasswordReset (ports : Ports) (ip rawEmail : String)
  | resetPassword (ports : Ports) (rawToken rawPassword : String)
  | changeEmail (ports : Ports) (userId : UserId) (currentPassword rawEmail : String)

/-- The database after an operation. -/
def MailOp.exec (deps : Deps) (db : Db) : MailOp → Db
  | .wait d => { db with now := db.now + d }
  | .register ports ip rawEmail displayName rawPassword locale =>
    ((Auth.register deps ports ip rawEmail displayName rawPassword locale).run db).2
  | .verifyEmail rawToken => ((Auth.verifyEmail deps rawToken).run db).2
  | .resendVerification ports ip rawEmail =>
    match UserEmail.parse deps.cases rawEmail with
    | .error _ => db
    | .ok email => ((Auth.resendVerification deps ports ip email).run db).2
  | .requestPasswordReset ports ip rawEmail =>
    match UserEmail.parse deps.cases rawEmail with
    | .error _ => db
    | .ok email => ((Auth.requestPasswordReset deps ports ip email db.now).run db).2
  | .resetPassword ports rawToken rawPassword =>
    ((Auth.resetPassword deps ports rawToken rawPassword db.now).run db).2
  | .changeEmail ports userId currentPassword rawEmail =>
    match UserEmail.parse deps.cases rawEmail with
    | .error _ => db
    | .ok email => ((Auth.changeEmail deps ports userId currentPassword email).run db).2

/-- An account that got another address. -/
structure AddressChange where
  userId : UserId
  address : String
  /-- What had been mailed by then. -/
  outbox : List EmailMessage
deriving DecidableEq

/-- The accounts whose address is another one in `db'`. -/
def changes (db db' : Db) : List AddressChange :=
  db.users.rows.filterMap fun x =>
    match db'.users.row x.1 with
    | some r' => if r'.email = x.2.email then none else some ⟨x.1, r'.email, db.outbox⟩
    | none => none

/-- An operation, and the changes of address so far. -/
def MailOp.step (deps : Deps) (x : Db × List AddressChange) (op : MailOp) :
    Db × List AddressChange :=
  (op.exec deps x.1, x.2 ++ changes x.1 (op.exec deps x.1))

/-- The operation uses the token that the message carries. -/
def MailOp.Uses (deps : Deps) (msg : EmailMessage) : MailOp → Prop
  | .verifyEmail rawToken =>
    ∃ token, decodeToken deps rawToken = some token ∧ Mails deps msg .verification token
  | .resetPassword _ rawToken _ =>
    ∃ token, decodeToken deps rawToken = some token ∧ Mails deps msg .reset token
  | _ => False

/-- What a token can change about an account: the address, the verified status and
the password. -/
def credentials (id : UserId) (db : Db) :
    Option (String × Option Instant × AccountState) × List AuthenticationIdentity :=
  ((db.users.row id).map fun r => (r.email, r.emailVerifiedAt, r.accountState),
    (db.authenticationIdentities.select fun _ r => isPasswordOf id r).map Prod.snd)

/-- A token that was mailed to another address, before the account got its address,
changes nothing about the account. -/
def Bound (deps : Deps) (x : Db × List AddressChange) : Prop :=
  ∀ c ∈ x.2, ∀ msg ∈ c.outbox, msg.recipient ≠ c.address → ∀ op : MailOp, op.Uses deps msg →
    credentials c.userId (op.exec deps x.1) = credentials c.userId x.1

/-- A live token of the account was mailed to another address. -/
def Outdated (deps : Deps) (db : Db) (id : UserId) (address : String) : Prop :=
  ∃ k i s, slip db k i = some s ∧ s.userId = id ∧ s.isLive db.now = true ∧
    ∃ msg ∈ db.outbox, msg.recipient ≠ address ∧
      ∃ token, Mails deps msg k token ∧ deps.sha256Hex token.bytes = s.tokenHash

/-- The condition on a step: an account gets another address only when none of its
live tokens was mailed elsewhere. -/
def Timely (deps : Deps) (db : Db) : MailOp → Prop
  | .verifyEmail rawToken => ∀ id address, confirmed deps db rawToken = some (id, address) →
    (db.users.row id).map User.email ≠ some address → ¬ Outdated deps db id address
  | _ => True

/-! ## What an operation keeps -/

theorem MailOp.exec_posts (hlegible : Legible deps) (db : Db) (op : MailOp) :
    Posts deps db (op.exec deps db) := by
  cases op with
  | wait d =>
    exact .of_eq (Int.le_add_of_nonneg_right (Int.natCast_nonneg d)) rfl rfl rfl
  | register => exact register_posts hlegible _ _ _ _ _ _ db
  | verifyEmail => exact verifyEmail_posts _ db
  | resendVerification =>
    simp only [MailOp.exec]
    split
    · exact refl_of (Posts deps) db
    · exact resendVerification_posts hlegible _ _ _ db
  | requestPasswordReset =>
    simp only [MailOp.exec]
    split
    · exact refl_of (Posts deps) db
    · exact requestPasswordReset_posts hlegible _ _ _ _ db
  | resetPassword => exact resetPassword_posts _ _ _ _ db
  | changeEmail =>
    simp only [MailOp.exec]
    split
    · exact refl_of (Posts deps) db
    · exact changeEmail_posts hlegible _ _ _ _ db

/-- A reset that is requested changes no account. -/
theorem requestPasswordReset_calm (ports : Ports) (ip : String) (email : UserEmail)
    (now : Instant) :
    Service.Within (Calm deps) (requestPasswordReset deps ports ip email now) := by
  refine .bind (.require _ _) fun _ => .bind (.require _ _) fun _ =>
    .bind (read_within _) fun found => ?_
  split
  · exact .pure _
  refine .bind (.request fun db _ db' h => ?_) fun _ db => ?_
  · dsimp only [issueReset] at h
    split at h
    · cases h
    split at h
    · cases h
    cases h
    exact .of_eq rfl rfl rfl
  · exact ⟨fun i r hr => ⟨r, hr, rfl, rfl⟩, fun h => h.mono fun t ht => ⟨ht.1, ht.2.append⟩⟩

theorem resetPassword_calm (ports : Ports) (rawToken rawPassword : String) (now : Instant) :
    Service.Within (Calm deps) (resetPassword deps ports rawToken rawPassword now) := by
  unfold resetPassword
  split
  · exact .throw _
  refine .bind (.request fun db _ db' h => ?_) fun consumed => ?_
  · cases h
    exact .of_eq rfl rfl rfl
  split
  · exact .throw _
  refine .bind (.require _ _) fun _ => ?_
  split
  · exact .throw _
  · exact .bind (fun db => .of_eq rfl rfl rfl) fun _ =>
      .bind (revokeAllForUserExcept_calm _ _ _) fun _ => audit_calm _ _

/-- Only `verify_email` changes an address, to the one of the token. -/
theorem confirmed_of_changes {op : MailOp} {c : AddressChange}
    (h : c ∈ changes db (op.exec deps db)) :
    c.outbox = db.outbox ∧ (db.users.row c.userId).map User.email ≠ some c.address ∧
      ∃ rawToken, op = .verifyEmail rawToken ∧
        confirmed deps db rawToken = some (c.userId, c.address) := by
  obtain ⟨⟨i, r⟩, hmem, hc⟩ := List.mem_filterMap.mp h
  rw [Table.mem_rows] at hmem
  split at hc
  · rename_i r' hr'
    split at hc
    · cases hc
    · rename_i hne
      cases hc
      refine ⟨rfl, fun heq => hne ?_, ?_⟩
      · rw [hmem] at heq
        exact (Option.some.inj heq).symm
      -- an operation that leaves the addresses alone is not the one
      have hcalm : ¬ Calm deps db (op.exec deps db) := by
        intro hcalm
        obtain ⟨r'', hr'', _, hemail⟩ := hcalm.accounts i r hmem
        rw [hr'] at hr''
        cases hr''
        exact hne hemail
      cases op with
      | verifyEmail rawToken =>
        refine ⟨rawToken, rfl, ?_⟩
        have hrun := verifyEmail_run deps db rawToken
        cases hconfirmed : confirmed deps db rawToken with
        | none =>
          rw [hconfirmed] at hrun
          exact absurd hrun hcalm
        | some x =>
          obtain ⟨id, newEmail⟩ := x
          rw [hconfirmed] at hrun
          obtain ⟨mid, husers, _, hrest⟩ := hrun
          have hmid : (emailConfirmed mid id mid.now newEmail).users.row i =
              some (if i == id then User.confirmed r mid.now mid.now newEmail else r) := by
            simp [emailConfirmed, husers, hmem]
          obtain ⟨r'', hr'', _, hemail⟩ := hrest.accounts i _ hmid
          have hsame : r'' = r' := Option.some.inj (hr''.symm.trans hr')
          by_cases hi : i = id
          · subst hi
            rw [hsame] at hemail
            simp [User.confirmed] at hemail
            rw [hemail]
          · rw [hsame] at hemail
            simp [hi] at hemail
            exact absurd hemail hne
      | wait =>
        refine absurd ?_ hcalm
        exact .of_eq rfl rfl rfl
      | register => exact absurd (register_calm _ _ _ _ _ _ db) hcalm
      | resendVerification ports ip rawEmail =>
        refine absurd ?_ hcalm
        simp only [MailOp.exec]
        split
        · exact refl_of (Calm deps) db
        · rename_i hparse
          exact resendVerification_calm _ _ (UserEmail.parse_parse hparse) db
      | changeEmail ports userId currentPassword rawEmail =>
        refine absurd ?_ hcalm
        simp only [MailOp.exec]
        split
        · exact refl_of (Calm deps) db
        · rename_i hparse
          exact changeEmail_calm _ _ _ (UserEmail.parse_parse hparse) db
      | requestPasswordReset ports ip rawEmail =>
        refine absurd ?_ hcalm
        simp only [MailOp.exec]
        split
        · exact refl_of (Calm deps) db
        · exact requestPasswordReset_calm _ _ _ _ db
      | resetPassword ports rawToken rawPassword =>
        exact absurd (resetPassword_calm _ _ _ _ db) hcalm
  · cases hc

/-! ## The invariant -/

/-- The tokens that had been mailed elsewhere before a change of address are dead
for the account. -/
structure Voided (deps : Deps) (x : Db × List AddressChange) : Prop where
  posted : Posted deps x.1
  dead : ∀ c ∈ x.2, ∀ msg ∈ c.outbox, msg.recipient ≠ c.address → ∀ k token,
    Mails deps msg k token → ∃ i s, slip x.1 k i = some s ∧
      s.tokenHash = deps.sha256Hex token.bytes ∧
      (s.userId = c.userId → s.isLive x.1.now = false)

/-- What a slip was before an operation, it is afterwards. -/
theorem Posts.void {id : UserId} {k : TokenKind} {token : Token} (h : Posts deps db db')
    (hdead : ∃ i s, slip db k i = some s ∧ s.tokenHash = deps.sha256Hex token.bytes ∧
      (s.userId = id → s.isLive db.now = false)) :
    ∃ i s, slip db' k i = some s ∧ s.tokenHash = deps.sha256Hex token.bytes ∧
      (s.userId = id → s.isLive db'.now = false) := by
  obtain ⟨i, s, hs, hhash, hdead⟩ := hdead
  obtain ⟨s', hs', hleads⟩ := h.slips k i s hs
  refine ⟨i, s', hs', hleads.tokenHash.trans hhash, fun huser => ?_⟩
  exact hleads.dead h.now (hdead (hleads.userId ▸ huser))

/-- One timely operation keeps the invariant. -/
theorem voided_step {x : Db × List AddressChange} {op : MailOp} (hlegible : Legible deps)
    (hx : Voided deps x) (htimely : Timely deps x.1 op) : Voided deps (op.step deps x) := by
  have hposts := op.exec_posts hlegible x.1
  refine ⟨hposts.posted hx.posted, fun c hc msg hmsg hrecipient k token hmails => ?_⟩
  refine hposts.void ?_
  rcases List.mem_append.mp hc with hold | hnew
  · exact hx.dead c hold msg hmsg hrecipient k token hmails
  · obtain ⟨houtbox, hmoved, rawToken, rfl, hconfirmed⟩ := confirmed_of_changes hnew
    rw [houtbox] at hmsg
    obtain ⟨i, s, hs, hhash⟩ := hx.posted.issued msg hmsg k token hmails
    refine ⟨i, s, hs, hhash, fun huser => ?_⟩
    by_contra hlive
    refine htimely c.userId c.address hconfirmed hmoved ?_
    exact ⟨k, i, s, hs, huser, by simpa using hlive, msg, hmsg, hrecipient, token,
      hmails, hhash.symm⟩

/-! ## What a token of another account leaves alone -/

/-- The credentials of `id`, as a frame. -/
abbrev Untouched (id : UserId) : Db → Db → Prop := Service.Frame (credentials id)

/-- A call that sees neither accounts nor identities. -/
theorem Untouched.of_eq {id : UserId} (husers : db'.users = db.users)
    (hidentities : db'.authenticationIdentities = db.authenticationIdentities) :
    Untouched id db db' := by
  rw [Untouched, Service.Frame, credentials, husers, hidentities]
  rfl

/-- An update of the password identities of another account. -/
theorem select_identities {id other : UserId} (hne : other ≠ id)
    (t : Table AuthenticationIdentity) {f : AuthenticationIdentity → AuthenticationIdentity}
    (hf : ∀ r, (f r).userId = r.userId) :
    ((t.update (fun _ r => isPasswordOf other r) f).select fun _ r => isPasswordOf id r) =
      t.select fun _ r => isPasswordOf id r := by
  refine Table.select_update_of_skipped fun i r hp => ?_
  simp only [isPasswordOf, Bool.and_eq_true, beq_iff_eq] at hp
  have hr : (r.userId == id) = false := by
    rw [hp.1]
    simpa using hne
  constructor
  · rw [isPasswordOf, hr, Bool.false_and]
  · rw [isPasswordOf, hf, hr, Bool.false_and]

theorem emailConfirmed_untouched {id other : UserId} (hne : other ≠ id) (db : Db)
    (at' : Instant) (email : UserEmail) :
    Untouched id db (emailConfirmed db other at' email) := by
  have hid : (id == other) = false := by simpa using hne.symm
  have hselect : (emailConfirmed db other at' email).authenticationIdentities.select
      (fun _ r => isPasswordOf id r) =
        db.authenticationIdentities.select fun _ r => isPasswordOf id r :=
    select_identities hne _ fun _ => rfl
  unfold Untouched Service.Frame credentials
  rw [hselect]
  congr 1
  simp only [emailConfirmed, Table.row_update, hid]
  cases db.users.row id <;> rfl

theorem setPassword_untouched {id other : UserId} (hne : other ≠ id) (db : Db)
    (hash : String) : Untouched id db (setPassword db other hash) := by
  have hselect : (setPassword db other hash).authenticationIdentities.select
      (fun _ r => isPasswordOf id r) =
        db.authenticationIdentities.select fun _ r => isPasswordOf id r :=
    select_identities hne _ fun _ => rfl
  unfold Untouched Service.Frame credentials
  rw [hselect]
  rfl

theorem audit_untouched {ε : Type} (id : UserId) (internal : ε) (event : NewAuditEvent) :
    Service.Within (Untouched id) (audit internal event) :=
  audit_within (fun _ _ => .of_eq rfl rfl) internal event

theorem revokeAllForUserExcept_untouched {ε : Type} (id other : UserId) (unreachable : ε)
    (keep : Token) :
    Service.Within (Untouched id)
      (Service.execute unreachable fun db => revokeAllForUserExcept deps db other keep) :=
  fun _ => .of_eq rfl rfl

theorem verifyConsumed_untouched {id other : UserId} (hne : other ≠ id) (email : String) :
    Service.Within (Untouched id) (verifyConsumed deps other email) := by
  refine .bind (read_within _) fun found => ?_
  split
  · exact .throw _
  split
  · exact .throw _
  refine .bind (.mapErr (.request fun db _ db' h => ?_)) fun _ => ?_
  · unfold confirmEmail at h
    split at h
    · cases h
    split at h
    · cases h
    cases h
    exact emailConfirmed_untouched hne db db.now _
  unfold finishVerification
  dsimp only
  split
  · exact .bind (revokeAllForUserExcept_untouched _ _ _ _) fun _ => audit_untouched _ _ _
  · exact audit_untouched _ _ _

theorem replacePassword_untouched {id other : UserId} (hne : other ≠ id) (ports : Ports)
    (rawPassword : String) (keep : Token) :
    Service.Within (Untouched id) (replacePassword deps ports other rawPassword keep) := by
  refine .bind (.require _ _) fun _ => ?_
  split
  · exact .throw _
  · exact .bind (fun db => setPassword_untouched hne db _) fun _ =>
      .bind (revokeAllForUserExcept_untouched _ _ _ _) fun _ => audit_untouched _ _ _

/-! ## The law -/

/-- A token that is dead for the account is not found for it. -/
theorem not_live_of_void {id : UserId} {k : TokenKind} {token : Token} {i : Nat} {s : Slip}
    (hposted : Posted deps db)
    (hdead : ∃ i s, slip db k i = some s ∧ s.tokenHash = deps.sha256Hex token.bytes ∧
      (s.userId = id → s.isLive db.now = false))
    (hs : slip db k i = some s) (hhash : s.tokenHash = deps.sha256Hex token.bytes)
    (hlive : s.isLive db.now = true) : s.userId ≠ id := by
  obtain ⟨j, s', hs', hhash', hdead⟩ := hdead
  obtain rfl : i = j := hposted.unique k i j s s' hs hs' (hhash.trans hhash'.symm)
  rw [hs] at hs'
  cases hs'
  intro huser
  rw [hdead huser] at hlive
  cases hlive

theorem verifyEmail_untouched {id : UserId} {rawToken : String} {token : Token}
    (htoken : decodeToken deps rawToken = some token)
    (hother : ∀ t, liveVerification deps db token = some t → t.userId ≠ id) :
    Untouched id db ((verifyEmail deps rawToken).run db).2 := by
  unfold verifyEmail
  rw [htoken]
  dsimp only
  rw [Service.run_bind, repo, Service.run_request]
  simp only [consumeVerification]
  cases hlive : liveVerification deps db token with
  | none => exact .of_eq rfl rfl
  | some t =>
    refine trans_of (Untouched id) ?_ (verifyConsumed_untouched (hother t hlive) t.email _)
    exact .of_eq rfl rfl

theorem resetPassword_untouched {id : UserId} {ports : Ports} {rawToken rawPassword : String}
    {token : Token} {now : Instant} (htoken : decodeToken deps rawToken = some token)
    (hother : ∀ t, liveReset deps db token now = some t → t.userId ≠ id) :
    Untouched id db ((resetPassword deps ports rawToken rawPassword now).run db).2 := by
  unfold resetPassword
  rw [htoken]
  dsimp only
  rw [Service.run_bind, repo, Service.run_request]
  simp only [consumeReset]
  cases hlive : liveReset deps db token now with
  | none => exact .of_eq rfl rfl
  | some t =>
    refine trans_of (Untouched id) ?_ (replacePassword_untouched (hother t hlive) ports rawPassword
      noSession _)
    exact .of_eq rfl rfl

theorem Voided.bound {x : Db × List AddressChange} (hx : Voided deps x) : Bound deps x := by
  intro c hc msg hmsg hrecipient op huses
  have hdead := hx.dead c hc msg hmsg hrecipient
  cases op with
  | verifyEmail rawToken =>
    obtain ⟨token, htoken, hmails⟩ := huses
    refine verifyEmail_untouched htoken fun t ht => ?_
    obtain ⟨⟨i, t'⟩, hhead, rfl⟩ := Option.map_eq_some_iff.mp ht
    obtain ⟨hrow, hlive⟩ := Table.mem_select.mp (List.mem_of_head? hhead)
    simp only [isLive, Bool.and_assoc, Bool.and_eq_true, beq_iff_eq] at hlive
    have hs : slip x.1 .verification i = some (EmailVerificationToken.slip t') := by
      rw [slip, hrow]
      rfl
    refine not_live_of_void hx.posted (hdead .verification token hmails) hs hlive.1 ?_
    rw [Slip.isLive, Bool.and_eq_true]
    exact hlive.2
  | resetPassword ports rawToken rawPassword =>
    obtain ⟨token, htoken, hmails⟩ := huses
    refine resetPassword_untouched htoken fun t ht => ?_
    obtain ⟨⟨i, t'⟩, hhead, rfl⟩ := Option.map_eq_some_iff.mp ht
    obtain ⟨hrow, hlive⟩ := Table.mem_select.mp (List.mem_of_head? hhead)
    simp only [isLiveReset, Bool.and_assoc, Bool.and_eq_true, beq_iff_eq] at hlive
    have hs : slip x.1 .reset i = some (PasswordResetToken.slip t') := by
      rw [slip, hrow]
      rfl
    refine not_live_of_void hx.posted (hdead .reset token hmails) hs hlive.1 ?_
    rw [Slip.isLive, Bool.and_eq_true]
    exact hlive.2
  | _ => exact huses.elim

/-- In every run in which an account gets another address only when none of its live
tokens was mailed elsewhere, the tokens from before change nothing about it. -/
theorem mailed_tokens_bound {ops : List MailOp} (hlegible : Legible deps)
    (hposted : Posted deps db)
    (htimely : Runs.Along (MailOp.step deps) (fun x op => Timely deps x.1 op) (db, []) ops) :
    Runs.Throughout (MailOp.step deps) (Bound deps) (db, []) ops :=
  Runs.Along.throughout (fun _ _ hx htimely => voided_step hlegible hx htimely)
    (fun _ hx => hx.bound) ⟨hposted, fun _ hc => by cases hc⟩ htimely

/-! ## Runs on fixed inputs -/

/-- URL-safe base64 on the two tokens, and something else on the others. -/
def legibleBase64 (bytes : List UInt8) : String :=
  match sampleBase64.find? fun x => x.1 == bytes with
  | some x => x.2
  | none => String.ofList (bytes.map fun b => Char.ofNat b.toNat)

/-- The deployment of the examples with a code that tells every two tokens apart. -/
def legibleDeps : Deps := { sampleDeps with base64url := legibleBase64 }

/-- The inverse of `legibleBase64`. -/
def readBase64 (text : String) : List UInt8 :=
  match sampleBase64.find? fun x => x.2 == text with
  | some x => x.1
  | none => text.toList.map fun c => UInt8.ofNat c.toNat

theorem readBase64_legibleBase64 (token : Token) :
    readBase64 (legibleBase64 token.bytes) = token.bytes := by
  unfold legibleBase64
  cases hfind : sampleBase64.find? fun x => x.1 == token.bytes with
  | some x =>
    have hbytes := List.find?_some hfind
    rw [beq_iff_eq] at hbytes
    rw [← hbytes]
    have hcodes : ∀ x ∈ sampleBase64, readBase64 x.2 = x.1 := by decide +kernel
    exact hcodes x (List.mem_of_find?_eq_some hfind)
  | none =>
    have hlength : ∀ x ∈ sampleBase64, x.2.toList.length = 43 := by decide +kernel
    have hother : (sampleBase64.find? fun x =>
        x.2 == String.ofList (token.bytes.map fun b => Char.ofNat b.toNat)) = none := by
      rw [List.find?_eq_none]
      intro x hx heq
      have hx43 := hlength x hx
      rw [beq_iff_eq.mp heq, String.toList_ofList, List.length_map, token.length_eq] at hx43
      cases hx43
    dsimp only
    rw [readBase64, hother]
    dsimp only
    rw [String.toList_ofList, List.map_map]
    refine (List.map_congr_left fun b _ => ?_).trans (List.map_id _)
    have hvalid : b.toNat.isValidChar := Or.inl (b.toNat_lt.trans (by decide))
    show UInt8.ofNat (Char.ofNat b.toNat).toNat = b
    rw [Text.toNat_charOfNat hvalid, UInt8.ofNat_toNat]

theorem legible_legibleDeps : Legible legibleDeps := by
  intro token token' h
  have hbytes : token.bytes = token'.bytes := by
    rw [← readBase64_legibleBase64 token, ← readBase64_legibleBase64 token']
    exact congrArg readBase64 h
  cases token
  cases token'
  cases hbytes
  rfl

/-- A rider registers. -/
def riderSignUp : MailOp :=
  .register (samplePorts zeroToken) "203.0.113.7" "a@example.com" none "correct horse" .en

/-- The rider asks for another address. -/
def riderMove : MailOp := .changeEmail (samplePorts oneToken) 1 "correct horse" "b@example.com"

/-- The rider follows the link of the registration. -/
def oldLink : MailOp := .verifyEmail (sampleDeps.base64url zeroToken.bytes)

/-- The rider follows the link of the change. -/
def newLink : MailOp := .verifyEmail (sampleDeps.base64url oneToken.bytes)

/-- The messages of the two. -/
def riderMail : List EmailMessage :=
  [verificationEmail legibleDeps "a@example.com" .en zeroToken,
    changeEmailMessage legibleDeps "b@example.com" .en oneToken]

theorem posted_empty (now : Instant) : Posted deps (Db.empty now) := by
  constructor
  · intro k i j s s' hs
    cases k <;> cases hs
  · intro msg hmsg
    cases hmsg

/-- The token of the registration, mailed to the first address, takes the account
back from the second. -/
theorem not_bound_oldLink :
    ¬ Runs.Throughout (MailOp.step legibleDeps) (Bound legibleDeps) (Db.empty 0, [])
      [riderSignUp, riderMove, newLink] := by
  intro h
  have hbound := h.2.2.2 ⟨1, "b@example.com", riderMail⟩ (by decide +kernel)
    (verificationEmail legibleDeps "a@example.com" .en zeroToken) (List.mem_cons_self ..)
    (by decide) oldLink ⟨zeroToken, by decide +kernel, Or.inl rfl⟩
  exact absurd (congrArg Prod.fst hbound) (by decide +kernel)

/-- When the rider follows the link of the change, the token of the registration has
been used. -/
theorem not_outdated_newLink :
    ¬ Outdated legibleDeps ([riderSignUp, oldLink, riderMove].foldl (MailOp.step legibleDeps)
      (Db.empty 0, [])).1 1 "b@example.com" := by
  rintro ⟨k, i, s, hs, huser, hlive, msg, hmsg, hrecipient, token, hmails, hhash⟩
  have houtbox : ([riderSignUp, oldLink, riderMove].foldl (MailOp.step legibleDeps)
      (Db.empty 0, [])).1.outbox = riderMail := by decide +kernel
  have hused : ([riderSignUp, oldLink, riderMove].foldl (MailOp.step legibleDeps)
      (Db.empty 0, [])).1.emailVerificationTokens.any (fun _ r =>
        r.tokenHash == legibleDeps.sha256Hex zeroToken.bytes && r.usedAt.isNone) = false := by
    decide +kernel
  rw [houtbox] at hmsg
  rcases List.mem_cons.mp hmsg with rfl | hmsg
  · obtain ⟨rfl, rfl⟩ := mails_verification legible_legibleDeps (Or.inl rfl) hmails
    obtain ⟨r, hr, rfl⟩ := Option.map_eq_some_iff.mp hs
    have hunused := Table.any_eq_false_iff.mp hused i r hr
    rw [Slip.isLive, Bool.and_eq_true] at hlive
    have hsame : r.tokenHash = legibleDeps.sha256Hex zeroToken.bytes := hhash.symm
    have hnone : r.usedAt.isNone = true := hlive.1
    rw [hsame, hnone, beq_self_eq_true] at hunused
    cases hunused
  · rw [List.mem_singleton.mp hmsg] at hrecipient
    exact hrecipient rfl

/-- The rider has used the token of the registration before the change, so it is
void. -/
theorem mailed_tokens_bound_moved :
    Runs.Throughout (MailOp.step legibleDeps) (Bound legibleDeps) (Db.empty 0, [])
      [riderSignUp, oldLink, riderMove, newLink, oldLink] := by
  refine mailed_tokens_bound legible_legibleDeps (posted_empty 0)
    ⟨trivial, ?_, trivial, ?_, ?_, trivial⟩
  · intro id address hconfirmed hmoved
    have hfirst : confirmed legibleDeps ([riderSignUp].foldl (MailOp.step legibleDeps)
        (Db.empty 0, [])).1 (sampleDeps.base64url zeroToken.bytes) =
          some (1, "a@example.com") := by decide +kernel
    cases hfirst.symm.trans hconfirmed
    exact absurd (by decide +kernel) hmoved
  · intro id address hconfirmed _
    have hsecond : confirmed legibleDeps ([riderSignUp, oldLink, riderMove].foldl
        (MailOp.step legibleDeps) (Db.empty 0, [])).1 (sampleDeps.base64url oneToken.bytes) =
          some (1, "b@example.com") := by decide +kernel
    cases hsecond.symm.trans hconfirmed
    exact not_outdated_newLink
  · intro id address hconfirmed
    have hused : confirmed legibleDeps ([riderSignUp, oldLink, riderMove, newLink].foldl
        (MailOp.step legibleDeps) (Db.empty 0, [])).1 (sampleDeps.base64url zeroToken.bytes) =
          none := by decide +kernel
    cases hused.symm.trans hconfirmed

end BikesNest.Auth
